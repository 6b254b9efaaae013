import Mathlib.Data.List.Nodup
import SymbolSearch.Catalog
import SymbolSearch.Proofs.Directory.Chunk
import SymbolSearch.Proofs.Text.ByteOrder
import SymbolSearch.Proofs.Text.Span

/-!
This module contains which files of a directory are listed as the chunks of a category and in which
order. The order in which the directory holds its files does not matter.
-/

namespace SymbolSearch

theorem append_cons_inj {c : Char} {front front' behind behind' : List Char} (h : c ∉ behind)
    (h' : c ∉ behind') (heq : front ++ c :: behind = front' ++ c :: behind') : front = front' := by
  rcases List.append_eq_append_iff.mp heq with ⟨between, rfl, hbetween⟩ | ⟨between, rfl, hbetween⟩
  all_goals
    cases between with
    | nil => simp
    | cons d between =>
      -- The text that goes on further holds the character behind the place where the other one has it.
      cases hbetween
      simp at h h'

theorem fromUTF8?_eq_some_iff {bytes : ByteArray} {s : String} :
    String.fromUTF8? bytes = some s ↔ bytes = s.toUTF8 := by
  constructor
  · intro h
    unfold String.fromUTF8? at h
    split at h
    · cases h
      rfl
    · contradiction
  · rintro rfl
    apply fromUTF8?_toUTF8

namespace Text

/--
Whether a character is one of the hexadecimal digits, of which the letters come in both cases.
-/
def IsHexDigit (c : Char) : Prop :=
  ('0' ≤ c ∧ c ≤ '9') ∨ ('a' ≤ c ∧ c ≤ 'f') ∨ ('A' ≤ c ∧ c ≤ 'F')

theorem isDigitIn_sixteen_iff {c : Char} : isDigitIn 16 c ↔ IsHexDigit c := by
  have hlower (h : c ≤ 'f') : c.toNat ≤ 102 := h
  have hupper (h : c ≤ 'F') : c.toNat ≤ 70 := h
  have hdecimal (h : c ≤ '9') : c.toNat ≤ 57 := h
  unfold isDigitIn digitValue? IsHexDigit
  split
  · next h =>
    have := hdecimal h.2
    simp [h]
    omega
  · split
    · next h =>
      have := hlower h.2
      simp [h]
      omega
    · split
      · next h =>
        have := hupper h.2
        simp [h]
        omega
      · simp [*]

end Text

namespace Chunk

/--
Whether a file name is made of a category, an underscore, a row of hexadecimal digits and the extension
of scripts.
-/
structure IsName (category : String) (digits : List Char) (name : String) : Prop where
  toList_eq : name.toList = category.toList ++ '_' :: (digits ++ ['.', 'j', 's'])
  ne_nil : digits ≠ []
  isHexDigit_of_mem : ∀ c ∈ digits, Text.IsHexDigit c

theorem number?_eq_some_iff {category name : String} {number : Nat} :
    number? category name = some number ↔
      ∃ digits, IsName category digits name ∧ number = min (Text.numeral 16 digits) maxNumber := by
  unfold number?
  dsimp only
  constructor
  · intro h
    split at h
    · next hname =>
      obtain ⟨hstart, hdigits, hextension⟩ := hname
      obtain ⟨behind, hbehind⟩ := List.isPrefixOf_iff_prefix.mp hstart
      rw [← hbehind, List.drop_left] at h hdigits hextension
      cases h
      refine ⟨_, ⟨?_, ?_, ?_⟩, rfl⟩
      · rw [← hbehind, ← hextension, List.takeWhile_append_dropWhile]
        simp
      · simpa using hdigits
      · intro c hc
        rw [← Text.isDigitIn_sixteen_iff]
        apply List.mem_takeWhile_imp hc
    · contradiction
  · rintro ⟨digits, ⟨htext, hne, hall⟩, rfl⟩
    have hdigits : ∀ c ∈ digits, Text.isDigitIn 16 c := by
      intro c hc
      apply Text.isDigitIn_sixteen_iff.mpr (hall c hc)
    have hstops : Text.Stops (Text.isDigitIn 16) ['.', 'j', 's'] := .cons (by decide)
    have hname : name.toList = (category.toList ++ ['_']) ++ (digits ++ ['.', 'j', 's']) := by
      simp [htext]
    rw [hname, List.drop_left, Text.takeWhile_append_of_stops hdigits hstops,
      Text.dropWhile_append_of_stops hdigits hstops, if_pos]
    simp [hne]

/-- The digits of a file name hold no underscore, so the category ends at the last one. -/
theorem IsName.category_eq {category other : String} {digits digits' : List Char} {name : String}
    (h : IsName category digits name) (h' : IsName other digits' name) : category = other := by
  have hunderscore {digits : List Char} (hall : ∀ c ∈ digits, Text.IsHexDigit c) :
      '_' ∉ digits ++ ['.', 'j', 's'] := by
    intro hmem
    rw [List.mem_append] at hmem
    rcases hmem with hmem | hmem
    · have := Text.isDigitIn_sixteen_iff.mpr (hall _ hmem)
      contradiction
    · contradiction
  apply String.toList_inj.mp
  apply append_cons_inj (hunderscore h.isHexDigit_of_mem) (hunderscore h'.isHexDigit_of_mem)
  rw [← h.toList_eq, ← h'.toList_eq]

theorem ofFile?_eq_some_iff {category : String} {file : File} {chunk : Chunk} :
    ofFile? category file = some chunk ↔
      file = ⟨chunk.name.toUTF8, chunk.body⟩ ∧ number? category chunk.name = some chunk.number := by
  unfold ofFile?
  simp only [Option.bind_eq_bind, Option.bind_eq_some_iff, fromUTF8?_eq_some_iff]
  constructor
  · rintro ⟨name, hname, number, hnumber, heq⟩
    cases heq
    cases file
    cases hname
    exact ⟨rfl, hnumber⟩
  · rintro ⟨rfl, hnumber⟩
    exact ⟨chunk.name, rfl, chunk.number, hnumber, rfl⟩

theorem precedes_iff {first second : Chunk} :
    first.precedes second ↔
      first.number < second.number ∨ first.number = second.number ∧ first.name ≤ second.name := by
  simp [precedes]

theorem precedes_trans {first second third : Chunk} (h : first.precedes second)
    (h' : second.precedes third) : first.precedes third := by
  rw [precedes_iff] at *
  rcases h with h | ⟨h, hname⟩
  · left
    omega
  · rcases h' with h' | ⟨h', hname'⟩
    · left
      omega
    · right
      exact ⟨h.trans h', String.le_trans hname hname'⟩

theorem precedes_total (first second : Chunk) : first.precedes second || second.precedes first := by
  rw [Bool.or_eq_true, precedes_iff, precedes_iff]
  rcases Nat.lt_trichotomy first.number second.number with hlt | heq | hlt
  · exact .inl (.inl hlt)
  · rcases String.le_total first.name second.name with hle | hle
    · exact .inl (.inr ⟨heq, hle⟩)
    · exact .inr (.inr ⟨heq.symm, hle⟩)
  · exact .inr (.inl hlt)

theorem name_eq_of_precedes {first second : Chunk} (h : first.precedes second)
    (h' : second.precedes first) : first.name = second.name := by
  rw [precedes_iff] at h h'
  rcases h with h | ⟨h, hname⟩
  · omega
  · rcases h' with h' | ⟨h', hname'⟩
    · omega
    · apply String.le_antisymm hname hname'

end Chunk

namespace Directory

/--
Whether chunks are exactly those files of a directory that belong to a category, by number and, where
the numbers are equal, by the bytes of the names.
-/
structure Lists (files : List File) (category : String) (chunks : List Chunk) : Prop where
  mem_iff : ∀ chunk, chunk ∈ chunks ↔ ⟨chunk.name.toUTF8, chunk.body⟩ ∈ files ∧
    ∃ digits, Chunk.IsName category digits chunk.name ∧
      chunk.number = min (Text.numeral 16 digits) (2 ^ 64 - 1)
  nodup_names : (chunks.map Chunk.name).Nodup
  pairwise : chunks.Pairwise fun first second =>
    first.number < second.number ∨ first.number = second.number ∧
      first.name.toUTF8.data.toList < second.name.toUTF8.data.toList

variable {files listed : List File} {category : String}

theorem nodup_names_filterMap (h : (files.map File.name).Nodup) :
    ((files.filterMap (Chunk.ofFile? category)).map Chunk.name).Nodup := by
  rw [List.Nodup, List.pairwise_map] at *
  apply h.filterMap
  intro file file' hne chunk hchunk chunk' hchunk' heq
  obtain ⟨rfl, -⟩ := Chunk.ofFile?_eq_some_iff.mp hchunk
  obtain ⟨rfl, -⟩ := Chunk.ofFile?_eq_some_iff.mp hchunk'
  exact hne (congrArg String.toUTF8 heq)

theorem pairwise_precedes (chunks : List Chunk) :
    (chunks.mergeSort Chunk.precedes).Pairwise (Chunk.precedes · ·) :=
  @List.pairwise_mergeSort Chunk Chunk.precedes (fun _ _ _ => Chunk.precedes_trans)
    Chunk.precedes_total chunks

/-- Chunks with different names are sorted in one way only. -/
theorem mergeSort_eq_of_perm {chunks chunks' : List Chunk} (hperm : chunks.Perm chunks')
    (hnodup : (chunks.map Chunk.name).Nodup) :
    chunks.mergeSort Chunk.precedes = chunks'.mergeSort Chunk.precedes := by
  apply List.Perm.eq_of_pairwise _ (pairwise_precedes chunks) (pairwise_precedes chunks')
  · exact (List.mergeSort_perm _ _).trans (hperm.trans (List.mergeSort_perm _ _).symm)
  · intro first second hfirst hsecond h h'
    rw [List.mem_mergeSort] at hfirst hsecond
    exact List.inj_on_of_nodup_map hnodup hfirst (hperm.mem_iff.mpr hsecond)
      (Chunk.name_eq_of_precedes h h')

theorem lists_mergeSort (h : (files.map File.name).Nodup) :
    Lists files category ((files.filterMap (Chunk.ofFile? category)).mergeSort Chunk.precedes) := by
  have hnames : (((files.filterMap (Chunk.ofFile? category)).mergeSort Chunk.precedes).map
      Chunk.name).Nodup := by
    rw [((List.mergeSort_perm _ _).map _).nodup_iff]
    apply nodup_names_filterMap h
  constructor
  case mem_iff =>
    intro chunk
    simp only [List.mem_mergeSort, List.mem_filterMap, Chunk.ofFile?_eq_some_iff,
      Chunk.number?_eq_some_iff]
    constructor
    · rintro ⟨_, hmem, rfl, hdigits⟩
      exact ⟨hmem, hdigits⟩
    · rintro ⟨hmem, hdigits⟩
      exact ⟨_, hmem, rfl, hdigits⟩
  case nodup_names => exact hnames
  case pairwise =>
    rw [List.Nodup, List.pairwise_map] at hnames
    apply (hnames.and (pairwise_precedes _)).imp
    rintro first second ⟨hne, hprecedes⟩
    rw [Chunk.precedes_iff] at hprecedes
    rw [← Text.lt_iff_toUTF8_lt]
    apply hprecedes.imp_right
    rintro ⟨hnumber, hle⟩
    exact ⟨hnumber, lt_of_le_of_ne hle hne⟩

theorem chunks_eq_ok (path : String) (hcategory : isCategory category) :
    (⟨path, some files⟩ : Directory).chunks category =
      .ok ((files.filterMap (Chunk.ofFile? category)).mergeSort Chunk.precedes) := by
  unfold chunks
  rw [if_pos hcategory]

theorem chunks_eq_of_perm (path : String) (h : (files.map File.name).Nodup)
    (hperm : listed.Perm files) :
    (⟨path, some listed⟩ : Directory).chunks category =
      (⟨path, some files⟩ : Directory).chunks category := by
  by_cases hcategory : isCategory category
  · have hnames : ((listed.filterMap (Chunk.ofFile? category)).map Chunk.name).Nodup := by
      apply nodup_names_filterMap
      rwa [(hperm.map _).nodup_iff]
    rw [chunks_eq_ok path hcategory, chunks_eq_ok path hcategory,
      mergeSort_eq_of_perm (hperm.filterMap _) hnames]
  · unfold chunks
    rw [if_neg hcategory, if_neg hcategory]

theorem read_eq_of_perm (path : String) (h : (files.map File.name).Nodup)
    (hperm : listed.Perm files) :
    (⟨path, some listed⟩ : Directory).read category =
      (⟨path, some files⟩ : Directory).read category := by
  unfold read
  rw [chunks_eq_of_perm path h hperm]
  rfl

theorem extract_eq_of_perm (path : String) (h : (files.map File.name).Nodup)
    (hperm : listed.Perm files) :
    (⟨path, some listed⟩ : Directory).extract category =
      (⟨path, some files⟩ : Directory).extract category := by
  unfold extract
  rw [read_eq_of_perm path h hperm]
  rfl

/-- The chunks of a category are those files that are named so, each once and in order. Neither the
listing nor anything that is read or loaded from it depends on the order in which the directory holds
its files, and no file is a chunk of two categories. -/
theorem chunks_of_nodup_names (path : String) (hfiles : (files.map File.name).Nodup)
    (hne : category ≠ "") (hword : ∀ c ∈ category.toList, c.isAlphanum ∨ c = '_') :
    ∃ chunks, (⟨path, some files⟩ : Directory).chunks category = .ok chunks ∧
      Lists files category chunks ∧
      (∀ listed : List File, listed.Perm files →
        (⟨path, some listed⟩ : Directory).chunks category = .ok chunks ∧
        (⟨path, some listed⟩ : Directory).read category =
          (⟨path, some files⟩ : Directory).read category ∧
        ∀ catalog : Catalog, catalog.loadDirectory ⟨path, some listed⟩ category =
          catalog.loadDirectory ⟨path, some files⟩ category) ∧
      ∀ (other : String) (others : List Chunk), other ≠ category →
        (⟨path, some files⟩ : Directory).chunks other = .ok others →
        ∀ chunk ∈ chunks, ∀ chunk' ∈ others, chunk.name ≠ chunk'.name := by
  have hcategory : isCategory category := by
    simpa [isCategory, hne] using hword
  refine ⟨_, chunks_eq_ok path hcategory, lists_mergeSort hfiles, ?_, ?_⟩
  · intro listed hperm
    rw [chunks_eq_of_perm path hfiles hperm, chunks_eq_ok path hcategory]
    refine ⟨rfl, read_eq_of_perm path hfiles hperm, ?_⟩
    intro catalog
    unfold Catalog.loadDirectory
    rw [extract_eq_of_perm path hfiles hperm]
  · intro other others hother hchunks chunk hchunk chunk' hchunk' heq
    have hisCategory : isCategory other := by
      unfold chunks at hchunks
      split at hchunks
      · assumption
      · contradiction
    rw [chunks_eq_ok path hisCategory] at hchunks
    cases hchunks
    obtain ⟨-, digits, hname, -⟩ := ((lists_mergeSort hfiles).mem_iff chunk).mp hchunk
    obtain ⟨-, digits', hname', -⟩ := ((lists_mergeSort hfiles).mem_iff chunk').mp hchunk'
    rw [heq] at hname
    exact hother (hname'.category_eq hname)

end Directory

namespace MixedNames

/--
Files of two categories, of which the one goes on like the number of the other, and files of none.
-/
def files : List File :=
  [
    ⟨"all_a.js".toUTF8, .contents "[]".toUTF8⟩,
    ⟨"all_a_1.js".toUTF8, .contents "[]".toUTF8⟩,
    ⟨"all_0A.js".toUTF8, .directory⟩,
    ⟨⟨#[0xFF]⟩, .directory⟩,
    ⟨"all_.js".toUTF8, .contents "[]".toUTF8⟩,
    ⟨"all_9.js".toUTF8, .contents "[".toUTF8⟩
  ]

def directory : Directory where
  path := "search"
  files? := some files

def chunks : List Chunk :=
  [
    ⟨9, "all_9.js", .contents "[".toUTF8⟩,
    ⟨10, "all_0A.js", .directory⟩,
    ⟨10, "all_a.js", .contents "[]".toUTF8⟩
  ]

theorem nodup_names_files : (files.map File.name).Nodup := by
  decide +kernel

theorem chunks_directory : directory.chunks "all" = .ok chunks := by
  have hnine : Chunk.number? "all" "all_9.js" = some 9 := by decide +kernel
  have hupper : Chunk.number? "all" "all_0A.js" = some 10 := by decide +kernel
  have hlower : Chunk.number? "all" "all_a.js" = some 10 := by decide +kernel
  have hempty : Chunk.number? "all" "all_.js" = none := by decide +kernel
  have hother : Chunk.number? "all" "all_a_1.js" = none := by decide +kernel
  have hname : Chunk.ofFile? "all" ⟨⟨#[0xFF]⟩, .directory⟩ = none := by rfl
  unfold directory
  rw [Directory.chunks_eq_ok "search" (by decide +kernel)]
  simp only [files, List.filterMap_cons, List.filterMap_nil, Chunk.ofFile?_toUTF8, hnine, hupper,
    hlower, hempty, hother, hname, Option.map_some, Option.map_none]
  simp [List.mergeSort, Chunk.precedes, chunks]

end MixedNames

namespace Directory

theorem lists_mixedNames :
    Lists MixedNames.files "all" MixedNames.chunks ∧
      (⟨"search", some MixedNames.files.reverse⟩ : Directory).chunks "all" = .ok MixedNames.chunks ∧
      (∀ catalog : Catalog,
        catalog.loadDirectory ⟨"search", some MixedNames.files.reverse⟩ "all" =
          catalog.loadDirectory MixedNames.directory "all") ∧
      ∀ others, MixedNames.directory.chunks "all_a" = .ok others →
        ∀ chunk ∈ MixedNames.chunks, ∀ chunk' ∈ others, chunk.name ≠ chunk'.name := by
  have hword : ∀ c ∈ "all".toList, c.isAlphanum ∨ c = '_' := by simp
  obtain ⟨chunks, hchunks, hlists, hperm, hother⟩ :=
    chunks_of_nodup_names "search" MixedNames.nodup_names_files (by decide) hword
  cases hchunks.symm.trans MixedNames.chunks_directory
  obtain ⟨hreverse, -, hload⟩ := hperm _ (List.reverse_perm _)
  exact ⟨hlists, hreverse, hload, fun others => hother "all_a" others (by decide)⟩

end Directory

end SymbolSearch
