import SymbolSearch.Proofs.Directory.Listing

/-!
This module contains the order in which the chunks of a category are listed, told by the numbers that
their names write. It is the order of the numbers as long as one of them is below the largest number that
a chunk can have. From there on the names decide, and they do not always agree with the numbers.
-/

namespace SymbolSearch

namespace Chunk

theorem IsName.digits_eq {category name : String} {digits digits' : List Char}
    (h : IsName category digits name) (h' : IsName category digits' name) : digits = digits' := by
  have htext := h.toList_eq.symm.trans h'.toList_eq
  have hbehind := (List.cons.inj (List.append_cancel_left htext)).2
  exact List.append_cancel_right hbehind

theorem IsName.name_ne {category name name' : String} {digits digits' : List Char}
    (h : IsName category digits name) (h' : IsName category digits' name')
    (hlt : Text.numeral 16 digits < Text.numeral 16 digits') : name ≠ name' := by
  rintro rfl
  rw [h.digits_eq h'] at hlt
  exact Nat.lt_irrefl _ hlt

/-- Chunks with different names are never in the same place. -/
theorem lt_iff_precedes {chunks : List Chunk} (h : chunks.Pairwise (precedes · ·)) {i j : Nat}
    (hi : i < chunks.length) (hj : j < chunks.length) (hne : chunks[i].name ≠ chunks[j].name) :
    i < j ↔ chunks[i].precedes chunks[j] := by
  have hpairwise := List.pairwise_iff_getElem.mp h
  constructor
  · exact hpairwise i j hi hj
  · intro hprecedes
    rcases Nat.lt_trichotomy i j with hlt | rfl | hlt
    · exact hlt
    · contradiction
    · exact absurd (name_eq_of_precedes hprecedes (hpairwise j i hj hi hlt)) hne

/-- A number beyond the largest one that a chunk can have counts as that one. -/
theorem precedes_iff_of_lt {first second : Chunk} {n m : Nat}
    (hfirst : first.number = min n (2 ^ 64 - 1)) (hsecond : second.number = min m (2 ^ 64 - 1))
    (hlt : n < m) (hne : first.name ≠ second.name) :
    first.precedes second ↔ n < 2 ^ 64 - 1 ∨ first.name < second.name := by
  have hname : first.name ≤ second.name ↔ first.name < second.name :=
    ⟨fun hle => lt_of_le_of_ne hle hne, le_of_lt⟩
  rw [precedes_iff, hname]
  by_cases hn : n < 2 ^ 64 - 1
  · have : first.number < second.number := by omega
    simp only [this, hn, true_or]
  · have : first.number = second.number := by omega
    simp only [this, hn, Nat.lt_irrefl, true_and, false_or]

end Chunk

namespace Directory

variable {directory : Directory} {category : String}

theorem chunks_eq_ok_iff {chunks : List Chunk} :
    directory.chunks category = .ok chunks ↔ isCategory category ∧
      ∃ files, directory.files? = some files ∧
        chunks = (files.filterMap (Chunk.ofFile? category)).mergeSort Chunk.precedes := by
  unfold Directory.chunks
  cases directory.files? <;> cases isCategory category <;> simp [eq_comm]

theorem exists_isName_of_mem {chunks : List Chunk} (h : directory.chunks category = .ok chunks)
    {chunk : Chunk} (hchunk : chunk ∈ chunks) :
    ∃ digits, Chunk.IsName category digits chunk.name ∧
      chunk.number = min (Text.numeral 16 digits) (2 ^ 64 - 1) := by
  obtain ⟨-, files, -, rfl⟩ := chunks_eq_ok_iff.mp h
  rw [List.mem_mergeSort, List.mem_filterMap] at hchunk
  obtain ⟨file, -, hfile⟩ := hchunk
  exact Chunk.number?_eq_some_iff.mp (Chunk.ofFile?_eq_some_iff.mp hfile).2

theorem number_eq_of_mem {chunks : List Chunk} (h : directory.chunks category = .ok chunks)
    {chunk : Chunk} (hchunk : chunk ∈ chunks) {digits : List Char}
    (hname : Chunk.IsName category digits chunk.name) :
    chunk.number = min (Text.numeral 16 digits) (2 ^ 64 - 1) := by
  obtain ⟨digits', hname', hnumber⟩ := exists_isName_of_mem h hchunk
  rw [hnumber, hname.digits_eq hname']

/--
Of two chunks the one with the smaller number is listed first if that number is below `2 ^ 64 - 1`. If it
is not, the one whose name is smaller byte by byte is.
-/
theorem lt_iff_of_numeral_lt (path : String) (files : List File) (hne : category ≠ "")
    (hword : ∀ c ∈ category.toList, c.isAlphanum ∨ c = '_') :
    ∃ chunks, (⟨path, some files⟩ : Directory).chunks category = .ok chunks ∧
      (∀ chunk ∈ chunks, ∃ digits, Chunk.IsName category digits chunk.name) ∧
      ∀ (i j : Nat) (hi : i < chunks.length) (hj : j < chunks.length) (digits digits' : List Char),
        Chunk.IsName category digits chunks[i].name →
        Chunk.IsName category digits' chunks[j].name →
        Text.numeral 16 digits < Text.numeral 16 digits' →
          (i < j ↔ Text.numeral 16 digits < 2 ^ 64 - 1 ∨
            chunks[i].name.toUTF8.data.toList < chunks[j].name.toUTF8.data.toList) := by
  have hcategory : isCategory category := by
    simpa [isCategory, hne] using hword
  have hchunks : (⟨path, some files⟩ : Directory).chunks category = .ok _ := chunks_eq_ok path hcategory
  refine ⟨_, hchunks, ?_, ?_⟩
  · intro chunk hchunk
    obtain ⟨digits, hname, -⟩ := exists_isName_of_mem hchunks hchunk
    exact ⟨digits, hname⟩
  · intro i j hi hj digits digits' hname hname' hlt
    have hnames := hname.name_ne hname' hlt
    have hfirst := number_eq_of_mem hchunks (List.getElem_mem hi) hname
    have hsecond := number_eq_of_mem hchunks (List.getElem_mem hj) hname'
    rw [Chunk.lt_iff_precedes (pairwise_precedes _) hi hj hnames,
      Chunk.precedes_iff_of_lt hfirst hsecond hlt hnames, Text.lt_iff_toUTF8_lt]

end Directory

namespace LargeNumbers

def largest : List Char :=
  List.replicate 16 'f'

def beyond : List Char :=
  '1' :: List.replicate 16 '0'

def tellable : List Char :=
  List.replicate 15 'F' ++ ['E']

def nameOf (digits : List Char) : String :=
  .ofList ("all".toList ++ '_' :: (digits ++ ".js".toList))

def fileOf (digits : List Char) : File :=
  ⟨(nameOf digits).toUTF8, .contents "[]".toUTF8⟩

def directory : Directory where
  path := "search"
  files? := some [fileOf largest, fileOf beyond, fileOf tellable]

def chunks : List Chunk :=
  [
    ⟨2 ^ 64 - 2, nameOf tellable, .contents "[]".toUTF8⟩,
    ⟨2 ^ 64 - 1, nameOf beyond, .contents "[]".toUTF8⟩,
    ⟨2 ^ 64 - 1, nameOf largest, .contents "[]".toUTF8⟩
  ]

theorem chunks_directory : directory.chunks "all" = .ok chunks := by
  have hlargest : Chunk.number? "all" (nameOf largest) = some (2 ^ 64 - 1) := by decide +kernel
  have hbeyond : Chunk.number? "all" (nameOf beyond) = some (2 ^ 64 - 1) := by decide +kernel
  have htellable : Chunk.number? "all" (nameOf tellable) = some (2 ^ 64 - 2) := by decide +kernel
  have hlt : nameOf beyond < nameOf largest := by decide +kernel
  unfold directory
  rw [Directory.chunks_eq_ok "search" (by decide +kernel)]
  simp only [fileOf, List.filterMap_cons, List.filterMap_nil, Chunk.ofFile?_toUTF8, hlargest, hbeyond,
    htellable, Option.map_some]
  simp [List.mergeSort, Chunk.precedes, chunks, String.not_le.mpr hlt]

theorem isName_nameOf {digits : List Char} (hne : digits ≠ []) (hall : digits.all (Text.isDigitIn 16)) :
    Chunk.IsName "all" digits (nameOf digits) := by
  constructor
  case toList_eq => exact String.toList_ofList
  case ne_nil => exact hne
  case isHexDigit_of_mem =>
    intro c hc
    exact Text.isDigitIn_sixteen_iff.mp (List.all_eq_true.mp hall c hc)

theorem lt_of_tellable :
    directory.chunks "all" = .ok chunks ∧
      ∃ (i j : Nat) (hi : i < chunks.length) (hj : j < chunks.length),
        chunks[i].name = nameOf tellable ∧ chunks[j].name = nameOf largest ∧ i < j := by
  have hword : ∀ c ∈ "all".toList, c.isAlphanum ∨ c = '_' := by simp
  obtain ⟨_, hchunks, -, horder⟩ := Directory.lt_iff_of_numeral_lt "search"
    [fileOf largest, fileOf beyond, fileOf tellable] (by decide) hword
  cases hchunks.symm.trans chunks_directory
  have hname : Chunk.IsName "all" tellable (nameOf tellable) := isName_nameOf (by decide) (by decide)
  have hname' : Chunk.IsName "all" largest (nameOf largest) := isName_nameOf (by decide) (by decide)
  have hlt : Text.numeral 16 tellable < Text.numeral 16 largest := by decide +kernel
  refine ⟨chunks_directory, 0, 2, by decide, by decide, rfl, rfl, ?_⟩
  exact (horder 0 2 (by decide) (by decide) tellable largest hname hname' hlt).mpr
    (.inl (by decide +kernel))

/-- The largest number that a chunk can have comes behind an even larger one with a smaller name. -/
theorem not_lt_of_largest :
    ∃ chunks, directory.chunks "all" = .ok chunks ∧
      ¬∀ (i j : Nat) (hi : i < chunks.length) (hj : j < chunks.length) (digits digits' : List Char),
        Chunk.IsName "all" digits chunks[i].name → Chunk.IsName "all" digits' chunks[j].name →
        Text.numeral 16 digits < Text.numeral 16 digits' → i < j := by
  refine ⟨_, chunks_directory, ?_⟩
  intro horder
  have hlt := horder 2 1 (by decide) (by decide) largest beyond
    (isName_nameOf (by decide) (by decide)) (isName_nameOf (by decide) (by decide)) (by decide +kernel)
  contradiction

end LargeNumbers

end SymbolSearch
