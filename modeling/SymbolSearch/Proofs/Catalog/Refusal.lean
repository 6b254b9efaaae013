import SymbolSearch.Proofs.Directory.Order

/-!
This module contains what is reported of a directory that cannot be loaded. Loading goes through stages:
the name of the category, the directory, its listing, the reading of all chunks and only then the
extraction from them. The first stage at which something is wrong is reported, with the first chunk at
which that is so, and files that are no chunks of the category never matter.
-/

namespace SymbolSearch

/--
Whether a name is made of ASCII letters, digits and underscores, of which there is at least one.
-/
def IsCategoryName (name : String) : Prop :=
  name ≠ "" ∧ ∀ c ∈ name.toList, c.isAlphanum ∨ c = '_'

theorem isCategory_iff {name : String} : isCategory name ↔ IsCategoryName name := by
  simp [isCategory, IsCategoryName]

/--
Whether a file can be read and its contents are the UTF-8 of a text.
-/
def Body.Holds (body : Body) (text : String) : Prop :=
  body = .contents text.toUTF8

/--
Whether there is a given reason for which no text is read.
-/
inductive Body.Resists : Body → Unreadable → Prop
  | directory : Resists .directory .directory
  | encoding {bytes : ByteArray} (h : ∀ text : String, bytes ≠ text.toUTF8) :
      Resists (.contents bytes) .encoding

/--
Whether a file has the name of a chunk of a category.
-/
def File.BelongsTo (file : File) (category : String) : Prop :=
  ∃ name digits, file.name = name.toUTF8 ∧ Chunk.IsName category digits name

namespace Chunk

theorem text_eq_ok_iff {chunk : Chunk} {text : String} :
    chunk.text = .ok text ↔ chunk.body.Holds text := by
  obtain ⟨number, name, body⟩ := chunk
  unfold Chunk.text Body.Holds
  dsimp only
  cases body with
  | directory => simp
  | contents bytes =>
    rw [Body.contents.injEq, ← fromUTF8?_eq_some_iff]
    dsimp only
    cases String.fromUTF8? bytes <;> simp

theorem text_eq_error_iff {chunk : Chunk} {cause : Unreadable} :
    chunk.text = .error cause ↔ chunk.body.Resists cause := by
  obtain ⟨number, name, body⟩ := chunk
  unfold Chunk.text
  dsimp only
  cases body with
  | directory =>
    constructor
    · rintro ⟨⟩
      exact .directory
    · rintro ⟨⟩
      rfl
  | contents bytes =>
    dsimp only
    cases htext : String.fromUTF8? bytes with
    | none =>
      constructor
      · rintro ⟨⟩
        refine .encoding fun text hbytes => ?_
        rw [fromUTF8?_eq_some_iff.mpr hbytes] at htext
        contradiction
      · rintro ⟨⟩
        rfl
    | some text =>
      constructor
      · intro h
        contradiction
      · intro h
        cases h with
        | encoding h => exact absurd (fromUTF8?_eq_some_iff.mp htext) (h text)

end Chunk

namespace Directory

/-- There is only one way to list the chunks of a category. -/
theorem Lists.eq {files : List File} {category : String} {chunks chunks' : List Chunk}
    (h : Lists files category chunks) (h' : Lists files category chunks') : chunks = chunks' := by
  have hperm : chunks.Perm chunks' := by
    rw [List.perm_ext_iff_of_nodup (.of_map _ h.nodup_names) (.of_map _ h'.nodup_names)]
    intro chunk
    rw [h.mem_iff, h'.mem_iff]
  -- No two chunks may stand either way round, so the order of the same chunks is the same.
  apply hperm.eq_of_pairwise _ h.pairwise h'.pairwise
  rintro first second - - (hlt | ⟨heq, hname⟩) (hgt | ⟨heq', hname'⟩)
  · omega
  · omega
  · omega
  · exact absurd hname' (List.lt_asymm hname)

/-- Only the files that belong to a category count in its listing. -/
theorem Lists.of_belongsTo {files files' : List File} {category : String} {chunks : List Chunk}
    (h : Lists files category chunks)
    (hsame : ∀ file : File, file.BelongsTo category → (file ∈ files' ↔ file ∈ files)) :
    Lists files' category chunks where
  mem_iff := by
    intro chunk
    rw [h.mem_iff]
    apply and_congr_left
    rintro ⟨digits, hname, -⟩
    exact (hsame ⟨chunk.name.toUTF8, chunk.body⟩ ⟨chunk.name, digits, rfl, hname⟩).symm
  nodup_names := h.nodup_names
  pairwise := h.pairwise

theorem Lists.forall_body_iff {files : List File} {category : String} {chunks : List Chunk}
    (h : Lists files category chunks) {p : Body → Prop} :
    (∀ chunk ∈ chunks, p chunk.body) ↔ ∀ file ∈ files, file.BelongsTo category → p file.body := by
  constructor
  · rintro hp ⟨_, body⟩ hfile ⟨name, digits, rfl, hname⟩
    exact hp ⟨_, name, body⟩ ((h.mem_iff _).mpr ⟨hfile, digits, hname, rfl⟩)
  · intro hp chunk hchunk
    obtain ⟨hfile, digits, hname, -⟩ := (h.mem_iff chunk).mp hchunk
    exact hp _ hfile ⟨chunk.name, digits, rfl, hname⟩

theorem Lists.eq_nil_iff {files : List File} {category : String} {chunks : List Chunk}
    (h : Lists files category chunks) : chunks = [] ↔ ∀ file ∈ files, ¬file.BelongsTo category := by
  rw [List.eq_nil_iff_forall_not_mem]
  exact h.forall_body_iff (p := fun _ => False)

/--
What is reported of a directory when the chunks of a category cannot be loaded from it. Every stage
presupposes that nothing is wrong at the stages before it. At the last two of them `chunk` is the first
chunk with which something is wrong.
-/
inductive Refuses (directory : Directory) (category : String) : SourceError → Prop
  | category (h : ¬IsCategoryName category) : Refuses directory category (.category category)
  | noDirectory (hcategory : IsCategoryName category) (h : directory.files? = none) :
      Refuses directory category (.noDirectory directory.path)
  | noChunks {files : List File} (hcategory : IsCategoryName category)
      (hfiles : directory.files? = some files) (h : ∀ file ∈ files, ¬file.BelongsTo category) :
      Refuses directory category (.noChunks category directory.path)
  | unreadable {files : List File} {before behind : List Chunk} {chunk : Chunk} {cause : Unreadable}
      (hcategory : IsCategoryName category) (hfiles : directory.files? = some files)
      (hlists : Lists files category (before ++ chunk :: behind))
      (hbefore : ∀ other ∈ before, ∃ text, other.body.Holds text) (h : chunk.body.Resists cause) :
      Refuses directory category (.unreadable (directory.pathOf chunk.name) cause)
  | payload {files : List File} {before behind : List Chunk} {chunk : Chunk} {text : String}
      {error : PayloadError} (hcategory : IsCategoryName category)
      (hfiles : directory.files? = some files)
      (hlists : Lists files category (before ++ chunk :: behind))
      (hread : ∀ other ∈ before ++ chunk :: behind, ∃ text, other.body.Holds text)
      (hbefore : ∀ other ∈ before, ∃ text, other.body.Holds text ∧
        ∃ extraction, Extraction.ofPayload text = .ok extraction)
      (htext : chunk.body.Holds text) (h : Extraction.ofPayload text = .error error) :
      Refuses directory category (.payload (directory.pathOf chunk.name) error)

variable {directory : Directory} {category : String}

theorem chunks_eq_error_iff {error : SourceError} :
    directory.chunks category = .error error ↔
      ¬IsCategoryName category ∧ error = .category category ∨
        IsCategoryName category ∧ directory.files? = none ∧ error = .noDirectory directory.path := by
  rw [← isCategory_iff]
  unfold chunks
  cases isCategory category <;> cases directory.files? <;> simp [eq_comm]

theorem exists_readChunk_eq_ok_iff {chunk : Chunk} :
    (∃ read, directory.readChunk chunk = .ok read) ↔ ∃ text, chunk.body.Holds text := by
  simp only [readChunk_eq_ok_iff, Chunk.text_eq_ok_iff]
  constructor
  · rintro ⟨read, hread, -⟩
    exact ⟨read.text, hread⟩
  · rintro ⟨text, htext⟩
    exact ⟨⟨chunk.name, text⟩, htext, rfl⟩

theorem readChunk_eq_error_iff {chunk : Chunk} {error : SourceError} :
    directory.readChunk chunk = .error error ↔ ∃ cause, chunk.body.Resists cause ∧
      error = .unreadable (directory.pathOf chunk.name) cause := by
  simp only [← Chunk.text_eq_error_iff]
  unfold readChunk
  cases chunk.text <;> simp [eq_comm]

theorem read_eq_error_iff {error : SourceError} :
    directory.read category = .error error ↔ directory.chunks category = .error error ∨
      ∃ chunks, directory.chunks category = .ok chunks ∧
        (chunks = [] ∧ error = .noChunks category directory.path ∨
          chunks.mapM directory.readChunk = .error error) := by
  unfold read
  rw [bind_eq_error_iff]
  apply or_congr_right
  apply exists_congr
  intro chunks
  apply and_congr_right
  intro _
  cases chunks with
  | nil => simp [throw, throwThe, MonadExceptOf.throw, pure, Except.pure, eq_comm]
  | cons chunk chunks => simp

/--
Read a chunk and extract what it holds.
-/
def loadChunk (directory : Directory) (chunk : Chunk) : Except SourceError Extraction :=
  directory.readChunk chunk >>= directory.extractChunk

theorem loadChunk_of_holds {chunk : Chunk} {text : String} (h : chunk.body.Holds text) :
    directory.loadChunk chunk =
      (Extraction.ofPayload text).mapError (.payload (directory.pathOf chunk.name)) := by
  unfold loadChunk readChunk
  rw [Chunk.text_eq_ok_iff.mpr h]
  rfl

theorem exists_loadChunk_eq_ok_iff {chunk : Chunk} :
    (∃ part, directory.loadChunk chunk = .ok part) ↔ ∃ text, chunk.body.Holds text ∧
      ∃ extraction, Extraction.ofPayload text = .ok extraction := by
  constructor
  · rintro ⟨part, h⟩
    obtain ⟨read, hread, -⟩ := bind_eq_ok_iff.mp h
    obtain ⟨text, htext⟩ := exists_readChunk_eq_ok_iff.mp ⟨read, hread⟩
    rw [loadChunk_of_holds htext, mapError_eq_ok_iff] at h
    exact ⟨text, htext, part, h⟩
  · rintro ⟨text, htext, part, h⟩
    exact ⟨part, by rw [loadChunk_of_holds htext, mapError_eq_ok_iff, h]⟩

/-- Once all chunks can be read it makes no difference that they are read before anything is extracted. -/
theorem extract_of_holds {chunks : List Chunk} (hchunks : directory.chunks category = .ok chunks)
    (hne : chunks ≠ []) (h : ∀ chunk ∈ chunks, ∃ text, chunk.body.Holds text) :
    directory.extract category = do
      let parts ← chunks.mapM directory.loadChunk
      return (parts.foldl (· ++ ·) {}, chunks.length) := by
  obtain ⟨texts, htexts⟩ := exists_mapM_eq_ok_iff.mpr fun chunk hchunk =>
    (@exists_readChunk_eq_ok_iff directory chunk).mpr (h chunk hchunk)
  have hread : directory.read category = .ok texts :=
    read_eq_ok_iff.mpr ⟨chunks, hchunks, hne, mapM_eq_ok_iff.mp htexts⟩
  have hlength : texts.length = chunks.length := by
    simpa using (congrArg List.length (mapM_eq_ok_iff.mp htexts)).symm
  unfold extract
  rw [hread]
  change (texts.mapM directory.extractChunk >>= _) = _
  rw [mapM_of_mapM_eq_ok htexts, hlength]
  rfl

theorem holds_of_read_eq_ok {texts : List ChunkText} (h : directory.read category = .ok texts) :
    ∃ chunks, directory.chunks category = .ok chunks ∧ chunks ≠ [] ∧
      ∀ chunk ∈ chunks, ∃ text, chunk.body.Holds text := by
  obtain ⟨chunks, hchunks, hne, hmap⟩ := read_eq_ok_iff.mp h
  refine ⟨chunks, hchunks, hne, ?_⟩
  intro chunk hchunk
  apply exists_readChunk_eq_ok_iff.mp
  exact exists_mapM_eq_ok_iff.mp ⟨texts, mapM_eq_ok_iff.mpr hmap⟩ chunk hchunk

theorem extract_eq_error_iff {error : SourceError} :
    directory.extract category = .error error ↔ directory.read category = .error error ∨
      ∃ chunks, directory.chunks category = .ok chunks ∧ chunks ≠ [] ∧
        (∀ chunk ∈ chunks, ∃ text, chunk.body.Holds text) ∧
        chunks.mapM directory.loadChunk = .error error := by
  constructor
  · intro h
    rcases bind_eq_error_iff.mp h with hread | ⟨texts, hread, -⟩
    · exact .inl hread
    · obtain ⟨chunks, hchunks, hne, hall⟩ := holds_of_read_eq_ok hread
      rw [extract_of_holds hchunks hne hall] at h
      -- Putting the parts together cannot fail.
      rcases bind_eq_error_iff.mp h with hparts | ⟨_, _, hpure⟩
      · exact .inr ⟨chunks, hchunks, hne, hall, hparts⟩
      · contradiction
  · rintro (hread | ⟨chunks, hchunks, hne, hall, hparts⟩)
    · exact bind_eq_error_iff.mpr (.inl hread)
    · rw [extract_of_holds hchunks hne hall]
      exact bind_eq_error_iff.mpr (.inl hparts)

theorem exists_extract_eq_ok_iff :
    (∃ found, directory.extract category = .ok found) ↔ ∃ chunks,
      directory.chunks category = .ok chunks ∧ chunks ≠ [] ∧ ∀ chunk ∈ chunks, ∃ text,
        chunk.body.Holds text ∧ ∃ extraction, Extraction.ofPayload text = .ok extraction := by
  simp only [← @exists_loadChunk_eq_ok_iff directory]
  constructor
  · rintro ⟨found, h⟩
    obtain ⟨texts, hread, -⟩ := bind_eq_ok_iff.mp h
    obtain ⟨chunks, hchunks, hne, hall⟩ := holds_of_read_eq_ok hread
    rw [extract_of_holds hchunks hne hall] at h
    obtain ⟨parts, hparts, -⟩ := bind_eq_ok_iff.mp h
    exact ⟨chunks, hchunks, hne, exists_mapM_eq_ok_iff.mp ⟨parts, hparts⟩⟩
  · rintro ⟨chunks, hchunks, hne, hload⟩
    obtain ⟨parts, hparts⟩ := exists_mapM_eq_ok_iff.mpr hload
    have hall : ∀ chunk ∈ chunks, ∃ text, chunk.body.Holds text := by
      intro chunk hchunk
      obtain ⟨text, htext, -⟩ := exists_loadChunk_eq_ok_iff.mp (hload chunk hchunk)
      exact ⟨text, htext⟩
    refine ⟨(parts.foldl (· ++ ·) {}, chunks.length), ?_⟩
    rw [extract_of_holds hchunks hne hall, hparts]
    rfl

/--
Whether all files have different names.
-/
def HasDistinctNames (directory : Directory) : Prop :=
  ∀ files ∈ directory.files?, (files.map File.name).Nodup

theorem chunks_eq_ok_iff_lists (hnames : directory.HasDistinctNames) {chunks : List Chunk} :
    directory.chunks category = .ok chunks ↔ IsCategoryName category ∧
      ∃ files, directory.files? = some files ∧ Lists files category chunks := by
  rw [chunks_eq_ok_iff, isCategory_iff]
  apply and_congr_right
  intro _
  apply exists_congr
  intro files
  apply and_congr_right
  intro hfiles
  have hlists : Lists files category _ := lists_mergeSort (hnames files hfiles)
  constructor
  · rintro rfl
    exact hlists
  · intro h
    exact h.eq hlists

theorem extract_eq_error_iff_refuses (hnames : directory.HasDistinctNames) {error : SourceError} :
    directory.extract category = .error error ↔ directory.Refuses category error := by
  rw [extract_eq_error_iff, read_eq_error_iff, chunks_eq_error_iff]
  simp only [chunks_eq_ok_iff_lists hnames]
  constructor
  · rintro (((⟨hcategory, rfl⟩ | ⟨hcategory, hnone, rfl⟩) |
      ⟨_, ⟨hcategory, files, hfiles, hlists⟩, ⟨rfl, rfl⟩ | hread⟩) |
      ⟨_, ⟨hcategory, files, hfiles, hlists⟩, -, hall, hparts⟩)
    · exact .category hcategory
    · exact .noDirectory hcategory hnone
    · exact .noChunks hcategory hfiles (hlists.eq_nil_iff.mp rfl)
    · obtain ⟨before, chunk, behind, rfl, hbefore, hchunk⟩ := mapM_eq_error_iff.mp hread
      obtain ⟨cause, hcause, rfl⟩ := readChunk_eq_error_iff.mp hchunk
      refine .unreadable hcategory hfiles hlists ?_ hcause
      intro other hother
      exact exists_readChunk_eq_ok_iff.mp (hbefore other hother)
    · obtain ⟨before, chunk, behind, rfl, hbefore, hchunk⟩ := mapM_eq_error_iff.mp hparts
      obtain ⟨text, htext⟩ := hall chunk (by simp)
      rw [loadChunk_of_holds htext] at hchunk
      obtain ⟨fault, hfault, rfl⟩ := mapError_eq_error_iff.mp hchunk
      refine .payload hcategory hfiles hlists hall ?_ htext hfault
      intro other hother
      exact exists_loadChunk_eq_ok_iff.mp (hbefore other hother)
  · intro h
    cases h with
    | category hcategory => exact .inl (.inl (.inl ⟨hcategory, rfl⟩))
    | noDirectory hcategory hnone => exact .inl (.inl (.inr ⟨hcategory, hnone, rfl⟩))
    | @noChunks files hcategory hfiles hnone =>
      have hlists : Lists files category _ := lists_mergeSort (hnames files hfiles)
      exact .inl (.inr ⟨_, ⟨hcategory, files, hfiles, hlists⟩, .inl ⟨hlists.eq_nil_iff.mpr hnone, rfl⟩⟩)
    | @unreadable files before behind chunk cause hcategory hfiles hlists hbefore hcause =>
      refine .inl (.inr ⟨_, ⟨hcategory, files, hfiles, hlists⟩, .inr ?_⟩)
      refine mapM_eq_error_iff.mpr ⟨before, chunk, behind, rfl, ?_, ?_⟩
      · intro other hother
        exact exists_readChunk_eq_ok_iff.mpr (hbefore other hother)
      · exact readChunk_eq_error_iff.mpr ⟨cause, hcause, rfl⟩
    | @payload files before behind chunk text fault hcategory hfiles hlists hread hbefore htext hfault =>
      refine .inr ⟨_, ⟨hcategory, files, hfiles, hlists⟩, by simp, hread, ?_⟩
      refine mapM_eq_error_iff.mpr ⟨before, chunk, behind, rfl, ?_, ?_⟩
      · intro other hother
        exact exists_loadChunk_eq_ok_iff.mpr (hbefore other hother)
      · rw [loadChunk_of_holds htext]
        exact mapError_eq_error_iff.mpr ⟨fault, hfault, rfl⟩

theorem exists_extract_eq_ok_iff_files (hnames : directory.HasDistinctNames) :
    (∃ found, directory.extract category = .ok found) ↔ IsCategoryName category ∧
      ∃ files, directory.files? = some files ∧ (∃ file ∈ files, file.BelongsTo category) ∧
        ∀ file ∈ files, file.BelongsTo category → ∃ text, file.body.Holds text ∧
          ∃ extraction, Extraction.ofPayload text = .ok extraction := by
  have hbody {files : List File} {chunks : List Chunk} (hlists : Lists files category chunks) :=
    hlists.forall_body_iff (p := fun body => ∃ text, body.Holds text ∧
      ∃ extraction, Extraction.ofPayload text = .ok extraction)
  rw [exists_extract_eq_ok_iff]
  simp only [chunks_eq_ok_iff_lists hnames]
  constructor
  · rintro ⟨chunks, ⟨hcategory, files, hfiles, hlists⟩, hne, hload⟩
    refine ⟨hcategory, files, hfiles, ?_, (hbody hlists).mp hload⟩
    simpa [hlists.eq_nil_iff] using hne
  · rintro ⟨hcategory, files, hfiles, ⟨file, hfile, hbelongs⟩, hload⟩
    have hlists : Lists files category _ := lists_mergeSort (hnames files hfiles)
    refine ⟨_, ⟨hcategory, files, hfiles, hlists⟩, ?_, (hbody hlists).mpr hload⟩
    intro hnil
    exact hlists.eq_nil_iff.mp hnil file hfile hbelongs

theorem extract_eq_of_belongsTo {path : String} {files files' : List File}
    (hfiles : (files.map File.name).Nodup) (hfiles' : (files'.map File.name).Nodup)
    (hsame : ∀ file : File, file.BelongsTo category → (file ∈ files' ↔ file ∈ files)) :
    (⟨path, some files'⟩ : Directory).extract category =
      (⟨path, some files⟩ : Directory).extract category := by
  have hlists : Lists files category _ := lists_mergeSort hfiles
  have hchunks : (⟨path, some files'⟩ : Directory).chunks category =
      (⟨path, some files⟩ : Directory).chunks category := by
    unfold chunks
    dsimp only
    rw [(lists_mergeSort hfiles').eq (hlists.of_belongsTo hsame)]
  unfold extract read
  rw [hchunks]
  rfl

end Directory

namespace Catalog

/--
Loading from a directory succeeds exactly if nothing is wrong at any stage. Otherwise the first thing
that is wrong is reported and the catalog stays as it is. Files that do not belong to the category change
nothing about that.
-/
theorem loadDirectory_stages {directory : Directory} (hnames : directory.HasDistinctNames)
    (category : String) (catalog : Catalog) :
    ((∃ report loaded, catalog.loadDirectory directory category = (.ok report, loaded)) ↔
      IsCategoryName category ∧ ∃ files, directory.files? = some files ∧
        (∃ file ∈ files, file.BelongsTo category) ∧
        ∀ file ∈ files, file.BelongsTo category → ∃ text, file.body.Holds text ∧
          ∃ extraction, Extraction.ofPayload text = .ok extraction) ∧
    (∀ error loaded, catalog.loadDirectory directory category = (.error error, loaded) ↔
      directory.Refuses category error ∧ loaded = catalog) ∧
    ∀ files files' : List File, directory.files? = some files → (files'.map File.name).Nodup →
      (∀ file : File, file.BelongsTo category → (file ∈ files' ↔ file ∈ files)) →
      catalog.loadDirectory ⟨directory.path, some files'⟩ category =
        catalog.loadDirectory directory category := by
  refine ⟨?_, ?_, ?_⟩
  · rw [← Directory.exists_extract_eq_ok_iff_files hnames]
    unfold loadDirectory
    cases directory.extract category <;> simp
  · intro error loaded
    rw [← Directory.extract_eq_error_iff_refuses hnames]
    unfold loadDirectory
    cases directory.extract category <;> simp [eq_comm]
  · intro files files' hfiles hfiles' hsame
    obtain ⟨path, _⟩ := directory
    cases hfiles
    unfold loadDirectory
    rw [Directory.extract_eq_of_belongsTo (hnames files rfl) hfiles' hsame]

/-- The second chunk is a directory. It is reported although no literal can be read from the first one. -/
theorem loadDirectory_mixedNames :
    MixedNames.directory.HasDistinctNames ∧
      Extraction.ofPayload "[" = .error (.fault 1 .endOfText) ∧
      ({} : Catalog).loadDirectory MixedNames.directory "all" =
        (.error (.unreadable "search/all_0A.js" .directory), {}) := by
  have hnames : MixedNames.directory.HasDistinctNames := by
    rintro files ⟨⟩
    exact MixedNames.nodup_names_files
  obtain ⟨hcategory, files, hfiles, hlists⟩ :=
    (Directory.chunks_eq_ok_iff_lists hnames).mp MixedNames.chunks_directory
  let first : Chunk := ⟨9, "all_9.js", .contents "[".toUTF8⟩
  change Directory.Lists files "all" ([first] ++ ⟨10, "all_0A.js", .directory⟩ :: _) at hlists
  have hpath : MixedNames.directory.pathOf "all_0A.js" = "search/all_0A.js" := by decide
  refine ⟨hnames, by decide +kernel, ?_⟩
  rw [(loadDirectory_stages hnames "all" {}).2.1, ← hpath]
  refine ⟨.unreadable hcategory hfiles hlists ?_ .directory, rfl⟩
  rintro other hother
  rw [List.mem_singleton.mp hother]
  exact ⟨"[", rfl⟩

end Catalog

end SymbolSearch
