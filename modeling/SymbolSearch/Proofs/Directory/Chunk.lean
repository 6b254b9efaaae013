import SymbolSearch.Directory.Chunk
import SymbolSearch.Proofs.Extraction.Append

/-!
This module contains the stages in which the chunks of a directory are listed and read and what is in
them is extracted, as far as all of them succeed.
-/

namespace SymbolSearch

theorem fromUTF8?_toUTF8 (s : String) : String.fromUTF8? s.toUTF8 = some s := by
  rw [String.fromUTF8?, dif_pos]
  rfl

namespace Chunk

theorem ofFile?_toUTF8 (category name : String) (body : Body) :
    ofFile? category ⟨name.toUTF8, body⟩ =
      (number? category name).map ({ number := ·, name, body }) := by
  unfold ofFile?
  rw [fromUTF8?_toUTF8, Option.map_eq_bind]
  rfl

theorem mergeSort_pair {first second : Chunk} (h : first.precedes second = false) :
    [first, second].mergeSort precedes = [second, first] := by
  simp [List.mergeSort, h]

end Chunk

namespace Directory

variable {directory : Directory} {category : String}

theorem readChunk_eq_ok_iff {chunk : Chunk} {read : ChunkText} :
    directory.readChunk chunk = .ok read ↔ chunk.text = .ok read.text ∧ read.name = chunk.name := by
  unfold readChunk
  cases read
  cases chunk.text <;> grind

theorem read_eq_ok_iff {texts : List ChunkText} :
    directory.read category = .ok texts ↔ ∃ chunks, directory.chunks category = .ok chunks ∧
      chunks ≠ [] ∧ chunks.map directory.readChunk = texts.map .ok := by
  unfold read
  rw [bind_eq_ok_iff]
  apply exists_congr
  intro chunks
  apply and_congr_right
  intro _
  cases chunks with
  | nil => simp [throw, throwThe, MonadExceptOf.throw]
  | cons chunk chunks =>
    change (chunk :: chunks).mapM directory.readChunk = .ok texts ↔ _
    rw [mapM_eq_ok_iff]
    simp

theorem extract_eq_ok_iff {extraction : Extraction} {files : Nat} :
    directory.extract category = .ok (extraction, files) ↔ ∃ texts,
      directory.read category = .ok texts ∧
        Extraction.ofPayloads (texts.map (·.text)) = .ok extraction ∧ texts.length = files := by
  unfold extract
  rw [bind_eq_ok_iff]
  apply exists_congr
  intro texts
  apply and_congr_right
  intro _
  have hparts (parts : List Extraction) : texts.map directory.extractChunk = parts.map .ok ↔
      (texts.map (·.text)).map Extraction.ofPayload = parts.map .ok := by
    rw [List.map_map, map_eq_map_ok_congr]
    intro chunk part
    apply mapError_eq_ok_iff
  simp only [bind_eq_ok_iff, mapM_eq_ok_iff, Extraction.ofPayloads_eq_ok_iff, hparts, pure,
    Except.pure, Except.ok.injEq, Prod.mk.injEq]
  simp only [← and_assoc, exists_and_right]

theorem read_of_texts {chunks : List Chunk} {payloads : List String}
    (hchunks : directory.chunks category = .ok chunks) (hne : chunks ≠ [])
    (htexts : chunks.map Chunk.text = payloads.map .ok) :
    ∃ texts, directory.read category = .ok texts ∧ texts.map (·.text) = payloads := by
  suffices h : ∃ texts : List ChunkText, chunks.map directory.readChunk = texts.map .ok ∧
      texts.map (·.text) = payloads by
    obtain ⟨texts, hread, hpayloads⟩ := h
    exact ⟨texts, read_eq_ok_iff.mpr ⟨chunks, hchunks, hne, hread⟩, hpayloads⟩
  clear hchunks hne
  induction chunks generalizing payloads with
  | nil => exact ⟨[], rfl, by simpa using htexts⟩
  | cons chunk chunks ih =>
    cases payloads with
    | nil => contradiction
    | cons payload payloads =>
      simp only [List.map_cons, List.cons.injEq] at htexts
      obtain ⟨texts, hread, rfl⟩ := ih htexts.2
      have hchunk : directory.readChunk chunk = .ok ⟨chunk.name, payload⟩ :=
        readChunk_eq_ok_iff.mpr ⟨htexts.1, rfl⟩
      refine ⟨⟨chunk.name, payload⟩ :: texts, ?_, rfl⟩
      rw [List.map_cons, List.map_cons, hread, hchunk]

end Directory

end SymbolSearch
