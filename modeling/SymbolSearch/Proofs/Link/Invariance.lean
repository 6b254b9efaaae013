import SymbolSearch.Proofs.Link
import SymbolSearch.Proofs.Text.Span

/-!
This module contains the parts of a url that the inferred kind does not depend on: the directory, the text
of an anchor, and the scope of what has no anchor.
-/

namespace SymbolSearch.Link

open Text

/--
A path in its two parts: a directory, which ends in a slash if there is one, and a file.
-/
structure Path where
  directory : List Char
  file : List Char
  hhash : '#' ∉ directory ++ file
  hdirectory : ∀ c ∈ directory.getLast?, c = '/'
  hfile : '/' ∉ file

namespace Path

def text (path : Path) : List Char :=
  path.directory ++ path.file

/--
The url of a path, with a `#` and an anchor behind it if one is given.
-/
def url (path : Path) (anchor? : Option (List Char)) : String :=
  .ofList (path.text ++ anchor?.elim [] ('#' :: ·))

theorem lastSegment_text (path : Path) : lastSegment path.text = path.file := by
  have hfile : '/' ∉ path.file.reverse := by simpa using path.hfile
  have hdirectory : path.directory.reverse.takeWhile (· != '/') = [] := by
    cases hlast : path.directory.reverse with
    | nil => rfl
    | cons c r =>
      have hc : c = '/' := by
        apply path.hdirectory
        rw [← List.head?_reverse, hlast]
        rfl
      simp [hc]
  rw [lastSegment, text, List.reverse_append, takeWhile_ne_append, if_neg hfile, hdirectory,
    List.append_nil, List.reverse_reverse]

theorem ofUrl_url (path : Path) (anchor? : Option (List Char)) :
    ofUrl (path.url anchor?) = { file := path.file, anchor := anchor?.getD [] } := by
  have hhash : '#' ∉ path.text := path.hhash
  have hpath : (path.text ++ anchor?.elim [] ('#' :: ·)).takeWhile (· != '#') = path.text := by
    rw [takeWhile_ne_append, if_neg hhash]
    cases anchor? <;> simp
  have hanchor : ((path.text ++ anchor?.elim [] ('#' :: ·)).dropWhile (· != '#')).drop 1 =
      anchor?.getD [] := by
    rw [dropWhile_ne_append, if_neg hhash]
    cases anchor? <;> simp
  unfold ofUrl url
  dsimp only
  rw [String.toList_ofList, hpath, hanchor, ← path.lastSegment_text]
  rfl

end Path

theorem exists_path {s : List Char} (h : '#' ∉ s) : ∃ path : Path, path.text = s := by
  have hsplit : s.rdropWhile (· != '/') ++ lastSegment s = s := List.rdropWhile_append_rtakeWhile
  have hdirectory : ∀ c ∈ (s.rdropWhile (· != '/')).getLast?, c = '/' := by
    intro c hc
    obtain ⟨hne, rfl⟩ := List.mem_getLast?_eq_getLast hc
    simpa using List.rdropWhile_last_not (· != '/') s hne
  have hfile : '/' ∉ lastSegment s := by
    intro hmem
    simpa using List.mem_rtakeWhile_imp hmem
  exact ⟨⟨_, _, by rwa [hsplit], hdirectory, hfile⟩, hsplit⟩

theorem exists_url (url : String) :
    ∃ (path : Path) (anchor? : Option (List Char)), path.url anchor? = url := by
  have hsplit : url.toList.takeWhile (· != '#') ++ url.toList.dropWhile (· != '#') = url.toList :=
    List.takeWhile_append_dropWhile
  have hhash : '#' ∉ url.toList.takeWhile (· != '#') := by
    intro hmem
    simpa using List.mem_takeWhile_imp hmem
  obtain ⟨path, hpath⟩ := exists_path hhash
  cases hanchor : url.toList.dropWhile (· != '#') with
  | nil =>
    refine ⟨path, none, ?_⟩
    rw [hanchor, List.append_nil] at hsplit
    rw [Path.url, hpath, Option.elim_none, List.append_nil, hsplit, String.ofList_toList]
  | cons c anchor =>
    have hc : c = '#' := by
      have hstops := stops_dropWhile (p := (· != '#')) url.toList c (by rw [hanchor]; rfl)
      simpa using hstops
    refine ⟨path, some anchor, ?_⟩
    rw [hanchor, hc] at hsplit
    rw [Path.url, hpath, Option.elim_some, hsplit, String.ofList_toList]

theorem infer?_url_congr {path path' : Path} {anchor? anchor?' : Option (List Char)}
    {scope scope' : String} (hfile : path.file = path'.file)
    (hanchor : anchor?.getD [] = [] ↔ anchor?'.getD [] = [])
    (hscope : anchor?.getD [] ≠ [] → ('(' ∈ scope.toList ↔ '(' ∈ scope'.toList)) :
    Kind.infer? (path.url anchor?) scope = Kind.infer? (path'.url anchor?') scope' := by
  unfold Kind.infer?
  rw [path.ofUrl_url, path'.ofUrl_url, kind?_eq, kind?_eq]
  dsimp only
  by_cases hnone : anchor?.getD [] = []
  · rw [hfile, if_pos hnone, if_pos (hanchor.mp hnone)]
  · have hkind : kindOfAnchor scope = kindOfAnchor scope' := by
      simp only [kindOfAnchor, List.contains_iff_mem, hscope hnone]
    rw [hfile, if_neg hnone, if_neg (mt hanchor.mpr hnone), hkind]

/-- A text without a `#` is a path, and stays one when an anchor is put behind it. -/
theorem exists_path_url {front : String} (h : '#' ∉ front.toList) :
    ∃ path : Path, path.url none = front ∧
      ∀ anchor : String, path.url (some anchor.toList) = front ++ "#" ++ anchor := by
  obtain ⟨path, hpath⟩ := exists_path h
  refine ⟨path, ?_, ?_⟩
  · rw [Path.url, hpath, Option.elim_none, List.append_nil, String.ofList_toList]
  · intro anchor
    rw [← String.toList_inj]
    simp [Path.url, hpath]

theorem infer?_directory_append {directory : String} (hhash : '#' ∉ directory.toList)
    (hslash : directory.toList.getLast? = some '/') (url scope : String) :
    Kind.infer? (directory ++ url) scope = Kind.infer? url scope := by
  obtain ⟨path, anchor?, rfl⟩ := exists_url url
  let longer : Path := {
    directory := directory.toList ++ path.directory
    file := path.file
    hhash := by
      rw [List.append_assoc, List.mem_append, not_or]
      exact ⟨hhash, path.hhash⟩
    hdirectory := by
      intro c hc
      rw [List.getLast?_append, hslash] at hc
      cases hlast : path.directory.getLast? with
      | none => simpa [hlast, eq_comm] using hc
      | some d =>
        apply path.hdirectory
        simpa [hlast] using hc
    hfile := path.hfile
  }
  have hlonger : longer.url anchor? = directory ++ path.url anchor? := by
    rw [← String.toList_inj]
    simp [longer, Path.url, Path.text]
  rw [← hlonger]
  apply infer?_url_congr
  · rfl
  · rfl
  · intro _
    rfl

theorem infer?_anchor {front anchor other : String} (hfront : '#' ∉ front.toList) (hne : anchor ≠ "")
    (hother : other ≠ "") (scope : String) :
    Kind.infer? (front ++ "#" ++ other) scope = Kind.infer? (front ++ "#" ++ anchor) scope := by
  obtain ⟨path, -, hurl⟩ := exists_path_url hfront
  rw [← hurl, ← hurl]
  apply infer?_url_congr
  · rfl
  · simp [hne, hother]
  · intro _
    rfl

theorem infer?_hash_append {url : String} (h : '#' ∉ url.toList) (scope : String) :
    Kind.infer? (url ++ "#") scope = Kind.infer? url scope := by
  obtain ⟨path, hpath, hurl⟩ := exists_path_url h
  have hhash := hurl ""
  rw [String.append_empty] at hhash
  rw [← hhash, ← hpath]
  apply infer?_url_congr
  · rfl
  · simp
  · intro _
    rfl

theorem infer?_scope {url : String}
    (h : ∀ front anchor : String, '#' ∉ front.toList → url = front ++ "#" ++ anchor → anchor = "")
    (scope other : String) : Kind.infer? url other = Kind.infer? url scope := by
  obtain ⟨path, anchor?, rfl⟩ := exists_url url
  apply infer?_url_congr rfl Iff.rfl
  intro hne
  -- The scope matters only behind an anchor, and the url has none.
  cases anchor? with
  | none => contradiction
  | some anchor =>
    have hempty : String.ofList anchor = "" := by
      apply h (.ofList path.text)
      · rw [String.toList_ofList]
        apply path.hhash
      · rw [← String.toList_inj]
        simp [Path.url]
    apply absurd _ hne
    simpa using hempty

/--
The kind of a link depends only on its file, on whether there is an anchor, and with an anchor on whether
the scope shows a parameter list. So it stays the same in another directory, with another anchor in place
of one, and with an empty anchor in place of none, and without an anchor the scope can be anything.
-/
theorem infer?_depends (url scope : String) :
    (∃ (path : Path) (anchor? : Option (List Char)), path.url anchor? = url) ∧
    (∀ (path path' : Path) (anchor? anchor?' : Option (List Char)) (other : String),
      path.url anchor? = url → path'.file = path.file →
      (anchor?'.getD [] = [] ↔ anchor?.getD [] = []) →
      (anchor?.getD [] ≠ [] → ('(' ∈ other.toList ↔ '(' ∈ scope.toList)) →
      Kind.infer? (path'.url anchor?') other = Kind.infer? url scope) ∧
    (∀ directory : String, '#' ∉ directory.toList → directory.toList.getLast? = some '/' →
      Kind.infer? (directory ++ url) scope = Kind.infer? url scope) ∧
    (∀ front anchor other : String, url = front ++ "#" ++ anchor → '#' ∉ front.toList →
      anchor ≠ "" → other ≠ "" →
      Kind.infer? (front ++ "#" ++ other) scope = Kind.infer? url scope) ∧
    ('#' ∉ url.toList → Kind.infer? (url ++ "#") scope = Kind.infer? url scope) ∧
    ((∀ front anchor : String, '#' ∉ front.toList → url = front ++ "#" ++ anchor → anchor = "") →
      ∀ other : String, Kind.infer? url other = Kind.infer? url scope) := by
  refine ⟨exists_url url, ?_, ?_, ?_, ?_, ?_⟩
  · rintro path path' anchor? anchor?' other rfl hfile hanchor hscope
    apply infer?_url_congr hfile hanchor
    intro hne
    apply hscope (mt hanchor.mpr hne)
  · intro directory hhash hslash
    apply infer?_directory_append hhash hslash
  · rintro front anchor other rfl hfront hne hother
    apply infer?_anchor hfront hne hother
  · intro h
    apply infer?_hash_append h
  · intro h other
    apply infer?_scope h

theorem infer?_depends_class_function :
    Kind.infer? "classa.html#" "()" = some .classLike ∧
      Kind.infer? ("../" ++ "d/classa.html") "" = some .classLike ∧
      Kind.infer? ("d/p_8" ++ "#" ++ "/.html#_8") "f(" = some .function ∧
      Kind.infer? ("d/classa.html" ++ "#") "" = some .classLike ∧
      Kind.infer? "d/classa.html" "()" = some .classLike := by
  have hclass : Kind.infer? "d/classa.html" "" = some .classLike := by decide +kernel
  have hfunction : Kind.infer? "d/p_8#a" "f(" = some .function := by decide +kernel
  obtain ⟨-, hfile, hdirectory, -, hhash, hscope⟩ := infer?_depends "d/classa.html" ""
  obtain ⟨-, -, -, hanchor, -⟩ := infer?_depends "d/p_8#a" "f("
  rw [hclass] at hfile hdirectory hhash hscope
  rw [hfunction] at hanchor
  refine ⟨?_, ?_, ?_, ?_, ?_⟩
  · let path : Path := ⟨['d', '/'], "classa.html".toList, by decide, by simp, by decide⟩
    let path' : Path := ⟨[], "classa.html".toList, by decide, by simp, by decide⟩
    apply hfile path path' none (some []) "()" (by decide) rfl (by decide) (by decide)
  · apply hdirectory "../" (by decide) (by decide)
  · apply hanchor "d/p_8" "a" "/.html#_8" (by decide) (by decide) (by decide) (by decide)
  · apply hhash (by decide)
  · apply hscope
    intro front anchor _ heq
    have hmem : '#' ∈ "d/classa.html".toList := by
      rw [heq]
      simp
    contradiction

end SymbolSearch.Link
