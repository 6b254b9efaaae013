import SymbolSearch.Link
import SymbolSearch.Proofs.Text.Blank
import SymbolSearch.Proofs.Text.Padding

/-!
This module contains the effect that blanks around a url have on the kind that is inferred from it.
-/

namespace SymbolSearch.Link

open Text

theorem occursIn_iff (part s : List Char) : occursIn part s ↔ part <:+: s := by
  induction s with
  | nil => simp [occursIn]
  | cons c r ih => simp [occursIn, List.infix_cons_iff, ih]

def classNames : List (List Char) :=
  ["class", "struct", "union", "interface"].map String.toList

def nameSpaceName : List Char :=
  "namespace".toList

def escapedStop : List Char :=
  ['_', '8']

/--
The kind of what a file documents as a whole.
-/
def kindOfFile? (file : List Char) : Option Kind :=
  if ∃ name ∈ classNames, name <+: file then
    some .classLike
  else if nameSpaceName <+: file then
    some .nameSpace
  else if escapedStop <:+: file then
    some .file
  else if extension <:+ file then
    some .page
  else
    none

def kindOfAnchor (scope : String) : Kind :=
  if scope.toList.contains '(' then .function else .member

theorem isDocument_iff (link : Link) : link.isDocument ↔ extension <:+ link.file :=
  List.isSuffixOf_iff_suffix

theorem file_eq_stem_append {link : Link} (h : link.isDocument) : link.file = link.stem ++ extension := by
  obtain ⟨s, hs⟩ := link.isDocument_iff.mp h
  rw [stem, if_pos h, ← hs]
  simp

theorem prefix_stem_iff {name : List Char} (h : '.' ∉ name) (link : Link) :
    name <+: link.stem ↔ name <+: link.file := by
  by_cases hdocument : link.isDocument
  · rw [file_eq_stem_append hdocument, prefix_append_iff]
    intro c hc
    cases hc
    exact h
  · rw [stem, if_neg hdocument]

theorem infix_stem_iff (link : Link) : escapedStop <:+: link.stem ↔ escapedStop <:+: link.file := by
  by_cases hdocument : link.isDocument
  · rw [file_eq_stem_append hdocument, infix_append_iff]
    · decide
    · simp [extension, escapedStop]
  · rw [stem, if_neg hdocument]

theorem kind?_eq (link : Link) (scope : String) :
    link.kind? scope =
      if link.file = [] then none
      else if link.anchor = [] then kindOfFile? link.file
      else some (kindOfAnchor scope) := by
  have hclass : ["class", "struct", "union", "interface"].any (·.toList.isPrefixOf link.stem) ↔
      ∃ name ∈ classNames, name <+: link.file := by
    simp [classNames, prefix_stem_iff]
  have hspace : "namespace".toList.isPrefixOf link.stem ↔ nameSpaceName <+: link.file := by
    rw [List.isPrefixOf_iff_prefix]
    exact link.prefix_stem_iff (by simp)
  have hstop : occursIn ['_', '8'] link.stem ↔ escapedStop <:+: link.file := by
    rw [occursIn_iff]
    exact link.infix_stem_iff
  unfold kind? kindOfFile? kindOfAnchor
  simp only [hclass, hspace, hstop, isDocument_iff]
  cases link.file with
  | nil => rfl
  | cons c file =>
    cases link.anchor with
    | nil => simp
    | cons d anchor => simp [apply_ite some]

section

variable {front back : List Char} (hfront : front.all isBlank) (hback : back.all isBlank)
  (file : List Char)

include hfront hback

theorem kindOfFile?_padded :
    kindOfFile? (front ++ (file ++ back)) =
      if front = [] ∧ ∃ name ∈ classNames, name <+: file then some .classLike
      else if front = [] ∧ nameSpaceName <+: file then some .nameSpace
      else if escapedStop <:+: file then some .file
      else if back = [] ∧ extension <:+ file then some .page
      else none := by
  have hclass : (∃ name ∈ classNames, name <+: front ++ (file ++ back)) ↔
      front = [] ∧ ∃ name ∈ classNames, name <+: file := by
    have hnames : ∀ name ∈ classNames, name ≠ [] ∧ name.any isBlank = false := by
      decide +kernel
    constructor
    · rintro ⟨name, hname, h⟩
      obtain ⟨hne, hall⟩ := hnames name hname
      obtain ⟨hnone, h⟩ := (prefix_padded_iff hfront hback hne hall).mp h
      exact ⟨hnone, name, hname, h⟩
    · rintro ⟨hnone, name, hname, h⟩
      obtain ⟨hne, hall⟩ := hnames name hname
      exact ⟨name, hname, (prefix_padded_iff hfront hback hne hall).mpr ⟨hnone, h⟩⟩
  have hspace : nameSpaceName <+: front ++ (file ++ back) ↔ front = [] ∧ nameSpaceName <+: file :=
    prefix_padded_iff hfront hback (by decide +kernel) (by decide +kernel)
  have hstop : escapedStop <:+: front ++ (file ++ back) ↔ escapedStop <:+: file :=
    infix_padded_iff hfront hback (by decide) (by decide)
  have hpage : extension <:+ front ++ (file ++ back) ↔ back = [] ∧ extension <:+ file :=
    suffix_padded_iff hfront hback (by decide) (by decide)
  unfold kindOfFile?
  simp only [hclass, hspace, hstop, hpage]

theorem kindOfFile?_padded_eq_iff :
    kindOfFile? (front ++ (file ++ back)) = kindOfFile? file ↔
      ¬(front ≠ [] ∧ kindOfFile? file ∈ [some .classLike, some .nameSpace] ∨
        back ≠ [] ∧ kindOfFile? file = some .page) := by
  rw [kindOfFile?_padded hfront hback]
  unfold kindOfFile?
  -- The cases follow the order of the tests; in each one a single side of the padding can matter.
  by_cases hclass : ∃ name ∈ classNames, name <+: file
  · by_cases hnone : front = []
    · simp [hclass, hnone]
    · simp only [hclass, hnone, false_and, ↓reduceIte]
      split_ifs <;> simp [hnone]
  by_cases hspace : nameSpaceName <+: file
  · by_cases hnone : front = []
    · simp [hclass, hspace, hnone]
    · simp only [hclass, hspace, hnone, false_and, ↓reduceIte]
      split_ifs <;> simp [hnone]
  by_cases hstop : escapedStop <:+: file
  · simp [hclass, hspace, hstop]
  by_cases hpage : extension <:+ file
  · by_cases hnone : back = [] <;> simp [hclass, hspace, hstop, hpage, hnone]
  · simp [hclass, hspace, hstop, hpage]

end

/--
What stands in front of the first `#` of a url.
-/
def path (url : String) : List Char :=
  url.toList.takeWhile (· != '#')

def lastSegment (path : List Char) : List Char :=
  (path.reverse.takeWhile (· != '/')).reverse

theorem lastSegment_padded {front back : List Char} (hfront : '/' ∉ front) (hback : '/' ∉ back)
    (path : List Char) :
    lastSegment (front ++ (path ++ back)) =
      (if '/' ∈ path then [] else front) ++ (lastSegment path ++ back) := by
  have hslash : '/' ∈ back.reverse ++ path.reverse ↔ '/' ∈ path := by simp [hback]
  have hfront : '/' ∉ front.reverse := by simpa using hfront
  have hback : '/' ∉ back.reverse := by simpa using hback
  unfold lastSegment
  rw [List.reverse_append, List.reverse_append, takeWhile_ne_append]
  simp only [hslash]
  by_cases hpath : '/' ∈ path
  · rw [if_pos hpath, if_pos hpath, takeWhile_ne_append, if_neg hback]
    simp
  · have hpath' : '/' ∉ path.reverse := by simpa using hpath
    rw [if_neg hpath, if_neg hpath, takeWhile_ne_of_not_mem hfront, takeWhile_ne_of_not_mem hpath']
    simp

/--
The blanks in front of a url that its file starts with: none if there is a directory.
-/
def reaching (front : List Char) (url : String) : List Char :=
  if '/' ∈ path url then [] else front

theorem reaching_ne_nil_iff {front : List Char} {url : String} :
    reaching front url ≠ [] ↔ front ≠ [] ∧ '/' ∉ path url := by
  unfold reaching
  split <;> simp_all

theorem all_reaching {front : List Char} (hfront : front.all isBlank) (url : String) :
    (reaching front url).all isBlank := by
  unfold reaching
  split
  · rfl
  · exact hfront

theorem not_mem_blanks {c : Char} (hc : isBlank c = false) {s : List Char} (hs : s.all isBlank) :
    c ∉ s := by
  intro hmem
  rw [List.all_eq_true.mp hs c hmem] at hc
  contradiction

section

variable {front back : List Char} (hfront : front.all isBlank) (hback : back.all isBlank)
  {written url : String} (h : written.toList = front ++ (url.toList ++ back))

include hfront hback h

theorem path_padded : path written = front ++ (path url ++ if '#' ∈ url.toList then [] else back) := by
  unfold path
  rw [h, takeWhile_ne_append, if_neg (not_mem_blanks (by decide) hfront), takeWhile_ne_append]
  split
  · rw [List.append_nil]
  · next hnone =>
    rw [takeWhile_ne_of_not_mem (not_mem_blanks (by decide) hback), takeWhile_ne_of_not_mem hnone]

theorem anchor_padded :
    (ofUrl written).anchor = (ofUrl url).anchor ++ if '#' ∈ url.toList then back else [] := by
  unfold ofUrl
  dsimp only
  rw [h, dropWhile_ne_append, if_neg (not_mem_blanks (by decide) hfront), dropWhile_ne_append]
  split
  · next hmem =>
    apply List.drop_append_of_le_length
    apply List.length_pos_iff.mpr
    intro hnil
    exact dropWhile_ne_eq_nil_iff.mp hnil hmem
  · next hnone =>
    rw [dropWhile_ne_eq_nil_iff.mpr (not_mem_blanks (by decide) hback),
      dropWhile_ne_eq_nil_iff.mpr hnone, List.append_nil]

theorem file_padded :
    (ofUrl written).file =
      reaching front url ++ ((ofUrl url).file ++ if '#' ∈ url.toList then [] else back) := by
  change lastSegment (path written) = _ ++ (lastSegment (path url) ++ _)
  rw [path_padded hfront hback h, lastSegment_padded (not_mem_blanks (by decide) hfront), reaching]
  split
  · exact List.not_mem_nil
  · exact not_mem_blanks (by decide) hback

/--
What blanks around a url are put next to. Those behind it follow the anchor, or the file if the url has
no `#`; those in front of it precede the file unless there is a directory.
-/
theorem ofUrl_padded :
    ofUrl written = {
      file := reaching front url ++ ((ofUrl url).file ++ if '#' ∈ url.toList then [] else back)
      anchor := (ofUrl url).anchor ++ if '#' ∈ url.toList then back else [] } := by
  rw [← file_padded hfront hback h, ← anchor_padded hfront hback h]

end

theorem path_eq_nil_of_reaching_ne_nil {front : List Char} {url : String}
    (hfile : (ofUrl url).file = []) (h : reaching front url ≠ []) : front ≠ [] ∧ path url = [] := by
  obtain ⟨hne, hpath⟩ := reaching_ne_nil_iff.mp h
  refine ⟨hne, ?_⟩
  change lastSegment (path url) = [] at hfile
  unfold lastSegment at hfile
  rw [takeWhile_ne_of_not_mem (by simpa using hpath), List.reverse_reverse] at hfile
  exact hfile

theorem reaching_ne_nil_of_path_eq_nil {front : List Char} {url : String} (hne : front ≠ [])
    (hpath : path url = []) : reaching front url ≠ [] :=
  reaching_ne_nil_iff.mpr ⟨hne, by rw [hpath]; exact List.not_mem_nil⟩

theorem file_eq_nil_of_path_eq_nil {url : String} (hpath : path url = []) : (ofUrl url).file = [] := by
  change lastSegment (path url) = []
  rw [hpath]
  rfl

theorem anchor_eq_nil_of_not_mem {url : String} (h : '#' ∉ url.toList) : (ofUrl url).anchor = [] := by
  unfold ofUrl
  dsimp only
  rw [dropWhile_ne_eq_nil_iff.mpr h]
  rfl

/--
Whether blanks that stand in front of a url and behind it change the kind that is inferred.
-/
inductive Misleads (front back : List Char) (url scope : String) : Prop
  /-- The blanks stand behind the extension of a page. -/
  | page (hback : back ≠ []) (hurl : '#' ∉ url.toList) (hkind : Kind.infer? url scope = some .page)
  /-- The blanks are taken for an anchor that is empty otherwise. -/
  | anchor (hback : back ≠ []) (hurl : '#' ∈ url.toList) (hanchor : (ofUrl url).anchor = [])
      (hfile : (ofUrl url).file ≠ [] ∨ front ≠ [] ∧ path url = [])
  /-- The blanks stand in front of a name that tells a class or a namespace. -/
  | name (hfront : front ≠ []) (hpath : '/' ∉ path url)
      (hkind : Kind.infer? url scope ∈ [some .classLike, some .nameSpace])
  /-- The blanks are taken for the file of an anchor that has none. -/
  | file (hfront : front ≠ []) (hpath : path url = []) (hanchor : (ofUrl url).anchor ≠ [])

theorem kindOfFile?_ne_kindOfAnchor (file : List Char) (scope : String) :
    kindOfFile? file ≠ some (kindOfAnchor scope) := by
  unfold kindOfFile? kindOfAnchor
  split_ifs <;> simp

theorem kindOfFile?_nil : kindOfFile? [] = none := by
  decide +kernel

theorem kind?_eq_of_anchor_eq_nil {link : Link} (h : link.anchor = []) (scope : String) :
    link.kind? scope = kindOfFile? link.file := by
  rw [kind?_eq, if_pos h]
  split
  · next hfile => rw [hfile, kindOfFile?_nil]
  · rfl

theorem kind?_eq_of_anchor_ne_nil {link : Link} (h : link.anchor ≠ []) (scope : String) :
    link.kind? scope = if link.file = [] then none else some (kindOfAnchor scope) := by
  rw [kind?_eq, if_neg h]

section

variable {front back : List Char} {written url : String} (hfront : front.all isBlank)
  (hback : back.all isBlank) (h : written.toList = front ++ (url.toList ++ back)) (scope : String)

include hfront hback h

theorem infer?_padded_of_anchor_ne_nil (hanchor : (ofUrl url).anchor ≠ []) :
    Kind.infer? written scope = Kind.infer? url scope ↔ ¬Misleads front back url scope := by
  have hurl : Kind.infer? url scope = if (ofUrl url).file = [] then none else some (kindOfAnchor scope) :=
    kind?_eq_of_anchor_ne_nil hanchor scope
  have hmem : '#' ∈ url.toList := by
    by_contra hnone
    exact hanchor (anchor_eq_nil_of_not_mem hnone)
  have hwritten : Kind.infer? written scope =
      if reaching front url ++ (ofUrl url).file = [] then none else some (kindOfAnchor scope) := by
    unfold Kind.infer?
    rw [ofUrl_padded hfront hback h, if_pos hmem, if_pos hmem, List.append_nil]
    apply kind?_eq_of_anchor_ne_nil
    exact List.append_ne_nil_of_left_ne_nil hanchor back
  constructor
  · intro heq hmisleads
    rw [hwritten, hurl] at heq
    cases hmisleads with
    | page _ hnone => exact hnone hmem
    | anchor _ _ hnil => exact hanchor hnil
    | name _ _ hkind =>
      rw [hurl] at hkind
      unfold kindOfAnchor at hkind
      split_ifs at hkind <;> simp at hkind
    | file hne hpath =>
      have hreaching := reaching_ne_nil_of_path_eq_nil hne hpath
      rw [file_eq_nil_of_path_eq_nil hpath, List.append_nil, if_neg hreaching, if_pos rfl] at heq
      contradiction
  · intro hnot
    rw [hwritten, hurl]
    by_cases hfile : (ofUrl url).file = []
    · have hreaching : reaching front url = [] := by
        by_contra hreaching
        obtain ⟨hne, hpath⟩ := path_eq_nil_of_reaching_ne_nil hfile hreaching
        exact hnot (.file hne hpath hanchor)
      rw [hreaching, List.nil_append]
    · rw [if_neg hfile, if_neg (List.append_ne_nil_of_right_ne_nil _ hfile)]

theorem infer?_padded_of_anchor_eq_nil (hanchor : (ofUrl url).anchor = [])
    (hbehind : '#' ∈ url.toList → back = []) :
    Kind.infer? written scope = Kind.infer? url scope ↔ ¬Misleads front back url scope := by
  have hurl : Kind.infer? url scope = kindOfFile? (ofUrl url).file :=
    kind?_eq_of_anchor_eq_nil hanchor scope
  have hwritten : Kind.infer? written scope =
      kindOfFile? (reaching front url ++ ((ofUrl url).file ++ if '#' ∈ url.toList then [] else back)) := by
    unfold Kind.infer?
    rw [ofUrl_padded hfront hback h]
    apply kind?_eq_of_anchor_eq_nil
    simpa [hanchor] using hbehind
  have hall : (if '#' ∈ url.toList then [] else back).all isBlank := by
    split
    · rfl
    · exact hback
  rw [hwritten, hurl, kindOfFile?_padded_eq_iff (all_reaching hfront url) hall, ← hurl]
  apply not_congr
  constructor
  · rintro (⟨hreaching, hkind⟩ | ⟨hne, hkind⟩)
    · obtain ⟨hne, hpath⟩ := reaching_ne_nil_iff.mp hreaching
      exact .name hne hpath hkind
    · by_cases hmem : '#' ∈ url.toList
      · exact absurd (if_pos hmem) hne
      · rw [if_neg hmem] at hne
        exact .page hne hmem hkind
  · intro hmisleads
    cases hmisleads with
    | page hne hmem hkind => exact .inr ⟨by rw [if_neg hmem]; exact hne, hkind⟩
    | anchor hne hmem => exact absurd (hbehind hmem) hne
    | name hne hpath hkind => exact .inl ⟨reaching_ne_nil_iff.mpr ⟨hne, hpath⟩, hkind⟩
    | file _ _ hne => exact absurd hanchor hne

theorem infer?_padded_of_behind_anchor (hanchor : (ofUrl url).anchor = [])
    (hmem : '#' ∈ url.toList) (hne : back ≠ []) :
    Kind.infer? written scope = Kind.infer? url scope ↔ ¬Misleads front back url scope := by
  have hurl : Kind.infer? url scope = kindOfFile? (ofUrl url).file :=
    kind?_eq_of_anchor_eq_nil hanchor scope
  have hwritten : Kind.infer? written scope =
      if reaching front url ++ (ofUrl url).file = [] then none else some (kindOfAnchor scope) := by
    unfold Kind.infer?
    rw [ofUrl_padded hfront hback h, if_pos hmem, if_pos hmem, List.append_nil]
    apply kind?_eq_of_anchor_ne_nil
    exact List.append_ne_nil_of_right_ne_nil _ hne
  have hdiffer : reaching front url ++ (ofUrl url).file ≠ [] →
      Kind.infer? written scope ≠ Kind.infer? url scope := by
    intro hfile heq
    rw [hwritten, hurl, if_neg hfile] at heq
    exact kindOfFile?_ne_kindOfAnchor _ scope heq.symm
  constructor
  · intro heq hmisleads
    cases hmisleads with
    | page _ hnone => exact hnone hmem
    | anchor _ _ _ hfile =>
      rcases hfile with hfile | ⟨hne, hpath⟩
      · exact hdiffer (List.append_ne_nil_of_right_ne_nil _ hfile) heq
      · have hreaching := reaching_ne_nil_of_path_eq_nil hne hpath
        exact hdiffer (List.append_ne_nil_of_left_ne_nil hreaching _) heq
    | name hne hpath =>
      have hreaching : reaching front url ≠ [] := reaching_ne_nil_iff.mpr ⟨hne, hpath⟩
      exact hdiffer (List.append_ne_nil_of_left_ne_nil hreaching _) heq
    | file _ _ hne => exact hne hanchor
  · intro hnot
    have hfile : (ofUrl url).file = [] := by
      by_contra hfile
      exact hnot (.anchor hne hmem hanchor (.inl hfile))
    have hreaching : reaching front url = [] := by
      by_contra hreaching
      exact hnot (.anchor hne hmem hanchor (.inr (path_eq_nil_of_reaching_ne_nil hfile hreaching)))
    rw [hwritten, hurl, hreaching, hfile, kindOfFile?_nil]
    rfl

theorem infer?_padded_iff :
    Kind.infer? written scope = Kind.infer? url scope ↔ ¬Misleads front back url scope := by
  by_cases hanchor : (ofUrl url).anchor = []
  · by_cases hbehind : '#' ∈ url.toList → back = []
    · exact infer?_padded_of_anchor_eq_nil hfront hback h scope hanchor hbehind
    · obtain ⟨hmem, hne⟩ := Classical.not_imp.mp hbehind
      exact infer?_padded_of_behind_anchor hfront hback h scope hanchor hmem hne
  · exact infer?_padded_of_anchor_ne_nil hfront hback h scope hanchor

end

example :
    [
      ("page.html ", "page.html"), ("a.html# ", "a.html#"), (" classa.html", "classa.html"), (" #a", "#a")
    ].map (fun (written, url) => (Kind.infer? written "", Kind.infer? url "")) =
    [
      (none, some .page), (some .member, some .page), (some .page, some .classLike), (some .member, none)
    ] := by
  decide +kernel

theorem kindOfAnchor_trimmed (scope : String) :
    kindOfAnchor (trimmed scope) = kindOfAnchor scope := by
  obtain ⟨front, back, hfront, hback, hscope⟩ := exists_blanks_around_trim scope.toList
  have hmem : '(' ∈ (trimmed scope).toList ↔ '(' ∈ scope.toList := by
    rw [trimmed, String.toList_ofList]
    conv => rhs; rw [hscope]
    simp [not_mem_blanks (show isBlank '(' = false by decide) hfront,
      not_mem_blanks (show isBlank '(' = false by decide) hback]
  unfold kindOfAnchor
  simp only [List.contains_iff_mem, hmem]

theorem infer?_trimmed_scope (url scope : String) :
    Kind.infer? url (trimmed scope) = Kind.infer? url scope := by
  unfold Kind.infer?
  rw [kind?_eq, kind?_eq, kindOfAnchor_trimmed]

end SymbolSearch.Link
