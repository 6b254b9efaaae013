import SymbolSearch.Proofs.Config.Draft
import SymbolSearch.Proofs.Toml.Reader

/-!
This module contains what comes of a document that makes settings: exactly the configuration with these
settings, a complaint about a limit of zero, or, if some line has no place in it, the complaint that it
is malformed.
-/

namespace SymbolSearch.Config

open Toml (Document Key Lines Opens Statement WritesItems WritesKey WritesStatement WritesString
  WritesValue)

theorem exists_writesItems (kinds : List Kind) :
    ∃ text, WritesItems (kinds.map fun kind => .string kind.name) text := by
  induction kinds with
  | nil => exact ⟨_, .close .nil⟩
  | cons kind kinds ih =>
    obtain ⟨text, h⟩ := ih
    have hname : WritesString kind.name ('\'' :: (kind.name.toList ++ ['\''])) :=
      .literal (by cases kind <;> decide)
    exact ⟨_, .more .nil (.string hname) .nil h⟩

theorem Setting.exists_writesValue (setting : Setting) : ∃ text, WritesValue setting.value text := by
  cases setting with
  | maxGroups n => exact ⟨_, .scalar (.integer n)⟩
  | maxEntriesPerGroup n => exact ⟨_, .scalar (.integer n)⟩
  | kinds kinds =>
    obtain ⟨text, h⟩ := exists_writesItems kinds
    exact ⟨_, .array h⟩

theorem Setting.writesKey (setting : Setting) : WritesKey setting.key setting.name.toList := by
  have hname : setting.name.toList ≠ [] ∧ setting.name.toList.all Toml.isBareChar := by
    cases setting
    all_goals
      dsimp only [name]
      decide
  exact .last (.bare hname.1 hname.2)

theorem Setting.exists_writesStatement (setting : Setting) :
    ∃ text, WritesStatement setting.statement text := by
  obtain ⟨text, h⟩ := setting.exists_writesValue
  exact ⟨_, .assignment setting.writesKey List.all_nil List.all_nil h⟩

theorem exists_lines (settings : List Setting) :
    ∃ text, Lines (settings.map Setting.statement) text := by
  induction settings with
  | nil => exact ⟨_, .nil⟩
  | cons setting settings ih =>
    obtain ⟨rest, hrest⟩ := ih
    obtain ⟨text, h⟩ := setting.exists_writesStatement
    exact ⟨_, .line h (.blanks List.all_nil) .lf hrest⟩

theorem exists_document (settings : List Setting) :
    ∃ text : String, Document (settings.map Setting.statement) text.toList := by
  obtain ⟨text, h⟩ := exists_lines settings
  refine ⟨.ofList text, ?_⟩
  rw [String.toList_ofList]
  exact .lines h

theorem Draft.validate_toConfig (draft : Draft) :
    draft.toConfig.validate =
      if draft.maxGroups = some 0 then .error (.zero .maxGroups)
      else if draft.maxEntriesPerGroup = some 0 then .error (.zero .maxEntriesPerGroup)
      else .ok ⟨draft.maxGroups.getD 100, draft.maxEntriesPerGroup.getD 50, draft.kinds⟩ := by
  have hzero {n? : Option Nat} {n : Nat} (hn : n ≠ 0) : n?.getD n = 0 ↔ n? = some 0 := by
    cases n? <;> simp [hn]
  unfold validate toConfig
  simp only [hzero (show 100 ≠ 0 by decide), hzero (show 50 ≠ 0 by decide)]

theorem ofDocument?_of_perm {draft : Draft} {settings : List Setting} {text : String}
    (hfits : ∀ setting ∈ draft.settings, setting.Fits) (hperm : settings.Perm draft.settings)
    (h : Document (settings.map Setting.statement) text.toList) :
    ofDocument? text = some draft.toConfig := by
  have hall : ({} : Draft).setAll? (settings.map Setting.statement) = some draft := by
    apply Draft.setAll?_of_perm
    · intro setting hmem
      exact hfits setting (hperm.mem_iff.mp hmem)
    · exact hperm
  unfold ofDocument?
  rw [h.readDocument_eq]
  simp [hall]

/--
Whether a statement with a given key has no place behind other ones: the key is not the one of a setting,
or one of the other statements has it.
-/
def IsStray (front : List Statement) (key : Key) : Prop :=
  (∀ setting : Setting, key ≠ setting.key) ∨ key ∈ front.map Statement.key

theorem ofDocument_of_isStray {text : String} {front more : List Statement} {statement : Statement}
    (hread : Toml.readDocument text.toList = some (front ++ statement :: more))
    (hfront : ∀ other ∈ front, ∃ key value, other = .assignment key value)
    (h : IsStray front statement.key) : ofDocument text = .error .malformed := by
  have hnone : ({} : Draft).setAll? (front ++ statement :: more) = none :=
    Draft.setAll?_eq_none hfront h
  unfold ofDocument ofDocument?
  rw [hread]
  simp [hnone]

theorem exists_assignment_of_lines {front : List Statement} {lines : List Char} (h : Lines front lines) :
    ∀ other ∈ front, ∃ key value, other = .assignment key value := by
  induction h with
  | nil => exact List.forall_mem_nil _
  | layout _ _ ih => exact ih
  | line h _ _ _ ih =>
    rw [List.forall_mem_cons]
    refine ⟨?_, ih⟩
    cases h
    exact ⟨_, _, rfl⟩

theorem ofDocument_of_lines {front : List Statement} {lines opening s : List Char} {key : Key}
    (hlines : Lines front lines) (hopens : Opens key opening) (h : IsStray front key) :
    ofDocument (.ofList (lines ++ (opening ++ s))) = .error .malformed := by
  cases hread : Toml.readDocument (lines ++ (opening ++ s)) with
  | none =>
    unfold ofDocument ofDocument?
    rw [String.toList_ofList, hread]
    rfl
  | some statements =>
    obtain ⟨statement, more, rfl, rfl⟩ := hlines.exists_of_readDocument hopens hread
    apply ofDocument_of_isStray _ (exists_assignment_of_lines hlines) h
    · exact more
    · rw [String.toList_ofList, hread]

/--
All settings can be written, whichever they are. A document with settings on its lines, in any order and
with any layout around them, comes to the configuration with these settings and the defaults of the
others; a limit of zero is refused, the one on groups first. A document with a line that is about anything
else, or about a setting again, is malformed, whatever the limits are and whatever follows.
-/
theorem ofDocument_settings :
    (∀ settings : List Setting,
      ∃ text : String, Document (settings.map Setting.statement) text.toList) ∧
    (∀ (draft : Draft) (settings : List Setting) (text : String),
      (∀ setting ∈ draft.settings, setting.Fits) → settings.Perm draft.settings →
      Document (settings.map Setting.statement) text.toList →
      ofDocument text =
        if draft.maxGroups = some 0 then .error (.zero .maxGroups)
        else if draft.maxEntriesPerGroup = some 0 then .error (.zero .maxEntriesPerGroup)
        else .ok ⟨draft.maxGroups.getD 100, draft.maxEntriesPerGroup.getD 50, draft.kinds⟩) ∧
    (∀ (front : List Statement) (lines opening s : List Char) (key : Key),
      Lines front lines → Opens key opening → IsStray front key →
      ofDocument (.ofList (lines ++ (opening ++ s))) = .error .malformed) ∧
    ∀ (text : String) (front more : List Statement) (statement : Statement),
      Toml.readDocument text.toList = some (front ++ statement :: more) →
      (∀ other ∈ front, ∃ key value, other = .assignment key value) →
      IsStray front statement.key → ofDocument text = .error .malformed := by
  refine ⟨exists_document, ?_, ?_, ?_⟩
  · intro draft settings text hfits hperm h
    unfold ofDocument
    rw [ofDocument?_of_perm hfits hperm h]
    exact draft.validate_toConfig
  · intro front lines opening s key hlines hopens h
    exact ofDocument_of_lines hlines hopens h
  · intro text front more statement hread hfront h
    exact ofDocument_of_isStray hread hfront h

/--
A document with a comment in front, an array over two lines and the greatest limit at its end; and two
documents with a limit of zero and a line that has no place behind it.
-/
theorem ofDocument_settings_layout :
    ofDocument "# all\r\n\nkinds = ['page', # twice\n'page',]\n\tmax_groups = 18446744073709551615 # all" =
      .ok ⟨18446744073709551615, 50, some [.page, .page]⟩ ∧
    ofDocument "max_groups = 0\nmax_results = 3" = .error .malformed ∧
    ofDocument "max_groups = 0\nmax_groups = 1" = .error .malformed := by
  have hgroups (n : Nat) : WritesStatement (Setting.maxGroups n).statement
      ("max_groups".toList ++ ([' '] ++ '=' :: ([' '] ++ Nat.toDigits 10 n))) :=
    .assignment (Setting.maxGroups n).writesKey rfl rfl (.scalar (.integer n))
  have hpage : Toml.WritesScalar (.string "page") "'page'".toList := .string (.literal rfl)
  have htwice : Toml.Layout " # twice\n".toList :=
    .blank rfl (.comment (@Toml.Comment.mk " twice".toList rfl) .lf .nil)
  have hkinds : WritesStatement (Setting.kinds [.page, .page]).statement
      ("kinds".toList ++ ([' '] ++ '=' :: ([' '] ++ "['page', # twice\n'page',]".toList))) :=
    .assignment (Setting.kinds _).writesKey rfl rfl
      (.array (.more .nil hpage .nil (.more htwice hpage .nil (.close .nil))))
  have hend : Toml.Ending [] := .blanks rfl
  have hall : Toml.Comment "# all".toList := @Toml.Comment.mk " all".toList rfl
  have hlines : Lines [(Setting.kinds [.page, .page]).statement]
      "# all\r\n\nkinds = ['page', # twice\n'page',]\n\t".toList :=
    .layout (.comment hall .crlf (.newline .lf .nil))
      (.line hkinds hend .lf (.layout (.blank rfl .nil) .nil))
  have hdocument := Document.line hlines (hgroups 18446744073709551615)
    (.comment (rfl : [' '].all Toml.isBlank) hall)
  have hzero : Lines [(Setting.maxGroups 0).statement] "max_groups = 0\n".toList :=
    .line (hgroups 0) hend .lf .nil
  refine ⟨?_, ?_, ?_⟩
  · apply ofDocument_settings.2.1 ⟨some 18446744073709551615, none, some [.page, .page]⟩
      [.kinds [.page, .page], .maxGroups 18446744073709551615]
    · simp [Draft.settings, Setting.Fits]
    · apply List.Perm.swap
    · exact hdocument
  · have hopens : Opens ["max_results"] "max_results =".toList :=
      .assignment (.last (.bare (by decide) (by decide))) (rfl : [' '].all Toml.isBlank)
    apply ofDocument_settings.2.2.1 _ _ _ [' ', '3'] _ hzero hopens
    left
    intro setting
    cases setting <;> simp [Setting.key, Setting.name]
  · apply ofDocument_settings.2.2.2 _ [(Setting.maxGroups 0).statement] [] (Setting.maxGroups 1).statement
    · exact (Document.line hzero (hgroups 1) hend).readDocument_eq
    · simp [Setting.statement]
    · right
      exact List.mem_singleton_self _

end SymbolSearch.Config
