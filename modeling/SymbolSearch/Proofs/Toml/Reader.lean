import SymbolSearch.Proofs.Toml.Value

/-!
This module contains the proof that documents are read as what is written, and how far the reading of
a text is settled by the lines at its start.
-/

namespace SymbolSearch.Toml

open Text (Stops)

theorem WritesKey.readAssignment_append {key : Key} {name before : List Char} (hkey : WritesKey key name)
    (hbefore : before.all isBlank) (value : ValueReader) (s : List Char) :
    readAssignment .blanks value (name ++ (before ++ '=' :: s)) =
      mapRead (key, ·) (value.read (skipBlanks s)) := by
  unfold readAssignment
  rw [hkey.readKey_append hbefore (.cons rfl)]
  rfl

theorem WritesKey.readStatement_append {key : Key} {name before : List Char} (hkey : WritesKey key name)
    (hbefore : before.all isBlank) (s : List Char) :
    readStatement (name ++ (before ++ '=' :: s)) =
      mapRead (.assignment key ·) ((valueReader maxDepth).read (skipBlanks s)) := by
  have hread := hkey.readAssignment_append hbefore (valueReader maxDepth) s
  obtain ⟨c, r, rfl, hc⟩ := hkey.text_eq_cons
  rw [readStatement, hread]
  · cases (valueReader maxDepth).read (skipBlanks s) <;> rfl
  all_goals
    intros
    simp_all [startsName, isBareChar]

/--
What follows the bracket that opens the line of a table is read as the table's name.
-/
theorem WritesKey.readKey_behind_bracket {key : Key} {before name behind : List Char}
    (hbefore : before.all isBlank) (hkey : WritesKey key name) (hbehind : behind.all isBlank)
    (s : List Char) :
    readKey (skipBlanks (before ++ (name ++ (behind ++ ']' :: s)))) = some (key, ']' :: s) := by
  rw [skipBlanks_append hbefore (hkey.stops_isBlank _), hkey.readKey_append hbehind (.cons rfl)]

theorem Opens.key_eq {key : Key} {text s r : List Char} {statement : Statement} (h : Opens key text)
    (hread : readStatement (text ++ s) = some (statement, r)) : statement.key = key := by
  cases h with
  | assignment hkey hbefore =>
    simp only [List.append_assoc, List.singleton_append] at hread
    rw [hkey.readStatement_append hbefore] at hread
    obtain ⟨value, -, rfl⟩ := mapRead_eq_some hread
    rfl
  | @table before name behind hbefore hkey hbehind =>
    have hname := WritesKey.readKey_behind_bracket hbefore hkey hbehind s
    simp only [List.cons_append, List.append_assoc, List.nil_append] at hread
    rw [readStatement, hname] at hread
    · cases hread
      rfl
    · intro r heq
      have hstops : Stops (· == '[') (before ++ (name ++ (behind ++ ']' :: s))) :=
        stops_blanks_append (Text.beq_eq_false_of_eq_false rfl) hbefore
          (hkey.stops_append (Text.beq_eq_false_of_eq_false rfl) _)
      rw [heq] at hstops
      exact absurd rfl (Text.stops_beq_iff.mp hstops)
  | @element before name behind hbefore hkey hbehind =>
    have hname := WritesKey.readKey_behind_bracket hbefore hkey hbehind (']' :: s)
    simp only [List.cons_append, List.append_assoc, List.nil_append] at hread
    rw [readStatement, hname] at hread
    cases hread
    rfl

theorem Opens.stops_append {p : Char → Bool} (hname : ∀ c, startsName c → p c = false)
    (hbracket : p '[' = false) {key : Key} {text : List Char} (h : Opens key text) (s : List Char) :
    Stops p (text ++ s) := by
  cases h with
  | assignment hkey hbefore =>
    rw [List.append_assoc]
    exact hkey.stops_append hname _
  | table _ _ _ => exact .cons hbracket
  | element _ _ _ => exact .cons hbracket

theorem WritesStatement.stops_append {p : Char → Bool} (hname : ∀ c, startsName c → p c = false)
    {statement : Statement} {text : List Char} (h : WritesStatement statement text) (s : List Char) :
    Stops p (text ++ s) := by
  obtain ⟨hkey, -, -, -⟩ := h
  rw [List.append_assoc]
  exact hkey.stops_append hname _

theorem WritesStatement.readStatement_append {statement : Statement} {text s : List Char}
    (h : WritesStatement statement text) (hs : Stops continuesValue s) :
    readStatement (text ++ s) = some (statement, s) := by
  obtain ⟨hkey, hbefore, hbehind, h⟩ := h
  simp only [List.append_assoc, List.cons_append]
  rw [hkey.readStatement_append hbefore, skipBlanks_append hbehind (h.stops_isBlank s),
    h.read_append hs]
  rfl

theorem readStatements_eq (s : List Char) (statements : List Statement) :
    readStatements s statements =
      if skipLayout s = [] then some statements.reverse
      else (readStatement (skipLayout s)).bind fun (statement, r) =>
        (afterLine? r).bind fun next => readStatements next (statement :: statements) := by
  rw [readStatements]
  split
  · next heq => rw [if_pos heq]
  · next hne =>
    rw [if_neg hne]
    split
    · next hread => rw [hread]; rfl
    · next hread =>
      rw [hread]
      dsimp only [Option.bind_some]
      split <;> next hline => rw [hline]; rfl

theorem readStatements_nil (statements : List Statement) :
    readStatements [] statements = some statements.reverse := by
  rw [readStatements_eq, skipLayout, if_pos rfl]

theorem Layout.readStatements_append {text : List Char} (h : Layout text) (s : List Char)
    (statements : List Statement) :
    readStatements (text ++ s) statements = readStatements s statements := by
  rw [readStatements_eq, h.skipLayout_append, ← readStatements_eq]

theorem Comment.readStatements_self {text : List Char} (h : Comment text)
    (statements : List Statement) : readStatements text statements = some statements.reverse := by
  have hskip := h.skipLayout_append .nil
  rw [List.append_nil, skipLayout.eq_1] at hskip
  rw [readStatements_eq, if_pos hskip]

theorem ne_nil_of_readStatement {statement : Statement} {s r : List Char}
    (h : readStatement s = some (statement, r)) : s ≠ [] := by
  rintro rfl
  exact Nat.not_lt_zero _ (readStatement_length_lt h)

theorem WritesStatement.readStatements_append {statement : Statement} {text s next : List Char}
    (h : WritesStatement statement text) (hs : Stops continuesValue s) (hline : afterLine? s = some next)
    (statements : List Statement) :
    readStatements (text ++ s) statements = readStatements next (statement :: statements) := by
  have hread := h.readStatement_append hs
  have hskip : skipLayout (text ++ s) = text ++ s :=
    skipLayout_of_stops (h.stops_append startsLayout_eq_false_of_startsName s)
  rw [readStatements_eq, hskip, if_neg (ne_nil_of_readStatement hread), hread, Option.bind_some]
  dsimp only
  rw [hline, Option.bind_some]

/--
Whole lines are read as their statements, whatever follows them.
-/
theorem Lines.readStatements_append {statements : List Statement} {text : List Char}
    (h : Lines statements text) (s : List Char) (read : List Statement) :
    readStatements (text ++ s) read = readStatements s (statements.reverse ++ read) := by
  induction h generalizing read with
  | nil => rfl
  | layout h hrest ih => rw [List.append_assoc, h.readStatements_append, ih]
  | @line statement statements text ending newline rest h hending hnewline hrest ih =>
    have hstops : Stops continuesValue (ending ++ (newline ++ (rest ++ s))) :=
      hending.stops_append continuesValue_eq_false_of_startsLayout (hnewline.stops_append rfl rfl _)
    simp only [List.append_assoc]
    rw [h.readStatements_append hstops (hending.afterLine?_newline hnewline _), ih,
      List.reverse_cons, List.append_assoc, List.singleton_append]

theorem Lines.stops_append {p : Char → Bool} (hlayout : ∀ c, startsLayout c → p c = false)
    (hname : ∀ c, startsName c → p c = false) {statements : List Statement} {text s : List Char}
    (h : Lines statements text) (hs : Stops p s) : Stops p (text ++ s) := by
  induction h with
  | nil => exact hs
  | layout h hrest ih =>
    rw [List.append_assoc]
    exact h.stops_append hlayout ih
  | line h hending hnewline hrest ih =>
    rw [List.append_assoc]
    exact h.stops_append hname _

theorem Lines.readDocument_append {statements : List Statement} {text s : List Char}
    (h : Lines statements text) (hs : Stops (· == '\uFEFF') s) :
    readDocument (text ++ s) = readStatements s statements.reverse := by
  have hmark : Stops (· == '\uFEFF') (text ++ s) :=
    h.stops_append (Text.beq_eq_false_of_eq_false rfl) (Text.beq_eq_false_of_eq_false rfl) hs
  unfold readDocument
  split
  · next heq =>
    rw [heq] at hmark
    exact absurd rfl (Text.stops_beq_iff.mp hmark)
  · rw [h.readStatements_append, List.append_nil]

theorem Document.readDocument_eq {statements : List Statement} {text : List Char}
    (h : Document statements text) : readDocument text = some statements := by
  cases h with
  | lines h =>
    have hread := h.readDocument_append .nil
    rw [List.append_nil] at hread
    rw [hread, readStatements_nil, List.reverse_reverse]
  | comment h hcomment =>
    rw [h.readDocument_append, hcomment.readStatements_self, List.reverse_reverse]
    obtain ⟨-⟩ := hcomment
    exact .cons rfl
  | @line statements statement text last ending h hlast hending =>
    have hstops := hending.stops_append continuesValue_eq_false_of_startsLayout .nil
    rw [List.append_nil] at hstops
    rw [h.readDocument_append (hlast.stops_append (Text.beq_eq_false_of_eq_false rfl) ending),
      hlast.readStatements_append hstops hending.afterLine?_self, readStatements_nil,
      List.reverse_cons, List.reverse_reverse]

theorem exists_of_readStatements {s : List Char} {read statements : List Statement}
    (h : readStatements s read = some statements) : ∃ more, statements = read.reverse ++ more := by
  fun_induction readStatements s read with
  | case1 s read hlayout =>
    cases h
    exact ⟨[], (List.append_nil _).symm⟩
  | case2 => contradiction
  | case3 => contradiction
  | case4 s read statement _ _ _ _ _ ih =>
    obtain ⟨more, rfl⟩ := ih h
    refine ⟨statement :: more, ?_⟩
    rw [List.reverse_cons, List.append_assoc, List.singleton_append]

/--
A document that can be read at all has the statements of its first lines and then one with the key that
is written behind them.
-/
theorem Lines.exists_of_readDocument {front statements : List Statement} {lines opening s : List Char}
    {key : Key} (h : Lines front lines) (hopens : Opens key opening)
    (hread : readDocument (lines ++ (opening ++ s)) = some statements) :
    ∃ statement more, statement.key = key ∧ statements = front ++ statement :: more := by
  have hskip : skipLayout (opening ++ s) = opening ++ s :=
    skipLayout_of_stops (hopens.stops_append startsLayout_eq_false_of_startsName rfl s)
  rw [h.readDocument_append (hopens.stops_append (Text.beq_eq_false_of_eq_false rfl) rfl s),
    readStatements_eq, hskip] at hread
  split at hread
  · next hnil => cases hopens <;> simp_all
  · obtain ⟨⟨statement, r⟩, hstatement, hread⟩ := Option.bind_eq_some_iff.mp hread
    obtain ⟨next, -, hread⟩ := Option.bind_eq_some_iff.mp hread
    obtain ⟨more, rfl⟩ := exists_of_readStatements hread
    refine ⟨statement, more, hopens.key_eq hstatement, ?_⟩
    rw [List.reverse_cons, List.reverse_reverse, List.append_assoc, List.singleton_append]

end SymbolSearch.Toml
