import SymbolSearch.Literal.Cursor
import SymbolSearch.Proofs.Literal.Unread
import SymbolSearch.Proofs.Text.Slice

/-!
This module contains the proof that what a cursor does is safe where the text behind it is such as
the operation expects. The expectation is a step on that text: the scan has to end as the step does,
and in front of the text that the step leaves.
-/

namespace SymbolSearch.Literal.Scan

/--
Whether the cursor stands in front of a text, inside of `depth` arrays, and all was safe so far.
-/
structure Stands (source : Source) (depth : Nat) (rest : List Char) (s : State) : Prop where
  suffix : rest <:+ source.text
  place_add : s.cursor.place + Text.byteLength rest = source.size
  depth_eq : s.cursor.depth = depth
  isSafe : ∀ event ∈ s.events, event.IsSafe source.text

/--
Whether a scan ends like a step.
-/
inductive Ends (source : Source) (depth : Nat) : Step α → EStateM.Result Halt State α → Prop
  | ok {a : α} {rest : List Char} {s : State} (h : Stands source depth rest s) :
    Ends source depth (.ok (a, rest)) (.ok a s)
  | error {fault : Fault} {s : State} (h : Stands source depth fault.rest s) :
    Ends source depth (.error fault)
      (.error (.fault (source.base + fault.offset source.text) fault.cause) s)

/--
Whether a scanner does what a step does, whenever the cursor stands in front of a text.
-/
def Follows (source : Source) (depth : Nat) (rest : List Char) (step : Step α) (scan : Scan α) :
    Prop :=
  ∀ s, Stands source depth rest s → Ends source depth step (scan source s)

variable {source : Source} {depth : Nat} {s t : State} {rest r : List Char}

namespace Stands

theorem initial (source : Source) : Stands source 0 source.text {} := by
  refine ⟨List.suffix_refl _, Nat.zero_add _, rfl, ?_⟩
  rw [List.forall_mem_singleton]
  exact Text.isBoundary_of_suffix (List.suffix_refl source.text) (Nat.zero_add _)

theorem record (h : Stands source depth rest s) {event : Event}
    (hevent : event.IsSafe source.text) : Stands source depth rest (s.record event) :=
  ⟨h.suffix, h.place_add, h.depth_eq, List.forall_mem_cons.mpr ⟨hevent, h.isSafe⟩⟩

theorem within (h : Stands source depth rest s) (inner : Nat) :
    Stands source inner rest { s with cursor.depth := inner } :=
  ⟨h.suffix, h.place_add, rfl, h.isSafe⟩

theorem left_eq (h : Stands source depth rest s) : s.left source = Text.byteLength rest := by
  rw [State.left, ← h.place_add, Nat.add_sub_cancel_left]

theorem isSafe_call (hs : Stands source depth rest s) (ht : Stands source depth r t)
    (hr : r <:+ rest) : (Event.call s.cursor t.cursor).IsSafe source.text := by
  have hsplace := hs.place_add
  have htplace := ht.place_add
  have hle := Text.byteLength_le_of_suffix hr
  refine ⟨?_, hs.depth_eq.trans ht.depth_eq.symm⟩
  omega

theorem isSafe_round (hs : Stands source depth rest s) (ht : Stands source depth r t)
    (hlt : Text.byteLength r < Text.byteLength rest) :
    (Event.round s.cursor t.cursor).IsSafe source.text := by
  have hsplace := hs.place_add
  have htplace := ht.place_add
  change s.cursor.place < t.cursor.place
  omega

end Stands

section Monad

variable {a : α} {halt : Halt} {scan : Scan α}

theorem bind_of_ok (h : scan source s = .ok a t) (next : α → Scan β) :
    (scan >>= next) source s = next a source t := by
  simp only [bind, ReaderT.bind, EStateM.bind, h]

theorem bind_of_error (h : scan source s = .error halt t) (next : α → Scan β) :
    (scan >>= next) source s = .error halt t := by
  simp only [bind, ReaderT.bind, EStateM.bind, h]

theorem read_apply (source : Source) (s : State) : (read : Scan Source) source s = .ok source s :=
  rfl

theorem modify_apply (f : State → State) (source : Source) (s : State) :
    (modify f : Scan Unit) source s = .ok () (f s) :=
  rfl

theorem place_apply (source : Source) (s : State) : place source s = .ok s.cursor.place s :=
  rfl

theorem depth_apply (source : Source) (s : State) : Scan.depth source s = .ok s.cursor.depth s :=
  rfl

theorem enter_apply (source : Source) (s : State) :
    enter source s = .ok () { s with cursor.depth := s.cursor.depth + 1 } :=
  rfl

theorem leave_of_depth_eq (h : s.cursor.depth = depth + 1) :
    leave source s = .ok () { s with cursor.depth := depth } := by
  unfold leave
  rw [bind_of_ok (depth_apply source s), if_neg (by omega)]
  obtain rfl : s.cursor.depth - 1 = depth := by omega
  rfl

theorem nested_of_ok
    (h : scan source { s with cursor.depth := s.cursor.depth + 1 } = .ok a t)
    (ht : t.cursor.depth = depth + 1) :
    nested scan source s = .ok a { t with cursor.depth := depth } := by
  unfold nested
  rw [bind_of_ok (enter_apply source s), bind_of_ok (a := a) (t := t),
    bind_of_ok (leave_of_depth_eq ht)]
  · rfl
  · simp only [tryCatch, tryCatchThe, MonadExceptOf.tryCatch, EStateM.tryCatch, h]

theorem nested_of_error
    (h : scan source { s with cursor.depth := s.cursor.depth + 1 } = .error halt t)
    (ht : t.cursor.depth = depth + 1) :
    nested scan source s = .error halt { t with cursor.depth := depth } := by
  unfold nested
  rw [bind_of_ok (enter_apply source s)]
  apply bind_of_error
  simp only [tryCatch, tryCatchThe, MonadExceptOf.tryCatch, EStateM.tryCatch, h]
  exact bind_of_ok (leave_of_depth_eq ht) _

end Monad

namespace Follows

section Combinators

variable {step : Step α} {scan : Scan α} {a : α} {fault : Fault}

theorem of_suffix (h : rest <:+ source.text → Follows source depth rest step scan) :
    Follows source depth rest step scan := by
  intro s hs
  exact h hs.suffix s hs

protected theorem pure (a : α) : Follows source depth rest (.ok (a, rest)) (pure a) := by
  intro s hs
  exact .ok hs

theorem bind {step : Step β} {next : α → Scan β}
    (h : Follows source depth rest (.ok (a, r)) scan)
    (hnext : Follows source depth r step (next a)) :
    Follows source depth rest step (scan >>= next) := by
  intro s hs
  have hend := h s hs
  generalize hrun : scan source s = run at hend
  cases hend with
  | ok ht =>
    rw [bind_of_ok hrun]
    exact hnext _ ht

theorem bind_error (h : Follows source depth rest (.error fault) scan) (next : α → Scan β) :
    Follows source depth rest (.error fault) (scan >>= next) := by
  intro s hs
  have hend := h s hs
  generalize hrun : scan source s = run at hend
  cases hend with
  | error ht =>
    rw [bind_of_error hrun]
    exact .error ht

/-- The step may tell what it reads in another way than the scan does. -/
theorem bind_map {read : Except Fault γ} {g : γ → α × List Char}
    {f : γ → Except Fault (β × List Char)} {next : α → Scan β}
    (h : Follows source depth rest (read.map g) scan)
    (hnext : ∀ c, Follows source depth (g c).2 (f c) (next (g c).1)) :
    Follows source depth rest (read >>= f : Except Fault _) (scan >>= next) := by
  cases read with
  | ok c => exact h.bind (hnext c)
  | error => exact h.bind_error next

theorem map (f : α → β) (h : Follows source depth rest step scan) :
    Follows source depth rest (mapRead f step) (f <$> scan) := by
  rw [map_eq_pure_bind]
  cases step with
  | ok read => exact h.bind (.pure _)
  | error => exact h.bind_error _

protected theorem call (h : Follows source depth rest step scan)
    (hunread : unread Prod.snd step <:+ rest) :
    Follows source depth rest step (Scan.call scan) := by
  intro s hs
  have hend := h s hs
  unfold Scan.call
  generalize scan source s = run at hend
  cases hend with
  | ok ht => exact .ok (ht.record (hs.isSafe_call ht hunread))
  | error ht => exact .error (ht.record (hs.isSafe_call ht hunread))

protected theorem nested (h : Follows source (depth + 1) rest step scan) :
    Follows source depth rest step (Scan.nested scan) := by
  intro s hs
  have hend := h _ (hs.within (depth + 1))
  rw [← hs.depth_eq] at hend
  generalize hrun : scan source _ = run at hend
  cases hend with
  | ok ht =>
    rw [nested_of_ok hrun ht.depth_eq, hs.depth_eq]
    exact .ok (ht.within depth)
  | error ht =>
    rw [nested_of_error hrun ht.depth_eq, hs.depth_eq]
    exact .error (ht.within depth)

end Combinators

section Loop

variable {body : α → Scan (ForInStep α)} {a b : α}

theorem loop_done (h : Follows source depth rest (.ok (.done b, r)) (body a)) :
    Follows source depth rest (.ok (b, r)) (loop body a) := by
  intro s hs
  have hend := h s hs
  generalize hrun : body a source s = run at hend
  cases hend with
  | ok ht =>
    rw [loop, hrun]
    exact .ok ht

theorem loop_error {fault : Fault} (h : Follows source depth rest (.error fault) (body a)) :
    Follows source depth rest (.error fault) (loop body a) := by
  intro s hs
  have hend := h s hs
  generalize hrun : body a source s = run at hend
  cases hend with
  | error ht =>
    rw [loop, hrun]
    exact .error ht

theorem loop_yield {step : Step α} (h : Follows source depth rest (.ok (.yield b, r)) (body a))
    (hlt : Text.byteLength r < Text.byteLength rest)
    (hloop : Follows source depth r step (loop body b)) :
    Follows source depth rest step (loop body a) := by
  intro s hs
  have hend := h s hs
  generalize hrun : body a source s = run at hend
  cases hend with
  | @ok _ _ t ht =>
    have hleft : t.left source < s.left source := by
      rwa [ht.left_eq, hs.left_eq]
    rw [loop, hrun]
    dsimp only
    rw [if_pos hleft]
    exact hloop _ (ht.record (hs.isSafe_round ht hlt))

end Loop

protected theorem fail (cause : Cause) :
    Follows source depth rest (.error ⟨cause, rest⟩) (Scan.fail cause : Scan α) := by
  intro s hs
  have hplace : s.cursor.place = source.size - Text.byteLength rest := by
    rw [← hs.place_add, Nat.add_sub_cancel]
  unfold Scan.fail
  rw [bind_of_ok (read_apply source s), bind_of_ok (place_apply source s), hplace]
  exact .error hs

protected theorem read : Follows source depth rest (.ok (source, rest)) read := by
  intro s hs
  exact .ok hs

protected theorem depth : Follows source depth rest (.ok (depth, rest)) Scan.depth := by
  intro s hs
  rw [depth_apply, hs.depth_eq]
  exact .ok hs

protected theorem place :
    Follows source depth rest (.ok (source.size - Text.byteLength rest, rest)) place := by
  intro s hs
  rw [place_apply, ← hs.place_add, Nat.add_sub_cancel]
  exact .ok hs

theorem moveTo {place : Nat} (hr : r <:+ source.text)
    (hplace : place + Text.byteLength r = source.size) :
    Follows source depth rest (.ok ((), r)) (Scan.moveTo place) := by
  intro s hs
  exact .ok ⟨hr, hplace, hs.depth_eq,
    List.forall_mem_cons.mpr ⟨Text.isBoundary_of_suffix hr hplace, hs.isSafe⟩⟩

theorem advance {n : Nat} (hr : r <:+ rest) (hn : n + Text.byteLength r = Text.byteLength rest) :
    Follows source depth rest (.ok ((), r)) (Scan.advance n) := by
  intro s hs
  have hplace := hs.place_add
  unfold Scan.advance
  rw [bind_of_ok (place_apply source s)]
  exact moveTo (hr.trans hs.suffix) (by omega) s hs

theorem retreat {n : Nat} (hr : r <:+ source.text)
    (hn : n + Text.byteLength rest = Text.byteLength r) :
    Follows source depth rest (.ok ((), r)) (Scan.retreat n) := by
  intro s hs
  have hplace := hs.place_add
  have hle : Text.byteLength r ≤ source.size := Text.byteLength_le_of_suffix hr
  unfold Scan.retreat
  rw [bind_of_ok (place_apply source s), if_pos (by omega), bind_of_ok (place_apply source s)]
  exact moveTo hr (by omega) s hs

theorem slice {start stop : Nat} {part behind : List Char} (hr : part ++ behind <:+ source.text)
    (hstart : start + Text.byteLength (part ++ behind) = source.size)
    (hstop : start + Text.byteLength part = stop) :
    Follows source depth rest (.ok (part, rest)) (Scan.slice start stop) := by
  have hslice : Text.slice? source.text start stop = some part := by
    obtain ⟨before, htext⟩ := hr
    obtain rfl : start = Text.byteLength before := by
      rw [Source.size, ← htext, Text.byteLength_append before] at hstart
      omega
    rw [← htext, ← hstop, Text.slice?_append, Text.splitBytes?_append, Option.map_some]
  intro s hs
  unfold Scan.slice
  rw [bind_of_ok (modify_apply _ source s), bind_of_ok (read_apply source _), hslice]
  exact .ok (hs.record (Text.exists_slice?_iff.mp ⟨part, hslice⟩))

theorem restFrom {n : Nat} (hr : r <:+ rest) (hn : n + Text.byteLength r = Text.byteLength rest) :
    Follows source depth rest (.ok (r, rest)) (Scan.restFrom n) := by
  intro s hs
  have hplace := hs.place_add
  have hsuffix : r ++ [] <:+ source.text := by
    rw [List.append_nil]
    exact hr.trans hs.suffix
  unfold Scan.restFrom
  rw [bind_of_ok (place_apply source s), bind_of_ok (read_apply source s)]
  refine slice hsuffix ?_ ?_ s hs
  · rw [List.append_nil]
    omega
  · omega

protected theorem rest : Follows source depth rest (.ok (rest, rest)) Scan.rest :=
  restFrom (List.suffix_refl rest) (Nat.zero_add _)

theorem front {part : List Char} {n : Nat} (h : part ++ r = rest)
    (hn : Text.byteLength part = n) :
    Follows source depth rest (.ok (part, rest)) (Scan.front n) := by
  subst h hn
  intro s hs
  unfold Scan.front
  rw [bind_of_ok (place_apply source s), bind_of_ok (place_apply source s)]
  exact slice hs.suffix hs.place_add rfl s hs

theorem front? (n : Nat) :
    Follows source depth rest (.ok ((Text.splitBytes? n rest).map Prod.fst, rest))
      (Scan.front? n) := by
  refine .bind .rest ?_
  cases hsplit : Text.splitBytes? n rest with
  | none => exact .pure none
  | some split =>
    obtain ⟨hrest, hn⟩ := Text.eq_append_of_splitBytes? hsplit
    exact (front hrest.symm hn).map some

theorem row (p : Char → Bool) :
    Follows source depth rest (.ok (rest.takeWhile p, rest)) (Scan.row p) :=
  .bind .rest (.front List.takeWhile_append_dropWhile (Text.getD_find?_not p rest).symm)

theorem peek : Follows source depth rest (.ok (rest.head?, rest)) Scan.peek :=
  .bind .rest (.pure _)

theorem peek_of_head {step : Step α} {scan other : Scan α} {c : Char}
    (h : Follows source depth (c :: r) step scan) :
    Follows source depth (c :: r) step
      (do if (← Scan.peek) = some c then scan else other) := by
  refine .bind .peek ?_
  rwa [if_pos List.head?_cons]

theorem peek_of_other {step : Step α} {scan other : Scan α} {c : Char}
    (hother : ∀ r, rest = c :: r → False) (h : Follows source depth rest step other) :
    Follows source depth rest step (do if (← Scan.peek) = some c then scan else other) := by
  refine .bind .peek ?_
  rwa [if_neg]
  intro hhead
  obtain ⟨r, rfl⟩ := List.head?_eq_some_iff.mp hhead
  exact hother r rfl

theorem bump_nil : Follows source depth [] (.ok (none, [])) Scan.bump :=
  .bind .peek (.pure none)

theorem bump_cons (c : Char) : Follows source depth (c :: r) (.ok (some c, r)) Scan.bump :=
  .bind .peek (.bind (.advance (List.suffix_cons c r) rfl) (.pure (some c)))

end Follows

end SymbolSearch.Literal.Scan
