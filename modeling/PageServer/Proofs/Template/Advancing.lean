import PageServer.Proofs.Template.Draining

/-!
# Calls to a scanner in any order

A caller may change the mode of a scanner at any place and may ask on after an
error. The scanner moves forward all the same and not beyond the end, and the
characters that are ahead bound the tokens that are still to come.
-/

namespace PageServer.Template

theorem Cursor.Reaches.of_beginning {cs : List Char} {c : Cursor} (h : Reaches ⟨cs, 0⟩ c) :
    c.offset ≤ cs.length ∧ c.rest = cs.drop c.offset := by
  obtain ⟨between, hrest, hoffset⟩ := h
  obtain rfl : cs = between ++ c.rest := hrest
  rw [hoffset, Nat.zero_add, List.drop_left]
  exact ⟨List.length_append ▸ Nat.le_add_right _ _, rfl⟩

theorem Token.isEnd_of_ne {t : Token} (h : t ≠ .endOfInput) : t.isEnd = false := by
  cases t with
  | endOfInput => exact absurd rfl h
  | _ => rfl

namespace Scanner

/-! ### Asking for a token -/

theorem scanIn_advances {mode : Mode} {c : Cursor} {scan : Scan Token}
    (h : scanIn mode c = scan) : c.Advances scan := by
  subst h
  cases mode with
  | literal => exact scanLiteral_advances c
  | directive => exact scanDirective_advances c

/-- As many tokens as may still come, the end of the input among them. -/
def room (s : Scanner) : ℕ :=
  if s.atEnd then 0 else s.cursor.rest.length + 1

theorem room_of_atEnd {s : Scanner} (h : s.atEnd = true) : s.room = 0 :=
  if_pos h

theorem room_of_open {s : Scanner} (h : s.atEnd = false) :
    s.room = s.cursor.rest.length + 1 :=
  if_neg (Bool.eq_false_iff.mp h)

namespace Outcome

variable {s s' : Scanner} {r : Except ScanError Token}

theorem reaches (h : s.Outcome r s') : s.cursor.Reaches s'.cursor := by
  cases h with
  | exhausted hend => exact .refl _
  | failed hopen hscan => exact (scanIn_advances hscan).reaches
  | token hopen hscan => exact (scanIn_advances hscan).reaches

/-- A token takes from what may still come, an error adds nothing to it. -/
theorem room_add_le (h : s.Outcome r s') : s'.room + (if r.isOk then 1 else 0) ≤ s.room := by
  cases h with
  | exhausted hend => exact Nat.le_refl _
  | @failed c e hopen hscan =>
    have hopen' : atEnd ⟨c, s.mode, s.last⟩ = false := hopen
    rw [room_of_open hopen, room_of_open hopen']
    exact Nat.succ_le_succ (scanIn_advances hscan).reaches.length_le
  | @token c t hopen hscan =>
    have hlast : atEnd ⟨c, s.mode, some t⟩ = t.isEnd := rfl
    change room ⟨c, s.mode, some t⟩ + 1 ≤ s.room
    rw [room_of_open hopen]
    cases hend : t.isEnd with
    | true =>
      rw [room_of_atEnd (hlast.trans hend)]
      exact Nat.succ_le_succ (Nat.zero_le _)
    | false =>
      rw [room_of_open (hlast.trans hend)]
      exact Nat.succ_le_succ ((scanIn_advances hscan).shorter t rfl hend)

theorem shape {t : Token} (h : s.Outcome (.ok t) s') :
    t.IsLexeme ∧ (t.kind.isOutside = true ↔ s.mode = .literal) := by
  cases h with
  | token hopen hscan => exact scanIn_shape hscan

theorem atEnd_of_endOfInput (h : s.Outcome (.ok .endOfInput) s') : s'.atEnd = true := by
  cases h with
  | token => rfl

end Outcome

theorem offset_lt_of_next {s s' : Scanner} {t : Token} (h : s.next = (.ok t, s'))
    (ht : t ≠ .endOfInput) : s.cursor.offset < s'.cursor.offset := by
  have hlength := (outcome_of_next h).reaches.length_eq
  have hshorter := next_shorter h (Token.isEnd_of_ne ht)
  omega

/-! ### Calls -/

/-- What a caller does with a scanner. -/
inductive Call where
  | enter (mode : Mode)
  | next

def perform (s : Scanner) : Call → Scanner
  | .enter mode => { s with mode := mode }
  | .next => s.next.2

/-- The scanner after these calls. -/
def after (s : Scanner) (calls : List Call) : Scanner :=
  calls.foldl perform s

/-- What each call for a token gave. -/
def answers (s : Scanner) : List Call → List (Except ScanError Token)
  | [] => []
  | .enter mode :: calls => answers { s with mode := mode } calls
  | .next :: calls => s.next.1 :: answers s.next.2 calls

theorem perform_reaches (s : Scanner) (call : Call) :
    s.cursor.Reaches (s.perform call).cursor := by
  cases call with
  | enter mode => exact .refl _
  | next => exact (outcome_of_next rfl).reaches

theorem after_reaches (s : Scanner) (calls : List Call) :
    s.cursor.Reaches (s.after calls).cursor := by
  induction calls generalizing s with
  | nil => exact .refl _
  | cons call calls ih => exact (s.perform_reaches call).trans (ih (s.perform call))

/-- Each token that was given has used up room. -/
theorem room_after_add_le (s : Scanner) (calls : List Call) :
    (s.after calls).room + (s.answers calls).countP Except.isOk ≤ s.room := by
  induction calls generalizing s with
  | nil => exact Nat.le_refl _
  | cons call calls ih =>
    cases call with
    | enter mode => exact ih { s with mode := mode }
    | next =>
      have hnext := (outcome_of_next (s := s) rfl).room_add_le
      have hrest := ih s.next.2
      rw [answers, List.countP_cons, ← Nat.add_assoc]
      exact (Nat.add_le_add_right hrest _).trans hnext

/-! ### The end of the input -/

theorem after_of_atEnd {s : Scanner} (h : s.atEnd = true) (calls : List Call) :
    (s.after calls).atEnd = true := by
  induction calls generalizing s with
  | nil => exact h
  | cons call calls ih =>
    cases call with
    | enter mode => exact ih h
    | next => exact ih (by rwa [perform, next, if_pos h])

/-- After the end of the input there are no more tokens, in either mode. -/
theorem exhausted_of_atEnd {s : Scanner} (h : s.atEnd = true) (calls : List Call) :
    ∀ r ∈ s.answers calls, r = .error .exhausted := by
  induction calls generalizing s with
  | nil => exact nofun
  | cons call calls ih =>
    cases call with
    | enter mode => exact ih (s := { s with mode := mode }) h
    | next =>
      rw [answers, next, if_pos h]
      exact List.forall_mem_cons.mpr ⟨rfl, ih h⟩

theorem atEnd_of_mem_answers {s : Scanner} {calls : List Call}
    (h : .ok .endOfInput ∈ s.answers calls) : (s.after calls).atEnd = true := by
  induction calls generalizing s with
  | nil => cases h
  | cons call calls ih =>
    cases call with
    | enter mode => exact ih h
    | next =>
      rcases List.mem_cons.mp h with hend | hmem
      · have hnext : s.next = (.ok .endOfInput, s.next.2) := Prod.ext hend.symm rfl
        exact after_of_atEnd (outcome_of_next hnext).atEnd_of_endOfInput calls
      · exact ih hmem

end Scanner

end PageServer.Template
