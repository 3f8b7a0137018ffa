import PageServer.Text.Trim

/-!
# Cutting text into pieces

Splitting at every separator keeps empty pieces; cutting stops at the first
separator. Lines end with a line feed, before which one carriage return
belongs to the line end.
-/

namespace PageServer.Text

/-- The pieces between the members that pass the test, in order. -/
def splitBy {α : Type} (p : α → Bool) : List α → List (List α)
  | [] => [[]]
  | c :: cs =>
    if p c then [] :: splitBy p cs
    else
      match splitBy p cs with
      | [] => [[c]]
      | w :: ws => (c :: w) :: ws

def splitAt (sep : Char) (cs : List Char) : List (List Char) :=
  splitBy (· == sep) cs

/-- What stands before and after the first member that passes the test. -/
def cutBy? {α : Type} (p : α → Bool) : List α → Option (List α × List α)
  | [] => none
  | c :: cs => if p c then some ([], cs) else (cutBy? p cs).map fun r => (c :: r.1, r.2)

def cut? (sep : Char) (s : String) : Option (String × String) :=
  (cutBy? (· == sep) s.toList).map fun r => (String.ofList r.1, String.ofList r.2)

/-- The non-empty pieces between runs of white space. -/
def words (cs : List Char) : List (List Char) :=
  (splitBy isBlank cs).filter fun w => !w.isEmpty

/-- What is left of a text after its beginning `start`, if it begins so. -/
def strip? : List Char → List Char → Option (List Char)
  | [], cs => some cs
  | _ :: _, [] => none
  | a :: start, c :: cs => if a = c then strip? start cs else none

/-- Drops one last character if it is `c`. -/
def chop (c : Char) (cs : List Char) : List Char :=
  if cs.getLast? = some c then cs.dropLast else cs

/-- The lines of a text. A line feed ends a line, so the text after the last
one is a line only if it is not empty; a carriage return is part of a line end
only before a line feed. -/
def lines (cs : List Char) : List (List Char) :=
  let pieces := splitAt '\n' cs
  let ended := pieces.dropLast.map (chop '\r')
  match pieces.getLast? with
  | none | some [] => ended
  | some last => ended ++ [last]

theorem splitBy_ne_nil {α : Type} (p : α → Bool) (cs : List α) : splitBy p cs ≠ [] := by
  cases cs with
  | nil => simp [splitBy]
  | cons c cs =>
    rw [splitBy]
    split
    · simp
    · split <;> simp

theorem splitBy_eq_splitOnP {α : Type} (p : α → Bool) (cs : List α) :
    splitBy p cs = cs.splitOnP p := by
  induction cs with
  | nil => rfl
  | cons c cs ih =>
    rw [splitBy, List.splitOnP_cons_eq_if_modifyHead, ← ih]
    cases hrest : splitBy p cs with
    | nil => exact absurd hrest (splitBy_ne_nil p cs)
    | cons w ws => rfl

theorem splitBy_append_cons {α : Type} {p : α → Bool} {s : α} (hs : p s = true) (a b : List α) :
    splitBy p (a ++ s :: b) = splitBy p a ++ splitBy p b := by
  induction a with
  | nil => simp [splitBy, hs]
  | cons c a ih =>
    rw [List.cons_append, splitBy, splitBy, ih]
    split
    · rfl
    · cases ha : splitBy p a with
      | nil => exact absurd ha (splitBy_ne_nil p a)
      | cons w ws => rfl

theorem splitBy_eq_self {α : Type} {p : α → Bool} {a : List α} (h : ∀ c ∈ a, p c = false) :
    splitBy p a = [a] := by
  induction a with
  | nil => rfl
  | cons c a ih =>
    rw [splitBy, h c List.mem_cons_self, ih fun d hd => h d (List.mem_cons_of_mem _ hd)]
    rfl

theorem splitAt_eq_self {sep : Char} {a : List Char} (h : sep ∉ a) : splitAt sep a = [a] := by
  apply splitBy_eq_self
  intro c hc
  apply beq_false_of_ne
  rintro rfl
  exact h hc

theorem splitAt_append_cons {sep : Char} {a : List Char} (h : sep ∉ a) (b : List Char) :
    splitAt sep (a ++ sep :: b) = a :: splitAt sep b := by
  have hsplit := splitBy_append_cons (p := (· == sep)) (beq_self_eq_true sep) a b
  rwa [← splitAt, ← splitAt, ← splitAt, splitAt_eq_self h] at hsplit

theorem not_mem_splitBy {α : Type} {p : α → Bool} {a w : List α} (hw : w ∈ splitBy p a) :
    ∀ c ∈ w, p c = false := by
  induction a generalizing w with
  | nil => simp_all [splitBy]
  | cons c a ih =>
    rw [splitBy] at hw
    split at hw
    · rcases List.mem_cons.1 hw with rfl | hw
      · simp
      · exact ih hw
    · next hc =>
      cases ha : splitBy p a with
      | nil => exact absurd ha (splitBy_ne_nil p a)
      | cons v vs =>
        rw [ha] at hw
        rcases List.mem_cons.1 hw with rfl | hw
        · intro d hd
          rcases List.mem_cons.1 hd with rfl | hd
          · simpa using hc
          · exact ih (ha ▸ List.mem_cons_self) d hd
        · exact ih (ha ▸ List.mem_cons_of_mem _ hw)

theorem splitBy_append {α : Type} {p : α → Bool} {a b w : List α} {ws : List (List α)}
    (ha : ∀ c ∈ a, p c = false) (hb : splitBy p b = w :: ws) :
    splitBy p (a ++ b) = (a ++ w) :: ws := by
  induction a with
  | nil => exact hb
  | cons c a ih =>
    have hc := ha c List.mem_cons_self
    rw [List.cons_append, splitBy, ih fun d hd => ha d (List.mem_cons_of_mem c hd), hc]
    rfl

/-- Pieces joined by a separator and a gap after it are split again, the gap
before each piece but the first. -/
theorem splitBy_intercalate {α : Type} {p : α → Bool} {s : α} {gap w : List α}
    {ws : List (List α)} (hs : p s = true) (hgap : ∀ c ∈ gap, p c = false)
    (hw : ∀ c ∈ w, p c = false) (hws : ∀ v ∈ ws, ∀ c ∈ v, p c = false) :
    splitBy p ((s :: gap).intercalate (w :: ws)) = w :: ws.map (gap ++ ·) := by
  induction ws generalizing w with
  | nil =>
    rw [List.intercalate_singleton, splitBy_eq_self hw]
    rfl
  | cons v ws ih =>
    have hv := hws v List.mem_cons_self
    have hrest := ih hv fun u hu => hws u (List.mem_cons_of_mem v hu)
    rw [List.intercalate_cons_cons, List.append_assoc, List.cons_append, splitBy_append_cons hs,
      splitBy_eq_self hw, splitBy_append hgap hrest]
    rfl

theorem chop_concat (c : Char) (cs : List Char) : chop c (cs ++ [c]) = cs := by
  simp [chop]

theorem cutBy?_eq_none_iff {α : Type} {p : α → Bool} {cs : List α} :
    cutBy? p cs = none ↔ ∀ c ∈ cs, p c = false := by
  induction cs with
  | nil => simp [cutBy?]
  | cons c cs ih => by_cases h : p c <;> simp [cutBy?, h, ih]

theorem cutBy?_eq_some_iff {α : Type} {p : α → Bool} {cs a b : List α} :
    cutBy? p cs = some (a, b) ↔
      (∀ c ∈ a, p c = false) ∧ ∃ s, p s = true ∧ cs = a ++ s :: b := by
  induction cs generalizing a with
  | nil => simp [cutBy?]
  | cons c cs ih =>
    by_cases h : p c
    · cases a with
      | nil => simp only [cutBy?, h]; grind
      | cons x a => simp only [cutBy?, h]; grind
    · cases a with
      | nil =>
        simp only [cutBy?, h, Bool.false_eq_true, if_false, Option.map_eq_some_iff, Prod.mk.injEq,
          reduceCtorEq, false_and, and_false, exists_false, false_iff, not_and, not_exists,
          List.nil_append, List.cons.injEq]
        rintro - s hs rfl
        exact absurd hs h
      | cons x a =>
        simp only [cutBy?, h, Bool.false_eq_true, if_false, Option.map_eq_some_iff, Prod.mk.injEq,
          List.cons.injEq, Prod.exists]
        grind

/-- A text is cut where the separator stands first. -/
theorem cutBy?_append_cons {sep : Char} {a : List Char} (h : sep ∉ a) (b : List Char) :
    cutBy? (· == sep) (a ++ sep :: b) = some (a, b) := by
  apply cutBy?_eq_some_iff.mpr
  refine ⟨?_, sep, beq_self_eq_true sep, rfl⟩
  intro c hc
  apply beq_false_of_ne
  rintro rfl
  exact h hc

theorem cut?_eq_none_iff {sep : Char} {s : String} : cut? sep s = none ↔ sep ∉ s.toList := by
  rw [cut?, Option.map_eq_none_iff, cutBy?_eq_none_iff]
  constructor
  · intro h hsep
    exact absurd (h sep hsep) (by simp)
  · intro h c hc
    apply beq_false_of_ne
    rintro rfl
    exact h hc

theorem strip?_eq_some_iff {start cs rest : List Char} :
    strip? start cs = some rest ↔ cs = start ++ rest := by
  induction start generalizing cs with
  | nil => simp [strip?]
  | cons a start ih => cases cs with
    | nil => simp [strip?]
    | cons c cs => by_cases h : a = c <;> simp [strip?, h, ih, eq_comm]

theorem isSome_strip?_iff {start cs : List Char} :
    (strip? start cs).isSome = true ↔ start <+: cs := by
  simp only [Option.isSome_iff_exists, strip?_eq_some_iff]
  constructor
  · rintro ⟨rest, rfl⟩
    exact List.prefix_append start rest
  · rintro ⟨rest, rfl⟩
    exact ⟨rest, rfl⟩

end PageServer.Text
