import PageServer.Text.CharClass

/-!
# Trimming

Surrounding white space is removed from both ends of a text; what lies between
two other characters is kept.
-/

namespace PageServer.Text

/-- Drops the longest run at the end whose members pass the test. -/
def dropEndWhile {α : Type} (p : α → Bool) (cs : List α) : List α :=
  (cs.reverse.dropWhile p).reverse

def trimChars (cs : List Char) : List Char :=
  dropEndWhile isBlank (cs.dropWhile isBlank)

def trim (s : String) : String :=
  String.ofList (trimChars s.toList)

theorem dropEndWhile_concat {α : Type} (p : α → Bool) (cs : List α) (c : α) :
    dropEndWhile p (cs ++ [c]) = if p c then dropEndWhile p cs else cs ++ [c] := by
  by_cases h : p c <;> simp [dropEndWhile, h]

@[simp] theorem trimChars_nil : trimChars [] = [] := rfl

theorem trimChars_cons_of_isBlank {c : Char} (hc : isBlank c = true) (cs : List Char) :
    trimChars (c :: cs) = trimChars cs := by
  rw [trimChars, List.dropWhile_cons_of_pos hc, ← trimChars]

/-- Text that neither begins nor ends in white space is left as it is. -/
theorem trimChars_eq_self {cs : List Char} (hfirst : ∀ c, cs.head? = some c → isBlank c = false)
    (hlast : ∀ c, cs.getLast? = some c → isBlank c = false) : trimChars cs = cs := by
  have hdrop : cs.dropWhile isBlank = cs := by
    cases cs with
    | nil => rfl
    | cons c cs => simp [hfirst c rfl]
  rw [trimChars, hdrop, dropEndWhile]
  cases hr : cs.reverse with
  | nil => simpa using hr.symm
  | cons c r =>
    have hc : cs.getLast? = some c := by rw [← List.head?_reverse, hr]; rfl
    rw [List.dropWhile_cons_of_neg (by simp [hlast c hc]), ← hr, List.reverse_reverse]

end PageServer.Text
