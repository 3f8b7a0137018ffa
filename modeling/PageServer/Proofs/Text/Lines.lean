import Mathlib.Data.List.Basic
import Mathlib.Data.List.TakeWhile
import PageServer.Text.Split

/-!
# The lines of a text

Every text is laid out in lines in just one way, whichever ends its lines have and whether
or not the last one has any. What is trimmed off a line is white space only, so a carriage
return that may belong to its end makes no difference to a line that is trimmed.
-/

namespace PageServer.Text

/-- A text that is laid out in lines. Each line has an end of either kind, and what
follows the last end is a line if there is anything. A carriage return before a line feed
is no part of a line. -/
inductive Lined : List (List Char) → List Char → Prop
  | empty : Lined [] []
  | last {l : List Char} (hne : l ≠ []) (hl : '\n' ∉ l) : Lined [l] l
  | feed {l text : List Char} {lines : List (List Char)} (hl : '\n' ∉ l)
      (hreturn : l.getLast? ≠ some '\r') (h : Lined lines text) :
      Lined (l :: lines) (l ++ '\n' :: text)
  | returnFeed {l text : List Char} {lines : List (List Char)} (hl : '\n' ∉ l)
      (h : Lined lines text) : Lined (l :: lines) (l ++ '\r' :: '\n' :: text)

theorem lines_of_not_mem {l : List Char} (hne : l ≠ []) (hl : '\n' ∉ l) : lines l = [l] := by
  cases l with
  | nil => exact absurd rfl hne
  | cons c l => simp only [lines, splitAt_eq_self hl]; rfl

theorem lines_append_feed {l : List Char} (hl : '\n' ∉ l) (text : List Char) :
    lines (l ++ '\n' :: text) = chop '\r' l :: lines text := by
  obtain ⟨w, ws, hws⟩ := List.exists_cons_of_ne_nil (splitBy_ne_nil (· == '\n') text)
  have hrest : splitAt '\n' text = w :: ws := hws
  simp only [lines, splitAt_append_cons hl, hrest, List.dropLast_cons_cons, List.map_cons,
    List.getLast?_cons_cons]
  split <;> rfl

theorem chop_of_getLast?_ne {c : Char} {l : List Char} (h : l.getLast? ≠ some c) :
    chop c l = l :=
  if_neg h

theorem Lined.lines_eq {ls : List (List Char)} {text : List Char} (h : Lined ls text) :
    lines text = ls := by
  induction h with
  | empty => rfl
  | last hne hl => exact lines_of_not_mem hne hl
  | feed hl hreturn h ih => rw [lines_append_feed hl, chop_of_getLast?_ne hreturn, ih]
  | @returnFeed l text ls hl h ih =>
    have hfront : '\n' ∉ l ++ ['\r'] := by simp [hl]
    have hend : l ++ '\r' :: '\n' :: text = (l ++ ['\r']) ++ '\n' :: text := by simp
    rw [hend, lines_append_feed hfront, chop_concat, ih]

/-- Every text is laid out in its lines. -/
theorem lined_lines (text : List Char) : Lined (lines text) text := by
  by_cases hfeed : '\n' ∈ text
  · obtain ⟨l, rest, htext, hl⟩ := List.eq_append_cons_of_mem hfeed
    have hshorter : rest.length < text.length := by simp [htext]; omega
    have ih := lined_lines rest
    subst htext
    rw [lines_append_feed hl]
    by_cases hreturn : l.getLast? = some '\r'
    · obtain ⟨front, rfl⟩ := List.getLast?_eq_some_iff.mp hreturn
      have hfront : '\n' ∉ front := fun h => hl (List.mem_append_left _ h)
      rw [chop_concat, List.append_assoc]
      exact .returnFeed hfront ih
    · rw [chop_of_getLast?_ne hreturn]
      exact .feed hl hreturn ih
  · by_cases hne : text = []
    · subst hne
      exact .empty
    · rw [lines_of_not_mem hne hfeed]
      exact .last hne hfeed
termination_by text.length

/-! ### White space at the ends -/

theorem trimChars_eq_nil_iff {cs : List Char} :
    trimChars cs = [] ↔ ∀ c ∈ cs, isBlank c = true := by
  induction cs with
  | nil => simp
  | cons c cs ih =>
    by_cases hc : isBlank c = true
    · rw [trimChars_cons_of_isBlank hc, ih, List.forall_mem_cons]
      exact (and_iff_right hc).symm
    · have hdrop : (c :: cs).dropWhile isBlank = c :: cs := List.dropWhile_cons_of_neg hc
      rw [trimChars, hdrop, dropEndWhile, List.reverse_eq_nil_iff, List.dropWhile_eq_nil_iff]
      simp only [List.mem_reverse]

theorem trimChars_concat_of_isBlank {c : Char} (hc : isBlank c = true) (cs : List Char) :
    trimChars (cs ++ [c]) = trimChars cs := by
  induction cs with
  | nil => rw [List.nil_append, trimChars_cons_of_isBlank hc]
  | cons d cs ih =>
    by_cases hd : isBlank d = true
    · rw [List.cons_append, trimChars_cons_of_isBlank hd, trimChars_cons_of_isBlank hd, ih]
    · have hdrop (rest : List Char) : (d :: rest).dropWhile isBlank = d :: rest :=
        List.dropWhile_cons_of_neg hd
      rw [trimChars, List.cons_append, hdrop, ← List.cons_append, dropEndWhile_concat, if_pos hc,
        trimChars, hdrop]

theorem trimChars_chop_return (l : List Char) : trimChars (chop '\r' l) = trimChars l := by
  by_cases h : l.getLast? = some '\r'
  · obtain ⟨front, rfl⟩ := List.getLast?_eq_some_iff.mp h
    rw [chop_concat, trimChars_concat_of_isBlank (by decide)]
  · rw [chop_of_getLast?_ne h]

end PageServer.Text
