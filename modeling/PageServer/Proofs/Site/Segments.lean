import Mathlib.Data.List.Induction
import PageServer.Site.Dispatch

/-!
# The segments of a path

A path says no more than its segments do. Written out in canonical form they can
be read back, and one canonical path is a beginning of another up to a slash
exactly if its segments are.
-/

namespace PageServer.Site

/-- What a piece between slashes says. Empty pieces and `.` say nothing. -/
def segment? (w : List Char) : Option String :=
  if w = [] ∨ w = ['.'] then none else some (String.ofList w)

def segmentsOf (cs : List Char) : List String :=
  (Text.splitAt '/' cs).filterMap segment?

def segments (path : String) : List String :=
  segmentsOf path.toList

/-- A text that a path can have as a segment. -/
structure IsSegment (s : String) : Prop where
  ne_empty : s ≠ ""
  ne_here : s ≠ "."
  slashFree : '/' ∉ s.toList

instance : DecidablePred IsSegment := fun s =>
  decidable_of_iff (s ≠ "" ∧ s ≠ "." ∧ '/' ∉ s.toList)
    ⟨fun ⟨he, hh, hs⟩ => ⟨he, hh, hs⟩, fun h => ⟨h.ne_empty, h.ne_here, h.slashFree⟩⟩

/-- What follows the beginning of a path that ends where a segment does. -/
def AtBoundary (rest : List Char) : Prop :=
  rest = [] ∨ rest.head? = some '/'

def spelled (names : List String) : List Char :=
  names.flatMap fun s => '/' :: s.toList

@[simp] theorem spelled_cons (s : String) (names : List String) :
    spelled (s :: names) = '/' :: (s.toList ++ spelled names) := rfl

theorem atBoundary_spelled (names : List String) : AtBoundary (spelled names) := by
  cases names with
  | nil => exact .inl rfl
  | cons s names => exact .inr rfl

theorem toList_join_map (names : List String) :
    (String.join (names.map fun s => "/" ++ s)).toList = spelled names := by
  induction names with
  | nil => rfl
  | cons s names ih => simp [ih]

theorem toList_absolute {names : List String} (h : names ≠ []) :
    (absolute names).toList = spelled names := by
  rw [absolute, if_neg (by simpa using h), toList_join_map]

/-! ### Reading segments -/

theorem segmentsOf_append_slash (a b : List Char) :
    segmentsOf (a ++ '/' :: b) = segmentsOf a ++ segmentsOf b := by
  rw [segmentsOf, Text.splitAt, Text.splitBy_append_cons (by decide), List.filterMap_append]
  rfl

theorem segmentsOf_segment {s : String} (h : IsSegment s) : segmentsOf s.toList = [s] := by
  have hfree : ∀ c ∈ s.toList, (c == '/') = false := by
    intro c hc
    rw [beq_eq_false_iff_ne]
    rintro rfl
    exact h.slashFree hc
  have hempty : s.toList ≠ [] := fun hs => h.ne_empty (String.toList_eq_nil_iff.mp hs)
  have hhere : s.toList ≠ ['.'] := fun hs => h.ne_here (String.toList_inj.mp hs)
  rw [segmentsOf, Text.splitAt, Text.splitBy_eq_self hfree]
  simp [segment?, hempty, hhere]

theorem segmentsOf_append_spelled {names : List String} (h : ∀ s ∈ names, IsSegment s)
    (a : List Char) : segmentsOf (a ++ spelled names) = segmentsOf a ++ names := by
  induction names generalizing a with
  | nil => simp [spelled]
  | cons s names ih =>
    have hs := segmentsOf_segment (h s List.mem_cons_self)
    rw [spelled_cons, segmentsOf_append_slash, ih fun t ht => h t (List.mem_cons_of_mem _ ht), hs]
    rfl

theorem segments_absolute {names : List String} (h : ∀ s ∈ names, IsSegment s) :
    segments (absolute names) = names := by
  cases names with
  | nil => decide
  | cons s names =>
    rw [segments, toList_absolute (List.cons_ne_nil s names)]
    exact segmentsOf_append_spelled h []

theorem isSegment_of_mem {path : String} {s : String} (h : s ∈ segments path) : IsSegment s := by
  obtain ⟨w, hsplit, hw⟩ := List.mem_filterMap.mp h
  obtain ⟨hkept, hword⟩ := Option.ite_none_left_eq_some.mp hw
  obtain ⟨hempty, hhere⟩ := not_or.mp hkept
  obtain rfl := Option.some.inj hword
  refine ⟨?_, ?_, ?_⟩
  · simpa using hempty
  · intro heq
    exact hhere (by rw [← String.toList_ofList (l := w), heq]; rfl)
  · rw [String.toList_ofList]
    intro hslash
    simpa using Text.not_mem_splitBy hsplit '/' hslash

theorem names?_components (path : String) :
    names? (components path) = if ".." ∈ segments path then none else some (segments path) := by
  rw [components, segments, segmentsOf]
  induction Text.splitAt '/' path.toList with
  | nil => rfl
  | cons w ws ih =>
    by_cases hnothing : w = [] ∨ w = ['.']
    · have hsegment : segment? w = none := if_pos hnothing
      rw [List.filterMap_cons_none hsegment, ← ih]
      rcases hnothing with rfl | rfl <;> rfl
    have hsegment : segment? w = some (String.ofList w) := if_neg hnothing
    obtain ⟨hempty, hhere⟩ := not_or.mp hnothing
    rw [List.filterMap_cons_some hsegment]
    by_cases hup : w = ['.', '.']
    · simp [hup, names?]
    · have hword : ".." ≠ String.ofList w := by
        intro h
        exact hup (by rw [← String.toList_ofList (l := w), ← h]; rfl)
      simp only [List.filterMap_cons, hempty, hhere, hup, if_false, names?, ih, List.mem_cons,
        hword, false_or]
      split <;> rfl

/-! ### Beginnings -/

/-- The beginnings of a spelled path that end where a segment does are spelled
paths themselves. -/
theorem spelled_eq_append_iff {names : List String} (h : ∀ s ∈ names, IsSegment s)
    {start rest : List Char} :
    spelled names = start ++ rest ∧ AtBoundary rest ↔
      ∃ above below, names = above ++ below ∧ start = spelled above ∧ rest = spelled below := by
  constructor
  · rintro ⟨heq, hrest⟩
    induction names generalizing start with
    | nil =>
      obtain ⟨rfl, rfl⟩ := List.append_eq_nil_iff.mp heq.symm
      exact ⟨[], [], rfl, rfl, rfl⟩
    | cons s names ih =>
      cases start with
      | nil => exact ⟨[], s :: names, rfl, rfl, heq.symm⟩
      | cons c start =>
        obtain ⟨rfl, htail⟩ := List.cons.inj heq
        rcases List.append_eq_append_iff.mp htail with ⟨a, rfl, ha⟩ | ⟨b, hs, rfl⟩
        · obtain ⟨above, below, rfl, rfl, rfl⟩ :=
            ih (fun t ht => h t (List.mem_cons_of_mem _ ht)) ha
          exact ⟨s :: above, below, rfl, rfl, rfl⟩
        · -- what follows begins within the segment, so right after it
          obtain rfl : b = [] := by
            cases b with
            | nil => rfl
            | cons d b =>
              obtain rfl : d = '/' := by simpa [AtBoundary] using hrest
              exact absurd (by simp [hs]) (h s List.mem_cons_self).slashFree
          refine ⟨[s], names, rfl, ?_, rfl⟩
          simp [spelled, hs]
  · rintro ⟨above, below, rfl, rfl, rfl⟩
    exact ⟨List.flatMap_append, atBoundary_spelled below⟩

/-- Dropping the slashes at its end leaves a path its segments. -/
theorem segments_trimPrefix (configured : String) :
    segments (trimPrefix configured) = segments configured := by
  rw [segments, segments, trimPrefix, String.toList_ofList]
  induction configured.toList using List.reverseRecOn with
  | nil => rfl
  | append_singleton cs c ih =>
    rw [Text.dropEndWhile_concat]
    split
    · next hslash =>
      obtain rfl : c = '/' := by simpa using hslash
      rw [ih, segmentsOf_append_slash]
      exact (List.append_nil _).symm
    · rfl

theorem trimPrefix_absolute {names : List String} (h : ∀ s ∈ names, IsSegment s)
    (hne : names ≠ []) : trimPrefix (absolute names) = absolute names := by
  obtain ⟨front, t, rfl⟩ : ∃ front t, names = front ++ [t] :=
    ⟨_, _, (List.dropLast_concat_getLast hne).symm⟩
  have ht := h t (by simp)
  have hword : t.toList ≠ [] := fun hnil => ht.ne_empty (String.toList_eq_nil_iff.mp hnil)
  obtain ⟨word, c, hc⟩ : ∃ word c, t.toList = word ++ [c] :=
    ⟨_, _, (List.dropLast_concat_getLast hword).symm⟩
  have hlast : (c == '/') = false := by
    rw [beq_eq_false_iff_ne]
    rintro rfl
    exact ht.slashFree (by simp [hc])
  have hchars : (absolute (front ++ [t])).toList = (spelled front ++ '/' :: word) ++ [c] := by
    rw [toList_absolute hne]
    simp [spelled, hc]
  rw [trimPrefix, hchars, Text.dropEndWhile_concat, hlast, if_neg Bool.false_ne_true, ← hchars,
    String.ofList_toList]

end PageServer.Site
