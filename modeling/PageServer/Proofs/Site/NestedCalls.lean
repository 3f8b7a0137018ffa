import PageServer.Proofs.Site.CleanFailures

/-!
# Runs of visits

Answering a path is a run of visits. Each but the last leads on to a page of the
exchange's site, which is the next one visited. How far a run goes depends on no
bound; a bounded dispatch is the run up to its bound.
-/

namespace PageServer.Site

/-- A path that is about to be visited and the exchange it is visited with. -/
structure Visit where
  site : Site
  path : String
  direct : Bool
  exchange : Exchange

namespace Visit

/-- The bounded dispatch that begins with a visit. -/
def answer (v : Visit) (iterations pages : Nat) :
    EStateM.Result (Stop DispatchError) Exchange Unit :=
  v.site.dispatch ⟨iterations, pages⟩ v.path v.direct v.exchange

/-- The visit that a visit leads on to. -/
def next? (iterations : Nat) (v : Visit) : Option Visit :=
  match v.site.visit iterations v.path v.direct v.exchange with
  | .ok (.forward path) ex => ex.site.map fun s => ⟨s, path, false, ex⟩
  | _ => none

/-- The visit after so many nested ones. -/
def nth? (iterations : Nat) : Nat → Visit → Option Visit
  | 0, v => some v
  | n + 1, v => (v.next? iterations).bind (nth? iterations n)

variable {iterations : Nat} {v w : Visit}

theorem nth?_add (n m : Nat) (v : Visit) :
    nth? iterations (n + m) v = (nth? iterations n v).bind (nth? iterations m) := by
  induction n generalizing v with
  | zero => rw [Nat.zero_add, nth?, Option.bind_some]
  | succ n ih =>
    rw [Nat.add_right_comm, nth?, nth?, Option.bind_assoc]
    exact Option.bind_congr fun w _ => ih w

theorem next?_eq_some_iff :
    v.next? iterations = some w ↔
      v.site.visit iterations v.path v.direct v.exchange = .ok (.forward w.path) w.exchange ∧
        w.exchange.site = some w.site ∧ w.direct = false := by
  obtain ⟨s, path, direct, ex⟩ := w
  rw [next?]
  constructor
  · intro h
    split at h
    · next hvisit =>
      obtain ⟨s', hsite, hw⟩ := Option.map_eq_some_iff.mp h
      cases hw
      exact ⟨hvisit, hsite, rfl⟩
    · cases h
  · rintro ⟨hvisit, hsite, hdirect⟩
    dsimp only at hvisit hsite hdirect
    rw [hvisit, hdirect]
    simp only [hsite, Option.map_some]

/-! ### Bounded dispatches -/

theorem answer_of_next?_some (h : v.next? iterations = some w) (pages : Nat) :
    v.answer iterations (pages + 1) = w.answer iterations pages := by
  obtain ⟨hvisit, hsite, hdirect⟩ := next?_eq_some_iff.mp h
  rw [answer, answer, Site.dispatch, dispatchWithin_succ, hvisit, hdirect]
  simp only [hsite]
  rfl

theorem answer_of_next?_none (h : v.next? iterations = none) (pages : Nat) :
    v.answer iterations (pages + 1) = v.answer iterations 1 := by
  simp only [answer, Site.dispatch, dispatchWithin_succ]
  cases hvisit : v.site.visit iterations v.path v.direct v.exchange with
  | error stop ex => rfl
  | ok next ex =>
    cases next with
    | done => rfl
    | forward path =>
      cases hsite : ex.site with
      | none => simp only [hsite]
      | some s =>
        rw [next?, hvisit] at h
        simp [hsite] at h

/-- A dispatch whose bound allows a nested visit ends as that visit does. -/
theorem answer_of_nth?_some {n : Nat} (h : nth? iterations n v = some w) (pages : Nat) :
    v.answer iterations (n + pages) = w.answer iterations pages := by
  induction n generalizing v with
  | zero =>
    cases h
    rw [Nat.zero_add]
  | succ n ih =>
    obtain ⟨mid, hnext, hrest⟩ := Option.bind_eq_some_iff.mp h
    rw [Nat.add_right_comm, answer_of_next?_some hnext, ih hrest]

/-- A bound that the run does not reach is as good as any larger one. -/
theorem answer_of_nth?_none {n : Nat} (h : nth? iterations n v = none) (pages : Nat) :
    v.answer iterations (n + pages) = v.answer iterations n := by
  induction n generalizing v with
  | zero => cases h
  | succ n ih =>
    rw [nth?] at h
    rw [Nat.add_right_comm]
    cases hnext : v.next? iterations with
    | none => rw [answer_of_next?_none hnext (n + pages), answer_of_next?_none hnext n]
    | some mid =>
      rw [hnext, Option.bind_some] at h
      rw [answer_of_next?_some hnext, answer_of_next?_some hnext, ih h]

/-- The run goes on without end. -/
def Endless (iterations : Nat) (v : Visit) : Prop :=
  ∀ n, (nth? iterations n v).isSome

/-- No bound is enough for a run without end. -/
theorem Endless.cutOff (h : v.Endless iterations) (pages : Nat) :
    endResult (v.answer iterations pages) = .error .cutOff := by
  obtain ⟨w, hw⟩ := Option.isSome_iff_exists.mp (h pages)
  rw [← Nat.add_zero pages, answer_of_nth?_some hw 0]
  rfl

theorem Endless.of_nth? {n : Nat} (h : nth? iterations n v = some w)
    (hend : w.Endless iterations) : v.Endless iterations := by
  intro m
  obtain ⟨u, hu⟩ := Option.isSome_iff_exists.mp (hend m)
  -- a run that gets to step `n + m` passes step `m`
  have hfar : ((nth? iterations m v).bind (nth? iterations n)).isSome := by
    rw [← nth?_add, Nat.add_comm, nth?_add, h, Option.bind_some, hu]
    rfl
  exact Option.isSome_of_isSome_bind hfar

/-- A run does not end among visits of a kind that lead on to that kind. -/
theorem endless_of_closed {P : Visit → Prop}
    (hstep : ∀ u, P u → ∃ w, u.next? iterations = some w ∧ P w) (hv : P v) :
    v.Endless iterations := by
  intro n
  induction n generalizing v with
  | zero => rfl
  | succ n ih =>
    obtain ⟨w, hnext, hw⟩ := hstep v hv
    rw [nth?, hnext]
    exact ih hw

end Visit

end PageServer.Site
