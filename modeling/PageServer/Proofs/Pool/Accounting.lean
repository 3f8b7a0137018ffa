import Mathlib.Data.List.Perm.Subperm
import PageServer.Proofs.Pool.Moves

/-!
# The books of a worker pool

The counters of a pool are changed one at a time, by submissions and workers that know
nothing of each other. Where the jobs are says at every moment what the counters have to
be: the books of a pool are numbers read off its submissions, its queue and its workers.
Every move changes the books and the counters alike, and in whatever order the moves are
made nothing is taken from a number that is zero.
-/

namespace PageServer.Pool

variable {α : Type}

/-! ### The books -/

namespace Submission

@[simp] def job : Submission α → Job α
  | .begun j | .counted j | .entered j | .refused j | .leaving j => j

@[simp] def isCounted : Submission α → Bool
  | .begun _ => false
  | _ => true

@[simp] def isInFlight : Submission α → Bool
  | .begun _ | .counted _ => false
  | _ => true

@[simp] def isCompleted : Submission α → Bool
  | .leaving _ => true
  | _ => false

end Submission

namespace Worker

/-- The job that a worker has received and not yet run. -/
@[simp] def waiting : Worker α → Option (Job α)
  | .received j => some j
  | _ => none

/-- The worker has run its job, which is still counted as in flight. -/
@[simp] def hasRun : Worker α → Bool
  | .panicked _ | .finished _ | .leaving _ => true
  | _ => false

/-- The worker has run its job and not yet counted it as completed. -/
@[simp] def isUncounted : Worker α → Bool
  | .panicked _ | .finished _ => true
  | _ => false

/-- The job of the worker panicked and is not yet counted so. -/
@[simp] def isPanicked : Worker α → Bool
  | .panicked _ => true
  | _ => false

@[simp] def isBusy : Worker α → Bool
  | .idle | .gone => false
  | _ => true

end Worker

/-- What the counters count, without the bounds of machine words. -/
@[ext] structure Counts where
  submitted : ℕ
  completed : ℕ
  panicked : ℕ
  inFlight : ℕ

def Counts.words (c : Counts) : Metrics :=
  ⟨.ofNat c.submitted, .ofNat c.completed, .ofNat c.panicked, .ofNat c.inFlight⟩

/-- What is read off the counters. -/
def Metrics.read (m : Metrics) : Counts :=
  ⟨m.submitted.toNat, m.completed.toNat, m.panicked.toNat, m.inFlight.toNat⟩

/-- Later books, in which what is never taken back is no less. -/
structure Counts.Precedes (c c' : Counts) : Prop where
  submitted : c.submitted ≤ c'.submitted
  completed : c.completed ≤ c'.completed
  panicked : c.panicked ≤ c'.panicked

/-- The books of a pool. Submitted are the jobs that were accepted or given back and those
of submissions that have been counted; completed are the jobs given back and those that
were run, less those of which a worker has still to say so; panicked are the jobs that ran
and panicked, less those that a worker has still to report. In flight are the jobs in the
queue, with the workers and in submissions that are about to send or to give back. -/
def counts (p : Pool α) : Counts where
  submitted :=
    p.submissions.countP Submission.isCounted + p.accepted.length + p.refused.length
  completed :=
    p.submissions.countP Submission.isCompleted + p.refused.length +
      (p.ran.length - p.workers.countP Worker.isUncounted)
  panicked :=
    (p.ran.countP fun j => p.panics j.task) - p.workers.countP Worker.isPanicked
  inFlight :=
    p.submissions.countP Submission.isInFlight + p.queue.length +
      p.workers.countP Worker.isBusy

/-- One tick of the books and the counters. At most one of the numbers changes, by one, and
one is taken only from what is in flight. -/
inductive Tick (c c' : Counts) (m m' : Metrics) : Prop
  | still (hc : c' = c) (hm : m' = m)
  | submitted (hc : c' = { c with submitted := c.submitted + 1 }) (hm : m' = m.countSubmitted)
  | entered (hc : c' = { c with inFlight := c.inFlight + 1 }) (hm : m' = m.enter)
  | completed (hc : c' = { c with completed := c.completed + 1 }) (hm : m' = m.countCompleted)
  | panicked (hc : c' = { c with panicked := c.panicked + 1 }) (hm : m' = m.recordPanic)
  | left (hc : c = { c' with inFlight := c'.inFlight + 1 }) (hm : m' = m.leave)

/-- What holds of a pool at every moment. The counters are as the books say; the jobs that
the queue took are in it, with a worker or run; and of all the submissions begun, each is
going on, was accepted or was refused, just once. -/
structure Books (p : Pool α) : Prop where
  metrics : p.metrics = p.counts.words
  hasRun : p.workers.countP Worker.hasRun ≤ p.ran.length
  panicked : p.workers.countP Worker.isPanicked ≤ p.ran.countP fun j => p.panics j.task
  accepted : (p.queue ++ (p.workers.filterMap Worker.waiting ++ p.ran)).Perm p.accepted
  numbers :
    ((p.submissions.map Submission.job ++ (p.accepted ++ p.refused)).map Job.number).Perm
      (List.range p.begun)

theorem countP_isUncounted_le (ws : List (Worker α)) :
    ws.countP Worker.isUncounted ≤ ws.countP Worker.hasRun := by
  apply List.countP_mono_left
  intro w _ hw
  cases w with
  | panicked j | finished j => rfl
  | _ => cases hw

theorem countP_isBusy (ws : List (Worker α)) :
    ws.countP Worker.isBusy = (ws.filterMap Worker.waiting).length + ws.countP Worker.hasRun := by
  induction ws with
  | nil => rfl
  | cons w ws ih => cases w <;> simp [List.countP_cons, List.filterMap_cons, ih] <;> omega

/-! ### Moves keep the books -/

variable {p p' : Pool α}

theorem Books.isUncounted_le (hb : Books p) :
    p.workers.countP Worker.isUncounted ≤ p.ran.length :=
  Nat.le_trans (countP_isUncounted_le p.workers) hb.hasRun

namespace Moves

theorem panics_eq (h : Moves p p') : p'.panics = p.panics := by
  cases h <;> rfl

theorem begun_le (h : Moves p p') : p.begun ≤ p'.begun := by
  cases h with
  | submit task hopen => exact Nat.le_succ _
  | _ => exact Nat.le_refl _

theorem hasRun (h : Moves p p') (hb : Books p) :
    p'.workers.countP Worker.hasRun ≤ p'.ran.length := by
  have hran := hb.hasRun
  cases h with
  | receive h | exit h => simpa [h] using hran
  | finish h | panic h | recordPanic h | countRan h | rest h =>
    simp [List.countP_cons, h] at hran ⊢
    omega
  | _ => exact hran

theorem panicked (h : Moves p p') (hb : Books p) :
    p'.workers.countP Worker.isPanicked ≤ p'.ran.countP fun j => p'.panics j.task := by
  have hran := hb.panicked
  cases h with
  | receive h | exit h | countRan h | rest h => simpa [h] using hran
  | finish h hreturns => simpa [h, hreturns] using hran
  | panic h hpanics =>
    simp [List.countP_cons, h, hpanics] at hran ⊢
    omega
  | recordPanic h =>
    simp [List.countP_cons, h] at hran ⊢
    omega
  | _ => exact hran

/-- Which number each of the moves changes. -/
theorem tick (h : Moves p p') (hb : Books p) :
    Tick p.counts p'.counts p.metrics p'.metrics := by
  -- What a worker has run and not counted or reported is taken from no less than it.
  have hran := hb.isUncounted_le
  have hpanicked := hb.panicked
  cases h with
  | submit task hopen => exact .still (by ext <;> simp [counts]) rfl
  | count h => exact .submitted (by ext <;> simp [counts, List.countP_cons, h]; omega) rfl
  | enter h => exact .entered (by ext <;> simp [counts, List.countP_cons, h]; omega) rfl
  | send h hworkers => exact .still (by ext <;> simp [counts, List.countP_cons, h] <;> omega) rfl
  | refuse h hworkers => exact .still (by ext <;> simp [counts, List.countP_cons, h]) rfl
  | countRefused h => exact .completed (by ext <;> simp [counts, List.countP_cons, h]; omega) rfl
  | giveBack h => exact .left (by ext <;> simp [counts, List.countP_cons, h] <;> omega) rfl
  | receive h hqueue =>
    exact .still (by ext <;> simp [counts, List.countP_cons, h, hqueue]; omega) rfl
  | exit h hqueue hclosed => exact .still (by ext <;> simp [counts, h]) rfl
  | finish h hreturns =>
    rw [h, List.countP_append, List.countP_cons] at hran
    exact .still (by ext <;> simp [counts, List.countP_cons, h, hreturns]; omega) rfl
  | panic h hpanics =>
    exact .still (by ext <;> simp [counts, List.countP_cons, h, hpanics] <;> omega) rfl
  | recordPanic h =>
    exact .panicked (by ext <;> simp [counts, List.countP_cons, h] at hpanicked ⊢; omega) rfl
  | countRan h =>
    exact .completed (by ext <;> simp [counts, List.countP_cons, h] at hran ⊢; omega) rfl
  | rest h => exact .left (by ext <;> simp [counts, List.countP_cons, h]; omega) rfl
  | close h => exact .still rfl rfl

theorem accepted (h : Moves p p') (hb : Books p) :
    (p'.queue ++ (p'.workers.filterMap Worker.waiting ++ p'.ran)).Perm p'.accepted := by
  classical
  have hperm := hb.accepted
  -- A move takes a job from the middle of one list to the end of another, which is easier to
  -- follow by how often each job occurs.
  rw [List.perm_iff_count] at hperm ⊢
  intro x
  specialize hperm x
  cases h with
  | send h hworkers =>
    simp [List.count_append, List.count_cons] at hperm ⊢
    omega
  | receive h hqueue =>
    simp [h, hqueue, List.filterMap_cons, List.count_cons] at hperm ⊢
    omega
  | finish h | panic h =>
    simp [h, List.filterMap_cons, List.count_cons] at hperm ⊢
    omega
  | exit h | recordPanic h | countRan h | rest h =>
    simpa [h, List.filterMap_cons] using hperm
  | _ => exact hperm

theorem numbers (h : Moves p p') (hb : Books p) :
    ((p'.submissions.map Submission.job ++ (p'.accepted ++ p'.refused)).map Job.number).Perm
      (List.range p'.begun) := by
  have hperm := hb.numbers
  rw [List.perm_iff_count] at hperm ⊢
  intro n
  specialize hperm n
  cases h with
  | submit task hopen =>
    simp [List.range_succ, List.count_cons] at hperm ⊢
    omega
  | count h | enter h | refuse h | countRefused h => simpa [h] using hperm
  | send h | giveBack h =>
    simp [h, List.count_cons] at hperm ⊢
    omega
  | _ => exact hperm

end Moves

theorem Tick.words {c c' : Counts} {m m' : Metrics} (h : Tick c c' m m') (hm : m = c.words) :
    m' = c'.words := by
  cases h with
  | still hc hm' => rw [hm', hm, hc]
  | submitted hc hm' | entered hc hm' | completed hc hm' | panicked hc hm' =>
    simp [hm', hm, hc, Counts.words, Metrics.countSubmitted, Metrics.enter,
      Metrics.countCompleted, Metrics.recordPanic]
  | left hc hm' =>
    rw [hm', hm, hc]
    simp [Counts.words, Metrics.leave]

theorem Tick.precedes {c c' : Counts} {m m' : Metrics} (h : Tick c c' m m') : c.Precedes c' := by
  cases h with
  | still hc | submitted hc | entered hc | completed hc | panicked hc | left hc =>
    subst hc
    constructor <;> simp

theorem Moves.books (h : Moves p p') (hb : Books p) : Books p' where
  metrics := (h.tick hb).words hb.metrics
  hasRun := h.hasRun hb
  panicked := h.panicked hb
  accepted := h.accepted hb
  numbers := h.numbers hb

/-! ### Runs -/

/-- A worker that has no job. -/
def Worker.AtRest (w : Worker α) : Prop :=
  w = .idle ∨ w = .gone

theorem countP_of_atRest {ws : List (Worker α)} (h : ∀ w ∈ ws, w.AtRest) {f : Worker α → Bool}
    (hidle : f .idle = false) (hgone : f .gone = false) : ws.countP f = 0 := by
  rw [List.countP_eq_zero]
  intro w hw
  rcases h w hw with rfl | rfl
  · simp [hidle]
  · simp [hgone]

theorem waiting_of_atRest {ws : List (Worker α)} (h : ∀ w ∈ ws, w.AtRest) :
    ws.filterMap Worker.waiting = [] := by
  rw [List.filterMap_eq_nil_iff]
  intro w hw
  rcases h w hw with rfl | rfl <;> rfl

theorem atRest_start (panics : α → Bool) (started : List Bool) :
    ∀ w ∈ (startWith panics started).workers, w.AtRest := by
  intro w hw
  obtain ⟨b, -, rfl⟩ := List.mem_map.mp hw
  cases b with
  | false => exact .inr rfl
  | true => exact .inl rfl

theorem books_start (panics : α → Bool) (started : List Bool) :
    Books (startWith panics started) := by
  have hrest := atRest_start panics started
  constructor
  · have hbusy := countP_of_atRest (f := Worker.isBusy) hrest rfl rfl
    have hcounts : (startWith panics started).counts = ⟨0, 0, 0, 0⟩ := by
      simp only [counts, hbusy]
      simp [startWith]
    rw [hcounts]
    rfl
  · rw [countP_of_atRest hrest rfl rfl]
    exact Nat.zero_le _
  · rw [countP_of_atRest hrest rfl rfl]
    exact Nat.zero_le _
  · rw [waiting_of_atRest hrest]
    exact .nil
  · exact .nil

theorem Counts.Precedes.trans {c c' c'' : Counts} (h : c.Precedes c') (h' : c'.Precedes c'') :
    c.Precedes c'' where
  submitted := Nat.le_trans h.submitted h'.submitted
  completed := Nat.le_trans h.completed h'.completed
  panicked := Nat.le_trans h.panicked h'.panicked

/-- However submissions and workers take turns, the books are kept, and what they say was
submitted, completed or panicked only grows. -/
theorem Books.run {steps : List (Step α)} (hb : Books p) (h : p.run? steps = some p') :
    Books p' ∧ p.counts.Precedes p'.counts ∧ p.begun ≤ p'.begun ∧ p'.panics = p.panics := by
  induction steps generalizing p with
  | nil =>
    obtain rfl := Option.some.inj h
    exact ⟨hb, ⟨Nat.le_refl _, Nat.le_refl _, Nat.le_refl _⟩, Nat.le_refl _, rfl⟩
  | cons s steps ih =>
    obtain ⟨q, hstep, hrest⟩ := Option.bind_eq_some_iff.mp h
    have hmoves := moves_of_step? hstep
    obtain ⟨hbooks, hprecedes, hbegun, hpanics⟩ := ih (hmoves.books hb) hrest
    exact ⟨hbooks, (hmoves.tick hb).precedes.trans hprecedes,
      Nat.le_trans hmoves.begun_le hbegun, hpanics.trans hmoves.panics_eq⟩

/-! ### What the books say -/

namespace Books

theorem length_eq (hb : Books p) :
    p.submissions.length + (p.accepted.length + p.refused.length) = p.begun := by
  simpa using hb.numbers.length_eq

theorem accepted_length_eq (hb : Books p) :
    p.queue.length + ((p.workers.filterMap Worker.waiting).length + p.ran.length) =
      p.accepted.length := by
  simpa using hb.accepted.length_eq

theorem submitted_le (hb : Books p) : p.counts.submitted ≤ p.begun := by
  have hcounted : p.submissions.countP Submission.isCounted ≤ p.submissions.length :=
    List.countP_le_length
  have hlength := hb.length_eq
  simp only [counts]
  omega

theorem completed_le (hb : Books p) : p.counts.completed ≤ p.counts.submitted := by
  have hcounted : p.submissions.countP Submission.isCompleted ≤
      p.submissions.countP Submission.isCounted := by
    apply List.countP_mono_left
    intro s _ hs
    cases s with
    | leaving j => rfl
    | _ => cases hs
  have haccepted := hb.accepted_length_eq
  simp only [counts]
  omega

theorem panicked_le (hb : Books p) : p.counts.panicked ≤ p.counts.submitted := by
  have hran : (p.ran.countP fun j => p.panics j.task) ≤ p.ran.length := List.countP_le_length
  have haccepted := hb.accepted_length_eq
  simp only [counts]
  omega

theorem inFlight_le (hb : Books p) : p.counts.inFlight ≤ p.begun := by
  have hinside : p.submissions.countP Submission.isInFlight ≤ p.submissions.length :=
    List.countP_le_length
  have hran := hb.hasRun
  have hlength := hb.length_eq
  have haccepted := hb.accepted_length_eq
  simp only [counts, countP_isBusy]
  omega

/-- Before as many submissions as a word can count no counter has wrapped around. -/
theorem read_eq (hb : Books p) (h : p.begun < UInt64.size) : p.metrics.read = p.counts := by
  have hsubmitted := hb.submitted_le
  have hcompleted := hb.completed_le
  have hpanicked := hb.panicked_le
  have hinFlight := hb.inFlight_le
  rw [hb.metrics]
  ext <;> exact UInt64.toNat_ofNat_of_lt' (by omega)

theorem ran_subperm (hb : Books p) : p.ran.Subperm p.accepted := by
  have hsub : p.ran.Sublist (p.queue ++ (p.workers.filterMap Worker.waiting ++ p.ran)) :=
    (List.sublist_append_right _ _).trans (List.sublist_append_right _ _)
  exact hsub.subperm.trans hb.accepted.subperm

theorem nodup_accepted (hb : Books p) : (p.accepted.map Job.number).Nodup := by
  have hall : ((p.submissions.map Submission.job ++ (p.accepted ++ p.refused)).map
      Job.number).Nodup := hb.numbers.nodup_iff.mpr List.nodup_range
  have hsub : p.accepted.Sublist
      (p.submissions.map Submission.job ++ (p.accepted ++ p.refused)) :=
    (List.sublist_append_left _ _).trans (List.sublist_append_right _ _)
  exact (hsub.map Job.number).nodup hall

theorem nodup_ran (hb : Books p) : (p.ran.map Job.number).Nodup := by
  obtain ⟨part, hperm, hsub⟩ := hb.ran_subperm
  exact (hperm.map Job.number).nodup_iff.mp ((hsub.map Job.number).nodup hb.nodup_accepted)

/-- In a pool at rest every submission was answered and every job is done. -/
theorem at_rest (hb : Books p) (h : p.isQuiet = true) :
    p.counts = ⟨p.accepted.length + p.refused.length, p.accepted.length + p.refused.length,
      p.ran.countP fun j => p.panics j.task, 0⟩ ∧ p.ran.Perm p.accepted := by
  simp only [isQuiet, Bool.and_eq_true, List.isEmpty_iff, List.all_eq_true] at h
  obtain ⟨⟨hsubmissions, hqueue⟩, hworkers⟩ := h
  have hrest : ∀ w ∈ p.workers, w.AtRest := by
    intro w hw
    have hw := hworkers w hw
    cases w with
    | idle => exact .inl rfl
    | gone => exact .inr rfl
    | _ => cases hw
  have hran : p.ran.Perm p.accepted := by
    have haccepted := hb.accepted
    rwa [hqueue, waiting_of_atRest hrest] at haccepted
  have huncounted := countP_of_atRest (f := Worker.isUncounted) hrest rfl rfl
  have hpanicked := countP_of_atRest (f := Worker.isPanicked) hrest rfl rfl
  have hbusy := countP_of_atRest (f := Worker.isBusy) hrest rfl rfl
  refine ⟨?_, hran⟩
  simp only [counts, hsubmissions, hqueue, huncounted, hpanicked, hbusy, hran.length_eq,
    List.countP_nil, List.length_nil, Nat.zero_add, Nat.sub_zero]
  rw [Nat.add_comm p.refused.length]

end Books

/-- The counters of a pool, in every run of it. They are the numbers of the books as machine
words, and these numbers themselves until there are more submissions than a word can count.
Every step changes at most one number, by one, and what is in flight is made less only when
it is not zero; what was submitted, completed or panicked is never made less. No more jobs
panic than are submitted, each job runs at most once, and only if the queue took it.
Whenever nothing is being submitted and every worker waits at an empty queue, as many jobs
are completed as submitted, none is in flight, those that panicked are counted so, and
every job that the queue took has run. -/
theorem accounting {panics : α → Bool} {started : List Bool} {steps : List (Step α)}
    {p : Pool α} (hrun : (startWith panics started).run? steps = some p) :
    p.metrics = p.counts.words ∧ (p.begun < UInt64.size → p.metrics.read = p.counts) ∧
    p.counts.panicked ≤ p.counts.submitted ∧
    (∀ s p', p.step? s = some p' → Tick p.counts p'.counts p.metrics p'.metrics) ∧
    (∀ more p', p.run? more = some p' → p.counts.Precedes p'.counts ∧
      (p'.begun < UInt64.size → p.metrics.read.Precedes p'.metrics.read)) ∧
    (p.accepted.map Job.number).Nodup ∧ (p.ran.map Job.number).Nodup ∧
    p.ran.Subperm p.accepted ∧
    (p.isQuiet = true →
      p.metrics.completed = p.metrics.submitted ∧ p.counts.completed = p.counts.submitted ∧
      p.metrics.inFlight = 0 ∧ p.counts.inFlight = 0 ∧
      (p.counts.panicked = p.ran.countP fun j => panics j.task) ∧
      p.ran.Perm p.accepted) := by
  obtain ⟨hb, -, -, hpanics⟩ := (books_start panics started).run hrun
  refine ⟨hb.metrics, hb.read_eq, hb.panicked_le, ?_, ?_, hb.nodup_accepted, hb.nodup_ran,
    hb.ran_subperm, ?_⟩
  · exact fun s p' hstep => (moves_of_step? hstep).tick hb
  · intro more p' hmore
    obtain ⟨hb', hprecedes, hbegun, -⟩ := hb.run hmore
    refine ⟨hprecedes, fun hwords => ?_⟩
    rw [hb.read_eq (Nat.lt_of_le_of_lt hbegun hwords), hb'.read_eq hwords]
    exact hprecedes
  · intro hquiet
    obtain ⟨hcounts, hperm⟩ := hb.at_rest hquiet
    rw [hb.metrics, hcounts, hpanics]
    exact ⟨rfl, rfl, rfl, rfl, rfl, hperm⟩

/-- Two submissions at once to a pool with one of its two workers, one of a job that panics;
and a submission to a pool without a worker. -/
theorem accounting_taking_turns :
    let busy := (startWith (· == 0) [true, false]).run?
      [.submit 0, .submit 7, .advance 1, .advance 0, .advance 1, .advance 1, .work 0,
        .advance 0, .work 0, .advance 0, .work 0, .work 0, .work 0, .work 0, .work 0, .work 0,
        .work 0]
    let idle := (startWith (· == 0) [false]).run?
      [.submit 7, .advance 0, .advance 0, .advance 0, .advance 0, .advance 0]
    (∃ p, busy = some p ∧ p.metrics.completed = p.metrics.submitted ∧ p.metrics.inFlight = 0 ∧
      p.counts.panicked = (p.ran.countP fun j => j.task == 0) ∧ p.ran.Perm p.accepted) ∧
    ∃ p, idle = some p ∧ p.metrics.completed = p.metrics.submitted ∧
      p.metrics.inFlight = 0 ∧ p.accepted = [] := by
  intro busy idle
  have hbusy : busy.map isQuiet = some true := by decide
  have hidle : (idle.map fun p => (p.isQuiet, p.accepted)) = some (true, []) := by decide
  constructor
  · obtain ⟨p, hrun, hquiet⟩ := Option.map_eq_some_iff.mp hbusy
    obtain ⟨-, -, -, -, -, -, -, -, hrest⟩ := accounting hrun
    obtain ⟨hcompleted, -, hinFlight, -, hpanicked, hperm⟩ := hrest hquiet
    exact ⟨p, hrun, hcompleted, hinFlight, hpanicked, hperm⟩
  · obtain ⟨p, hrun, hp⟩ := Option.map_eq_some_iff.mp hidle
    obtain ⟨hquiet, haccepted⟩ := Prod.mk.inj hp
    obtain ⟨-, -, -, -, -, -, -, -, hrest⟩ := accounting hrun
    obtain ⟨hcompleted, -, hinFlight, -⟩ := hrest hquiet
    exact ⟨p, hrun, hcompleted, hinFlight, haccepted⟩

end PageServer.Pool
