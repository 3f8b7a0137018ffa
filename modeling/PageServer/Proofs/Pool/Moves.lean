import Mathlib.Data.List.Basic
import PageServer.Pool.Basic

/-!
# The moves of a worker pool

Submissions and workers go on one step at a time, in any order. Here each of the steps
is described by what it finds and what it leaves, so that what all of them keep can be
proved move by move.
-/

namespace PageServer.Pool

variable {α : Type}

/-- The ways in which a pool goes on: what one step does to it. -/
inductive Moves (p : Pool α) : Pool α → Prop
  | submit (task : α) (hopen : p.closed = false) :
      Moves p { p with
        submissions := p.submissions ++ [.begun ⟨p.begun, task⟩]
        begun := p.begun + 1 }
  | count {j : Job α} {before after : List (Submission α)}
      (h : p.submissions = before ++ .begun j :: after) :
      Moves p { p with
        submissions := before ++ .counted j :: after
        metrics := p.metrics.countSubmitted }
  | enter {j : Job α} {before after : List (Submission α)}
      (h : p.submissions = before ++ .counted j :: after) :
      Moves p { p with
        submissions := before ++ .entered j :: after
        metrics := p.metrics.enter }
  | send {j : Job α} {before after : List (Submission α)}
      (h : p.submissions = before ++ .entered j :: after)
      (hworkers : p.workers.all Worker.isGone = false) :
      Moves p { p with
        submissions := before ++ after
        queue := p.queue ++ [j]
        accepted := p.accepted ++ [j] }
  | refuse {j : Job α} {before after : List (Submission α)}
      (h : p.submissions = before ++ .entered j :: after)
      (hworkers : p.workers.all Worker.isGone = true) :
      Moves p { p with submissions := before ++ .refused j :: after }
  | countRefused {j : Job α} {before after : List (Submission α)}
      (h : p.submissions = before ++ .refused j :: after) :
      Moves p { p with
        submissions := before ++ .leaving j :: after
        metrics := p.metrics.countCompleted }
  | giveBack {j : Job α} {before after : List (Submission α)}
      (h : p.submissions = before ++ .leaving j :: after) :
      Moves p { p with
        submissions := before ++ after
        metrics := p.metrics.leave
        refused := p.refused ++ [j] }
  | receive {j : Job α} {rest : List (Job α)} {before after : List (Worker α)}
      (h : p.workers = before ++ .idle :: after) (hqueue : p.queue = j :: rest) :
      Moves p { p with queue := rest, workers := before ++ .received j :: after }
  | exit {before after : List (Worker α)} (h : p.workers = before ++ .idle :: after)
      (hqueue : p.queue = []) (hclosed : p.closed = true) :
      Moves p { p with workers := before ++ .gone :: after }
  | finish {j : Job α} {before after : List (Worker α)}
      (h : p.workers = before ++ .received j :: after) (hreturns : p.panics j.task = false) :
      Moves p { p with workers := before ++ .finished j :: after, ran := p.ran ++ [j] }
  | panic {j : Job α} {before after : List (Worker α)}
      (h : p.workers = before ++ .received j :: after) (hpanics : p.panics j.task = true) :
      Moves p { p with workers := before ++ .panicked j :: after, ran := p.ran ++ [j] }
  | recordPanic {j : Job α} {before after : List (Worker α)}
      (h : p.workers = before ++ .panicked j :: after) :
      Moves p { p with
        workers := before ++ .finished j :: after
        metrics := p.metrics.recordPanic }
  | countRan {j : Job α} {before after : List (Worker α)}
      (h : p.workers = before ++ .finished j :: after) :
      Moves p { p with
        workers := before ++ .leaving j :: after
        metrics := p.metrics.countCompleted }
  | rest {j : Job α} {before after : List (Worker α)}
      (h : p.workers = before ++ .leaving j :: after) :
      Moves p { p with workers := before ++ .idle :: after, metrics := p.metrics.leave }
  | close (h : p.submissions = []) : Moves p { p with closed := true }

/-- A member of a list stands between two parts, whatever is put in its place. -/
theorem exists_split {β : Type} {l : List β} {i : ℕ} {x : β} (h : l[i]? = some x) :
    ∃ before after, l = before ++ x :: after ∧ (∀ y, l.set i y = before ++ y :: after) ∧
      l.eraseIdx i = before ++ after := by
  obtain ⟨hi, rfl⟩ := List.getElem?_eq_some_iff.mp h
  refine ⟨l.take i, l.drop (i + 1), ?_, ?_, ?_⟩
  · rw [List.getElem_cons_drop, List.take_append_drop]
  · intro y
    rw [List.set_eq_take_append_cons_drop, if_pos hi]
  · exact List.eraseIdx_eq_take_drop_succ l i

variable {p p' : Pool α}

theorem moves_of_advance? {i : ℕ} (h : p.advance? i = some p') : Moves p p' := by
  unfold advance? at h
  cases hs : p.submissions[i]? with
  | none => simp [hs] at h
  | some s =>
    obtain ⟨before, after, hsplit, hset, herase⟩ := exists_split hs
    cases s with
    | begun j =>
      simp only [hs, hset, Option.some.injEq] at h
      exact h ▸ .count hsplit
    | counted j =>
      simp only [hs, hset, Option.some.injEq] at h
      exact h ▸ .enter hsplit
    | entered j =>
      cases hgone : p.workers.all Worker.isGone with
      | true =>
        simp only [hs, hgone, if_true, hset, Option.some.injEq] at h
        exact h ▸ .refuse hsplit hgone
      | false =>
        simp only [hs, hgone, Bool.false_eq_true, if_false, herase, Option.some.injEq] at h
        exact h ▸ .send hsplit hgone
    | refused j =>
      simp only [hs, hset, Option.some.injEq] at h
      exact h ▸ .countRefused hsplit
    | leaving j =>
      simp only [hs, herase, Option.some.injEq] at h
      exact h ▸ .giveBack hsplit

theorem moves_of_work? {i : ℕ} (h : p.work? i = some p') : Moves p p' := by
  unfold work? at h
  cases hw : p.workers[i]? with
  | none => simp [hw] at h
  | some w =>
    obtain ⟨before, after, hsplit, hset, -⟩ := exists_split hw
    cases w with
    | idle =>
      cases hqueue : p.queue with
      | nil =>
        cases hclosed : p.closed with
        | true =>
          simp only [hw, hqueue, hclosed, if_true, hset, Option.some.injEq] at h
          exact h ▸ hqueue ▸ hclosed ▸ .exit hsplit hqueue hclosed
        | false => simp [hw, hqueue, hclosed] at h
      | cons j rest =>
        simp only [hw, hqueue, hset, Option.some.injEq] at h
        exact h ▸ .receive hsplit hqueue
    | received j =>
      cases hpanics : p.panics j.task with
      | true =>
        simp only [hw, hpanics, if_true, hset, Option.some.injEq] at h
        exact h ▸ .panic hsplit hpanics
      | false =>
        simp only [hw, hpanics, Bool.false_eq_true, if_false, hset, Option.some.injEq] at h
        exact h ▸ .finish hsplit hpanics
    | panicked j =>
      simp only [hw, hset, Option.some.injEq] at h
      exact h ▸ .recordPanic hsplit
    | finished j =>
      simp only [hw, hset, Option.some.injEq] at h
      exact h ▸ .countRan hsplit
    | leaving j =>
      simp only [hw, hset, Option.some.injEq] at h
      exact h ▸ .rest hsplit
    | gone => simp [hw] at h

theorem moves_of_step? {s : Step α} (h : p.step? s = some p') : Moves p p' := by
  cases s with
  | submit task =>
    rw [step?, submit?, Option.ite_none_left_eq_some, Bool.not_eq_true] at h
    exact (Option.some.inj h.2) ▸ .submit task h.1
  | advance i => exact moves_of_advance? h
  | work i => exact moves_of_work? h
  | close =>
    rw [step?, close?, Option.ite_none_right_eq_some, List.isEmpty_iff] at h
    exact (Option.some.inj h.2) ▸ .close h.1

end PageServer.Pool
