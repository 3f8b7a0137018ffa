import PageServer.Session.Store

/-!
# What a store is asked and answers

A store is asked to resolve and to sweep, one call after another, and its answers
are written down. From the answers so far the next one can be told without the
store, by the rule that a session lives until its deadline, counted from when it
was answered last.
-/

namespace PageServer.SessionStore

inductive Call where
  /-- The draws are the names drawn for a new session, one after another until one
  is free. -/
  | resolve (draws : List String) (presented : Option String) (now : UInt64)
  | sweep (now : UInt64)

namespace Call

def time : Call → UInt64
  | resolve _ _ now | sweep now => now

def draws : Call → List String
  | resolve draws _ _ => draws
  | sweep _ => []

def isResolve : Call → Bool
  | resolve _ _ _ => true
  | sweep _ => false

end Call

/-- Time does not go back and no name is drawn twice. -/
structure Regular (calls : List Call) : Prop where
  times : calls.Pairwise fun c d => c.time ≤ d.time
  draws : (calls.flatMap Call.draws).Nodup

/-- Calls that may follow when the clock shows a time and some names were drawn. -/
structure RegularFrom (clock : UInt64) (drawn : List String) (calls : List Call) : Prop where
  clock : ∀ c ∈ calls, clock ≤ c.time
  times : calls.Pairwise fun c d => c.time ≤ d.time
  draws : (drawn ++ calls.flatMap Call.draws).Nodup

theorem Regular.from_start {calls : List Call} (h : Regular calls) : RegularFrom 0 [] calls :=
  ⟨fun _ _ => UInt64.zero_le, h.times, h.draws⟩

namespace RegularFrom

variable {clock : UInt64} {drawn : List String} {c : Call} {calls : List Call}

theorem fresh (h : RegularFrom clock drawn (c :: calls)) : ∀ id ∈ c.draws, id ∉ drawn := by
  intro id hid hdrawn
  have hdisjoint := (List.nodup_append.mp h.draws).2.2
  exact hdisjoint id hdrawn id (by simp [hid]) rfl

theorem tail (h : RegularFrom clock drawn (c :: calls)) :
    RegularFrom c.time (drawn ++ c.draws) calls := by
  obtain ⟨hfirst, htimes⟩ := List.pairwise_cons.mp h.times
  refine ⟨hfirst, htimes, ?_⟩
  simpa only [List.flatMap_cons, List.append_assoc] using h.draws

end RegularFrom

structure Answer where
  resolved : Resolved
  time : UInt64
  deriving DecidableEq

/-- A store with the answers it gave, latest first. -/
structure Log where
  store : SessionStore
  answers : List Answer

namespace Log

def start (timeout : UInt64) : Log := ⟨.start timeout, []⟩

def step (l : Log) : Call → Option Log
  | .resolve draws presented now =>
    (l.store.resolve draws presented now).map fun r => ⟨r.2, ⟨r.1, now⟩ :: l.answers⟩
  | .sweep now => some ⟨(l.store.sweep now).2, l.answers⟩

/-- The log after some more calls, if all resolves among them have an answer. -/
def run : Log → List Call → Option Log
  | l, [] => some l
  | l, c :: cs => (l.step c).bind fun l => l.run cs

theorem run_append (l : Log) (before after : List Call) :
    l.run (before ++ after) = (l.run before).bind fun l => l.run after := by
  induction before generalizing l with
  | nil => rfl
  | cons c cs ih =>
    rw [List.cons_append, run, run, Option.bind_assoc]
    simp only [ih]

end Log

/-! ### What the answers say -/

def latest? (answers : List Answer) (id : String) : Option Answer :=
  answers.find? fun a => a.resolved.id == id

/-- The second from which on a session is dead if it is not answered again. -/
def lapse (timeout time : UInt64) : Nat :=
  min (time.toNat + timeout.toNat) (Nat.pow 2 64 - 1)

/-- The answer that shows the presented session to be alive. -/
def alive? (timeout : UInt64) (answers : List Answer) (presented : Option String) (now : UInt64) :
    Option Answer :=
  (presented.bind (latest? answers)).filter fun a => now.toNat < lapse timeout a.time

def mints (answers : List Answer) : Nat :=
  answers.countP fun a => a.resolved.isNew

/-- The answer that the earlier ones lead to, whatever the store. -/
def replay (timeout : UInt64) (answers : List Answer) (draws : List String)
    (presented : Option String) (now : UInt64) : Option Resolved :=
  match alive? timeout answers presented now with
  | some a => some ⟨a.resolved.id, a.resolved.params, false⟩
  | none => draws.head?.map fun id => ⟨id, mints answers, true⟩

def replayAll (timeout : UInt64) : List Answer → List Call → Option (List Answer)
  | answers, [] => some answers
  | answers, .sweep _ :: cs => replayAll timeout answers cs
  | answers, .resolve draws presented now :: cs =>
    (replay timeout answers draws presented now).bind fun r =>
      replayAll timeout (⟨r, now⟩ :: answers) cs

theorem replayAll_filter (timeout : UInt64) (answers : List Answer) (calls : List Call) :
    replayAll timeout answers (calls.filter Call.isResolve) = replayAll timeout answers calls := by
  induction calls generalizing answers with
  | nil => rfl
  | cons c cs ih =>
    cases c with
    | sweep now => exact ih answers
    | resolve draws presented now =>
      change (replay timeout answers draws presented now).bind _ = Option.bind _ _
      simp only [ih]

theorem latest?_id {answers : List Answer} {id : String} {a : Answer}
    (h : latest? answers id = some a) : a.resolved.id = id := by
  simpa using List.find?_some h

theorem latest?_cons (a : Answer) (answers : List Answer) (id : String) :
    latest? (a :: answers) id = if a.resolved.id = id then some a else latest? answers id := by
  by_cases h : a.resolved.id = id <;> simp [latest?, h]

theorem alive?_eq_some_iff {timeout : UInt64} {answers : List Answer} {presented : Option String}
    {now : UInt64} {a : Answer} :
    alive? timeout answers presented now = some a ↔
      ∃ id, presented = some id ∧ latest? answers id = some a ∧
        now.toNat < lapse timeout a.time := by
  simp only [alive?, Option.filter_eq_some_iff, Option.bind_eq_some_iff, decide_eq_true_eq,
    ← exists_and_right, and_assoc]

theorem replay_isSome (timeout : UInt64) (answers : List Answer) {draws : List String}
    (h : draws ≠ []) (presented : Option String) (now : UInt64) :
    (replay timeout answers draws presented now).isSome := by
  rw [replay]
  split
  · rfl
  · cases draws with
    | nil => exact absurd rfl h
    | cons d ds => rfl

theorem replayAll_isSome (timeout : UInt64) (answers : List Answer) {calls : List Call}
    (h : ∀ c ∈ calls, c.isResolve = true → c.draws ≠ []) :
    (replayAll timeout answers calls).isSome := by
  induction calls generalizing answers with
  | nil => rfl
  | cons c cs ih =>
    have hcs : ∀ c ∈ cs, c.isResolve = true → c.draws ≠ [] :=
      fun c hc => h c (List.mem_cons_of_mem _ hc)
    cases c with
    | sweep now => exact ih answers hcs
    | resolve draws presented now =>
      have hdraws : draws ≠ [] := h _ List.mem_cons_self rfl
      obtain ⟨r, hr⟩ := Option.isSome_iff_exists.mp
        (replay_isSome timeout answers hdraws presented now)
      rw [replayAll, hr]
      exact ih _ hcs

end PageServer.SessionStore
