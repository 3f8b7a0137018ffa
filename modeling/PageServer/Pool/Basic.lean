import PageServer.Pool.Metrics

/-!
# Worker pools

Workers take jobs from one queue in the order in which they were sent. The
state of a pool changes by atomic steps of the submissions in progress and of
the workers, and any of them may make the next step. A job that panics is
counted and does no harm to its worker. A queue that no worker is left to
receive from takes no jobs, and a submission then gives its job back. Workers
end when the pool is closed and the queue is empty.
-/

namespace PageServer

namespace Pool

structure Job (α : Type) where
  /-- How many jobs were submitted before. -/
  number : Nat
  task : α
  deriving DecidableEq, Repr

inductive Submission (α : Type) where
  | begun (j : Job α)
  /-- Counted as submitted. -/
  | counted (j : Job α)
  /-- Counted as in flight too, but not sent. -/
  | entered (j : Job α)
  /-- The queue did not take the job. -/
  | refused (j : Job α)
  /-- The job is counted as completed and still as in flight. -/
  | leaving (j : Job α)
  deriving DecidableEq, Repr

inductive Worker (α : Type) where
  | idle
  | received (j : Job α)
  | panicked (j : Job α)
  | finished (j : Job α)
  /-- The job is counted as completed and still as in flight. -/
  | leaving (j : Job α)
  /-- Never started, or ended. -/
  | gone
  deriving DecidableEq, Repr

namespace Worker

def isIdle {α : Type} : Worker α → Bool
  | .idle => true
  | _ => false

def isGone {α : Type} : Worker α → Bool
  | .gone => true
  | _ => false

end Worker

end Pool

structure Pool (α : Type) where
  panics : α → Bool
  queue : List (Pool.Job α)
  submissions : List (Pool.Submission α)
  workers : List (Pool.Worker α)
  metrics : Pool.Metrics
  /-- How many submissions were begun. -/
  begun : Nat
  /-- The jobs that the queue took. -/
  accepted : List (Pool.Job α)
  /-- The jobs that were given back. -/
  refused : List (Pool.Job α)
  ran : List (Pool.Job α)
  closed : Bool

namespace Pool

/-- A pool has at least one worker. -/
def workerCount (asked : Nat) : Nat := max asked 1

/-- A pool of which some workers could not be started. -/
def startWith {α : Type} (panics : α → Bool) (started : List Bool) : Pool α where
  panics := panics
  queue := []
  submissions := []
  workers := started.map fun b => if b then .idle else .gone
  metrics := .zero
  begun := 0
  accepted := []
  refused := []
  ran := []
  closed := false

def start {α : Type} (panics : α → Bool) (workers : Nat) : Pool α :=
  startWith panics (List.replicate (workerCount workers) true)

inductive Step (α : Type) where
  | submit (task : α)
  /-- The submission at that place goes on. -/
  | advance (submission : Nat)
  /-- The worker of that number goes on. -/
  | work (worker : Nat)
  /-- The owner lets go of the pool. -/
  | close
  deriving DecidableEq, Repr

variable {α : Type}

def submit? (p : Pool α) (task : α) : Option (Pool α) :=
  if p.closed then none
  else
    some { p with
      submissions := p.submissions ++ [.begun ⟨p.begun, task⟩]
      begun := p.begun + 1 }

def advance? (p : Pool α) (i : Nat) : Option (Pool α) :=
  match p.submissions[i]? with
  | none => none
  | some (.begun j) =>
    some { p with
      submissions := p.submissions.set i (.counted j)
      metrics := p.metrics.countSubmitted }
  | some (.counted j) =>
    some { p with submissions := p.submissions.set i (.entered j), metrics := p.metrics.enter }
  | some (.entered j) =>
    if p.workers.all Worker.isGone then
      some { p with submissions := p.submissions.set i (.refused j) }
    else
      some { p with
        submissions := p.submissions.eraseIdx i
        queue := p.queue ++ [j]
        accepted := p.accepted ++ [j] }
  | some (.refused j) =>
    some { p with
      submissions := p.submissions.set i (.leaving j)
      metrics := p.metrics.countCompleted }
  | some (.leaving j) =>
    some { p with
      submissions := p.submissions.eraseIdx i
      metrics := p.metrics.leave
      refused := p.refused ++ [j] }

/-- The next step of a worker. An idle one waits while the queue is empty, until
the pool is closed. -/
def work? (p : Pool α) (i : Nat) : Option (Pool α) :=
  match p.workers[i]? with
  | none => none
  | some .idle =>
    match p.queue with
    | [] => if p.closed then some { p with workers := p.workers.set i .gone } else none
    | j :: queue => some { p with queue := queue, workers := p.workers.set i (.received j) }
  | some (.received j) =>
    let next := if p.panics j.task then .panicked j else .finished j
    some { p with workers := p.workers.set i next, ran := p.ran ++ [j] }
  | some (.panicked j) =>
    some { p with workers := p.workers.set i (.finished j), metrics := p.metrics.recordPanic }
  | some (.finished j) =>
    some { p with workers := p.workers.set i (.leaving j), metrics := p.metrics.countCompleted }
  | some (.leaving _) =>
    some { p with workers := p.workers.set i .idle, metrics := p.metrics.leave }
  | some .gone => none

/-- A pool is not let go of while something is submitted to it. -/
def close? (p : Pool α) : Option (Pool α) :=
  if p.submissions.isEmpty then some { p with closed := true } else none

def step? (p : Pool α) : Step α → Option (Pool α)
  | .submit task => p.submit? task
  | .advance i => p.advance? i
  | .work i => p.work? i
  | .close => p.close?

/-- The pool after some steps, if each of them can be made. -/
def run? (p : Pool α) : List (Step α) → Option (Pool α)
  | [] => some p
  | s :: steps => (p.step? s).bind fun p => p.run? steps

def submission (task : α) : List (Step α) :=
  [.submit task, .advance 0, .advance 0, .advance 0]

def processing (panics : Bool) (worker : Nat) : List (Step α) :=
  List.replicate (if panics then 5 else 4) (.work worker)

/-- A schedule that submits all tasks and has the workers take turns. -/
def inTurns (p : Pool α) (tasks : List α) : List (Step α) :=
  tasks.flatMap submission ++
    tasks.zipIdx.flatMap fun t => processing (p.panics t.1) (t.2 % p.workers.length)

/-- Nothing is being submitted and every worker waits at an empty queue or has
ended. -/
def isQuiet (p : Pool α) : Bool :=
  p.submissions.isEmpty && p.queue.isEmpty && p.workers.all fun w => w.isIdle || w.isGone

end Pool

end PageServer
