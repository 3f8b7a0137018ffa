/-!
# Counters of a worker pool

Each counter is changed by single atomic additions, which wrap around at 64
bits. Taking a job in and finishing it change two counters each, one after the
other.
-/

namespace PageServer.Pool

structure Metrics where
  submitted : UInt64
  completed : UInt64
  panicked : UInt64
  /-- Jobs taken in and not finished, whether queued or running. -/
  inFlight : UInt64
  deriving DecidableEq, Repr

namespace Metrics

def zero : Metrics := ⟨0, 0, 0, 0⟩

def countSubmitted (m : Metrics) : Metrics :=
  { m with submitted := m.submitted + 1 }

def enter (m : Metrics) : Metrics :=
  { m with inFlight := m.inFlight + 1 }

def countCompleted (m : Metrics) : Metrics :=
  { m with completed := m.completed + 1 }

def leave (m : Metrics) : Metrics :=
  { m with inFlight := m.inFlight - 1 }

def recordSubmit (m : Metrics) : Metrics :=
  m.countSubmitted.enter

def recordCompletion (m : Metrics) : Metrics :=
  m.countCompleted.leave

def recordPanic (m : Metrics) : Metrics :=
  { m with panicked := m.panicked + 1 }

end Metrics

end PageServer.Pool
