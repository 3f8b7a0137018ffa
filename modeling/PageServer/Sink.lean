import PageServer.Text.Encoding

/-!
# Sinks

A sink takes the writes of a response one after another and may refuse any of
them as a whole. It remembers what it took, last write first.
-/

namespace PageServer

/-- What a sink knows of a write it is offered. -/
structure Offer where
  /-- How many writes were offered before. -/
  number : Nat
  /-- How many bytes the sink holds. -/
  held : Nat
  size : Nat
  deriving DecidableEq, Repr

structure Sink where
  written : List Bytes
  held : Nat
  held_eq : held = written.flatten.length
  offers : Nat
  accepts : Offer → Bool

namespace Sink

def ofPolicy (accepts : Offer → Bool) : Sink :=
  ⟨[], 0, rfl, 0, accepts⟩

def unlimited : Sink :=
  ofPolicy fun _ => true

/-- Never holds more than so many bytes. -/
def limited (bytes : Nat) : Sink :=
  ofPolicy fun o => o.held + o.size ≤ bytes

/-- A buffer before a stream that fails: it takes what fits beside what it
holds, but never a write as large as itself. -/
def stalled (capacity : Nat) : Sink :=
  ofPolicy fun o => o.held + o.size ≤ capacity && o.size < capacity

def received (s : Sink) : Bytes :=
  s.written.reverse.flatten

/-- Whether the sink takes this write now. It is not asked about a write of
nothing. -/
def takes (s : Sink) (data : Bytes) : Bool :=
  data.isEmpty || s.accepts ⟨s.offers, s.held, data.length⟩

def push (s : Sink) (data : Bytes) : Sink where
  written := data :: s.written
  held := data.length + s.held
  held_eq := by simp [s.held_eq]
  offers := s.offers + 1
  accepts := s.accepts

def refuse (s : Sink) : Sink :=
  { s with offers := s.offers + 1 }

@[simp] theorem received_push (s : Sink) (data : Bytes) :
    (s.push data).received = s.received ++ data := by
  simp [received, push]

@[simp] theorem received_refuse (s : Sink) : s.refuse.received = s.received := rfl

end Sink

end PageServer
