import PageServer.Exchange

/-!
# Sessions

A session is named by what the client's cookie says and lives until its
deadline, which moves on every time it is found. The parameters of a session
are a map of their own, numbered in the order of creation; a map that was given
to a request stays usable even when its session is gone.
-/

namespace PageServer

structure Session where
  id : String
  /-- The session is dead from this second on. -/
  validUntil : UInt64
  /-- The number of its parameter map. -/
  params : Nat
  deriving DecidableEq, Repr

namespace Session

def cookieName : String := "sid"

def isExpired (s : Session) (now : UInt64) : Bool :=
  s.validUntil ≤ now

end Session

structure Resolved where
  id : String
  params : Nat
  /-- The session was opened for this request. -/
  isNew : Bool
  deriving DecidableEq, Repr

structure SessionStore where
  /-- Seconds for which a session lives after it was found. -/
  timeout : UInt64
  sessions : Table Session
  /-- All parameter maps ever created, oldest first. -/
  maps : List Params

namespace SessionStore

def start (timeout : UInt64) : SessionStore := ⟨timeout, .empty, []⟩

def size (s : SessionStore) : Nat := s.sessions.size

/-- The deadline of a session that is found now, at most the last second there
is. -/
def deadline (s : SessionStore) (now : UInt64) : UInt64 :=
  UInt64.ofNat (min (now.toNat + s.timeout.toNat) (UInt64.size - 1))

def validUntil? (s : SessionStore) (id : String) : Option UInt64 :=
  (s.sessions.get? id).map Session.validUntil

def params (s : SessionStore) (map : Nat) : Params :=
  s.maps.getD map .empty

def setParams (s : SessionStore) (map : Nat) (params : Params) : SessionStore :=
  { s with maps := s.maps.set map params }

/-- The first name drawn that no session has. -/
def freshId? (s : SessionStore) (draws : List String) : Option String :=
  draws.find? fun id => !s.sessions.contains id

/-- Opens a session with an empty map of its own. -/
def openSession (s : SessionStore) (id : String) (now : UInt64) : Resolved × SessionStore :=
  let map := s.maps.length
  (⟨id, map, true⟩,
   { s with
     sessions := s.sessions.insert id ⟨id, s.deadline now, map⟩
     maps := s.maps ++ [.empty] })

def mint (s : SessionStore) (draws : List String) (now : UInt64) :
    Option (Resolved × SessionStore) :=
  (s.freshId? draws).map fun id => s.openSession id now

/-- Finds the live session that a client names and moves its deadline, or opens
one. An expired session is dropped on the spot. There is no answer if every
name drawn is taken. -/
def resolve (s : SessionStore) (draws : List String) (presented : Option String) (now : UInt64) :
    Option (Resolved × SessionStore) :=
  match presented with
  | none => s.mint draws now
  | some id =>
    match s.sessions.get? id with
    | none => s.mint draws now
    | some e =>
      if e.isExpired now then { s with sessions := s.sessions.erase id }.mint draws now
      else
        let extended := { e with validUntil := s.deadline now }
        some (⟨e.id, e.params, false⟩, { s with sessions := s.sessions.insert id extended })

/-- Drops all expired sessions and says how many they were. -/
def sweep (s : SessionStore) (now : UInt64) : Nat × SessionStore :=
  let kept := s.sessions.keep fun e => !e.isExpired now
  (s.sessions.size - kept.size, { s with sessions := kept })

end SessionStore

end PageServer
