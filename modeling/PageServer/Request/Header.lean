import PageServer.Request.Error
import PageServer.Text.Encoding

/-!
# Reading the header of a request

A header ends with its first empty line. It is read byte by byte from whatever
a connection brings, so how the bytes were cut into reads does not show. A
header of more bytes than the limit is refused when the first byte too many
arrives.
-/

namespace PageServer.Request

inductive Arrival where
  | bytes (data : Bytes)
  /-- The read is tried again. -/
  | interrupted
  | failure
  deriving DecidableEq, Repr

/-- Where in the lines of a header a reader stands. -/
inductive Place where
  | inLine
  | lineStart
  /-- After a carriage return that began a line. -/
  | carriage
  deriving DecidableEq, Repr

/-- The place after one more byte; there is none after the end of an empty
line. -/
def Place.step? (p : Place) (b : UInt8) : Option Place :=
  if b = '\n'.toUInt8 then
    match p with
    | .inLine => some .lineStart
    | .lineStart | .carriage => none
  else if b = '\r'.toUInt8 ∧ p = .lineStart then some .carriage
  else some .inLine

structure HeaderReader where
  place : Place
  /-- The bytes read, last first. -/
  taken : Bytes
  size : Nat

def HeaderReader.start : HeaderReader := ⟨.inLine, [], 0⟩

inductive Progress where
  | reading (r : HeaderReader)
  | complete (header : Bytes)
  | tooLarge

def HeaderReader.feed (limit : Nat) : HeaderReader → Bytes → Progress
  | r, [] => .reading r
  | r, b :: bs =>
    if limit ≤ r.size then .tooLarge
    else
      match r.place.step? b with
      | none => .complete (b :: r.taken).reverse
      | some p => feed limit ⟨p, b :: r.taken, r.size + 1⟩ bs

/-- Reads on until the header ends; there is none if the stream ends first. -/
def HeaderReader.readFrom (limit : Nat) : HeaderReader → List Arrival → Except Error (Option Bytes)
  | _, [] => .ok none
  | r, .interrupted :: rest => readFrom limit r rest
  | _, .failure :: _ => .error .readFailed
  | r, .bytes bs :: rest =>
    match r.feed limit bs with
    | .reading r => readFrom limit r rest
    | .complete header => .ok (some header)
    | .tooLarge => .error (.headerTooLarge limit)

def readHeader (limit : Nat) (stream : List Arrival) : Except Error (Option Bytes) :=
  HeaderReader.start.readFrom limit stream

theorem HeaderReader.feed_append (limit : Nat) (r : HeaderReader) (bs cs : Bytes) :
    r.feed limit (bs ++ cs) =
      match r.feed limit bs with
      | .reading r => r.feed limit cs
      | p => p := by
  induction bs generalizing r with
  | nil => rfl
  | cons b bs ih =>
    simp only [List.cons_append, feed]
    split
    · rfl
    · split
      · rfl
      · exact ih _

end PageServer.Request
