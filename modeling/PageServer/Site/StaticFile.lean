import PageServer.Exchange

/-!
# Static files

A regular file whose name has an extension can be sent as it is, announced by
its type and length and written in pieces.
-/

namespace PageServer

namespace Site

structure StaticFile where
  /-- The names that lead to the file from the document root. -/
  names : List String
  mimeType : String
  content : Bytes
  deriving DecidableEq, Repr

inductive OpenError where
  | invalidPath
  | notAFile
  | noExtension
  deriving DecidableEq, Repr

def OpenError.message : OpenError → String
  | invalidPath => "invalid path"
  | notAFile => "file not found"
  | noExtension => "file has no extension"

def staticFile (s : Site) (names : List String) : Except OpenError StaticFile :=
  match s.files.file? names with
  | none => .error .notAFile
  | some content =>
    match names.getLast?.bind extension? with
    | none => .error .noExtension
    | some ext => .ok ⟨names, s.mimeTypes.get ext, content⟩

def openStatic (s : Site) (path : String) : Except OpenError StaticFile :=
  match names? (components path) with
  | none => .error .invalidPath
  | some names => s.staticFile names

/-- Cuts bytes into pieces of one size, the last of which may be shorter. -/
def pieces (size : Nat) (data : Bytes) : List Bytes :=
  if data = [] ∨ size = 0 then [] else data.take size :: pieces size (data.drop size)
termination_by data.length
decreasing_by
  rename_i h
  simp only [not_or] at h
  have := List.length_pos_iff.2 h.1
  simp only [List.length_drop]
  omega

theorem flatten_pieces {size : Nat} (hs : size ≠ 0) (data : Bytes) :
    (pieces size data).flatten = data := by
  fun_induction pieces size data with
  | case1 data h => simp_all
  | case2 data _ ih => simp [ih]

def pieceSize : Nat := 8192

end Site

namespace Exchange

def writeAll : List Bytes → Action Response.Error Unit
  | [] => pure ()
  | piece :: rest => do
    write piece
    writeAll rest

/-- Sends a file. The head of an empty one is left for the end of the
exchange. -/
def sendFile (f : Site.StaticFile) : Action Response.Error Unit := do
  setMimeType f.mimeType
  setContentLength (UInt64.ofNat f.content.length)
  writeAll (Site.pieces Site.pieceSize f.content)

end Exchange

end PageServer
