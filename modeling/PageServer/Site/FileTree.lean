import PageServer.Site.Path
import PageServer.Text.Encoding

/-!
# File trees

A file tree says what stands at each path below its root. Reading a path the
way a command line gives it follows `.` and `..` and can fail in the ways a
file system fails. Of what lies outside of the tree only the directories above
it are known.
-/

namespace PageServer.Site

inductive Entry where
  | directory
  | file (content : Bytes)
  deriving DecidableEq, Repr

/-- What stands at the end of each list of names. -/
structure FileTree where
  entry? : List String → Option Entry

namespace FileTree

def empty : FileTree := ⟨fun path => if path = [] then some .directory else none⟩

/-- The tree of some files and directories and the directories above them. -/
def ofList (entries : List (List String × Entry)) : FileTree where
  entry? path :=
    match entries.lookup path with
    | some e => some e
    | none =>
      if path = [] || entries.any (fun e => path.isPrefixOf e.1) then some .directory else none

def file? (t : FileTree) (path : List String) : Option Bytes :=
  match t.entry? path with
  | some (.file content) => some content
  | _ => none

end FileTree

inductive ReadError where
  | noSuchFile
  | notADirectory
  | isADirectory
  | nameTooLong
  /-- The path holds a NUL, so no file can have it. -/
  | nulInName
  | notText
  /-- Any other reason, as a file system words it. -/
  | refused (reason : String)
  deriving DecidableEq, Repr

def ReadError.message : ReadError → String
  | noSuchFile => "No such file or directory (os error 2)"
  | notADirectory => "Not a directory (os error 20)"
  | isADirectory => "Is a directory (os error 21)"
  | nameTooLong => "File name too long (os error 36)"
  | nulInName => "file name contained an unexpected NUL byte"
  | notText => "stream did not contain valid UTF-8"
  | refused reason => reason

def maxPathSize : Nat := 4095

def maxNameSize : Nat := 255

/-- Why a path is not one that could be looked up at all. -/
def pathFault? (path : String) : Option ReadError :=
  if path.toList.contains '\x00' then some .nulInName
  else if path.isEmpty then some .noSuchFile
  else if maxPathSize < path.utf8ByteSize then some .nameTooLong
  else none

namespace FileTree

inductive Spot where
  /-- Below the root of the tree, by the names that lead there, innermost first. -/
  | inside (names : List String)
  /-- In a directory outside of the tree. -/
  | outside
  deriving DecidableEq, Repr

def entryAt? (t : FileTree) : Spot → Option Entry
  | .inside names => t.entry? names.reverse
  | .outside => some .directory

def Spot.enter (spot : Spot) (c : Component) : Except ReadError Spot :=
  match spot, c with
  | spot, .here => .ok spot
  | .inside [], .up => .ok .outside
  | .inside (_ :: above), .up => .ok (.inside above)
  | .outside, .up => .ok .outside
  | spot, .name s =>
    if maxNameSize < s.utf8ByteSize then .error .nameTooLong
    else
      match spot with
      | .inside names => .ok (.inside (s :: names))
      | .outside => .error .noSuchFile

/-- Follows components, each of which needs a directory to stand in. -/
def follow (t : FileTree) : Spot → List Component → Except ReadError Spot
  | spot, [] => .ok spot
  | spot, c :: cs =>
    match t.entryAt? spot with
    | none => .error .noSuchFile
    | some (.file _) => .error .notADirectory
    | some .directory =>
      match spot.enter c with
      | .error e => .error e
      | .ok spot => follow t spot cs

/-- What stands at a path of the command line, relative to the root of the
tree. A path that ends in a slash names a directory. -/
def resolve (t : FileTree) (path : String) : Except ReadError Entry :=
  match pathFault? path with
  | some e => .error e
  | none =>
    let start := if path.toList.head? = some '/' then Spot.outside else .inside []
    let cs := components path
    match t.follow start (if endsIn "/" path then cs ++ [.here] else cs) with
    | .error e => .error e
    | .ok spot =>
      match t.entryAt? spot with
      | none => .error .noSuchFile
      | some e => .ok e

def read (t : FileTree) (path : String) : Except ReadError Bytes :=
  match t.resolve path with
  | .error e => .error e
  | .ok .directory => .error .isADirectory
  | .ok (.file content) => .ok content

end FileTree

end PageServer.Site
