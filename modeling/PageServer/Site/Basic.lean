import PageServer.Site.FileTree
import PageServer.Site.MimeTable

/-!
# Sites

A site is a document root with the types of its files, the handlers mounted on
paths of it and the prefix of the paths that clients may not ask for.
-/

namespace PageServer.Site

inductive Handler where
  | hello
  | echoParams
  | sum
  | bgColor
  | home
  deriving DecidableEq, Repr

namespace Handler

def all : List Handler :=
  [bgColor, echoParams, hello, home, sum]

def name : Handler → String
  | hello => "HelloWorker"
  | echoParams => "EchoParams"
  | sum => "SumWorker"
  | bgColor => "BgColorWorker"
  | home => "Home"

/-- The part of a dotted name that names a handler: what follows its last
point. -/
def shortName (name : String) : String :=
  let back := (Text.trim name).toList.reverse
  String.ofList (back.takeWhile (· != '.')).reverse

/-- The handler with that name, which may have dotted words before it. -/
def ofName? (name : String) : Option Handler :=
  all.find? fun h => h.name == shortName name

end Handler

end Site

structure Site where
  /-- The document root as paths below it are written. -/
  root : String
  files : Site.FileTree
  mimeTypes : Site.MimeTable
  workers : Table Site.Handler
  /-- Without slashes at its end; empty if no path is internal. -/
  internalPrefix : String

namespace Site

def defaultInternalPrefix : String := "/private"

/-- Drops the slashes at the end of a configured prefix. -/
def trimPrefix (configured : String) : String :=
  String.ofList (Text.dropEndWhile (· == '/') configured.toList)

/-- A site without mounted handlers. -/
def ofFiles (root : String) (files : FileTree) (mimeTypes : MimeTable) (internal : String) : Site :=
  ⟨root, files, mimeTypes, .empty, trimPrefix internal⟩

structure MountError where
  path : String
  handler : String
  deriving DecidableEq, Repr

/-- What went wrong last comes first, its cause after it. -/
def MountError.chain (e : MountError) : List String :=
  [s!"while mounting worker for `{e.path}`", s!"unknown handler `{e.handler}`"]

def mount (s : Site) (table : Table String) : Except MountError Site :=
  let rec go : List (String × String) → Table Handler → Except MountError (Table Handler)
    | [], mounted => .ok mounted
    | (path, name) :: rest, mounted =>
      match Handler.ofName? name with
      | some h => go rest (mounted.insert path h)
      | none => .error ⟨path, name⟩
  (go table.entries s.workers).map fun mounted => { s with workers := mounted }

end Site

end PageServer
