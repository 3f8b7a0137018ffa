import PageServer.Text.Split

/-!
# URL paths and file names

A path is read as its components between slashes. Empty components and `.` say
nothing, `..` would leave the document root and is refused, every other one is
a name. The canonical form of a path and the file it stands for are two walks
over the same components.
-/

namespace PageServer.Site

inductive Component where
  /-- The present directory, written `.`. -/
  | here
  /-- The directory above, written `..`. -/
  | up
  | name (s : String)
  deriving DecidableEq, Repr

def components (path : String) : List Component :=
  (Text.splitAt '/' path.toList).filterMap fun w =>
    if w = [] then none
    else if w = ['.'] then some .here
    else if w = ['.', '.'] then some .up
    else some (.name (String.ofList w))

/-- The names of a path that stays below where it starts. -/
def names? : List Component → Option (List String)
  | [] => some []
  | .here :: cs => names? cs
  | .up :: _ => none
  | .name s :: cs => (names? cs).map (s :: ·)

/-- A slash before each name; a path without names is a slash. -/
def absolute (names : List String) : String :=
  if names.isEmpty then "/" else String.join (names.map fun s => "/" ++ s)

/-- The canonical form of a URL path, unless a component of it is `..`. -/
def normalize? (path : String) : Option String :=
  (names? (components path)).map absolute

/-- A name put below a directory, with a slash between them unless the
directory is empty or ends in one. -/
def below (directory name : String) : String :=
  match directory.toList.getLast? with
  | none | some '/' => directory ++ name
  | _ => directory ++ "/" ++ name

def descend? (directory : String) : List Component → Option String
  | [] => some directory
  | .here :: cs => descend? directory cs
  | .up :: _ => none
  | .name s :: cs => descend? (below directory s) cs

def locate? (root path : String) : Option String :=
  descend? root (components path)

/-- The extension of a file name: what follows its last point, if something
precedes that point. -/
def extension? (name : String) : Option String :=
  let back := name.toList.reverse
  match Text.cutBy? (· == '.') back with
  | some (ext, stem) => if stem.isEmpty then none else some (String.ofList ext.reverse)
  | none => none

/-- The name that a path ends in, if it does not end in `..`. -/
def fileName? (path : String) : Option String :=
  match (components path).filter (· != .here) |>.getLast? with
  | some (.name s) => some s
  | _ => none

/-- Drops the slashes and `.` components at the end of a path, given last
character first. -/
def dropSeparators : List Char → List Char
  | '/' :: back => dropSeparators back
  | '.' :: '/' :: back => dropSeparators back
  | back => back

/-- The directory that a path to a file stands in, as far as the path says. -/
def directory (path : String) : String :=
  let above := (dropSeparators path.toList.reverse).dropWhile (· != '/')
  let rest := dropSeparators above
  if rest.isEmpty && !above.isEmpty then "/" else String.ofList rest.reverse

/-- A path seen from a directory. A path that begins with a slash stays. -/
def resolveFrom (base path : String) : String :=
  if path.toList.head? = some '/' then path else below base path

def endsIn (ending s : String) : Bool :=
  (Text.strip? ending.toList.reverse s.toList.reverse).isSome

end PageServer.Site
