import PageServer.Config.Server
import PageServer.Site.Reading

/-!
# Loading a configuration

The paths in a configuration file are seen from the directory that the file
stands in. The tables it names are read when they are needed.
-/

namespace PageServer

namespace Config

inductive Error where
  | unreadable (path : String) (e : Site.ReadError)
  | malformed (path : String)
  | invalid (fault : ServerConfig.Fault)
  | unreadableTable (path : String) (e : Site.ReadError)
  | malformedTable (path : String) (e : PropertiesError)
  | mount (e : Site.MountError)
  deriving DecidableEq, Repr

/-- What went wrong last comes first, its causes after it. -/
def Error.chain : Error → List String
  | unreadable path e => [s!"failed to read config {path}", e.message]
  | malformed path => [s!"failed to parse config {path}"]
  | invalid fault => [fault.message]
  | unreadableTable path e => [s!"failed to read {path}", e.message]
  | malformedTable path e => [s!"malformed properties file {path}", e.message]
  | mount e => e.chain

abbrev Loading := ExceptT Error Site.Reading

def readText (refuse : String → Site.ReadError → Error) (path : String) : Loading String :=
  ExceptT.mk do
    let content ← Site.Reading.text path
    return content.mapError (refuse path)

def ofResult {α : Type} (r : Except Error α) : Loading α :=
  ExceptT.mk (pure r)

def loadProperties (path : String) : Loading (Table String) := do
  let text ← readText .unreadableTable path
  ofResult ((Properties.parse text).mapError (.malformedTable path))

end Config

namespace ServerConfig

open Config (Loading ofResult)

def load (path : String) : Loading ServerConfig := do
  let text ← Config.readText .unreadable path
  match parse? text with
  | none => throw (.malformed path)
  | some c =>
    let c := c.resolvePaths (Site.directory path)
    match c.fault? with
    | some fault => throw (.invalid fault)
    | none => return c

/-- The configured table of content types, or the standard one. -/
def loadMimeTypes (c : ServerConfig) : Loading Site.MimeTable :=
  match c.mimeConfig with
  | none => return .standard
  | some path => do return .ofEntries (← Config.loadProperties path).entries

/-- The paths of handlers and the names of these, none if there is no table. -/
def loadWorkers (c : ServerConfig) : Loading (Table String) :=
  match c.workersConfig with
  | none => return .empty
  | some path => Config.loadProperties path

def loadSite (c : ServerConfig) (files : Site.FileTree) : Loading Site := do
  let mimeTypes ← c.loadMimeTypes
  let workers ← c.loadWorkers
  let site := Site.ofFiles c.documentRoot files mimeTypes c.internalPrefix
  ofResult ((site.mount workers).mapError .mount)

end ServerConfig

end PageServer
