import PageServer.Site.Path
import PageServer.Table
import PageServer.Text.Casing

/-!
# Content types of files

The type of a file is found by its extension. Tables are read with any letter
case and with points before an extension; look-ups ignore letter case.
-/

namespace PageServer.Site

structure MimeTable where
  types : Table String

namespace MimeTable

def fallback : String := "application/octet-stream"

/-- The form in which extensions are stored. -/
def key (ext : String) : String :=
  Text.lower (String.ofList (ext.toList.dropWhile (· == '.')))

/-- The table of a list of extensions and types. Of several extensions with one
key the last counts. -/
def ofEntries (entries : List (String × String)) : MimeTable :=
  ⟨Table.ofList (entries.map fun e => (key e.1, e.2))⟩

def get (t : MimeTable) (ext : String) : String :=
  (t.types.get? (Text.lower ext)).getD fallback

def forPath (t : MimeTable) (path : String) : String :=
  t.get (((fileName? path).bind extension?).getD "")

def standard : MimeTable :=
  ofEntries
    [("html", "text/html"), ("htm", "text/html"), ("txt", "text/plain"), ("css", "text/css"),
     ("js", "application/javascript"), ("json", "application/json"), ("png", "image/png"),
     ("jpg", "image/jpeg"), ("jpeg", "image/jpeg"), ("gif", "image/gif"),
     ("svg", "image/svg+xml"), ("ico", "image/x-icon")]

end MimeTable

end PageServer.Site
