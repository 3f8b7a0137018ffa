import PageServer.Exchange

/-!
# Error pages

Text put into a page has the five characters that mean something in markup
written as entities. An error page shows the status, its reason phrase and the
message of the error.
-/

namespace PageServer

namespace Response

/-- The entity for a character that means something in markup. -/
def entity? (c : Char) : Option String :=
  if c = '&' then some "&amp;"
  else if c = '<' then some "&lt;"
  else if c = '>' then some "&gt;"
  else if c = '"' then some "&quot;"
  else if c = '\'' then some "&#39;"
  else none

def escapeChar (c : Char) : List Char :=
  match entity? c with
  | some e => e.toList
  | none => [c]

def escapeMarkup (s : String) : String :=
  String.ofList (s.toList.flatMap escapeChar)

def errorPage (status : UInt16) (message : String) : String :=
  let title := s!"{Decimal.natText status.toNat} {reason status}"
  "<html><head><title>" ++ title ++ "</title></head><body><h1>" ++ title ++ "</h1><p>" ++
    escapeMarkup message ++ "</p></body></html>"

end Response

namespace Exchange

/-- Answers with an error page, as long as the head was not sent. -/
def sendError (status : UInt16) (message : String) : Action Response.Error Unit := do
  setStatus status
  setMimeType "text/html"
  writeText (Response.errorPage status message)

end Exchange

end PageServer
