import PageServer.Text.CharClass

/-!
# Styled text

A terminal takes some characters not as text but as control sequences, which
style what follows. Text that is not for a terminal is written without them.
Main statement: text without control characters is its own unstyled form.
-/

namespace PageServer.Text

/-- What of a control sequence was read. -/
inductive Sequence where
  /-- None: this is text. -/
  | outside
  | escape
  | escapeArguments
  /-- From an opening bracket to a letter. -/
  | bracket
  /-- The arguments of a device string. -/
  | deviceStart
  | deviceNumbers
  | deviceMarks
  /-- A string that is not shown, up to its terminator. -/
  | string
  /-- A command to the terminal, up to the next bell. -/
  | command
  deriving DecidableEq, Repr

namespace Sequence

/-- Whether one of the octets of a character ends a string. -/
def isTerminator (c : Char) : Bool :=
  (String.utf8EncodeChar c).contains 0x9c

def within (low high : Char) (c : Char) : Bool :=
  low ≤ c && c ≤ high

/-- What a sequence becomes with one more character. The escape character begins
a new one anywhere, and two others cancel it. -/
def next (s : Sequence) (c : Char) : Sequence :=
  if c == '\x1b' then escape
  else if c == '\x18' || c == '\x1a' then outside
  else
    match s with
    | outside => outside
    | escape =>
      if within ' ' '/' c then escapeArguments
      else if c == '[' then bracket
      else if c == 'P' then deviceStart
      else if c == ']' then command
      else if c == 'X' || c == '^' || c == '_' then string
      else if within '0' '~' c then outside
      else escape
    | escapeArguments => if within '0' '~' c then outside else escapeArguments
    | bracket => if within '@' '~' c then outside else bracket
    | deviceStart =>
      if within '@' '~' c || c == ':' then string
      else if within '0' '?' c then deviceNumbers
      else if within ' ' '/' c then deviceMarks
      else deviceStart
    | deviceNumbers =>
      if within '<' '~' c || c == ':' then string
      else if within ' ' '/' c then deviceMarks
      else deviceNumbers
    | deviceMarks => if within '0' '~' c then string else deviceMarks
    | string => if isTerminator c then outside else string
    | command => if c == '\x07' then outside else command

/-- White space that a terminal heeds even within a short sequence. -/
def isLayout (c : Char) : Bool :=
  c == '\t' || c == '\n' || c == '\x0c' || c == '\r'

def shows (s : Sequence) (c : Char) : Bool :=
  match s with
  | outside => isLayout c || (' ' ≤ c && c != '\x7f')
  | escape | escapeArguments | bracket => isLayout c
  | _ => false

/-- What a sequence becomes while text is shown: it is not gone on with, but for
the characters that begin or cancel one. Characters outside of ASCII end it. -/
def nextShown (s : Sequence) (c : Char) : Sequence :=
  if c == '\x1b' then escape
  else if c == '\x18' || c == '\x1a' || 0x80 ≤ c.toNat then outside
  else s

end Sequence

/-- The text after part of a sequence. Once a character is shown, so are those
after it, up to the next one that is never shown. -/
def shownText (showing : Bool) (s : Sequence) : List Char → List Char
  | [] => []
  | c :: cs =>
    if showing then
      if Sequence.outside.shows c then c :: shownText true (s.nextShown c) cs
      else shownText false (s.nextShown c) cs
    else if s.shows c then c :: shownText true ((s.next c).nextShown c) cs
    else shownText false (s.next c) cs

/-- A text without its control sequences and other control characters. -/
def unstyled (s : String) : String :=
  String.ofList (shownText false .outside s.toList)

def emphasized (s : String) : String :=
  "\x1b[33m" ++ s ++ "\x1b[0m"

end PageServer.Text
