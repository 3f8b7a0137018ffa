import PageServer.Logging.Field
import PageServer.Logging.Level
import PageServer.Text.Alphanumeric

/-!
# Log directives

A directive is a level for the events of a target, of a span or of those with
some field. It is written as the target, then the span and the field in brackets,
then the level after `=`; what is left out puts no condition. Without any level
all events are let through.
-/

namespace PageServer.Logging

structure Directive where
  /-- The part of the program it is about. -/
  target : Option String
  /-- The activity in which the events arise. -/
  span : Option String
  field : Option FieldMatch
  level : Level
  deriving Repr

namespace Directive

def ofLevel (l : Level) : Directive := ⟨none, none, none, l⟩

/-- Whether it depends on what goes on when an event arises. -/
def isDynamic (d : Directive) : Bool :=
  d.span.isSome || d.field.isSome

/-- Whether it can be decided from where in the program an event arises. -/
def isStatic (d : Directive) : Bool :=
  d.span.isNone && d.field.all fun m => m.value.isNone

/-! ### Reading -/

/-- What part of a directive is being read, and the place where it began. -/
inductive Part where
  | start
  /-- A target, or a level alone. -/
  | target (first : Nat)
  | span (first : Nat)
  | field (first : Nat)
  | spanEnd
  | bracketed
  | level (first : Nat)
  deriving DecidableEq, Repr

def mayStart (c : Char) : Bool :=
  Text.isAlphanumeric c || c == '-' || c == ':' || c == '_'

def slice (cs : List Char) (first stop : Nat) : String :=
  String.ofList ((cs.take stop).drop first)

/-- Reads the character at a place. Parts are cut out of `source`. -/
def read? (source : List Char) (place : Nat) (c : Char) (part : Part) (d : Directive) :
    Option (Part × Directive) :=
  match part, c with
  | .start, '[' => some (.span (place + 1), d)
  | .start, c => if mayStart c then some (.target place, d) else none
  | .target first, '=' =>
    some (.level (place + 1), { d with target := some (slice source first place) })
  | .target first, '[' =>
    some (.span (place + 1), { d with target := some (slice source first place) })
  | .span first, ']' => some (.bracketed, { d with span := some (slice source first place) })
  | .span first, '\x7b' =>
    let name := slice source first place
    some (.field (place + 1), { d with span := if name.isEmpty then none else some name })
  | .field first, '\x7d' =>
    (FieldMatch.parse? (slice source first place)).map fun m =>
      (.spanEnd, { d with field := some m })
  | .spanEnd, ']' => some (.bracketed, d)
  | .bracketed, '=' => some (.level (place + 1), d)
  | .target _, _ | .span _, _ | .field _, _ | .level _, _ => some (part, d)
  | .spanEnd, _ | .bracketed, _ => none

def readAll? (source : List Char) : Nat → List Char → Part × Directive → Option (Part × Directive)
  | _, [], r => some r
  | place, c :: cs, (part, d) =>
    (read? source place c part d).bind (readAll? source (place + 1) cs)

/-- The directive that ends with a part. A target alone has every level. -/
def finish? (source : List Char) (part : Part) (d : Directive) : Option Directive :=
  match part with
  | .target first =>
    let word := String.ofList (source.drop first)
    match Level.ofText? word with
    | some l => some { d with level := l }
    | none => some { d with target := some word }
  | .level first =>
    let word := String.ofList (source.drop first)
    if word.isEmpty then some d else (Level.ofText? word).map fun l => { d with level := l }
  | .bracketed => some d
  | _ => none

/-- The directive of a text. Where its parts begin and end is seen without the
white space around it, but they are cut out of the whole text. -/
def parse? (s : String) : Option Directive :=
  (readAll? s.toList 0 (Text.trimChars s.toList) (.start, ofLevel .trace)).bind fun r =>
    finish? s.toList r.1 r.2

/-! ### Writing -/

def conditionText (d : Directive) : String :=
  if !d.isDynamic then ""
  else
    "[" ++ d.span.getD "" ++
      (match d.field with
        | some m => "\x7b" ++ m.text ++ "\x7d"
        | none => "") ++ "]"

def text (d : Directive) : String :=
  let condition := d.target.getD "" ++ d.conditionText
  if d.target.isNone && !d.isDynamic then d.level.text else condition ++ "=" ++ d.level.text

/-! ### Order -/

/-- How specific a directive is: by the length of its target, then by whether it
names a span and a field; the names themselves decide between equals. -/
def specificity (a b : Directive) : Ordering :=
  (compare (a.target.map String.utf8ByteSize) (b.target.map String.utf8ByteSize)).then <|
    (compare a.span.isSome.toNat b.span.isSome.toNat).then <|
      (compare a.field.isSome.toNat b.field.isSome.toNat).then <|
        (compare a.target b.target).then <|
          (compare a.span b.span).then (compare a.field b.field)

end Directive

end PageServer.Logging
