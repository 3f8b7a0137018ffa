import PageServer.Logging.Directive

/-!
# Log filters

A filter is a list of directives. Those that depend on what goes on stand apart
from the others. Among each the most specific ones come first, and a directive
replaces an older one with the same conditions.
-/

namespace PageServer.Logging

/-- Puts a directive at its place, for an older one with its conditions. -/
def insertDirective (d : Directive) : List Directive → List Directive
  | [] => [d]
  | e :: rest =>
    match d.specificity e with
    | .eq => d :: rest
    | .gt => d :: e :: rest
    | .lt => e :: insertDirective d rest

structure Filter where
  static : List Directive
  dynamic : List Directive
  deriving Repr

namespace Filter

def empty : Filter := ⟨[], []⟩

def addStatic (f : Filter) (d : Directive) : Filter :=
  { f with static := insertDirective d f.static }

def addDynamic (f : Filter) (d : Directive) : Filter :=
  { f with dynamic := insertDirective d f.dynamic }

/-- Adds a directive where it can be decided soonest. -/
def add (f : Filter) (d : Directive) : Filter :=
  if d.isStatic then f.addStatic d else f.addDynamic d

def ofLevel (l : Level) : Filter := empty.addStatic (.ofLevel l)

/-- The filter of directives. One that can be decided in both ways stands among
both. -/
def ofDirectives (ds : List Directive) : Filter :=
  let dynamic := ds.filter Directive.isDynamic
  let static := ds.filter (!·.isDynamic) ++ dynamic.filter Directive.isStatic
  dynamic.foldl addDynamic (static.foldl addStatic empty)

def parse? (s : String) : Option Filter :=
  let pieces := (Text.splitAt ',' s.toList).filter fun p => !p.isEmpty
  (pieces.mapM fun p => Directive.parse? (String.ofList p)).map ofDirectives

/-- Adds the directives between commas, leaving out those at fault. -/
def addAll (f : Filter) (s : String) : Filter :=
  let pieces := (Text.splitAt ',' s.toList).map fun p => String.ofList (Text.trimChars p)
  (pieces.filterMap Directive.parse?).foldl add f

def text (f : Filter) : String :=
  ",".intercalate ((f.static ++ f.dynamic).map Directive.text)

end Filter

end PageServer.Logging
