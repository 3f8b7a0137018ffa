import PageServer.Yaml.Tag

/-!
# Tokens of a flat YAML text

A mapping is opened by its indentation or by a brace. Text of scalars stands in
its tokens without quotes and escapes.
-/

namespace PageServer.Yaml

inductive Style where
  | plain
  | singleQuoted
  | doubleQuoted
  | literal
  | folded
  deriving DecidableEq, Repr

inductive Token where
  | directive (d : Directive)
  | documentStart
  | documentEnd
  /-- The first key of a mapping on lines follows. -/
  | blockOpen
  | blockClose
  | braceOpen
  | braceClose
  | comma
  | key
  | value
  | anchor (name : String)
  /-- The name of an anchor whose scalar stands here too. -/
  | alias (name : String)
  | tag (t : Tag)
  | scalar (style : Style) (text : String)
  deriving DecidableEq, Repr

end PageServer.Yaml
