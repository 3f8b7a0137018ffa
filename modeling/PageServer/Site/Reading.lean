import PageServer.Site.FileTree

/-!
# Reading files

A reading asks for the contents of files one after another and may choose the
next one by what it has read. It is carried out in a file tree, or outside of
this library on real files.
-/

namespace PageServer.Site

inductive Reading (α : Type) where
  | done (a : α)
  | read (path : String) (next : Except ReadError Bytes → Reading α)

namespace Reading

variable {α β : Type}

def bind : Reading α → (α → Reading β) → Reading β
  | done a, f => f a
  | read path next, f => read path fun content => (next content).bind f

instance : Monad Reading where
  pure := done
  bind := bind

def file (path : String) : Reading (Except ReadError Bytes) :=
  read path done

def asText (content : Bytes) : Except ReadError String :=
  match Text.ofUtf8? content with
  | some s => .ok s
  | none => .error .notText

def text (path : String) : Reading (Except ReadError String) :=
  read path fun content => done (content.bind asText)

def run (t : FileTree) : Reading α → α
  | done a => a
  | read path next => (next (t.read path)).run t

end Reading

end PageServer.Site
