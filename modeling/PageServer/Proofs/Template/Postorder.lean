import PageServer.Proofs.Exchange.Accepted
import PageServer.Proofs.Failures
import PageServer.Template.Render

/-!
# Echoes of expression trees

The elements of an echo are often a tree in postfix order. Working them off on
the stack then computes the value of the tree, which is defined by recursion,
and fails where the recursion fails first.
-/

namespace PageServer.Template

/-! ### Expressions -/

inductive BinaryOperator where
  | add | sub | mul | div | pow
  deriving DecidableEq, Repr

def BinaryOperator.symbol : BinaryOperator → Char
  | add => '+'
  | sub => '-'
  | mul => '*'
  | div => '/'
  | pow => '^'

/-- The parameters that a function looks a name up in. -/
inductive ParameterKind where
  | query | persistent | temporary
  deriving DecidableEq, Repr

namespace ParameterKind

def function : ParameterKind → Builtin
  | query => .paramGet
  | persistent => .pparamGet
  | temporary => .tparamGet

def params : ParameterKind → Exchange → Params
  | query, ex => ex.query
  | persistent, ex => ex.persistent
  | temporary, ex => ex.temporary

/-- The parameter of that name, or the default if there is none. -/
def find (kind : ParameterKind) (ex : Exchange) (key default : Value) : Value :=
  match (kind.params ex).get? key.text with
  | some s => .string s
  | none => default

end ParameterKind

inductive Expr where
  | integer (v : Int64)
  | double (x : Float)
  | string (s : String)
  | name (s : String)
  | binary (op : BinaryOperator) (left right : Expr)
  | sin (angle : Expr)
  | decfmt (number pattern : Expr)
  | parameter (kind : ParameterKind) (key default : Expr)

namespace Expr

/-- The element at the root of a tree. -/
def root : Expr → Element
  | integer v => .integer v
  | double x => .double x
  | string s => .string s
  | name s => .name s
  | binary op _ _ => .operator op.symbol
  | sin _ => .function Builtin.sin.name
  | decfmt _ _ => .function Builtin.decfmt.name
  | parameter kind _ _ => .function kind.function.name

/-- All subtrees, each after those it contains, from left to right. -/
def subtrees : Expr → List Expr
  | integer v => [integer v]
  | double x => [double x]
  | string s => [string s]
  | name s => [name s]
  | binary op left right => left.subtrees ++ right.subtrees ++ [binary op left right]
  | sin angle => angle.subtrees ++ [sin angle]
  | decfmt number pattern => number.subtrees ++ pattern.subtrees ++ [decfmt number pattern]
  | parameter kind key default =>
    key.subtrees ++ default.subtrees ++ [parameter kind key default]

def postorder (e : Expr) : List Element :=
  e.subtrees.map root

/-- The value of a tree, its parts evaluated from left to right. -/
def value (scopes : List Scope) (ex : Exchange) : Expr → Except RenderError Value
  | integer v => .ok (.int v)
  | double x => .ok (.double x)
  | string s => .ok (.string s)
  | name s => (lookup scopes s).map Number.toValue
  | binary op left right => do
    let a ← left.value scopes ex
    let b ← right.value scopes ex
    (applyOperator op.symbol a b).mapError .value
  | sin angle => do
    let a ← angle.value scopes ex
    let n ← a.toNumber.mapError .value
    .ok (.double (Builtin.sineOfDegrees n.toFloat))
  | decfmt number pattern => do
    let a ← number.value scopes ex
    let p ← pattern.value scopes ex
    let n ← a.toNumber.mapError .value
    .ok (.string (formatDecimal n p.text))
  | parameter kind key default => do
    let k ← key.value scopes ex
    let v ← default.value scopes ex
    .ok (kind.find ex k v)

end Expr

/-! ### Elements on the stack -/

section Stack

variable {scopes : List Scope} {ex : Exchange}

/-- How a computation on the stack ends: with its value on the stack, or with
its error. The exchange is left alone. -/
inductive Pushes (ex : Exchange) (stack : List Value) :
    Except RenderError Value → EStateM.Result RenderError EchoState Unit → Prop
  | ok (v : Value) : Pushes ex stack (.ok v) (.ok () ⟨v :: stack, ex⟩)
  | error (err : RenderError) (left : List Value) :
      Pushes ex stack (.error err) (.error err ⟨left, ex⟩)

theorem pushes_ofExcept {α : Type} (r : Except RenderError α) (f : α → Value)
    (stack : List Value) :
    Pushes ex stack (r.map f) ((EchoM.ofExcept r >>= fun a => EchoM.push (f a)) ⟨stack, ex⟩) := by
  cases r with
  | ok a => exact .ok (f a)
  | error err => exact .error err stack

theorem pushes_ofValue {α : Type} (r : Except ValueError α) (f : α → Value)
    (stack : List Value) :
    Pushes ex stack (do
      let a ← r.mapError .value
      .ok (f a)) ((EchoM.ofValue r >>= fun a => EchoM.push (f a)) ⟨stack, ex⟩) := by
  cases r with
  | ok a => exact .ok (f a)
  | error e => exact .error (.value e) stack

/-- An element puts this result in the place of the values on top of any stack. -/
def Replaces (scopes : List Scope) (ex : Exchange) (e : Element) (taken : List Value)
    (result : Except RenderError Value) : Prop :=
  ∀ stack, Pushes ex stack result (echoElement scopes e ⟨taken ++ stack, ex⟩)

theorem replaces_name (s : String) :
    Replaces scopes ex (.name s) [] ((lookup scopes s).map Number.toValue) :=
  pushes_ofExcept (lookup scopes s) Number.toValue

theorem replaces_operator (c : Char) (left right : Value) :
    Replaces scopes ex (.operator c) [right, left]
      ((applyOperator c left right).mapError .value) := by
  intro stack
  have hpushes := @pushes_ofValue ex Value (applyOperator c left right) id stack
  have hvalue : (do
      let v ← (applyOperator c left right).mapError .value
      .ok (id v) : Except RenderError Value) =
        (applyOperator c left right).mapError .value := by
    cases applyOperator c left right <;> rfl
  rwa [hvalue] at hpushes

theorem echoElement_builtin (b : Builtin) : echoElement scopes (.function b.name) = b.run := by
  cases b <;> rfl

theorem replaces_sin (v : Value) :
    Replaces scopes ex (.function Builtin.sin.name) [v] (do
      let n ← v.toNumber.mapError .value
      .ok (.double (Builtin.sineOfDegrees n.toFloat))) := by
  intro stack
  rw [echoElement_builtin]
  exact pushes_ofValue v.toNumber _ stack

theorem replaces_decfmt (v pattern : Value) :
    Replaces scopes ex (.function Builtin.decfmt.name) [pattern, v] (do
      let n ← v.toNumber.mapError .value
      .ok (.string (formatDecimal n pattern.text))) := by
  intro stack
  rw [echoElement_builtin]
  exact pushes_ofValue v.toNumber _ stack

theorem replaces_parameter (kind : ParameterKind) (key default : Value) :
    Replaces scopes ex (.function kind.function.name) [default, key]
      (.ok (kind.find ex key default)) := by
  intro stack
  have hrun : kind.function.run ⟨[default, key] ++ stack, ex⟩ =
      (match (kind.params ex).get? key.text with
        | some s => EchoM.push (.string s)
        | none => EchoM.push default) ⟨stack, ex⟩ := by
    cases kind <;> rfl
  rw [echoElement_builtin, hrun, ParameterKind.find]
  cases (kind.params ex).get? key.text with
  | some s => exact .ok (.string s)
  | none => exact .ok default

/-! ### Elements in sequence -/

theorem echoElements_append (es fs : List Element) (s : EchoState) :
    echoElements scopes (es ++ fs) s = match echoElements scopes es s with
      | .ok _ s' => echoElements scopes fs s'
      | .error e s' => .error e s' := by
  induction es generalizing s with
  | nil => rfl
  | cons e es ih =>
    rw [List.cons_append, echoElements, echoElements, bind_apply, bind_apply]
    cases echoElement scopes e s with
    | ok u s' => exact ih s'
    | error err s' => rfl

theorem echoElements_singleton (e : Element) (s : EchoState) :
    echoElements scopes [e] s = echoElement scopes e s := by
  rw [echoElements, bind_apply]
  cases echoElement scopes e s <;> rfl

/-- Elements compute this result on top of any stack. -/
def Computes (scopes : List Scope) (ex : Exchange) (es : List Element)
    (result : Except RenderError Value) : Prop :=
  ∀ stack, Pushes ex stack result (echoElements scopes es ⟨stack, ex⟩)

namespace Computes

variable {es fs : List Element} {e : Element}

theorem nullary {r : Except RenderError Value} (he : Replaces scopes ex e [] r) :
    Computes scopes ex [e] r := by
  intro stack
  rw [echoElements_singleton]
  exact he stack

theorem unary {r : Except RenderError Value} {f : Value → Except RenderError Value}
    (hes : Computes scopes ex es r) (he : ∀ v, Replaces scopes ex e [v] (f v)) :
    Computes scopes ex (es ++ [e]) (r >>= f) := by
  intro stack
  rw [echoElements_append]
  have hrun := hes stack
  generalize echoElements scopes es ⟨stack, ex⟩ = out at hrun
  cases hrun with
  | ok v =>
    simp only [echoElements_singleton]
    exact he v stack
  | error err left => exact .error err left

theorem binary {r q : Except RenderError Value} {f : Value → Value → Except RenderError Value}
    (hes : Computes scopes ex es r) (hfs : Computes scopes ex fs q)
    (he : ∀ a b, Replaces scopes ex e [b, a] (f a b)) :
    Computes scopes ex (es ++ fs ++ [e]) (do
      let a ← r
      let b ← q
      f a b) := by
  intro stack
  rw [List.append_assoc, echoElements_append]
  have hleft := hes stack
  generalize echoElements scopes es ⟨stack, ex⟩ = out at hleft
  cases hleft with
  | error err left => exact .error err left
  | ok a =>
    simp only [echoElements_append]
    have hright := hfs (a :: stack)
    generalize echoElements scopes fs ⟨a :: stack, ex⟩ = out at hright
    cases hright with
    | error err left => exact .error err left
    | ok b =>
      simp only [echoElements_singleton]
      exact he a b stack

end Computes

theorem computes_postorder (e : Expr) : Computes scopes ex e.postorder (e.value scopes ex) := by
  induction e with
  | integer v => exact .nullary fun stack => .ok (.int v)
  | double x => exact .nullary fun stack => .ok (.double x)
  | string s => exact .nullary fun stack => .ok (.string s)
  | name s => exact .nullary (replaces_name s)
  | binary op left right ihl ihr =>
    rw [Expr.postorder, Expr.subtrees, List.map_append, List.map_append]
    exact .binary ihl ihr fun a b => replaces_operator op.symbol a b
  | sin angle ih =>
    rw [Expr.postorder, Expr.subtrees, List.map_append]
    exact .unary ih fun v => replaces_sin v
  | decfmt number pattern ihn ihp =>
    rw [Expr.postorder, Expr.subtrees, List.map_append, List.map_append]
    exact .binary ihn ihp fun a b => replaces_decfmt a b
  | parameter kind key default ihk ihd =>
    rw [Expr.postorder, Expr.subtrees, List.map_append, List.map_append]
    exact .binary ihk ihd fun a b => replaces_parameter kind a b

/-! ### Failures -/

/-- The error that a tree fails with by itself. -/
def Expr.failure? (scopes : List Scope) (ex : Exchange) (e : Expr) : Option RenderError :=
  match e.value scopes ex with
  | .ok _ => none
  | .error err => some err

theorem failure?_eq_some_iff {e : Expr} {err : RenderError} :
    e.failure? scopes ex = some err ↔ e.value scopes ex = .error err := by
  rw [Expr.failure?]
  cases e.value scopes ex <;> simp

theorem failure?_eq_none_iff {e : Expr} :
    e.failure? scopes ex = none ↔ ∃ v, e.value scopes ex = .ok v := by
  rw [Expr.failure?]
  cases e.value scopes ex <;> simp

/-- A tree fails as its part does if that fails. -/
theorem failure?_unary {e : Expr} (part : Expr) {f : Value → Except RenderError Value}
    (h : e.value scopes ex = part.value scopes ex >>= f) :
    (part.failure? scopes ex).or (e.failure? scopes ex) = e.failure? scopes ex := by
  cases hpart : part.value scopes ex with
  | error err =>
    have he : e.value scopes ex = .error err := by rw [h, hpart]; rfl
    rw [failure?_eq_some_iff.mpr hpart, failure?_eq_some_iff.mpr he]
    rfl
  | ok a =>
    rw [failure?_eq_none_iff.mpr ⟨a, hpart⟩]
    rfl

/-- A tree of two parts fails as the left one does, else as the right one. -/
theorem failure?_binary {e : Expr} (left right : Expr)
    {f : Value → Value → Except RenderError Value}
    (h : e.value scopes ex = (do
      let a ← left.value scopes ex
      let b ← right.value scopes ex
      f a b)) :
    ((left.failure? scopes ex).or (right.failure? scopes ex)).or (e.failure? scopes ex) =
      e.failure? scopes ex := by
  cases hleft : left.value scopes ex with
  | error err =>
    have he : e.value scopes ex = .error err := by rw [h, hleft]; rfl
    rw [failure?_eq_some_iff.mpr hleft, failure?_eq_some_iff.mpr he]
    rfl
  | ok a =>
    rw [failure?_eq_none_iff.mpr ⟨a, hleft⟩, Option.none_or]
    apply failure?_unary right (f := f a)
    rw [h, hleft]
    rfl

/-- A tree fails as the first of its subtrees that fails. -/
theorem findSome?_subtrees (e : Expr) :
    e.subtrees.findSome? (Expr.failure? scopes ex) = e.failure? scopes ex := by
  induction e with
  | integer v => rfl
  | double x => rfl
  | string s => rfl
  | name s => simp [Expr.subtrees]
  | binary op left right ihl ihr =>
    rw [Expr.subtrees, List.findSome?_append, List.findSome?_append, ihl, ihr]
    simpa using failure?_binary left right rfl
  | sin angle ih =>
    rw [Expr.subtrees, List.findSome?_append, ih]
    simpa using failure?_unary angle rfl
  | decfmt number pattern ihn ihp =>
    rw [Expr.subtrees, List.findSome?_append, List.findSome?_append, ihn, ihp]
    simpa using failure?_binary number pattern rfl
  | parameter kind key default ihk ihd =>
    rw [Expr.subtrees, List.findSome?_append, List.findSome?_append, ihk, ihd]
    simpa using failure?_binary key default rfl

theorem exists_first_failure {e : Expr} {err : RenderError}
    (h : e.value scopes ex = .error err) :
    ∃ before t after, e.subtrees = before ++ t :: after ∧
      (∀ u ∈ before, ∃ v, u.value scopes ex = .ok v) ∧ t.value scopes ex = .error err := by
  have hfirst := @findSome?_subtrees scopes ex e
  rw [failure?_eq_some_iff.mpr h] at hfirst
  obtain ⟨before, t, after, hsplit, ht, hbefore⟩ := List.findSome?_eq_some_iff.mp hfirst
  refine ⟨before, t, after, hsplit, ?_, failure?_eq_some_iff.mp ht⟩
  intro u hu
  exact failure?_eq_none_iff.mp (hbefore u hu)

/-- The error is about the number of values on the stack. -/
def RenderError.isOfStack : RenderError → Bool
  | stackUnderflow _ | unbalancedEcho _ => true
  | _ => false

/-- The failures of an expression are not about the stack. -/
abbrev OffStack {α : Type} (r : Except RenderError α) : Prop :=
  FailsOnly (fun err => err.isOfStack = false) r

theorem offStack_mapError {α : Type} (r : Except ValueError α) :
    OffStack (r.mapError RenderError.value) := by
  have hvalue (e : ValueError) : (RenderError.value e).isOfStack = false := rfl
  exact .mapError hvalue r

theorem offStack_lookup (s : String) : OffStack (lookup scopes s) := by
  unfold lookup
  cases findVariable scopes s with
  | none => exact .error rfl
  | some text => exact offStack_mapError _

/-- No tree asks for a value that is not there, or leaves one over. -/
theorem offStack_value (e : Expr) : OffStack (e.value scopes ex) := by
  induction e with
  | integer v => exact .ok _
  | double x => exact .ok _
  | string s => exact .ok _
  | name s => exact (offStack_lookup s).map Number.toValue
  | binary op left right ihl ihr =>
    exact ihl.bind fun a => ihr.bind fun b => offStack_mapError _
  | sin angle ih => exact ih.bind fun a => (offStack_mapError _).bind fun n => .ok _
  | decfmt number pattern ihn ihp =>
    exact ihn.bind fun a => ihp.bind fun p => (offStack_mapError _).bind fun n => .ok _
  | parameter kind key default ihk ihd => exact ihk.bind fun k => ihd.bind fun v => .ok _

/-! ### Echoes -/

theorem runEcho_postorder_of_ok {e : Expr} {v : Value} (h : e.value scopes ex = .ok v) :
    runEcho scopes e.postorder ⟨[], ex⟩ =
      EchoM.onExchange (Exchange.writeText v.text) ⟨[v], ex⟩ := by
  have hrun := @computes_postorder scopes ex e []
  rw [h] at hrun
  rw [runEcho, bind_apply]
  generalize echoElements scopes e.postorder ⟨[], ex⟩ = out at hrun
  cases hrun with
  | ok v => rfl

theorem runEcho_postorder_of_error {e : Expr} {err : RenderError}
    (h : e.value scopes ex = .error err) :
    ∃ left, runEcho scopes e.postorder ⟨[], ex⟩ = .error err ⟨left, ex⟩ := by
  have hrun := @computes_postorder scopes ex e []
  rw [h] at hrun
  rw [runEcho, bind_apply]
  generalize echoElements scopes e.postorder ⟨[], ex⟩ = out at hrun
  cases hrun with
  | error err left => exact ⟨left, rfl⟩

end Stack

/-- An echo of a tree in postfix order writes the text of the value of the tree,
if the sink takes it. If the tree has no value, the echo fails as the first of
the subtrees that fails, which is never for a lack of values, and writes
nothing. -/
theorem render_postorder (e : Expr) (bound : Nat) (scopes : List Scope) (ex : Exchange) :
    (∀ v, e.value scopes ex = .ok v →
      let data := ex.head.encoding.encode v.text
      ex.Accepts data →
        (Node.echo e.postorder).render bound ⟨scopes, ex⟩ = .ok () ⟨scopes, ex.wrote data⟩ ∧
          (ex.wrote data).sink.received =
            ex.sink.received ++ (if ex.committed then [] else ex.head.bytes) ++ data) ∧
      ∀ err, e.value scopes ex = .error err →
        (Node.echo e.postorder).render bound ⟨scopes, ex⟩ = .error (.failed err) ⟨scopes, ex⟩ ∧
          (∃ before t after, e.subtrees = before ++ t :: after ∧
            (∀ u ∈ before, ∃ v, u.value scopes ex = .ok v) ∧
            t.value scopes ex = .error err) ∧
          (∀ needing, err ≠ .stackUnderflow needing) ∧ ∀ n, err ≠ .unbalancedEcho n := by
  constructor
  · intro v hv data haccepts
    have hwrite : Exchange.writeText v.text ex = .ok () (ex.wrote data) := haccepts.write
    constructor
    · rw [Node.render, RenderM.onEcho, runEcho_postorder_of_ok hv, EchoM.onExchange, hwrite]
    · exact Exchange.received_wrote ex data
  · intro err herr
    obtain ⟨left, hrun⟩ := runEcho_postorder_of_error herr
    have hoff := offStack_value e err herr
    refine ⟨?_, exists_first_failure herr, ?_, ?_⟩
    · rw [Node.render, RenderM.onEcho, hrun]
    · rintro needing rfl
      cases hoff
    · rintro n rfl
      cases hoff

/-- The right operand is worked off last and subtracted. -/
theorem render_difference :
    let e : Expr := .binary .sub (.integer 10) (.binary .mul (.integer 2) (.integer 3))
    let ex := Exchange.start .unlimited .empty .empty [] none
    let data := ex.head.encoding.encode "4"
    e.postorder = [.integer 10, .integer 2, .integer 3, .operator '*', .operator '-'] ∧
      (Node.echo e.postorder).render 0 ⟨[], ex⟩ = .ok () ⟨[], ex.wrote data⟩ ∧
        (ex.wrote data).sink.received =
          ex.sink.received ++ (if ex.committed then [] else ex.head.bytes) ++ data := by
  intro e ex data
  have hvalue : e.value [] ex = .ok (.int 4) := rfl
  have haccepts : ex.Accepts data := (Exchange.takesAll_start _ _ _ _).accepts data
  exact ⟨rfl, (render_postorder e 0 [] ex).1 (.int 4) hvalue haccepts⟩

end PageServer.Template
