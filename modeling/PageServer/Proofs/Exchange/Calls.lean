import PageServer.Exchange

/-!
# Calls on an exchange

Whatever answers a request does so by calls on its exchange. Actions of every
kind are sequences of such calls, so what each call preserves is preserved by
all of them.
-/

namespace PageServer

/-- The state in which a run ends, however it ends. -/
def endState {ε σ α : Type} : EStateM.Result ε σ α → σ
  | .ok _ s => s
  | .error _ s => s

@[simp] theorem endState_ok {ε σ α : Type} (a : α) (s : σ) :
    endState (.ok a s : EStateM.Result ε σ α) = s := rfl

@[simp] theorem endState_error {ε σ α : Type} (e : ε) (s : σ) :
    endState (.error e s : EStateM.Result ε σ α) = s := rfl

/-- What a run returns or fails with. -/
def endResult {ε σ α : Type} : EStateM.Result ε σ α → Except ε α
  | .ok a _ => .ok a
  | .error e _ => .error e

theorem bind_apply {ε σ α β : Type} (act : EStateM ε σ α) (next : α → EStateM ε σ β) (s : σ) :
    (act >>= next) s = match act s with
      | .ok a s' => next a s'
      | .error e s' => .error e s' := rfl

/-- A property of actions that sequences of them inherit. -/
structure Sequential {ε σ : Type} (P : {α : Type} → EStateM ε σ α → Prop) : Prop where
  pure : ∀ {α : Type} (a : α), P (Pure.pure a)
  throw : ∀ {α : Type} (e : ε), P (MonadExcept.throw e : EStateM ε σ α)
  bind : ∀ {α β : Type} {act : EStateM ε σ α} {next : α → EStateM ε σ β},
    P act → (∀ a, P (next a)) → P (act >>= next)

namespace Exchange

open Response (Cookie Head)

theorem after_eq_endState {ε α : Type} (act : Action ε α) (ex : Exchange) :
    after act ex = endState (act ex) := by
  rw [after]
  cases act ex <;> rfl

/-- One call on an exchange by what answers the request. -/
inductive Call where
  | statusCode (code : UInt16)
  | statusText (text : String)
  | mimeType (mime : String)
  | encoding (label : String)
  | contentLength (n : UInt64)
  | cookie (c : Cookie)
  /-- Bytes of the body. -/
  | write (data : Bytes)
  /-- Text of the body. -/
  | writeText (text : String)
  /-- A flush asks nothing of the exchange itself. -/
  | flush
  | finish
  | setPersistent (key value : String)
  | erasePersistent (key : String)
  | setTemporary (key value : String)
  | eraseTemporary (key : String)

namespace Call

def perform : Call → Action Response.Error Unit
  | statusCode code => setStatusCode code
  | statusText text => setStatusText text
  | mimeType mime => setMimeType mime
  | encoding label => setEncoding label
  | contentLength n => setContentLength n
  | cookie c => addCookie c
  | write data => Exchange.write data
  | writeText text => Exchange.writeText text
  | flush => pure ()
  | finish => Exchange.finish
  | setPersistent key value => modifying (Exchange.setPersistent key value)
  | erasePersistent key => modifying (Exchange.erasePersistent key)
  | setTemporary key value => modifying (Exchange.setTemporary key value)
  | eraseTemporary key => modifying (Exchange.eraseTemporary key)

/-- Whether a call is not refused. -/
def succeeds (c : Call) (ex : Exchange) : Bool :=
  match c.perform ex with
  | .ok _ _ => true
  | .error _ _ => false

/-- The bytes that a call offers for the body. -/
def payload? (ex : Exchange) : Call → Option Bytes
  | write data => some data
  | writeText text => some (ex.head.encoding.encode text)
  | _ => none

end Call

/-- The exchange after some calls, of which any may have been refused. -/
def performAll : List Call → Exchange → Exchange
  | [], ex => ex
  | c :: cs, ex => performAll cs (after c.perform ex)

@[simp] theorem performAll_nil (ex : Exchange) : performAll [] ex = ex := rfl

theorem performAll_append (cs ds : List Call) (ex : Exchange) :
    performAll (cs ++ ds) ex = performAll ds (performAll cs ex) := by
  induction cs generalizing ex with
  | nil => rfl
  | cons c cs ih => exact ih _

/-- The calls up to the first that is refused, that one included. -/
def untilRefused : List Call → Exchange → List Call
  | [], _ => []
  | c :: cs, ex => c :: if c.succeeds ex then untilRefused cs (after c.perform ex) else []

/-! ### Actions that consist of calls -/

/-- However an action ends, its effect on the exchange is that of calls of one
kind. The exchange is a part `view` of the state acted on. -/
def ConsistsOf {ε σ α : Type} (P : Call → Prop) (view : σ → Exchange) (act : EStateM ε σ α) :
    Prop :=
  ∀ s, ∃ cs : List Call, (∀ c ∈ cs, P c) ∧ performAll cs (view s) = view (endState (act s))

namespace ConsistsOf

variable {ε σ α β : Type} {P : Call → Prop} {view : σ → Exchange}

/-- An action that leaves the exchange alone consists of no calls. -/
theorem of_unchanged {act : EStateM ε σ α} (h : ∀ s, view (endState (act s)) = view s) :
    ConsistsOf P view act :=
  fun s => ⟨[], by simp, (h s).symm⟩

theorem pure (a : α) : ConsistsOf P view (Pure.pure a : EStateM ε σ α) :=
  of_unchanged fun _ => rfl

theorem throw (e : ε) : ConsistsOf P view (MonadExcept.throw e : EStateM ε σ α) :=
  of_unchanged fun _ => rfl

theorem get : ConsistsOf P view (MonadState.get : EStateM ε σ σ) :=
  of_unchanged fun _ => rfl

theorem bind {act : EStateM ε σ α} {next : α → EStateM ε σ β} (h : ConsistsOf P view act)
    (hnext : ∀ a, ConsistsOf P view (next a)) : ConsistsOf P view (act >>= next) := by
  intro s
  obtain ⟨cs, hcs, hrun⟩ := h s
  rw [bind_apply]
  cases hact : act s with
  | error e s' => exact ⟨cs, hcs, by rw [hrun, hact]; rfl⟩
  | ok a s' =>
    obtain ⟨ds, hds, hrun'⟩ := hnext a s'
    refine ⟨cs ++ ds, ?_, ?_⟩
    · intro c hc
      rcases List.mem_append.mp hc with hc | hc
      · exact hcs c hc
      · exact hds c hc
    · rw [performAll_append, hrun, hact]
      exact hrun'

theorem sequential :
    Sequential fun {α : Type} (act : EStateM ε σ α) => ConsistsOf P view act :=
  ⟨pure, throw, bind⟩

theorem adaptExcept {δ : Type} (f : ε → δ) {act : EStateM ε σ α} (h : ConsistsOf P view act) :
    ConsistsOf P view (EStateM.adaptExcept f act) := by
  intro s
  obtain ⟨cs, hcs, hrun⟩ := h s
  refine ⟨cs, hcs, hrun.trans ?_⟩
  rw [EStateM.adaptExcept]
  cases act s <;> rfl

theorem mono {Q : Call → Prop} {act : EStateM ε σ α} (hPQ : ∀ c, P c → Q c)
    (h : ConsistsOf P view act) : ConsistsOf Q view act := by
  intro s
  obtain ⟨cs, hcs, hrun⟩ := h s
  exact ⟨cs, fun c hc => hPQ c (hcs c hc), hrun⟩

/-- One call is an action on the exchange that consists of it. -/
theorem call {c : Call} (hc : P c) : ConsistsOf P id c.perform := by
  intro ex
  refine ⟨[c], by simpa using hc, ?_⟩
  exact after_eq_endState c.perform ex

end ConsistsOf

/-- What calls of one kind preserve is preserved by what consists of them. -/
theorem ConsistsOf.preserves {ε σ α : Type} {P : Call → Prop} {view : σ → Exchange}
    {act : EStateM ε σ α} (h : ConsistsOf P view act) (Inv : Exchange → Prop)
    (hcall : ∀ c ex, P c → Inv ex → Inv (after c.perform ex)) {s : σ} (hs : Inv (view s)) :
    Inv (view (endState (act s))) := by
  obtain ⟨cs, hcs, hrun⟩ := h s
  rw [← hrun]
  clear hrun
  generalize view s = ex at hs ⊢
  induction cs generalizing ex with
  | nil => exact hs
  | cons c cs ih =>
    exact ih (fun d hd => hcs d (List.mem_cons_of_mem _ hd)) _
      (hcall c ex (hcs c List.mem_cons_self) hs)

end Exchange

end PageServer
