import PageServer.Proofs.Exchange.Framing

/-!
# Edits of the session's parameters

The parameters of a session are set and deleted one at a time. The edits that an
action makes follow it through the states it goes through, up to where it fails;
made one after another they lead to the parameters it leaves.
-/

namespace PageServer

/-- One change of a table of parameters. -/
inductive Edit where
  | set (key value : String)
  | erase (key : String)
  deriving DecidableEq

namespace Edit

def apply : Edit → Params → Params
  | set key value, params => params.insert key value
  | erase key, params => params.erase key

def applyAll (edits : List Edit) (params : Params) : Params :=
  edits.foldl (fun params e => e.apply params) params

@[simp] theorem applyAll_nil (params : Params) : applyAll [] params = params := rfl

theorem applyAll_append (edits more : List Edit) (params : Params) :
    applyAll (edits ++ more) params = applyAll more (applyAll edits params) :=
  List.foldl_append

end Edit

namespace Exchange

variable {ε σ α β : Type}

/-- An action changes the session's parameters by these edits and in no other
way, however it ends. -/
def EditsBy (view : σ → Exchange) (edits : σ → List Edit) (act : EStateM ε σ α) : Prop :=
  ∀ s, (view (endState (act s))).persistent = Edit.applyAll (edits s) (view s).persistent

def noEdits (_ : σ) : List Edit := []

/-- The edits of an action and, if it does not fail, of what follows it. -/
def thenEdits (edits : σ → List Edit) (act : EStateM ε σ α) (next : α → σ → List Edit) (s : σ) :
    List Edit :=
  edits s ++
    match act s with
    | .ok a s' => next a s'
    | .error _ _ => []

namespace EditsBy

variable {view : σ → Exchange}

theorem of_unchanged {act : EStateM ε σ α}
    (h : ∀ s, (view (endState (act s))).persistent = (view s).persistent) :
    EditsBy view noEdits act := h

theorem pure (a : α) : EditsBy view noEdits (Pure.pure a : EStateM ε σ α) :=
  of_unchanged fun _ => rfl

theorem throw (e : ε) : EditsBy view noEdits (MonadExcept.throw e : EStateM ε σ α) :=
  of_unchanged fun _ => rfl

theorem bind {edits : σ → List Edit} {nextEdits : α → σ → List Edit} {act : EStateM ε σ α}
    {next : α → EStateM ε σ β} (h : EditsBy view edits act)
    (hnext : ∀ a, EditsBy view (nextEdits a) (next a)) :
    EditsBy view (thenEdits edits act nextEdits) (act >>= next) := by
  intro s
  have hs := h s
  rw [thenEdits, bind_apply, Edit.applyAll_append, ← hs]
  cases act s with
  | ok a s' => exact hnext a s'
  | error e s' => rfl

theorem bind_first {edits : σ → List Edit} {act : EStateM ε σ α} {next : α → EStateM ε σ β}
    (h : EditsBy view edits act) (hnext : ∀ a, EditsBy view noEdits (next a)) :
    EditsBy view edits (act >>= next) := by
  intro s
  have hs := h s
  rw [bind_apply, ← hs]
  cases act s with
  | ok a s' => exact hnext a s'
  | error e s' => rfl

theorem bind_get (edits : σ → σ → List Edit) {next : σ → EStateM ε σ α}
    (h : ∀ s, EditsBy view (edits s) (next s)) :
    EditsBy view (fun s => edits s s) (MonadState.get >>= next) :=
  fun s => h s s

theorem bind_none {act : EStateM ε σ α} {next : α → EStateM ε σ β} (h : EditsBy view noEdits act)
    (hnext : ∀ a, EditsBy view noEdits (next a)) : EditsBy view noEdits (act >>= next) :=
  h.bind_first hnext

theorem sequential : Sequential fun {α : Type} (act : EStateM ε σ α) => EditsBy view noEdits act :=
  ⟨pure, throw, bind_none⟩

theorem adaptExcept {δ : Type} (f : ε → δ) {edits : σ → List Edit} {act : EStateM ε σ α}
    (h : EditsBy view edits act) : EditsBy view edits (EStateM.adaptExcept f act) := by
  intro s
  have hs := h s
  rw [← hs, EStateM.adaptExcept]
  cases act s <;> rfl

end EditsBy

/-! ### Calls -/

theorem editsBy_change (field : Response.HeadField) (fault : Option Response.Error)
    (f : Response.Head → Response.Head) : EditsBy id noEdits (change field fault f) := by
  refine .of_unchanged fun ex => ?_
  simp only [change]
  split
  · rfl
  · cases fault <;> rfl

theorem editsBy_send (data : Bytes) : EditsBy id noEdits (send data) := by
  refine .of_unchanged fun ex => ?_
  simp only [send]
  split <;> rfl

theorem editsBy_commit : EditsBy id noEdits commit := by
  refine .of_unchanged fun ex => ?_
  have hsend := editsBy_send ex.head.bytes ex
  simp only [commit]
  split
  · rfl
  · rw [← Edit.applyAll_nil (id ex).persistent]
    refine Eq.trans ?_ hsend
    cases send ex.head.bytes ex <;> rfl

theorem editsBy_write (data : Bytes) : EditsBy id noEdits (write data) :=
  editsBy_commit.bind_none fun _ => editsBy_send data

theorem editsBy_writeText (text : String) : EditsBy id noEdits (writeText text) :=
  fun ex => editsBy_write (ex.head.encoding.encode text) ex

theorem editsBy_setMimeType (mime : String) : EditsBy id noEdits (setMimeType mime) :=
  editsBy_change _ _ _

theorem editsBy_modifying {ε : Type} {edits : List Edit} {f : Exchange → Exchange}
    (h : ∀ ex, (f ex).persistent = Edit.applyAll edits ex.persistent) :
    EditsBy id (fun _ => edits) (modifying (ε := ε) f) := h

theorem editsBy_sendError (status : UInt16) (message : String) :
    EditsBy id noEdits (sendError status message) := by
  rw [sendError_eq]
  exact (editsBy_change _ _ _).bind_none fun _ => (editsBy_change _ _ _).bind_none fun _ =>
    (editsBy_setMimeType _).bind_none fun _ => editsBy_writeText _

end Exchange

end PageServer
