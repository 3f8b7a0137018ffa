import PageServer.Proofs.Exchange.Accepted

/-!
# All or nothing

A change of the head is made as a whole or not at all. A refused one leaves the
exchange as it was, and it is refused for coming too late exactly if the head
was sent before. Setting a status takes two changes, but no phrase that goes
with a status can be refused, so it never stops between them.
-/

namespace PageServer.Exchange

open Response (Cookie Head HeadField)

/-! ### One change -/

theorem change_of_committed {ex : Exchange} (hc : ex.committed = true) (field : HeadField)
    (fault : Option Response.Error) (f : Head → Head) :
    change field fault f ex = .error (.headCommitted field) ex := by
  unfold change
  rw [if_pos hc]

theorem change_of_fault {ex : Exchange} (hc : ex.committed = false) (field : HeadField)
    (e : Response.Error) (f : Head → Head) : change field (some e) f ex = .error e ex := by
  unfold change
  simp [hc]

/-- A change at fault is never made, so it does not matter which one it is. -/
theorem change_fault_eq (field : HeadField) (e : Response.Error) (f g : Head → Head) :
    change field (some e) f = change field (some e) g := by
  funext ex
  cases hc : ex.committed with
  | true => rw [change_of_committed hc, change_of_committed hc]
  | false => rw [change_of_fault hc, change_of_fault hc]

/-- The only ways a change can end. -/
theorem change_cases (field : HeadField) (fault : Option Response.Error) (f : Head → Head)
    (ex : Exchange) :
    (ex.committed = true ∧ change field fault f ex = .error (.headCommitted field) ex) ∨
      (ex.committed = false ∧ ∃ e, fault = some e ∧ change field fault f ex = .error e ex) ∨
        (ex.committed = false ∧ fault = none ∧
          change field fault f ex = .ok () { ex with head := f ex.head }) := by
  by_cases hc : ex.committed = true
  · exact .inl ⟨hc, change_of_committed hc field fault f⟩
  · replace hc : ex.committed = false := Bool.eq_false_iff.mpr hc
    cases fault with
    | some e => exact .inr (.inl ⟨hc, e, rfl, change_of_fault hc field e f⟩)
    | none => exact .inr (.inr ⟨hc, rfl, change_of_open hc field f⟩)

/-! ### Changes that can be asked for -/

inductive HeadChange where
  | statusCode (code : UInt16)
  | statusText (text : String)
  /-- A status code together with the phrase that goes with it. -/
  | status (code : UInt16)
  | mimeType (mime : String)
  | encoding (label : String)
  | contentLength (n : UInt64)
  | cookie (c : Cookie)

namespace HeadChange

def request : HeadChange → Action Response.Error Unit
  | statusCode code => setStatusCode code
  | statusText text => setStatusText text
  | status code => setStatus code
  | mimeType mime => setMimeType mime
  | encoding label => setEncoding label
  | contentLength n => setContentLength n
  | cookie c => addCookie c

/-- What a change that comes too late is told it cannot change. -/
def field : HeadChange → HeadField
  | statusCode _ | status _ => .statusCode
  | statusText _ => .statusText
  | mimeType _ => .mimeType
  | encoding _ => .encoding
  | contentLength _ => .contentLength
  | cookie _ => .cookies

/-- What is wrong with a change whatever exchange it is asked of. -/
def fault? : HeadChange → Option Response.Error
  | statusCode _ | status _ | contentLength _ => none
  | statusText text => lineFault? .statusText text
  | mimeType mime => lineFault? .mimeType mime
  | encoding label =>
    match Text.Encoding.ofLabel? label with
    | some _ => none
    | none => some (.unsupportedEncoding label)
  | cookie c => c.fault?

/-- The head with all of the change made. -/
def apply : HeadChange → Head → Head
  | statusCode code, h => { h with status := code }
  | statusText text, h => { h with reason := text }
  | status code, h => { h with status := code, reason := Response.reason code }
  | mimeType mime, h => { h with mimeType := mime }
  | encoding label, h => { h with encoding := (Text.Encoding.ofLabel? label).getD h.encoding }
  | contentLength n, h => { h with contentLength := some n }
  | cookie c, h => { h with cookies := h.cookies ++ [c] }

/-- Setting a status is one change: if the code can be set, so can the phrase. -/
theorem setStatus_eq (code : UInt16) :
    setStatus code = change .statusCode none (status code).apply := by
  funext ex
  have hphrase : lineFault? .statusText (Response.reason code) = none :=
    lineFault?_eq_none_iff.mpr (isPlain_reason code)
  rw [setStatus, bind_apply, setStatusCode]
  cases hc : ex.committed with
  | true => rw [change_of_committed hc, change_of_committed hc]
  | false =>
    rw [change_of_open hc, change_of_open hc]
    simp only [setStatusText, hphrase]
    apply change_of_open
    exact hc

theorem setEncoding_eq (label : String) :
    setEncoding label = change .encoding (encoding label).fault? (encoding label).apply := by
  rw [setEncoding, fault?]
  cases hlabel : Text.Encoding.ofLabel? label with
  | none => exact change_fault_eq _ _ _ _
  | some e =>
    have happly : (encoding label).apply = fun h => { h with encoding := e } := by
      funext h
      rw [apply, hlabel, Option.getD_some]
    rw [happly]

theorem request_eq (c : HeadChange) : c.request = change c.field c.fault? c.apply := by
  cases c with
  | status code => exact setStatus_eq code
  | encoding label => exact setEncoding_eq label
  | statusCode code => rfl
  | statusText text => rfl
  | mimeType mime => rfl
  | contentLength n => rfl
  | cookie c => rfl

theorem lineFault?_ne_headCommitted (field : HeadField) (text : String) (late : HeadField) :
    lineFault? field text ≠ some (.headCommitted late) := by
  rw [lineFault?]
  split <;> simp

theorem cookie_fault?_ne_headCommitted (c : Cookie) (late : HeadField) :
    c.fault? ≠ some (.headCommitted late) := by
  simp only [Cookie.fault?]
  split
  · simp
  · split <;> simp

/-- A change is never at fault for coming too late. -/
theorem fault?_ne_headCommitted (c : HeadChange) (late : HeadField) :
    c.fault? ≠ some (.headCommitted late) := by
  cases c with
  | statusText text => exact lineFault?_ne_headCommitted _ text late
  | mimeType mime => exact lineFault?_ne_headCommitted _ mime late
  | cookie c => exact cookie_fault?_ne_headCommitted c late
  | encoding label =>
    rw [fault?]
    cases Text.Encoding.ofLabel? label <;> simp
  | statusCode code => nofun
  | status code => nofun
  | contentLength n => nofun

theorem request_cases (c : HeadChange) (ex : Exchange) :
    (ex.committed = true ∧ c.request ex = .error (.headCommitted c.field) ex) ∨
      (ex.committed = false ∧ ∃ e, c.fault? = some e ∧ c.request ex = .error e ex) ∨
        (ex.committed = false ∧ c.fault? = none ∧
          c.request ex = .ok () { ex with head := c.apply ex.head }) := by
  rw [c.request_eq]
  exact change_cases c.field c.fault? c.apply ex

theorem eq_of_error {c : HeadChange} {ex ex' : Exchange} {e : Response.Error}
    (h : c.request ex = .error e ex') : ex' = ex := by
  rcases c.request_cases ex with ⟨-, hlate⟩ | ⟨-, e', -, hfault⟩ | ⟨-, -, hmade⟩
  · cases hlate.symm.trans h
    rfl
  · cases hfault.symm.trans h
    rfl
  · cases hmade.symm.trans h

theorem eq_of_ok {c : HeadChange} {ex ex' : Exchange} (h : c.request ex = .ok () ex') :
    ex' = { ex with head := c.apply ex.head } := by
  rcases c.request_cases ex with ⟨-, hlate⟩ | ⟨-, e', -, hfault⟩ | ⟨-, -, hmade⟩
  · cases hlate.symm.trans h
  · cases hfault.symm.trans h
  · cases hmade.symm.trans h
    rfl

/-- What comes too late is exactly what comes after the head. -/
theorem late_iff_committed (c : HeadChange) (ex : Exchange) :
    (∃ late ex', c.request ex = .error (.headCommitted late) ex') ↔ ex.committed = true := by
  constructor
  · rintro ⟨late, ex', h⟩
    rcases c.request_cases ex with ⟨hc, -⟩ | ⟨-, e, he, hfault⟩ | ⟨-, -, hmade⟩
    · exact hc
    · cases hfault.symm.trans h
      exact absurd he (c.fault?_ne_headCommitted late)
    · cases hmade.symm.trans h
  · intro hc
    rw [c.request_eq, change_of_committed hc]
    exact ⟨_, _, rfl⟩

end HeadChange

theorem sendError_of_committed {ex : Exchange} (hc : ex.committed = true) (status : UInt16)
    (message : String) :
    sendError status message ex = .error (.headCommitted .statusCode) ex := by
  rw [sendError, bind_apply, HeadChange.setStatus_eq, change_of_committed hc]

/-- Whatever became of an exchange so far, a change of its head that is asked for
is made as a whole or leaves the exchange as it was. It is refused for coming too
late exactly if the head was sent. An error page that comes too late changes
nothing either, and before the head is sent a status is always set with its
phrase. -/
theorem head_change_all_or_nothing (ex : Exchange) :
    (∀ c : HeadChange,
      (∀ e ex', c.request ex = .error e ex' → ex' = ex) ∧
      ((∃ late ex', c.request ex = .error (.headCommitted late) ex') ↔ ex.committed = true) ∧
      ∀ ex', c.request ex = .ok () ex' → ex' = { ex with head := c.apply ex.head }) ∧
    (∀ status message, ex.committed = true → ∃ e, sendError status message ex = .error e ex) ∧
    ∀ code, ex.committed = false → setStatus code ex = .ok ()
      { ex with head := { ex.head with status := code, reason := Response.reason code } } := by
  refine ⟨fun c => ⟨?_, c.late_iff_committed ex, ?_⟩, ?_, ?_⟩
  · intro e ex' h
    exact HeadChange.eq_of_error h
  · intro ex' h
    exact HeadChange.eq_of_ok h
  · intro status message hc
    exact ⟨_, sendError_of_committed hc status message⟩
  · intro code hc
    rw [HeadChange.setStatus_eq]
    exact change_of_open hc _ _

end PageServer.Exchange
