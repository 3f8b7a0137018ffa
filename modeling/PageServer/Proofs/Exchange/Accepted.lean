import PageServer.Proofs.Exchange.Framing
import PageServer.Proofs.Exchange.HeadBlock

/-!
# Exchanges whose writes succeed

Over a sink that takes every write an error page is sent as a whole, and the end
of an exchange finds its head sent.
-/

namespace PageServer.Exchange

open Response (Head IsPlain)

theorem send_of_takes {ex : Exchange} {data : Bytes} (h : ex.sink.takes data = true) :
    send data ex = .ok () { ex with sink := ex.sink.push data } :=
  if_pos h

/-! ### One write that is taken -/

/-- The exchange once its head was sent. -/
def headSent (ex : Exchange) : Exchange :=
  if ex.committed then ex
  else { ex with sink := ex.sink.push ex.head.bytes, committed := true }

/-- The exchange once these bytes were written. -/
def wrote (ex : Exchange) (data : Bytes) : Exchange :=
  { ex.headSent with sink := ex.headSent.sink.push data }

/-- The sink takes these bytes, and before them the head if it was not sent. -/
structure Accepts (ex : Exchange) (data : Bytes) : Prop where
  head : ex.committed = false → ex.sink.takes ex.head.bytes = true
  body : ex.headSent.sink.takes data = true

theorem received_headSent (ex : Exchange) :
    ex.headSent.sink.received =
      ex.sink.received ++ if ex.committed then [] else ex.head.bytes := by
  rw [headSent]
  cases ex.committed with
  | true => simp
  | false => simp

theorem received_wrote (ex : Exchange) (data : Bytes) :
    (ex.wrote data).sink.received =
      ex.sink.received ++ (if ex.committed then [] else ex.head.bytes) ++ data := by
  rw [wrote, Sink.received_push, received_headSent]

theorem Accepts.write {ex : Exchange} {data : Bytes} (h : ex.Accepts data) :
    Exchange.write data ex = .ok () (ex.wrote data) := by
  have hcommit : commit ex = .ok () ex.headSent := by
    rw [commit, headSent]
    cases hc : ex.committed with
    | true => rfl
    | false =>
      simp only [Bool.false_eq_true, if_false, send_of_takes (h.head hc)]
  rw [Exchange.write, bind_apply, hcommit]
  exact send_of_takes h.body

/-! ### Sinks that take every write -/

/-- The sink takes whatever it is offered. -/
def TakesAll (ex : Exchange) : Prop :=
  ∀ o, ex.sink.accepts o = true

theorem takesAll_start (query persistent : Params) (cookies : List Response.Cookie)
    (site : Option Site) : TakesAll (start .unlimited query persistent cookies site) :=
  fun _ => rfl

theorem TakesAll.takes {ex : Exchange} (h : TakesAll ex) (data : Bytes) :
    ex.sink.takes data = true := by
  rw [Sink.takes, h, Bool.or_true]

theorem TakesAll.accepts {ex : Exchange} (h : TakesAll ex) (data : Bytes) : ex.Accepts data where
  head _ := h.takes _
  body := by
    have hnext : TakesAll ex.headSent := by
      intro o
      rw [headSent]
      cases ex.committed with
      | true => exact h o
      | false => exact h o
    exact hnext.takes data

theorem TakesAll.commit {ex : Exchange} (h : TakesAll ex) (hc : ex.committed = false) :
    commit ex = .ok () { ex with sink := ex.sink.push ex.head.bytes, committed := true } := by
  rw [Exchange.commit, hc, send_of_takes (h.takes _)]
  rfl

theorem TakesAll.write {ex : Exchange} (h : TakesAll ex) (hc : ex.committed = false)
    (data : Bytes) :
    write data ex = .ok ()
      { ex with sink := (ex.sink.push ex.head.bytes).push data, committed := true } := by
  rw [(h.accepts data).write, wrote, headSent, hc]
  rfl

theorem accepts_commit (ex : Exchange) :
    (endState (Exchange.commit ex)).sink.accepts = ex.sink.accepts := by
  rcases commit_cases ex with ⟨-, h⟩ | ⟨-, h⟩ | ⟨-, h⟩ <;> rw [h] <;> rfl

theorem accepts_write (data : Bytes) (ex : Exchange) :
    (endState (Exchange.write data ex)).sink.accepts = ex.sink.accepts := by
  have hcommit := accepts_commit ex
  rw [Exchange.write, bind_apply]
  cases hc : Exchange.commit ex with
  | error e ex' =>
    rw [hc] at hcommit
    exact hcommit
  | ok u ex' =>
    rw [hc] at hcommit
    rcases send_cases data ex' with h | h <;> simp only [h] <;> exact hcommit

theorem accepts_call (c : Call) (ex : Exchange) :
    (after c.perform ex).sink.accepts = ex.sink.accepts := by
  rcases c.perform_cases ex with ⟨data, -, hw⟩ | ⟨-, hw⟩ | ⟨-, hs⟩
  · rw [after_eq_endState, hw]
    exact accepts_write data ex
  · rw [after_eq_endState, hw]
    exact accepts_commit ex
  · rw [hs.sink]

theorem TakesAll.performAll {ex : Exchange} (h : TakesAll ex) (cs : List Call) :
    TakesAll (performAll cs ex) := by
  induction cs generalizing ex with
  | nil => exact h
  | cons c cs ih =>
    apply ih
    intro o
    rw [accepts_call]
    exact h o

/-- After its end an exchange has sent its head. -/
theorem TakesAll.committed_finish {ex : Exchange} (h : TakesAll ex) :
    (after finish ex).committed = true := by
  rw [after_eq_endState, finish]
  cases hc : ex.committed with
  | true => rw [Exchange.commit, hc]; exact hc
  | false => rw [h.commit hc]; rfl

/-! ### Error pages -/

/-- What holds of all phrases holds of the one for a status. -/
theorem of_reasonPhrases {P : String → Prop} (hall : ∀ p ∈ Response.reasonPhrases, P p.2)
    (hunknown : P "Unknown") (status : UInt16) : P (Response.reason status) := by
  rw [Response.reason]
  cases hfound : Response.reasonPhrases.lookup status.toNat with
  | none => exact hunknown
  | some r =>
    obtain ⟨before, after, hphrases, -⟩ := List.lookup_eq_some_iff.mp hfound
    exact hall (status.toNat, r) (by simp [hphrases])

theorem isPlain_reason (status : UInt16) : IsPlain (Response.reason status) :=
  of_reasonPhrases (by decide +kernel) (by decide) status

/-- The head of an error page: all of it is set anew but the length, the encoding
and the cookies. -/
def errorHead (h : Head) (status : UInt16) : Head :=
  { h with status := status, reason := Response.reason status, mimeType := "text/html" }

theorem isClean_errorHead {h : Head} (hh : h.IsClean) (status : UInt16) :
    (errorHead h status).IsClean := by
  have hmime : IsPlain "text/html" := by decide
  exact ⟨isPlain_reason status, hmime, hh.cookies⟩

theorem change_of_open {ex : Exchange} (hc : ex.committed = false) (field : Response.HeadField)
    (f : Head → Head) : change field none f ex = .ok () { ex with head := f ex.head } := by
  unfold change
  simp [hc]

theorem TakesAll.sendError {ex : Exchange} (h : TakesAll ex) (hc : ex.committed = false)
    (status : UInt16) (message : String) :
    let head := errorHead ex.head status
    sendError status message ex = .ok ()
      { ex with
        head := head
        committed := true
        sink := (ex.sink.push head.bytes).push
          (head.encoding.encode (Response.errorPage status message)) } := by
  intro head
  have hreason : lineFault? .statusText (Response.reason status) = none :=
    lineFault?_eq_none_iff.mpr (isPlain_reason status)
  have hmime : lineFault? .mimeType "text/html" = none := by decide
  let coded : Exchange := { ex with head := { ex.head with status := status } }
  let worded : Exchange :=
    { ex with head := { coded.head with reason := Response.reason status } }
  have hcoded : setStatusCode status ex = .ok () coded := change_of_open hc _ _
  have hworded : setStatusText (Response.reason status) coded = .ok () worded := by
    have hopen : coded.committed = false := hc
    rw [setStatusText, hreason]
    exact change_of_open hopen _ _
  have htyped : setMimeType "text/html" worded = .ok () { ex with head := head } := by
    have hopen : worded.committed = false := hc
    rw [setMimeType, hmime]
    exact change_of_open hopen _ _
  have hhead : TakesAll { ex with head := head } := h
  rw [sendError_eq, bind_apply, hcoded]
  simp only [bind_apply, hworded, htyped]
  exact hhead.write hc _

end PageServer.Exchange
