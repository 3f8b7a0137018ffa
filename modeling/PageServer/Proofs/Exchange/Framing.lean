import PageServer.Proofs.Template.Calls
import PageServer.Response.ErrorPage

/-!
# The head goes first, once

However an exchange is used and whatever its sink refuses, the sink holds either
nothing or one head and after it the accepted pieces of the body. The head that
was sent is the one the exchange still has.
-/

namespace PageServer.Exchange

open Response (Cookie Head)

/-- What the sink took of an exchange. -/
inductive Sent where
  | head (h : Head)
  | body (data : Bytes)
  deriving DecidableEq

/-- What a call sends: the head of the exchange if the call commits it, and the
call's own bytes if the call succeeds. -/
def Call.sent (c : Call) (ex : Exchange) : List Sent :=
  (if !ex.committed && (after c.perform ex).committed then [.head ex.head] else []) ++
    if c.succeeds ex then (c.payload? ex).toList.map .body else []

def sentBy : List Call → Exchange → List Sent
  | [], _ => []
  | c :: cs, ex => c.sent ex ++ sentBy cs (after c.perform ex)

/-- An exchange that has sent exactly this: nothing, or its head and then some
pieces of the body. -/
def Framed (log : List Sent) (ex : Exchange) : Prop :=
  (ex.committed = false ∧ log = [] ∧ ex.sink.received = []) ∨
    (ex.committed = true ∧ ∃ pieces : List Bytes,
      log = .head ex.head :: pieces.map .body ∧
        ex.sink.received = ex.head.bytes ++ pieces.flatten)

/-! ### What one call can do -/

/-- Two exchanges with the same output: a head that was sent is the same too. -/
structure SameOutput (ex ex' : Exchange) : Prop where
  committed : ex'.committed = ex.committed
  sink : ex'.sink = ex.sink
  head : ex.committed = true → ex'.head = ex.head

theorem SameOutput.refl (ex : Exchange) : SameOutput ex ex :=
  ⟨rfl, rfl, fun _ => rfl⟩

theorem SameOutput.trans {ex mid ex' : Exchange} (h : SameOutput ex mid)
    (h' : SameOutput mid ex') : SameOutput ex ex' where
  committed := h'.committed.trans h.committed
  sink := h'.sink.trans h.sink
  head hc := (h'.head (h.committed.trans hc)).trans (h.head hc)

theorem SameOutput.framed {ex ex' : Exchange} {log : List Sent} (h : SameOutput ex ex')
    (hf : Framed log ex) : Framed log ex' := by
  rcases hf with ⟨hc, hlog, hr⟩ | ⟨hc, pieces, hlog, hr⟩
  · left
    exact ⟨h.committed.trans hc, hlog, by rw [h.sink, hr]⟩
  · right
    refine ⟨h.committed.trans hc, pieces, ?_, ?_⟩
    · rw [h.head hc, hlog]
    · rw [h.head hc, h.sink, hr]

theorem sameOutput_change (field : Response.HeadField) (fault : Option Response.Error)
    (f : Head → Head) (ex : Exchange) : SameOutput ex (after (change field fault f) ex) := by
  rw [after_eq_endState]
  unfold change
  split
  · exact .refl ex
  · next hc =>
    cases fault with
    | some e => exact .refl ex
    | none => exact ⟨rfl, rfl, fun h => absurd h hc⟩

theorem sameOutput_setEncoding (label : String) (ex : Exchange) :
    SameOutput ex (after (setEncoding label) ex) := by
  unfold setEncoding
  split
  · exact sameOutput_change _ _ _ ex
  · exact sameOutput_change _ _ _ ex

/-- A call is a write, the end of the exchange, or leaves the output alone. -/
theorem Call.perform_cases (c : Call) (ex : Exchange) :
    (∃ data, c.payload? ex = some data ∧ c.perform ex = Exchange.write data ex) ∨
      (c.payload? ex = none ∧ c.perform ex = commit ex) ∨
        (c.payload? ex = none ∧ SameOutput ex (after c.perform ex)) := by
  cases c with
  | write data => exact .inl ⟨data, rfl, rfl⟩
  | writeText text => exact .inl ⟨_, rfl, rfl⟩
  | finish => exact .inr (.inl ⟨rfl, rfl⟩)
  | statusCode code =>
    rw [perform, setStatusCode]
    exact .inr (.inr ⟨rfl, sameOutput_change _ _ _ ex⟩)
  | statusText text =>
    rw [perform, setStatusText]
    exact .inr (.inr ⟨rfl, sameOutput_change _ _ _ ex⟩)
  | mimeType mime =>
    rw [perform, setMimeType]
    exact .inr (.inr ⟨rfl, sameOutput_change _ _ _ ex⟩)
  | encoding label => exact .inr (.inr ⟨rfl, sameOutput_setEncoding label ex⟩)
  | contentLength n =>
    rw [perform, setContentLength]
    exact .inr (.inr ⟨rfl, sameOutput_change _ _ _ ex⟩)
  | cookie c =>
    rw [perform, addCookie]
    exact .inr (.inr ⟨rfl, sameOutput_change _ _ _ ex⟩)
  | flush => exact .inr (.inr ⟨rfl, .refl ex⟩)
  | setPersistent key value => exact .inr (.inr ⟨rfl, ⟨rfl, rfl, fun _ => rfl⟩⟩)
  | erasePersistent key => exact .inr (.inr ⟨rfl, ⟨rfl, rfl, fun _ => rfl⟩⟩)
  | setTemporary key value => exact .inr (.inr ⟨rfl, ⟨rfl, rfl, fun _ => rfl⟩⟩)
  | eraseTemporary key => exact .inr (.inr ⟨rfl, ⟨rfl, rfl, fun _ => rfl⟩⟩)

/-- What sending the head does: nothing the second time, and nothing but asking
if the sink refuses. -/
theorem commit_cases (ex : Exchange) :
    (ex.committed = true ∧ commit ex = .ok () ex) ∨
      (ex.committed = false ∧
        commit ex = .ok () { ex with sink := ex.sink.push ex.head.bytes, committed := true }) ∨
        (ex.committed = false ∧
          commit ex = .error .sinkFull { ex with sink := ex.sink.refuse }) := by
  unfold commit send
  cases hc : ex.committed with
  | true => exact .inl ⟨rfl, rfl⟩
  | false =>
    cases ht : ex.sink.takes ex.head.bytes with
    | true => exact .inr (.inl ⟨rfl, by simp⟩)
    | false => exact .inr (.inr ⟨rfl, by simp⟩)

/-! ### Framing is kept -/

theorem Framed.refused {ex : Exchange} {log : List Sent} (h : Framed log ex) :
    Framed log { ex with sink := ex.sink.refuse } := by
  simpa only [Framed, Sink.received_refuse] using h

theorem Framed.head_sent {ex : Exchange} {log : List Sent} (h : Framed log ex)
    (hc : ex.committed = false) :
    Framed (log ++ [.head ex.head])
      { ex with sink := ex.sink.push ex.head.bytes, committed := true } := by
  rcases h with ⟨-, rfl, hr⟩ | ⟨hc', -⟩
  · exact .inr ⟨rfl, [], rfl, by simp [hr]⟩
  · simp [hc] at hc'

theorem Framed.body_sent {ex : Exchange} {log : List Sent} (h : Framed log ex)
    (hc : ex.committed = true) (data : Bytes) :
    Framed (log ++ [.body data]) { ex with sink := ex.sink.push data } := by
  rcases h with ⟨hc', -⟩ | ⟨-, pieces, rfl, hr⟩
  · simp [hc] at hc'
  · exact .inr ⟨hc, pieces ++ [data], by simp, by simp [hr]⟩

/-- What a write sends, in terms of the exchange it starts from. -/
theorem Framed.write {ex : Exchange} {log : List Sent} (h : Framed log ex) (data : Bytes) :
    Framed (log ++ ((if !ex.committed && (after (Exchange.write data) ex).committed then
        [.head ex.head] else []) ++
          match Exchange.write data ex with
          | .ok _ _ => [.body data]
          | .error _ _ => []))
      (after (Exchange.write data) ex) := by
  have hwrite : Exchange.write data ex = EStateM.bind commit (fun _ => send data) ex := rfl
  rw [after_eq_endState, hwrite, EStateM.bind]
  rcases commit_cases ex with ⟨hc, hcommit⟩ | ⟨hc, hcommit⟩ | ⟨hc, hcommit⟩
  · rw [hcommit]
    dsimp only [send]
    split
    · simpa [hc] using h.body_sent hc data
    · simpa [hc] using h.refused
  · rw [hcommit]
    dsimp only [send]
    split
    · simpa [hc] using (h.head_sent hc).body_sent rfl data
    · simpa [hc] using (h.head_sent hc).refused
  · rw [hcommit]
    simpa [hc] using h.refused

theorem Framed.commit {ex : Exchange} {log : List Sent} (h : Framed log ex) :
    Framed (log ++ if !ex.committed && (after Exchange.commit ex).committed then
        [.head ex.head] else [])
      (after Exchange.commit ex) := by
  rw [after_eq_endState]
  rcases commit_cases ex with ⟨hc, hcommit⟩ | ⟨hc, hcommit⟩ | ⟨hc, hcommit⟩
  · rw [hcommit]
    simpa [hc] using h
  · rw [hcommit]
    simpa [hc] using h.head_sent hc
  · rw [hcommit]
    simpa [hc] using h.refused

/-- The step: one call, refused or not. -/
theorem Framed.call {ex : Exchange} {log : List Sent} (h : Framed log ex) (c : Call) :
    Framed (log ++ c.sent ex) (after c.perform ex) := by
  rcases c.perform_cases ex with ⟨data, hp, hw⟩ | ⟨hp, hw⟩ | ⟨hp, hs⟩
  · have hafter : after c.perform ex = after (Exchange.write data) ex := by
      simp only [after_eq_endState, hw]
    have hsucc : (if c.succeeds ex then (c.payload? ex).toList.map Sent.body else []) =
        match Exchange.write data ex with
        | .ok _ _ => [.body data]
        | .error _ _ => [] := by
      rw [Call.succeeds, hw, hp]
      cases Exchange.write data ex <;> rfl
    rw [Call.sent, hafter, hsucc]
    exact h.write data
  · have hafter : after c.perform ex = after Exchange.commit ex := by
      simp only [after_eq_endState, hw]
    have hnone : (if c.succeeds ex then (c.payload? ex).toList.map Sent.body else []) = [] := by
      simp [hp]
    rw [Call.sent, hafter, hnone, List.append_nil]
    exact h.commit
  · have hsent : c.sent ex = [] := by
      rw [Call.sent, hs.committed, hp]
      cases ex.committed <;> simp
    rw [hsent, List.append_nil]
    exact hs.framed h

theorem Framed.performAll {ex : Exchange} {log : List Sent} (h : Framed log ex) (cs : List Call) :
    Framed (log ++ sentBy cs ex) (Exchange.performAll cs ex) := by
  -- every call adds what it sent at the end of the log, so the log is left open
  induction cs generalizing ex log with
  | nil => simpa [sentBy] using h
  | cons c cs ih =>
    rw [sentBy, ← List.append_assoc]
    exact ih (h.call c)

theorem framed_start (accepts : Offer → Bool) (query persistent : Params) (cookies : List Cookie)
    (site : Option Site) :
    Framed [] (start (.ofPolicy accepts) query persistent cookies site) :=
  .inl ⟨rfl, rfl, rfl⟩

/-! ### Operations -/

/-- What can be asked of an exchange from outside: a call, or one of the actions
that make several. -/
inductive Operation where
  | call (c : Call)
  | status (code : UInt16)
  | errorPage (status : UInt16) (message : String)
  /-- Rendering a document, given up when a loop has run this often. -/
  | template (d : Template.Document) (bound : Nat)

def statusCalls (code : UInt16) : List Call :=
  [.statusCode code, .statusText (Response.reason code)]

def errorPageCalls (status : UInt16) (message : String) : List Call :=
  statusCalls status ++ [.mimeType "text/html", .writeText (Response.errorPage status message)]

namespace Operation

/-- The exchange after an operation, whether it failed or not. -/
def run : Operation → Exchange → Exchange
  | .call c => after c.perform
  | .status code => after (setStatus code)
  | .errorPage code message => after (sendError code message)
  | .template d bound => after (d.render bound)

def runAll (ops : List Operation) (ex : Exchange) : Exchange :=
  ops.foldl (fun ex op => op.run ex) ex

/-- The calls that an operation makes. An action goes on until a call of it is
refused; a template makes calls of its own kind. -/
inductive Makes : Operation → Exchange → List Call → Prop
  | call (c : Call) (ex : Exchange) : Makes (.call c) ex [c]
  | status (code : UInt16) (ex : Exchange) :
      Makes (.status code) ex (untilRefused (statusCalls code) ex)
  | errorPage (status : UInt16) (message : String) (ex : Exchange) :
      Makes (.errorPage status message) ex (untilRefused (errorPageCalls status message) ex)
  | template (d : Template.Document) (bound : Nat) (ex : Exchange) (cs : List Call)
      (hcs : ∀ c ∈ cs, c.IsOfTemplate) (hrun : performAll cs ex = after (d.render bound) ex) :
      Makes (.template d bound) ex cs

/-- The calls of operations one after another. -/
inductive MakesAll : List Operation → Exchange → List Call → Prop
  | nil (ex : Exchange) : MakesAll [] ex []
  | cons {op : Operation} {ops : List Operation} {ex : Exchange} {cs ds : List Call}
      (hop : Makes op ex cs) (hops : MakesAll ops (op.run ex) ds) :
      MakesAll (op :: ops) ex (cs ++ ds)

end Operation

/-- An action that performs calls until one is refused has their effect. -/
theorem performAll_untilRefused_cons (c : Call) (cs : List Call) (ex : Exchange)
    {next : Unit → Action Response.Error Unit}
    (hnext : performAll (untilRefused cs (after c.perform ex)) (after c.perform ex) =
      after (next ()) (after c.perform ex)) :
    performAll (untilRefused (c :: cs) ex) ex = after (c.perform >>= next) ex := by
  change performAll (untilRefused (c :: cs) ex) ex = after (EStateM.bind c.perform next) ex
  rw [after_eq_endState, EStateM.bind, untilRefused, performAll, Call.succeeds]
  rw [after_eq_endState c.perform] at hnext ⊢
  cases hc : c.perform ex with
  | ok u ex' => simpa [hc, after_eq_endState] using hnext
  | error e ex' => simp

theorem performAll_untilRefused_one (c : Call) (ex : Exchange) :
    performAll (untilRefused [c] ex) ex = after c.perform ex := by
  simp [untilRefused, performAll]

theorem performAll_statusCalls (code : UInt16) (ex : Exchange) :
    performAll (untilRefused (statusCalls code) ex) ex = after (setStatus code) ex :=
  performAll_untilRefused_cons _ _ ex (performAll_untilRefused_one _ _)

theorem sendError_eq (status : UInt16) (message : String) :
    sendError status message = (do
      setStatusCode status
      setStatusText (Response.reason status)
      setMimeType "text/html"
      writeText (Response.errorPage status message)) := by
  rw [sendError, setStatus]
  exact bind_assoc ..

theorem performAll_errorPageCalls (status : UInt16) (message : String) (ex : Exchange) :
    performAll (untilRefused (errorPageCalls status message) ex) ex =
      after (sendError status message) ex := by
  rw [sendError_eq]
  exact performAll_untilRefused_cons _ _ ex (performAll_untilRefused_cons _ _ _
    (performAll_untilRefused_cons _ _ _ (performAll_untilRefused_one _ _)))

namespace Operation

theorem exists_makes (op : Operation) (ex : Exchange) : ∃ cs, Makes op ex cs := by
  cases op with
  | call c => exact ⟨_, .call c ex⟩
  | status code => exact ⟨_, .status code ex⟩
  | errorPage status message => exact ⟨_, .errorPage status message ex⟩
  | template d bound =>
    obtain ⟨cs, hcs, hrun⟩ := Template.consistsOf_render d bound ex
    exact ⟨cs, .template d bound ex cs hcs (hrun.trans (after_eq_endState _ ex).symm)⟩

theorem Makes.performAll_eq {op : Operation} {ex : Exchange} {cs : List Call}
    (h : Makes op ex cs) : performAll cs ex = op.run ex := by
  cases h with
  | call c _ => rfl
  | status code _ => exact performAll_statusCalls code ex
  | errorPage status message _ => exact performAll_errorPageCalls status message ex
  | template d bound _ _ _ hrun => exact hrun

theorem MakesAll.performAll_eq {ops : List Operation} {ex : Exchange} {cs : List Call}
    (h : MakesAll ops ex cs) : performAll cs ex = runAll ops ex := by
  induction h with
  | nil => rfl
  | cons hop _ ih => rw [performAll_append, hop.performAll_eq, ih]; rfl

theorem exists_makesAll (ops : List Operation) (ex : Exchange) : ∃ cs, MakesAll ops ex cs := by
  induction ops generalizing ex with
  | nil => exact ⟨[], .nil ex⟩
  | cons op ops ih =>
    obtain ⟨cs, hcs⟩ := exists_makes op ex
    obtain ⟨ds, hds⟩ := ih (op.run ex)
    exact ⟨cs ++ ds, .cons hcs hds⟩

end Operation

/-- After any operations on a new exchange, over a sink that refuses whatever it
likes, the sink has received nothing or exactly the head that the exchange still
has and then the bytes of the successful writes, in the order of the calls. -/
theorem received_eq_head_append_payloads (accepts : Offer → Bool) (query persistent : Params)
    (cookies : List Cookie) (site : Option Site) (ops : List Operation) :
    let first := start (.ofPolicy accepts) query persistent cookies site
    let last := Operation.runAll ops first
    (∃ cs, Operation.MakesAll ops first cs) ∧
      ∀ cs, Operation.MakesAll ops first cs →
        (last.committed = false ∧ sentBy cs first = [] ∧ last.sink.received = []) ∨
          (last.committed = true ∧ ∃ payloads : List Bytes,
            sentBy cs first = .head last.head :: payloads.map .body ∧
              last.sink.received = last.head.bytes ++ payloads.flatten) := by
  intro first last
  refine ⟨Operation.exists_makesAll ops first, fun cs hcs => ?_⟩
  have hframed := (framed_start accepts query persistent cookies site).performAll cs
  rw [hcs.performAll_eq] at hframed
  exact hframed

end PageServer.Exchange
