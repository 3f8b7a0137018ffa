import PageServer.Connection.Serve
import PageServer.Proofs.Connection.Receiving
import PageServer.Proofs.Exchange.Accepted
import PageServer.Proofs.Session.Resolving
import PageServer.Proofs.Site.Calls
import PageServer.Session.Ident

/-!
# What a connection comes to

A connection whose writes succeed closes without an answer, is rejected without
a session, or is answered in one. Which it is depends on the bytes alone; an
answer is one head, which sets the cookie of a new session and no other, and the
body after it.
-/

namespace PageServer

namespace Exchange

open Response (Cookie Head)

/-- The head reports success and sets these cookies, whatever the content is. -/
structure Succeeding (cookies : List Cookie) (h : Head) : Prop where
  status : h.status = 200
  reason : h.reason = "OK"
  cookies : h.cookies = cookies

theorem Succeeding.call {cookies : List Cookie} {c : Call} {ex : Exchange} (hc : c.IsOfPage)
    (h : Succeeding cookies ex.head) : Succeeding cookies (after c.perform ex).head := by
  rcases c.head_cases ex with heq | hchange
  · rw [heq]
    exact h
  · cases c with
    | mimeType mime =>
      rw [hchange.2]
      exact ⟨h.status, h.reason, h.cookies⟩
    | contentLength n =>
      rw [hchange]
      exact ⟨h.status, h.reason, h.cookies⟩
    | statusCode code => exact hc.elim
    | statusText text => exact hc.elim
    | encoding label => exact hc.elim
    | cookie k => exact hc.elim
    | _ => exact hchange.elim

end Exchange

namespace Connection

open Exchange (after performAll sentBy Call Sent TakesAll Succeeding errorHead)
open Response (Cookie Head)

/-! ### Reports of failures -/

/-- A failure is shown by calls on the exchange, if its head was not sent. -/
theorem report_spec {ex : Exchange} (h : TakesAll ex) (f : Failure) :
    ∃ cs, performAll cs ex = report f ex ∧
      (report f ex).head = if ex.committed then ex.head else errorHead ex.head f.status := by
  cases hc : ex.committed with
  | true =>
    refine ⟨[], ?_, ?_⟩
    · simp [report, hc]
    · simp [report, hc]
  | false =>
    have hreport : report f ex = after (Exchange.sendError f.status f.message) ex := by
      simp [report, hc]
    have hcalls := Exchange.performAll_errorPageCalls f.status f.message ex
    refine ⟨_, hcalls.trans hreport.symm, ?_⟩
    · rw [hreport, Exchange.after_eq_endState, h.sendError hc]
      rfl

/-- The status that an answer announces. What fails after the head was sent
cannot change it any more. -/
def answerStatus (server : Server) (bounds : Bounds) (path : String)
    (query : Except Request.Error Params) (ex : Exchange) : UInt16 :=
  match query with
  | .error _ => 400
  | .ok _ =>
    match server.site.dispatch bounds path true ex with
    | .error (.failed e) ex' => if ex'.committed then 200 else e.status
    | .error .cutOff _ | .ok _ _ => 200

/-- Calls take one exchange to another, whose head announces that status and sets
these cookies. -/
structure Announces (cookies : List Cookie) (status : UInt16) (cs : List Call)
    (ex ex' : Exchange) : Prop where
  calls : performAll cs ex = ex'
  status : ex'.head.status = status
  reason : ex'.head.reason = Response.reason ex'.head.status
  cookies : ex'.head.cookies = cookies

theorem announces_of_succeeding {cookies : List Cookie} {cs : List Call} {ex ex' : Exchange}
    (hcalls : performAll cs ex = ex') (h : Succeeding cookies ex'.head) :
    Announces cookies 200 cs ex ex' := by
  refine ⟨hcalls, h.status, ?_, h.cookies⟩
  rw [h.reason, h.status]
  decide

theorem announces_report {cookies : List Cookie} {ex : Exchange} (htakes : TakesAll ex)
    (hhead : Succeeding cookies ex.head) (f : Failure) :
    ∃ cs, Announces cookies (if ex.committed then 200 else f.status) cs ex (report f ex) := by
  obtain ⟨cs, hcs, hreport⟩ := report_spec htakes f
  refine ⟨cs, ?_⟩
  cases hc : ex.committed with
  | true =>
    rw [hc, if_pos rfl] at hreport
    rw [← hreport] at hhead
    exact announces_of_succeeding hcs hhead
  | false =>
    rw [hc, if_neg Bool.false_ne_true] at hreport
    refine ⟨hcs, ?_, ?_, ?_⟩
    · rw [hreport]
      rfl
    · rw [hreport]
      rfl
    · rw [hreport]
      exact hhead.cookies

/-- A request is answered by calls on its exchange, which leave the cookies
alone. -/
theorem answer_spec (server : Server) (bounds : Bounds) (path : String)
    (query : Except Request.Error Params) {ex : Exchange} {cookies : List Cookie}
    (htakes : TakesAll ex) (hopen : ex.committed = false) (hhead : Succeeding cookies ex.head)
    (hends : ∀ q, query = .ok q → ∀ ex',
      server.site.dispatch bounds path true ex ≠ .error .cutOff ex') :
    ∃ ex' cs, answer server bounds path query ex = some ex' ∧
      Announces cookies (answerStatus server bounds path query ex) cs ex ex' := by
  cases query with
  | error e =>
    obtain ⟨cs, hcs⟩ := announces_report htakes hhead (.ofRequest e)
    rw [hopen] at hcs
    exact ⟨_, cs, rfl, hcs⟩
  | ok q =>
    have hcalls := Site.pageCalls_dispatch server.site bounds path true
    obtain ⟨cs, hcs, hrun⟩ := hcalls ex
    have hkept : Succeeding cookies (endState (server.site.dispatch bounds path true ex)).head :=
      hcalls.preserves (fun ex => Succeeding cookies ex.head)
        (fun c ex hc h => h.call hc) hhead
    have htaken : TakesAll (performAll cs ex) := htakes.performAll cs
    cases hdispatch : server.site.dispatch bounds path true ex with
    | ok u ex' =>
      rw [hdispatch] at hkept hrun
      refine ⟨ex', cs, ?_, ?_⟩
      · simp only [answer, hdispatch]
      · simp only [answerStatus, hdispatch]
        exact announces_of_succeeding hrun hkept
    | error stop ex' =>
      rw [hdispatch] at hkept hrun
      have hrun' : performAll cs ex = ex' := hrun
      rw [hrun'] at htaken
      cases stop with
      | cutOff => exact absurd hdispatch (hends q rfl ex')
      | failed e =>
        obtain ⟨ds, hds⟩ := announces_report htaken hkept (.ofDispatch e)
        refine ⟨report (.ofDispatch e) ex', cs ++ ds, ?_, ?_⟩
        · simp only [answer, hdispatch]
        · simp only [answerStatus, hdispatch]
          refine ⟨?_, hds.status, hds.reason, hds.cookies⟩
          rw [Exchange.performAll_append, hrun']
          exact hds.calls

/-! ### Cookies -/

/-- The lines of a head that set cookies. -/
def cookieLines (h : Head) : List String :=
  h.lines.filter fun l => (Text.strip? "Set-Cookie: ".toList l.toList).isSome

theorem strip?_append (start rest : List Char) :
    Text.strip? start (start ++ rest) = some rest := by
  induction start with
  | nil => rfl
  | cons c start ih => simpa [Text.strip?] using ih

theorem strip?_cookie_of_head {s : String} (t : String) (hs : s.toList.head? ≠ some 'S')
    (hne : s ≠ "") : (Text.strip? "Set-Cookie: ".toList (s ++ t).toList).isSome = false := by
  rw [String.toList_append]
  cases hchars : s.toList with
  | nil => exact absurd (String.toList_eq_nil_iff.mp hchars) hne
  | cons c cs =>
    have hc : 'S' ≠ c := by
      rintro rfl
      simp [hchars] at hs
    change (Text.strip? ('S' :: "et-Cookie: ".toList) (c :: (cs ++ t.toList))).isSome = false
    rw [Text.strip?, if_neg hc]
    rfl

/-- Nothing but the cookies of a head sets a cookie. -/
theorem cookieLines_eq (h : Head) :
    cookieLines h = h.cookies.map fun c => "Set-Cookie: " ++ c.text := by
  have hcookies : ∀ cs : List Cookie,
      (cs.map fun c => "Set-Cookie: " ++ c.text).filter
        (fun l => (Text.strip? "Set-Cookie: ".toList l.toList).isSome) =
      cs.map fun c => "Set-Cookie: " ++ c.text := by
    intro cs
    apply List.filter_eq_self.mpr
    intro l hl
    obtain ⟨c, -, rfl⟩ := List.mem_map.mp hl
    rw [String.toList_append, strip?_append]
    rfl
  have hlength : (h.contentLength.map fun n =>
      "Content-Length: " ++ Decimal.natText n.toNat).toList.filter
        (fun l => (Text.strip? "Set-Cookie: ".toList l.toList).isSome) = [] := by
    cases h.contentLength with
    | none => rfl
    | some n =>
      have hlabel : "Content-Length: ".toList.head? ≠ some 'S' := by decide
      have hn := strip?_cookie_of_head (Decimal.natText n.toNat) hlabel (by decide)
      rw [Option.map_some, Option.toList_some, List.filter_cons, hn]
      rfl
  have hversion : "HTTP/1.1 ".toList.head? ≠ some 'S' := by decide
  have hstatus := strip?_cookie_of_head
    (Decimal.natText h.status.toNat ++ (" " ++ h.reason)) hversion (by decide)
  have hlabel : "Content-Type: ".toList.head? ≠ some 'S' := by decide
  have htype := strip?_cookie_of_head h.contentType hlabel (by decide)
  rw [cookieLines, Head.lines, List.filter_append, List.filter_append, hlength, hcookies,
    String.append_assoc, String.append_assoc, List.filter_cons, hstatus, List.filter_cons, htype]
  rfl

/-! ### Answers -/

/-- Bytes are one response: the head ends with the first empty line among them. -/
structure IsResponse (head : Head) (body received : Bytes) : Prop where
  bytes : received = head.bytes ++ body
  header : Request.IsHeaderOf received head.bytes
  reason : head.reason = Response.reason head.status

/-- The head of every rejection. -/
def rejectionHead : Head :=
  errorHead (.initial []) 400

/-- A connection was rejected because of an error, and no session was touched. -/
structure Rejected (store : SessionStore) (e : Request.Error) (result : Sink × SessionStore) :
    Prop where
  response : IsResponse rejectionHead (Text.utf8Bytes (Response.errorPage 400 e.message))
    result.1.received
  status : rejectionHead.status = 400
  cookies : cookieLines rejectionHead = []
  store : result.2 = store

/-- A connection was answered in a session that was resolved for it: the calls on
its exchange sent one head and the pieces of the body, and besides that changed
the parameters of the session. -/
def Answered (server : Server) (bounds : Bounds) (incoming : Incoming) (resolved : Resolved)
    (found : SessionStore) (result : Sink × SessionStore) : Prop :=
  let query := Request.parameters incoming.query
  let opened :=
    openExchange server incoming resolved (found.params resolved.params) query .unlimited
  ∃ (calls : List Call) (head : Head) (pieces : List Bytes),
    sentBy calls opened = .head head :: pieces.map .body ∧
      IsResponse head pieces.flatten result.1.received ∧
      head.status = answerStatus server bounds incoming.path query opened ∧
      cookieLines head =
        (if resolved.isNew then
          ["Set-Cookie: " ++ (newCookie server incoming.request resolved.id).text] else []) ∧
      result.2 = found.setParams resolved.params (performAll calls opened).persistent

theorem mem_spell {alphabet : List Char} {width n : Nat} {c : Char}
    (h : c ∈ Ident.spell alphabet width n) : c ∈ alphabet ∨ c = '?' := by
  induction width generalizing n with
  | zero => cases h
  | succ width ih =>
    rw [Ident.spell, List.mem_append, List.mem_singleton] at h
    rcases h with h | rfl
    · exact ih h
    · rw [List.getD_eq_getElem?_getD]
      cases hget : alphabet[n % alphabet.length]? with
      | none => exact .inr rfl
      | some d => exact .inl (List.mem_of_getElem? hget)

theorem session_not_breaksOut (n : Nat) :
    (Ident.session n).toList.any Cookie.breaksOut = false := by
  have hletters := List.any_eq_false.mp (show Ident.letters.any Cookie.breaksOut = false by decide)
  apply List.any_eq_false.mpr
  intro c hc
  rw [Ident.session, String.toList_ofList] at hc
  rcases mem_spell hc with hc | rfl
  · exact hletters c hc
  · decide

theorem sessionCookie_fault?_iff {id domain : String} :
    (sessionCookie id domain).fault? = none ↔
      id.toList.any Cookie.breaksOut = false ∧ domain.toList.any Cookie.breaksOut = false := by
  have hname : Session.cookieName.toList.any Cookie.breaksOut = false := by decide
  have hpath : "/".toList.any Cookie.breaksOut = false := by decide
  have hsigns : Session.cookieName.toList.any (fun x => x == '=' || x == ' ') = false := by decide
  have hempty : Session.cookieName.isEmpty = false := by decide
  cases hid : id.toList.any Cookie.breaksOut <;>
    cases hdomain : domain.toList.any Cookie.breaksOut <;>
      simp only [Cookie.fault?, sessionCookie, Cookie.texts, List.findSome?_cons,
        List.findSome?_nil, Option.bind_some, hname, hpath, hsigns, hempty, hid, hdomain] <;> simp

theorem sessionCookie_fault? {domain : String} (hdomain : (sessionCookie "" domain).fault? = none)
    (n : Nat) : (sessionCookie (Ident.session n) domain).fault? = none :=
  sessionCookie_fault?_iff.mpr ⟨session_not_breaksOut n, (sessionCookie_fault?_iff.mp hdomain).2⟩

theorem newCookie_fault? {server : Server}
    (hdomain : (sessionCookie "" server.domain).fault? = none) (request : Request) (n : Nat) :
    (newCookie server request (Ident.session n)).fault? = none := by
  rw [newCookie]
  split
  · next h => exact h
  · exact sessionCookie_fault? hdomain n

theorem isResponse_of_isClean {head : Head} (hclean : head.IsClean)
    (hreason : head.reason = Response.reason head.status) (body : Bytes) :
    IsResponse head body (head.bytes ++ body) :=
  ⟨rfl, hclean.isHeaderOf body, hreason⟩

theorem rejected_reject (store : SessionStore) (e : Request.Error) :
    Rejected store e (reject e .unlimited, store) := by
  have htakes : TakesAll (Exchange.start .unlimited .empty .empty [] none) :=
    Exchange.takesAll_start _ _ _ _
  have hsend := htakes.sendError rfl e.status e.message
  have hclean : rejectionHead.IsClean :=
    Exchange.isClean_errorHead (Head.isClean_initial fun _ hc => absurd hc List.not_mem_nil) 400
  refine ⟨?_, rfl, cookieLines_eq rejectionHead, rfl⟩
  have hreceived : (reject e .unlimited).received =
      rejectionHead.bytes ++ Text.utf8Bytes (Response.errorPage 400 e.message) := by
    have hempty : (Exchange.start .unlimited .empty .empty [] none).sink.received = [] := rfl
    have hhead : errorHead (Exchange.start .unlimited .empty .empty [] none).head e.status =
        rejectionHead := rfl
    have hstatus : e.status = 400 := rfl
    have hencoding : rejectionHead.encoding = .utf8 := rfl
    rw [reject, Exchange.after_eq_endState, hsend, hhead]
    simp only [endState_ok, Sink.received_push, hempty, hstatus, hencoding, List.nil_append]
    rfl
  rw [hreceived]
  exact isResponse_of_isClean hclean rfl _

/-- Once it is finished, an exchange that nothing was sent from has sent one
response. -/
theorem isResponse_of_announces {cookies : List Cookie} {status : UInt16} {cs : List Call}
    {opened ex : Exchange} (htakes : TakesAll opened) (hframed : Exchange.Framed [] opened)
    (hclean : opened.head.IsClean) (h : Announces cookies status cs opened ex) :
    performAll (cs ++ [.finish]) opened = after Exchange.finish ex ∧ ∃ pieces : List Bytes,
      sentBy (cs ++ [.finish]) opened = .head ex.head :: pieces.map .body ∧
        IsResponse ex.head pieces.flatten (after Exchange.finish ex).sink.received := by
  have hfinish : performAll (cs ++ [.finish]) opened = after Exchange.finish ex := by
    rw [Exchange.performAll_append, h.calls]
    rfl
  have hlast : (after Exchange.finish ex).head = ex.head := by
    rw [Exchange.after_eq_endState]
    exact Exchange.head_commit ex
  have hcommitted : (after Exchange.finish ex).committed = true :=
    TakesAll.committed_finish (h.calls ▸ htakes.performAll cs)
  have hsent := hframed.performAll (cs ++ [.finish])
  have hstill := Exchange.isClean_performAll (cs ++ [.finish]) hclean
  rw [hfinish] at hsent hstill
  obtain ⟨hopen, -⟩ | ⟨-, pieces, hlog, hreceived⟩ := hsent
  · rw [hcommitted] at hopen
    cases hopen
  · rw [hlast] at hlog hreceived hstill
    refine ⟨hfinish, pieces, (List.nil_append _).symm.trans hlog, ?_⟩
    rw [hreceived]
    exact isResponse_of_isClean hstill h.reason _

theorem openCookies_valid {server : Server} {request : Request} {resolved : Resolved}
    (h : resolved.isNew = true → (newCookie server request resolved.id).fault? = none) :
    ∀ c ∈ (if resolved.isNew then [newCookie server request resolved.id] else []),
      c.fault? = none := by
  intro c hc
  cases hnew : resolved.isNew with
  | true =>
    rw [hnew, if_pos rfl, List.mem_singleton] at hc
    rw [hc]
    exact h hnew
  | false =>
    rw [hnew, if_neg Bool.false_ne_true] at hc
    exact absurd hc List.not_mem_nil

/-- What is answered in a session, whatever the path leads to. -/
theorem answered_respond {server : Server} {bounds : Bounds} {incoming : Incoming}
    {resolved : Resolved} {found : SessionStore}
    (hcookie : resolved.isNew = true →
      (newCookie server incoming.request resolved.id).fault? = none)
    (hends : ∀ q, Request.parameters incoming.query = .ok q → ∀ ex',
      server.site.dispatch bounds incoming.path true
        (openExchange server incoming resolved (found.params resolved.params) (.ok q) .unlimited) ≠
          .error .cutOff ex') :
    ∃ result, respond server bounds found resolved incoming .unlimited = some result ∧
      Answered server bounds incoming resolved found result := by
  let query := Request.parameters incoming.query
  let opened :=
    openExchange server incoming resolved (found.params resolved.params) query .unlimited
  have htakes : TakesAll opened := Exchange.takesAll_start _ _ _ _
  have hhead : Succeeding (if resolved.isNew then [newCookie server incoming.request resolved.id]
      else []) opened.head := ⟨rfl, rfl, rfl⟩
  have hclean : opened.head.IsClean := Head.isClean_initial (openCookies_valid hcookie)
  have hopened : ∀ q, query = .ok q → opened = openExchange server incoming resolved
      (found.params resolved.params) (.ok q) .unlimited := by
    intro q hq
    rw [← hq]
  obtain ⟨ex, cs, hrun, hannounces⟩ := answer_spec server bounds incoming.path query htakes rfl
    hhead fun q hq => by
      rw [hopened q hq]
      exact hends q hq
  obtain ⟨hfinish, pieces, hsent, hresponse⟩ :=
    isResponse_of_announces htakes (.inl ⟨rfl, rfl, rfl⟩) hclean hannounces
  refine ⟨((after Exchange.finish ex).sink,
    found.setParams resolved.params (after Exchange.finish ex).persistent), ?_, ?_⟩
  · rw [respond]
    simp only [query, opened] at hrun
    simp [hrun]
  · refine ⟨cs ++ [.finish], ex.head, pieces, hsent, hresponse, hannounces.status, ?_, ?_⟩
    · rw [cookieLines_eq, hannounces.cookies]
      cases hnew : resolved.isNew <;> simp
    · rw [hfinish]

/-- The dispatch of an accepted request ends within its bounds. -/
def Ends (server : Server) (bounds : Bounds) (incoming : Incoming) (resolved : Resolved)
    (found : SessionStore) : Prop :=
  ∀ q, Request.parameters incoming.query = .ok q → ∀ ex',
    server.site.dispatch bounds incoming.path true
      (openExchange server incoming resolved (found.params resolved.params) (.ok q) .unlimited) ≠
        .error .cutOff ex'

theorem ends_of_respond {server : Server} {bounds : Bounds} {incoming : Incoming}
    {resolved : Resolved} {found : SessionStore} {result : Sink × SessionStore}
    (h : respond server bounds found resolved incoming .unlimited = some result) :
    Ends server bounds incoming resolved found := by
  intro q hq ex' hdispatch
  simp [respond, hq, answer, hdispatch] at h

theorem IsResponse.ne_nil {head : Head} {body received : Bytes}
    (h : IsResponse head body received) : received ≠ [] := by
  rintro rfl
  have hempty := List.prefix_nil.mp h.header.begins
  have hends := h.header.ends
  rw [hempty] at hends
  exact Request.not_endsHeader_nil hends

theorem Rejected.ne_nil {store : SessionStore} {e : Request.Error}
    {result : Sink × SessionStore} (h : Rejected store e result) : result.1.received ≠ [] :=
  h.response.ne_nil

theorem Answered.ne_nil {server : Server} {bounds : Bounds} {incoming : Incoming}
    {resolved : Resolved} {found : SessionStore} {result : Sink × SessionStore}
    (h : Answered server bounds incoming resolved found result) : result.1.received ≠ [] := by
  obtain ⟨calls, head, pieces, -, hresponse, -⟩ := h
  exact hresponse.ne_nil

end Connection

namespace Server

open Connection

/-- The session whose name a request presents, or a new one. -/
def resolveFor (store : SessionStore) (draws : List String) (now : UInt64) (incoming : Incoming) :
    Option (Resolved × SessionStore) :=
  store.resolve draws (incoming.request.cookies.get? Session.cookieName) now

theorem serve_closed {server : Server} {bounds : Bounds} {store : SessionStore}
    {draws : List String} {now : UInt64} {stream : List Request.Arrival} {sink : Sink}
    (h : Receives server.headerLimit stream .closed) :
    server.serve bounds store draws now stream sink = some (sink, store) := by
  rw [serve, h.receive_eq]

theorem serve_rejected {server : Server} {bounds : Bounds} {store : SessionStore}
    {draws : List String} {now : UInt64} {stream : List Request.Arrival} {sink : Sink}
    {e : Request.Error} (h : Receives server.headerLimit stream (.rejected e)) :
    server.serve bounds store draws now stream sink = some (reject e sink, store) := by
  rw [serve, h.receive_eq]

theorem serve_accepted {server : Server} {bounds : Bounds} {store : SessionStore}
    {draws : List String} {now : UInt64} {stream : List Request.Arrival} {sink : Sink}
    {incoming : Incoming} (h : Receives server.headerLimit stream (.accepted incoming)) :
    server.serve bounds store draws now stream sink =
      (resolveFor store draws now incoming).bind fun r =>
        respond server bounds r.2 r.1 incoming sink := by
  rw [serve, h.receive_eq]
  rfl

theorem newCookie_name (server : Server) (request : Request) (id : String) :
    (newCookie server request id).name = Session.cookieName := by
  rw [newCookie]
  split <;> rfl

theorem newCookie_value (server : Server) (request : Request) (id : String) :
    (newCookie server request id).value = id := by
  rw [newCookie]
  split <;> rfl

theorem resolved_cookie {server : Server} {store : SessionStore} {numbers : List Nat}
    {now : UInt64} {incoming : Incoming} {resolved : Resolved} {found : SessionStore}
    (hdomain : (sessionCookie "" server.domain).fault? = none)
    (h : resolveFor store (numbers.map Ident.session) now incoming = some (resolved, found))
    (hnew : resolved.isNew = true) :
    (newCookie server incoming.request resolved.id).fault? = none := by
  obtain ⟨hdrawn, -⟩ := SessionStore.mem_of_resolve h hnew
  obtain ⟨n, -, hn⟩ := List.mem_map.mp hdrawn
  rw [← hn]
  exact newCookie_fault? hdomain incoming.request n

theorem serve_answered {server : Server} {bounds : Bounds} {store : SessionStore}
    {numbers : List Nat} {now : UInt64} {stream : List Request.Arrival} {incoming : Incoming}
    {resolved : Resolved} {found : SessionStore}
    (hdomain : (sessionCookie "" server.domain).fault? = none)
    (hreceives : Receives server.headerLimit stream (.accepted incoming))
    (hresolve : resolveFor store (numbers.map Ident.session) now incoming = some (resolved, found))
    (hends : Ends server bounds incoming resolved found) :
    ∃ result,
      server.serve bounds store (numbers.map Ident.session) now stream .unlimited = some result ∧
        Answered server bounds incoming resolved found result := by
  obtain ⟨result, hrespond, hanswer⟩ := answered_respond (resolved_cookie hdomain hresolve) hends
  refine ⟨result, ?_, hanswer⟩
  rw [serve_accepted hreceives, hresolve]
  exact hrespond

/-- Only a connection that closes is sent nothing. -/
theorem received_eq_nil_iff {server : Server} {bounds : Bounds} {store : SessionStore}
    {numbers : List Nat} {now : UInt64} {stream : List Request.Arrival}
    {result : Sink × SessionStore} (hdomain : (sessionCookie "" server.domain).fault? = none)
    (h : server.serve bounds store (numbers.map Ident.session) now stream .unlimited =
      some result) :
    result.1.received = [] ↔ Receives server.headerLimit stream .closed := by
  have hreceives := receives_receive server.headerLimit stream
  have hother : ∀ {r : Reception}, receive server.headerLimit stream = r → r ≠ .closed →
      ¬ Receives server.headerLimit stream .closed :=
    fun hr hne hclosed => hne (hr.symm.trans hclosed.receive_eq)
  cases hkind : receive server.headerLimit stream with
  | closed =>
    rw [hkind] at hreceives
    obtain rfl := Option.some.inj (h.symm.trans (serve_closed hreceives))
    exact ⟨fun _ => hreceives, fun _ => rfl⟩
  | rejected e =>
    rw [hkind] at hreceives
    obtain rfl := Option.some.inj (h.symm.trans (serve_rejected hreceives))
    exact ⟨fun hnil => absurd hnil (rejected_reject store e).ne_nil,
      fun hclosed => absurd hclosed (hother hkind nofun)⟩
  | accepted incoming =>
    rw [hkind] at hreceives
    obtain ⟨⟨resolved, found⟩, hresolve, hrespond⟩ :=
      Option.bind_eq_some_iff.mp ((serve_accepted hreceives).symm.trans h)
    obtain ⟨result', hresult', hanswer⟩ :=
      serve_answered hdomain hreceives hresolve (ends_of_respond hrespond)
    obtain rfl := Option.some.inj (h.symm.trans hresult')
    exact ⟨fun hnil => absurd hnil hanswer.ne_nil,
      fun hclosed => absurd hclosed (hother hkind nofun)⟩

/-- A connection whose writes succeed is received in exactly one way. If it
closes, nothing is sent. If it is rejected, one error page is sent and no session
is touched. Otherwise it is answered in the one session resolved for it; a
session that is new is in the store and the answer sets its cookie. -/
theorem serve_closes_rejects_or_answers (server : Server) (bounds : Bounds) (store : SessionStore)
    (numbers : List Nat) (now : UInt64) (stream : List Request.Arrival)
    (hdomain : (sessionCookie "" server.domain).fault? = none) :
    let draws := numbers.map Ident.session
    let outcome := server.serve bounds store draws now stream .unlimited
    (∃ r, Receives server.headerLimit stream r ∧
        ∀ r', Receives server.headerLimit stream r' → r' = r) ∧
      (Receives server.headerLimit stream .closed → outcome = some (.unlimited, store)) ∧
      (∀ e, Receives server.headerLimit stream (.rejected e) →
        ∃ result, outcome = some result ∧ Rejected store e result) ∧
      (∀ incoming, Receives server.headerLimit stream (.accepted incoming) →
        store.HasFree draws →
        ∃ resolved found, resolveFor store draws now incoming = some (resolved, found) ∧
          (resolved.isNew = true → found.sessions.contains resolved.id = true ∧
            (newCookie server incoming.request resolved.id).name = Session.cookieName ∧
            (newCookie server incoming.request resolved.id).value = resolved.id) ∧
          (Ends server bounds incoming resolved found →
            ∃ result, outcome = some result ∧
              Answered server bounds incoming resolved found result)) ∧
      ∀ result, outcome = some result →
        (result.1.received = [] ↔ Receives server.headerLimit stream .closed) := by
  intro draws outcome
  refine ⟨?_, serve_closed, ?_, ?_, ?_⟩
  · refine ⟨_, receives_receive server.headerLimit stream, ?_⟩
    intro r' hr'
    exact hr'.receive_eq.symm
  · intro e hreceives
    exact ⟨_, serve_rejected hreceives, rejected_reject store e⟩
  · intro incoming hreceives hfree
    obtain ⟨⟨resolved, found⟩, hresolve⟩ :=
      Option.isSome_iff_exists.mp (SessionStore.resolve_isSome hfree _ now)
    refine ⟨resolved, found, hresolve, ?_, serve_answered hdomain hreceives hresolve⟩
    intro hnew
    exact ⟨(SessionStore.mem_of_resolve hresolve hnew).2, newCookie_name _ _ _,
      newCookie_value _ _ _⟩
  · intro result hresult
    exact received_eq_nil_iff hdomain hresult

/-- A page that does not exist, asked for in two reads. -/
theorem serve_missing_page :
    let server : Server := ⟨⟨"", .empty, ⟨.empty⟩, .empty, ""⟩, "localhost", 64⟩
    let stream : List Request.Arrival :=
      [.bytes (Text.utf8Bytes "GET / HTTP/1.1\r"), .interrupted, .bytes (Text.utf8Bytes "\n\r\n.")]
    let incoming : Incoming := ⟨⟨"/", .http11, []⟩, "/", none⟩
    let draws := [Ident.session 0]
    ∃ resolved found result, resolveFor (.start 60) draws 0 incoming = some (resolved, found) ∧
      server.serve ⟨0, 1⟩ (.start 60) draws 0 stream .unlimited = some result ∧
      Answered server ⟨0, 1⟩ incoming resolved found result := by
  intro server stream incoming draws
  have hdomain : (sessionCookie "" server.domain).fault? = none := by decide
  have hreceives : Receives server.headerLimit stream (.accepted incoming) :=
    receives_iff.mpr (by decide +kernel)
  have hfree : SessionStore.HasFree (.start 60) ([0].map Ident.session) :=
    ⟨Ident.session 0, List.mem_cons_self, rfl⟩
  obtain ⟨-, -, -, haccepted, -⟩ :=
    serve_closes_rejects_or_answers server ⟨0, 1⟩ (.start 60) [0] 0 stream hdomain
  obtain ⟨resolved, found, hresolve, -, hanswer⟩ := haccepted incoming hreceives hfree
  have hends : Ends server ⟨0, 1⟩ incoming resolved found := by
    intro q hq ex' hdispatch
    have hroute : server.site.route "/" true =
        .ok (.staticFile ["index.html"] "/index.html") := by
      rfl
    have hmissing : ∀ ex, server.site.dispatch ⟨0, 1⟩ "/" true ex =
        .error (.failed (.notFound "/index.html")) ex := by
      intro ex
      rw [Site.dispatch, Site.dispatchWithin, bind_apply, Site.visit, hroute]
      rfl
    have hstop := (hmissing _).symm.trans hdispatch
    cases hstop
  obtain ⟨result, hserve, hanswered⟩ := hanswer hends
  exact ⟨resolved, found, result, hresolve, hserve, hanswered⟩

end Server

end PageServer
