import PageServer.Config.Server
import PageServer.Proofs.Connection.Serving
import PageServer.Proofs.Exchange.HeadLines

/-!
# Cookies of new sessions

A connection sets no cookie but that of its own new session. The domain of this
cookie is the host that the request names, if that can stand in a cookie, and
else the one the server is configured with, which nothing has looked at. So the
client alone can break no cookie, but a configuration can, and it is accepted
whatever its domain is.
-/

namespace PageServer

namespace Exchange

open Response (Cookie Head)
open Request (IsLine block)
open Text (latin1Bytes ofLatin1)

/-! ### Calls that add no cookie -/

def Call.KeepsCookies : Call → Prop
  | .cookie _ => False
  | _ => True

theorem Call.IsOfPage.keepsCookies {c : Call} (h : c.IsOfPage) : c.KeepsCookies := by
  cases c with
  | cookie k => exact h
  | _ => trivial

theorem Call.KeepsCookies.cookies_eq {c : Call} (hc : c.KeepsCookies) (ex : Exchange) :
    (after c.perform ex).head.cookies = ex.head.cookies := by
  rcases c.head_cases ex with heq | hchange
  · rw [heq]
  · cases c with
    | statusCode code => rw [hchange]
    | statusText text => rw [hchange.2]
    | mimeType mime => rw [hchange.2]
    | contentLength n => rw [hchange]
    | encoding label =>
      obtain ⟨e, hencoding⟩ := hchange
      rw [hencoding]
    | cookie k => exact hc.elim
    | _ => exact hchange.elim

theorem cookies_performAll_of_keepsCookies {cs : List Call} (hcs : ∀ c ∈ cs, c.KeepsCookies)
    (ex : Exchange) : (performAll cs ex).head.cookies = ex.head.cookies := by
  induction cs generalizing ex with
  | nil => rfl
  | cons c cs ih =>
    have hrest := ih (fun d hd => hcs d (List.mem_cons_of_mem c hd)) (after c.perform ex)
    exact hrest.trans ((hcs c List.mem_cons_self).cookies_eq ex)

theorem consistsOf_sendError (status : UInt16) (message : String) :
    ConsistsOf Call.KeepsCookies id (sendError status message) := by
  rw [sendError_eq]
  apply ConsistsOf.bind (ConsistsOf.call (c := .statusCode status) trivial)
  intro _
  apply ConsistsOf.bind (ConsistsOf.call (c := .statusText (Response.reason status)) trivial)
  intro _
  apply ConsistsOf.bind (ConsistsOf.call (c := .mimeType "text/html") trivial)
  intro _
  exact ConsistsOf.call (c := .writeText (Response.errorPage status message)) trivial

/-! ### What was sent -/

/-- All that a sink holds: nothing, or the head that the exchange still has and
what followed it. -/
def SentHead (ex : Exchange) : Prop :=
  (ex.committed = false ∧ ex.sink.received = []) ∨
    (ex.committed = true ∧ ∃ body, ex.sink.received = ex.head.bytes ++ body)

theorem Framed.sentHead {log : List Sent} {ex : Exchange} (h : Framed log ex) : SentHead ex := by
  rcases h with ⟨hopen, -, hnone⟩ | ⟨hcommitted, pieces, -, hreceived⟩
  · exact .inl ⟨hopen, hnone⟩
  · exact .inr ⟨hcommitted, pieces.flatten, hreceived⟩

/-- Lines that nothing breaks, one for each cookie; the only delimiters on a
cookie's line are those around its fields. -/
def Unbroken (h : Head) : Prop :=
  ∃ front : List Bytes,
    h.bytes = block (front ++ h.cookies.map Cookie.line) ∧
    (∀ l ∈ front ++ h.cookies.map Cookie.line, IsLine l) ∧
    (∀ l ∈ front, ¬ latin1Bytes "Set-Cookie: " <+: l) ∧
    ∀ c ∈ h.cookies, (ofLatin1 c.line).filter Cookie.isDelimiter =
      c.pieces.flatMap Cookie.Piece.delimiters

theorem unbroken_of_isClean {h : Head} (hclean : h.IsClean) : Unbroken h := by
  refine ⟨h.frontLines, ?_, hclean.isLine, h.not_prefix_frontLines, ?_⟩
  · rw [Head.bytes_eq_block, Head.map_lines]
  · intro c hc
    exact Cookie.filter_isDelimiter_line (hclean.cookies c hc)

end Exchange

namespace Connection

open Exchange (after performAll Call ConsistsOf SentHead Unbroken)
open Response (Cookie Head)

/-! ### Exchanges of a connection -/

/-- The exchange in which a request is rejected. -/
def rejection (e : Request.Error) (sink : Sink) : Exchange :=
  after (Exchange.sendError e.status e.message) (Exchange.start sink .empty .empty [] none)

/-- The exchange of an accepted request, as it is once it was answered. -/
def lastExchange? (server : Server) (bounds : Bounds) (found : SessionStore) (resolved : Resolved)
    (incoming : Incoming) (sink : Sink) : Option Exchange :=
  let query := Request.parameters incoming.query
  let opened := openExchange server incoming resolved (found.params resolved.params) query sink
  (answer server bounds incoming.path query opened).map (after Exchange.finish)

theorem respond_eq (server : Server) (bounds : Bounds) (found : SessionStore)
    (resolved : Resolved) (incoming : Incoming) (sink : Sink) :
    respond server bounds found resolved incoming sink = do
      let ex ← lastExchange? server bounds found resolved incoming sink
      return (ex.sink, found.setParams resolved.params ex.persistent) := by
  rw [respond, lastExchange?]
  cases answer server bounds incoming.path (Request.parameters incoming.query)
    (openExchange server incoming resolved (found.params resolved.params)
      (Request.parameters incoming.query) sink) <;> rfl

theorem calls_report (f : Failure) (ex : Exchange) :
    ∃ cs : List Call, (∀ c ∈ cs, c.KeepsCookies) ∧ performAll cs ex = report f ex := by
  rw [report]
  cases ex.committed with
  | true => exact ⟨[], by simp, by simp⟩
  | false =>
    obtain ⟨cs, hcs, hrun⟩ := Exchange.consistsOf_sendError f.status f.message ex
    refine ⟨cs, hcs, ?_⟩
    simpa [Exchange.after_eq_endState] using hrun

/-- However a request is answered, and whatever the sink takes of it, it is
answered by calls that add no cookie. -/
theorem calls_answer {server : Server} {bounds : Bounds} {path : String}
    {query : Except Request.Error Params} {ex ex' : Exchange}
    (h : answer server bounds path query ex = some ex') :
    ∃ cs : List Call, (∀ c ∈ cs, c.KeepsCookies) ∧ performAll cs ex = ex' := by
  cases query with
  | error e =>
    obtain rfl := Option.some.inj h
    exact calls_report _ ex
  | ok q =>
    obtain ⟨cs, hcs, hrun⟩ := Site.pageCalls_dispatch server.site bounds path true ex
    have hkeeps : ∀ c ∈ cs, c.KeepsCookies := fun c hc => (hcs c hc).keepsCookies
    simp only [answer] at h
    cases hdispatch : server.site.dispatch bounds path true ex with
    | ok u last =>
      rw [hdispatch] at h hrun
      obtain rfl := Option.some.inj h
      exact ⟨cs, hkeeps, hrun⟩
    | error stop last =>
      rw [hdispatch] at h hrun
      have hlast : performAll cs ex = last := hrun
      cases stop with
      | cutOff => cases h
      | failed e =>
        obtain rfl := Option.some.inj h
        obtain ⟨ds, hds, hreport⟩ := calls_report (.ofDispatch e) last
        refine ⟨cs ++ ds, ?_, ?_⟩
        · intro c hc
          rcases List.mem_append.mp hc with hc | hc
          · exact hkeeps c hc
          · exact hds c hc
        · rw [Exchange.performAll_append, hlast]
          exact hreport

theorem calls_lastExchange? {server : Server} {bounds : Bounds} {found : SessionStore}
    {resolved : Resolved} {incoming : Incoming} {sink : Sink} {ex : Exchange}
    (h : lastExchange? server bounds found resolved incoming sink = some ex) :
    ∃ cs : List Call, (∀ c ∈ cs, c.KeepsCookies) ∧
      performAll cs (openExchange server incoming resolved (found.params resolved.params)
        (Request.parameters incoming.query) sink) = ex := by
  obtain ⟨answered, hanswer, rfl⟩ := Option.map_eq_some_iff.mp h
  obtain ⟨cs, hcs, hrun⟩ := calls_answer hanswer
  refine ⟨cs ++ [.finish], ?_, ?_⟩
  · intro c hc
    rcases List.mem_append.mp hc with hc | hc
    · exact hcs c hc
    · obtain rfl := List.mem_singleton.mp hc
      trivial
  · rw [Exchange.performAll_append, hrun]
    rfl

/-- Over a sink that takes every write an answer is always sent. -/
theorem committed_of_lastExchange? {server : Server} {bounds : Bounds} {found : SessionStore}
    {resolved : Resolved} {incoming : Incoming} {ex : Exchange}
    (h : lastExchange? server bounds found resolved incoming .unlimited = some ex) :
    ex.committed = true := by
  obtain ⟨answered, hanswer, rfl⟩ := Option.map_eq_some_iff.mp h
  obtain ⟨cs, -, rfl⟩ := calls_answer hanswer
  apply Exchange.TakesAll.committed_finish
  exact (Exchange.takesAll_start _ _ _ _).performAll cs

/-! ### Domains -/

/-- A text that can stand in a cookie as its domain. -/
def IsCookieDomain (domain : String) : Prop :=
  domain.toList.any Cookie.breaksOut = false

instance (domain : String) : Decidable (IsCookieDomain domain) :=
  inferInstanceAs (Decidable (_ = _))

/-- The domain that the cookie of a new session is for. -/
def cookieDomain (server : Server) (request : Request) : String :=
  match request.host? with
  | some host => if IsCookieDomain host then host else server.domain
  | none => server.domain

theorem sessionCookie_valid_iff (n : Nat) (domain : String) :
    (sessionCookie (Ident.session n) domain).fault? = none ↔ IsCookieDomain domain := by
  rw [sessionCookie_fault?_iff]
  exact and_iff_right (session_not_breaksOut n)

theorem newCookie_eq (server : Server) (request : Request) (n : Nat) :
    newCookie server request (Ident.session n) =
      sessionCookie (Ident.session n) (cookieDomain server request) := by
  have hvalid := sessionCookie_valid_iff n (request.host?.getD server.domain)
  rw [newCookie, cookieDomain]
  cases hhost : request.host? with
  | none =>
    rw [hhost] at hvalid
    split <;> rfl
  | some host =>
    rw [hhost] at hvalid
    rw [Option.getD_some] at hvalid ⊢
    by_cases hdomain : IsCookieDomain host
    · simp only [hvalid.mpr hdomain, if_pos hdomain]
    · obtain ⟨e, he⟩ := Option.ne_none_iff_exists'.mp (mt hvalid.mp hdomain)
      simp only [he, if_neg hdomain]

/-- A host that cannot stand in a cookie is as good as none. -/
theorem isCookieDomain_cookieDomain_iff (server : Server) (request : Request) :
    IsCookieDomain (cookieDomain server request) ↔
      (∃ host, request.host? = some host ∧ IsCookieDomain host) ∨ IsCookieDomain server.domain := by
  rw [cookieDomain]
  cases request.host? with
  | none => simp
  | some host =>
    by_cases hdomain : IsCookieDomain host
    · simp [hdomain]
    · simp [hdomain]

/-- The cookies of an answer. -/
def sessionCookies (server : Server) (request : Request) (resolved : Resolved) : List Cookie :=
  if resolved.isNew then [sessionCookie resolved.id (cookieDomain server request)] else []

theorem openExchange_cookies (server : Server) (incoming : Incoming) {resolved : Resolved}
    (hid : resolved.isNew = true → ∃ n, resolved.id = Ident.session n) (params : Params)
    (query : Except Request.Error Params) (sink : Sink) :
    (openExchange server incoming resolved params query sink).head.cookies =
      sessionCookies server incoming.request resolved := by
  rw [sessionCookies]
  change (if resolved.isNew then [newCookie server incoming.request resolved.id] else []) = _
  cases hnew : resolved.isNew with
  | false => rfl
  | true =>
    obtain ⟨n, hn⟩ := hid hnew
    rw [if_pos rfl, if_pos rfl, hn, newCookie_eq]

theorem sessionCookies_valid_iff {server : Server} {request : Request} {resolved : Resolved}
    (hid : resolved.isNew = true → ∃ n, resolved.id = Ident.session n) :
    (∀ c ∈ sessionCookies server request resolved, c.fault? = none) ↔
      (resolved.isNew = true → IsCookieDomain (cookieDomain server request)) := by
  rw [sessionCookies]
  cases hnew : resolved.isNew with
  | false => simp
  | true =>
    obtain ⟨n, hn⟩ := hid hnew
    simp [hn, sessionCookie_valid_iff]

end Connection

namespace Server

open Connection
open Exchange (after performAll SentHead Unbroken)

theorem sentHead_rejection (e : Request.Error) (accepts : Offer → Bool) :
    SentHead (rejection e (.ofPolicy accepts)) ∧
      (rejection e (.ofPolicy accepts)).head.cookies = [] ∧
        Unbroken (rejection e (.ofPolicy accepts)).head := by
  let first := Exchange.start (.ofPolicy accepts) .empty .empty [] none
  obtain ⟨cs, hcs, hrun⟩ := Exchange.consistsOf_sendError e.status e.message first
  have hrejection : rejection e (.ofPolicy accepts) = performAll cs first := by
    rw [rejection, Exchange.after_eq_endState]
    exact hrun.symm
  have hclean : first.head.IsClean :=
    Response.Head.isClean_initial fun _ hc => absurd hc List.not_mem_nil
  have hframed := (Exchange.framed_start accepts .empty .empty [] none).performAll cs
  rw [hrejection]
  refine ⟨hframed.sentHead, Exchange.cookies_performAll_of_keepsCookies hcs first, ?_⟩
  exact Exchange.unbroken_of_isClean (Exchange.isClean_performAll cs hclean)

theorem id_of_resolveFor {store found : SessionStore} {numbers : List Nat} {now : UInt64}
    {incoming : Incoming} {resolved : Resolved}
    (h : resolveFor store (numbers.map Ident.session) now incoming = some (resolved, found))
    (hnew : resolved.isNew = true) : ∃ n, resolved.id = Ident.session n := by
  obtain ⟨hdrawn, -⟩ := SessionStore.mem_of_resolve h hnew
  obtain ⟨n, -, hn⟩ := List.mem_map.mp hdrawn
  exact ⟨n, hn.symm⟩

/-- An answer has the cookies its exchange was opened with, and if they are valid
no line of its head is broken. -/
theorem sentHead_lastExchange? {server : Server} {bounds : Bounds} {found : SessionStore}
    {resolved : Resolved} {incoming : Incoming} (accepts : Offer → Bool) {ex : Exchange}
    (hid : resolved.isNew = true → ∃ n, resolved.id = Ident.session n)
    (h : lastExchange? server bounds found resolved incoming (.ofPolicy accepts) = some ex) :
    SentHead ex ∧ ex.head.cookies = sessionCookies server incoming.request resolved ∧
      ((∀ c ∈ ex.head.cookies, c.fault? = none) → Unbroken ex.head) := by
  obtain ⟨cs, hcs, rfl⟩ := calls_lastExchange? h
  have hopened := openExchange_cookies server incoming hid (found.params resolved.params)
    (Request.parameters incoming.query) (.ofPolicy accepts)
  have hcookies := (Exchange.cookies_performAll_of_keepsCookies hcs _).trans hopened
  refine ⟨?_, hcookies, ?_⟩
  · have hframed : Exchange.Framed [] (openExchange server incoming resolved
        (found.params resolved.params) (Request.parameters incoming.query) (.ofPolicy accepts)) :=
      Exchange.framed_start accepts _ _ _ _
    exact (hframed.performAll cs).sentHead
  · intro hvalid
    rw [hcookies, ← hopened] at hvalid
    apply Exchange.unbroken_of_isClean
    apply Exchange.isClean_performAll
    exact Response.Head.isClean_initial hvalid

end Server

namespace ServerConfig

open Connection

/-- The server of a configuration. -/
def server (c : ServerConfig) (site : Site) : Server :=
  ⟨site, c.domain, c.maxHeaderBytes.toNat⟩

/-- No domain makes a configuration invalid. -/
theorem fault?_ignores_domain (c : ServerConfig) (domain : String) :
    { c with domain := domain }.fault? = c.fault? := rfl

/-- Whatever a server is configured with, whatever a client sends and whatever
the client takes of the answer, no cookie is set but that of a new session, and
it is a valid one exactly if the request names a host that can stand in a cookie
or the configured domain can. A valid cookie reaches out of no line and adds no
delimiter to its own. -/
theorem session_cookie_valid_iff (config : ServerConfig) (site : Site) (bounds : Bounds)
    (store : SessionStore) (numbers : List Nat) (now : UInt64) (stream : List Request.Arrival)
    (accepts : Offer → Bool) :
    let server := config.server site
    let draws := numbers.map Ident.session
    let sink := Sink.ofPolicy accepts
    let outcome := server.serve bounds store draws now stream sink
    (∀ domain, { config with domain := domain }.fault? = config.fault?) ∧
      (Receives server.headerLimit stream .closed → outcome = some (sink, store)) ∧
      (∀ e, Receives server.headerLimit stream (.rejected e) →
        let ex := rejection e sink
        outcome = some (ex.sink, store) ∧ ex.SentHead ∧ ex.head.cookies = [] ∧
          Exchange.Unbroken ex.head) ∧
      ∀ incoming, Receives server.headerLimit stream (.accepted incoming) →
        (outcome = do
          let (resolved, found) ← Server.resolveFor store draws now incoming
          let ex ← lastExchange? server bounds found resolved incoming sink
          return (ex.sink, found.setParams resolved.params ex.persistent)) ∧
        ∀ resolved found ex,
          Server.resolveFor store draws now incoming = some (resolved, found) →
          lastExchange? server bounds found resolved incoming sink = some ex →
          ex.SentHead ∧ ex.head.cookies = sessionCookies server incoming.request resolved ∧
            ((∀ c ∈ ex.head.cookies, c.fault? = none) ↔ (resolved.isNew = true →
              (∃ host, incoming.request.host? = some host ∧ IsCookieDomain host) ∨
                IsCookieDomain config.domain)) ∧
            ((∀ c ∈ ex.head.cookies, c.fault? = none) → Exchange.Unbroken ex.head) := by
  intro server draws sink outcome
  refine ⟨config.fault?_ignores_domain, Server.serve_closed, ?_, ?_⟩
  · intro e hreceives
    exact ⟨Server.serve_rejected hreceives, Server.sentHead_rejection e accepts⟩
  · intro incoming hreceives
    refine ⟨?_, ?_⟩
    · have hserve : outcome = _ := Server.serve_accepted hreceives
      simp only [hserve, respond_eq]
      rfl
    · intro resolved found ex hresolve hlast
      have hid := Server.id_of_resolveFor hresolve
      obtain ⟨hsent, hcookies, hunbroken⟩ := Server.sentHead_lastExchange? accepts hid hlast
      refine ⟨hsent, hcookies, ?_, hunbroken⟩
      rw [hcookies, sessionCookies_valid_iff hid]
      exact imp_congr_right fun _ => isCookieDomain_cookieDomain_iff server incoming.request

/-- A domain that brings an attribute of its own, in a configuration that is
accepted: a client that names no host is sent that attribute. -/
theorem configured_domain_adds_attribute :
    let config := { standard with domain := "localhost; Secure" }
    let server := config.server ⟨"", .empty, ⟨.empty⟩, .empty, config.internalPrefix⟩
    let stream : List Request.Arrival := [.bytes (Text.utf8Bytes "GET / HTTP/1.1\r\n\r\n")]
    config.fault? = none ∧ ∃ (ex : Exchange) (store : SessionStore) (body : Bytes),
      server.serve ⟨0, 1⟩ (.start config.sessionTimeout) [Ident.session 0] 0 stream .unlimited =
          some (ex.sink, store) ∧
        ex.sink.received = ex.head.bytes ++ body ∧
        cookieLines ex.head = [
          "Set-Cookie: sid=\"AAAAAAAAAAAAAAAAAAAA\"; Domain=localhost; Secure; Path=/; HttpOnly"] ∧
        ∃ c ∈ ex.head.cookies, c.fault? ≠ none := by
  intro config server stream
  refine ⟨by decide, ?_⟩
  let incoming : Incoming := ⟨⟨"/", .http11, []⟩, "/", none⟩
  let resolved : Resolved := ⟨Ident.session 0, 0, true⟩
  have hreceives : Receives server.headerLimit stream (.accepted incoming) :=
    receives_iff.mpr (by decide +kernel)
  have hresolve : ∃ found, Server.resolveFor (.start config.sessionTimeout) [Ident.session 0] 0
      incoming = some (resolved, found) := ⟨_, rfl⟩
  obtain ⟨found, hresolve⟩ := hresolve
  have hmissing : ∀ ex, server.site.dispatch ⟨0, 1⟩ "/" true ex =
      .error (.failed (.notFound "/index.html")) ex := by
    intro ex
    have hroute : server.site.route "/" true = .ok (.staticFile ["index.html"] "/index.html") := by
      decide
    rw [Site.dispatch, Site.dispatchWithin, bind_apply, Site.visit, hroute]
    rfl
  let opened := openExchange server incoming resolved (found.params resolved.params) (.ok .empty)
    .unlimited
  let ex := Exchange.after Exchange.finish (report (.ofDispatch (.notFound "/index.html")) opened)
  have hlast : lastExchange? server ⟨0, 1⟩ found resolved incoming .unlimited = some ex := by
    have hquery : Request.parameters incoming.query = .ok .empty := rfl
    rw [lastExchange?, hquery]
    simp only [answer, incoming, hmissing]
    rfl
  have hid : resolved.isNew = true → ∃ n, resolved.id = Ident.session n := fun _ => ⟨0, rfl⟩
  obtain ⟨hsent, hcookies, -⟩ := Server.sentHead_lastExchange? (fun _ => true) hid hlast
  have hcookie : ex.head.cookies = [sessionCookie (Ident.session 0) "localhost; Secure"] := hcookies
  have hcommitted := committed_of_lastExchange? hlast
  obtain ⟨hopen, -⟩ | ⟨-, body, hreceived⟩ := hsent
  · rw [hcommitted] at hopen
    cases hopen
  · refine ⟨ex, found.setParams 0 ex.persistent, body, ?_, hreceived, ?_, ?_⟩
    · rw [Server.serve_accepted hreceives, hresolve, Option.bind_some, respond_eq, hlast]
      rfl
    · rw [cookieLines_eq, hcookie]
      decide
    · refine ⟨_, by rw [hcookie]; exact List.mem_singleton_self _, ?_⟩
      decide

end ServerConfig

end PageServer
