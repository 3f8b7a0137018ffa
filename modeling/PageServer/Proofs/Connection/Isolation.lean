import PageServer.Proofs.Connection.Serving
import PageServer.Proofs.Site.Edits

/-!
# Sessions do not see each other

A server is connected to again and again, and its store is swept in between. What
a request finds in its session is what the earlier requests of that session put
there since it was minted, also those that failed. Distinct sessions have distinct
maps at every time, so nothing that any other request does is in it.
-/

namespace PageServer

open Connection

/-! ### Visits -/

/-- A request that was given a session. -/
structure Visit where
  bounds : Bounds
  sink : Sink
  incoming : Incoming
  session : String
  /-- The session was minted for this request. -/
  isNew : Bool

namespace Visit

/-- The exchange that a visit begins with if these are the parameters of its
session. The number of their map is of no account. -/
def opened (v : Visit) (server : Server) (seen : Params) : Exchange :=
  openExchange server v.incoming ⟨v.session, 0, v.isNew⟩ seen
    (Request.parameters v.incoming.query) v.sink

/-- The sets and deletes of persistent parameters that a visit makes if it sees
these. It makes none if its query is malformed. -/
def edits (v : Visit) (server : Server) (seen : Params) : List Edit :=
  match Request.parameters v.incoming.query with
  | .error _ => []
  | .ok _ =>
    Site.dispatchEdits v.bounds.iterations v.bounds.pages server.site v.incoming.path true
      (v.opened server seen)

end Visit

/-- The edits of some visits of one session, latest visit first, that began
without parameters. Each visit sees what those before it left. -/
def sessionEdits (server : Server) : List Visit → List Edit
  | [] => []
  | v :: earlier =>
    sessionEdits server earlier ++
      v.edits server (Edit.applyAll (sessionEdits server earlier) .empty)

/-- The visits of a session since it was last minted, latest visit first. -/
def sinceMinted (session : String) : List Visit → List Visit
  | [] => []
  | v :: earlier =>
    if v.session = session then
      if v.isNew then [v] else v :: sinceMinted session earlier
    else sinceMinted session earlier

theorem sinceMinted_filter (session : String) (visits : List Visit) :
    sinceMinted session (visits.filter fun v => v.session = session) =
      sinceMinted session visits := by
  induction visits with
  | nil => rfl
  | cons v earlier ih =>
    by_cases hv : v.session = session
    · rw [List.filter_cons_of_pos (by simpa using hv), sinceMinted, sinceMinted, ih]
    · rw [List.filter_cons_of_neg (by simpa using hv), sinceMinted, if_neg hv, ih]

/-! ### Histories -/

inductive Event where
  | connection (bounds : Bounds) (draws : List String) (now : UInt64)
      (stream : List Request.Arrival) (sink : Sink)
  | sweep (now : UInt64)

/-- A store with the visits that it went through, latest first. -/
structure History where
  store : SessionStore
  visits : List Visit

namespace Server

/-- The visit that a connection comes to, if its request is given a session. -/
def visit? (server : Server) (store : SessionStore) (bounds : Bounds) (draws : List String)
    (now : UInt64) (stream : List Request.Arrival) (sink : Sink) : Option Visit :=
  match receive server.headerLimit stream with
  | .accepted incoming =>
    (resolveFor store draws now incoming).map fun r => ⟨bounds, sink, incoming, r.1.id, r.1.isNew⟩
  | .closed | .rejected _ => none

end Server

namespace History

def start (timeout : UInt64) : History := ⟨.start timeout, []⟩

/-- What an event leaves, if a connection is served within its bounds. -/
def step (server : Server) (h : History) : Event → Option History
  | .connection bounds draws now stream sink =>
    (server.serve bounds h.store draws now stream sink).map fun r =>
      ⟨r.2, (server.visit? h.store bounds draws now stream sink).toList ++ h.visits⟩
  | .sweep now => some { h with store := (h.store.sweep now).2 }

def run (server : Server) : History → List Event → Option History
  | h, [] => some h
  | h, e :: es => (h.step server e).bind fun h => h.run server es

end History

/-! ### What a visit leaves -/

theorem Exchange.persistent_report (f : Failure) (ex : Exchange) :
    (report f ex).persistent = ex.persistent := by
  rw [report]
  split
  · rfl
  · rw [after_eq_endState]
    exact editsBy_sendError _ _ ex

/-- A visit leaves its edits in the parameters, whether it ends well or not. -/
theorem persistent_answer {server : Server} {v : Visit} {seen : Params} {ex : Exchange}
    (h : answer server v.bounds v.incoming.path (Request.parameters v.incoming.query)
      (v.opened server seen) = some ex) :
    ex.persistent = Edit.applyAll (v.edits server seen) seen := by
  have hedits := Site.pageEdits_dispatchWithin v.bounds.iterations v.bounds.pages server.site
    v.incoming.path true (v.opened server seen)
  rw [Visit.edits]
  cases hquery : Request.parameters v.incoming.query with
  | error e =>
    rw [hquery] at h
    obtain rfl := Option.some.inj h
    exact Exchange.persistent_report _ _
  | ok q =>
    rw [hquery, answer, Site.dispatch] at h
    refine Eq.trans ?_ hedits
    split at h
    · next hdispatch =>
      obtain rfl := Option.some.inj h
      rw [hdispatch]
      rfl
    · next hdispatch =>
      obtain rfl := Option.some.inj h
      rw [hdispatch]
      exact Exchange.persistent_report _ _
    · cases h

theorem store_respond {server : Server} {bounds : Bounds} {found store : SessionStore}
    {resolved : Resolved} {incoming : Incoming} {sink sent : Sink}
    (h : respond server bounds found resolved incoming sink = some (sent, store)) :
    let v : Visit := ⟨bounds, sink, incoming, resolved.id, resolved.isNew⟩
    let seen := found.params resolved.params
    store = found.setParams resolved.params (Edit.applyAll (v.edits server seen) seen) := by
  intro v seen
  obtain ⟨ex, hanswer, hresult⟩ := Option.bind_eq_some_iff.mp h
  obtain ⟨-, rfl⟩ := Prod.mk.inj (Option.some.inj hresult)
  have hleft : ex.persistent = Edit.applyAll (v.edits server seen) seen :=
    persistent_answer (v := v) hanswer
  rw [← hleft, Exchange.after_eq_endState]
  exact congrArg (found.setParams resolved.params) (Exchange.editsBy_commit ex)

/-! ### Maps of their own -/

namespace History

/-- No two sessions share a map, and each map holds what the visits of its session
left there. -/
structure Isolated (server : Server) (h : History) : Prop where
  named : ∀ id e, h.store.sessions.get? id = some e → e.id = id
  mapped : ∀ id e, h.store.sessions.get? id = some e → e.params < h.store.maps.length
  apart : ∀ i j d e, h.store.sessions.get? i = some d → h.store.sessions.get? j = some e →
    d.params = e.params → i = j
  sees : ∀ id e, h.store.sessions.get? id = some e → h.store.params e.params =
    Edit.applyAll (sessionEdits server (sinceMinted id h.visits)) .empty

def before (h : History) (r : Resolved) : List Visit :=
  if r.isNew then [] else sinceMinted r.id h.visits

/-- A session that stands as it did, with a map other than this one. -/
structure IsBeside (h : History) (map : Nat) (found : SessionStore) (id : String) (e : Session) :
    Prop where
  kept : h.store.sessions.get? id = some e
  apart : e.params ≠ map
  mapped : e.params < found.maps.length
  sees : found.params e.params = h.store.params e.params

/-- A resolve gives a request the map of its session, which no other session has. -/
structure Grants (server : Server) (h : History) (r : Resolved) (found : SessionStore) : Prop where
  sees : found.params r.params = Edit.applyAll (sessionEdits server (h.before r)) .empty
  mapped : r.params < found.maps.length
  own : ∀ e, found.sessions.get? r.id = some e → e.id = r.id ∧ e.params = r.params
  others : ∀ id e, id ≠ r.id → found.sessions.get? id = some e → h.IsBeside r.params found id e

theorem isolated_start (server : Server) (timeout : UInt64) : (start timeout).Isolated server where
  named := nofun
  mapped := nofun
  apart := nofun
  sees := nofun

/-- Connections that are closed or rejected are no part of the history. -/
theorem step_of_not_accepted {server : Server} {h : History} {bounds : Bounds}
    {draws : List String} {now : UInt64} {stream : List Request.Arrival} {sink : Sink}
    (hnot : ∀ incoming, receive server.headerLimit stream ≠ .accepted incoming) :
    h.step server (.connection bounds draws now stream sink) = some h := by
  cases hreceive : receive server.headerLimit stream with
  | closed => simp only [step, Server.serve, Server.visit?, hreceive]; rfl
  | rejected e => simp only [step, Server.serve, Server.visit?, hreceive]; rfl
  | accepted incoming => exact absurd hreceive (hnot incoming)

namespace Isolated

variable {server : Server} {h : History}

theorem grants (hi : h.Isolated server) {draws : List String} {presented : Option String}
    {now : UInt64} {r : Resolved} {found : SessionStore}
    (hresolve : h.store.resolve draws presented now = some (r, found)) :
    h.Grants server r found := by
  rcases SessionStore.resolve_cases hresolve with ⟨id, e, hext⟩ | hmint
  · obtain rfl := hext.resolved_eq
    obtain rfl := hi.named id e hext.get?
    have hparams (map : Nat) : found.params map = h.store.params map := by
      rw [SessionStore.params, hext.maps, SessionStore.params]
    refine ⟨?_, ?_, ?_, ?_⟩
    · rw [hparams]
      exact hi.sees e.id e hext.get?
    · rw [hext.maps]
      exact hi.mapped e.id e hext.get?
    · intro d hd
      rw [hext.sessions, if_pos rfl] at hd
      obtain rfl := Option.some.inj hd
      exact ⟨rfl, rfl⟩
    · intro id d hid hd
      rw [hext.sessions, if_neg hid] at hd
      refine ⟨hd, fun hsame => hid (hi.apart _ _ _ _ hd hext.get? hsame), ?_, hparams _⟩
      rw [hext.maps]
      exact hi.mapped id d hd
  · -- the new map stands behind all others, so no session has had it
    have hlength : found.maps.length = h.store.maps.length + 1 := by simp [hmint.maps]
    refine ⟨?_, ?_, ?_, ?_⟩
    · rw [before, hmint.isNew, SessionStore.params, hmint.maps, hmint.params]
      simp [sessionEdits]
    · rw [hmint.params, hlength]
      exact Nat.lt_succ_self _
    · intro d hd
      rw [hmint.sessions, if_pos rfl] at hd
      obtain rfl := Option.some.inj hd
      exact ⟨rfl, hmint.params.symm⟩
    · intro id d hid hd
      rw [hmint.sessions, if_neg hid] at hd
      obtain ⟨-, hd⟩ := Option.ite_none_left_eq_some.mp hd
      have hmapped := hi.mapped id d hd
      refine ⟨hd, ?_, by omega, ?_⟩
      · rw [hmint.params]
        exact Nat.ne_of_lt hmapped
      · exact SessionStore.params_of_append hmint.maps hmapped

/-- A visit adds its edits to what its session sees and to nothing else. -/
theorem visited (hi : h.Isolated server) {r : Resolved} {found : SessionStore}
    (hg : h.Grants server r found) {v : Visit} (hsession : v.session = r.id)
    (hnew : v.isNew = r.isNew) :
    let seen := found.params r.params
    Isolated server
      ⟨found.setParams r.params (Edit.applyAll (v.edits server seen) seen), v :: h.visits⟩ := by
  intro seen
  have hlength (map : Nat) (params : Params) :
      (found.setParams map params).maps.length = found.maps.length := List.length_set
  have hsince : sinceMinted r.id (v :: h.visits) = v :: h.before r := by
    rw [sinceMinted, if_pos hsession, hnew, before]
    split <;> rfl
  -- one map changes, which is that of the visit's session and of no other
  refine ⟨?_, ?_, ?_, ?_⟩
  · intro id e he
    by_cases hid : id = r.id
    · subst hid
      exact (hg.own e he).1
    · exact hi.named id e (hg.others id e hid he).kept
  · intro id e he
    rw [hlength]
    by_cases hid : id = r.id
    · subst hid
      rw [(hg.own e he).2]
      exact hg.mapped
    · exact (hg.others id e hid he).mapped
  · intro i j d e hd he hsame
    by_cases hir : i = r.id <;> by_cases hjr : j = r.id
    · rw [hir, hjr]
    · subst hir
      rw [(hg.own d hd).2] at hsame
      exact absurd hsame.symm (hg.others j e hjr he).apart
    · subst hjr
      rw [(hg.own e he).2] at hsame
      exact absurd hsame (hg.others i d hir hd).apart
    · exact hi.apart i j d e (hg.others i d hir hd).kept (hg.others j e hjr he).kept hsame
  · intro id e he
    by_cases hid : id = r.id
    · subst hid
      rw [(hg.own e he).2, SessionStore.params_setParams_self hg.mapped, hsince, sessionEdits,
        Edit.applyAll_append, ← hg.sees]
    · have hother := hg.others id e hid he
      have hsession' : v.session ≠ id := fun hv => hid (hv.symm.trans hsession)
      rw [SessionStore.params_setParams_ne (Ne.symm hother.apart), hother.sees,
        hi.sees id e hother.kept, sinceMinted, if_neg hsession']

theorem sweep (hi : h.Isolated server) (now : UInt64) :
    Isolated server { h with store := (h.store.sweep now).2 } := by
  have hkept : ∀ id e, (h.store.sweep now).2.sessions.get? id = some e →
      h.store.sessions.get? id = some e := fun _ _ => SessionStore.get?_of_sweep
  exact ⟨fun id e he => hi.named id e (hkept id e he),
    fun id e he => hi.mapped id e (hkept id e he),
    fun i j d e hd he => hi.apart i j d e (hkept i d hd) (hkept j e he),
    fun id e he => hi.sees id e (hkept id e he)⟩

/-- The step: whatever happens next, sessions stay apart. -/
theorem step (hi : h.Isolated server) {e : Event} {h' : History}
    (hstep : h.step server e = some h') : h'.Isolated server := by
  cases e with
  | sweep now =>
    obtain rfl := Option.some.inj hstep
    exact hi.sweep now
  | connection bounds draws now stream sink =>
    cases hreceive : receive server.headerLimit stream with
    | closed =>
      rw [step_of_not_accepted (by simp [hreceive])] at hstep
      exact Option.some.inj hstep ▸ hi
    | rejected e =>
      rw [step_of_not_accepted (by simp [hreceive])] at hstep
      exact Option.some.inj hstep ▸ hi
    | accepted incoming =>
      obtain ⟨⟨sent, store⟩, hserve, rfl⟩ := Option.map_eq_some_iff.mp hstep
      simp only [Server.serve, hreceive] at hserve
      obtain ⟨⟨resolved, found⟩, hresolve, hrespond⟩ := Option.bind_eq_some_iff.mp hserve
      have hvisit : server.visit? h.store bounds draws now stream sink =
          some ⟨bounds, sink, incoming, resolved.id, resolved.isNew⟩ := by
        simp only [Server.visit?, hreceive, Server.resolveFor, hresolve, Option.map_some]
      obtain rfl := store_respond hrespond
      rw [hvisit]
      exact hi.visited (hi.grants hresolve) rfl rfl

theorem run (hi : h.Isolated server) {events : List Event} {h' : History}
    (hrun : h.run server events = some h') : h'.Isolated server := by
  induction events generalizing h with
  | nil =>
    obtain rfl := Option.some.inj hrun
    exact hi
  | cons e es ih =>
    obtain ⟨m, hstep, hrest⟩ := Option.bind_eq_some_iff.mp hrun
    exact ih (hi.step hstep) hrest

end Isolated

/-- Whatever connections and sweeps came before, a request finds in its session the
edits of the visits of that session since it was minted, in order and from no
parameters on, and nothing else. Connections that are closed or rejected leave the
history as it was. Two histories of a server with the same visits of the session,
whatever else happened, show it the same parameters. -/
theorem session_sees_own_edits (server : Server) (timeout : UInt64) (events : List Event)
    (h : History) (hrun : (start timeout).run server events = some h) :
    (∀ draws now incoming resolved found,
      Server.resolveFor h.store draws now incoming = some (resolved, found) →
        let own := if resolved.isNew then [] else sinceMinted resolved.id h.visits
        (∀ query sink, (openExchange server incoming resolved (found.params resolved.params) query
          sink).persistent = Edit.applyAll (sessionEdits server own) .empty) ∧
        ∀ timeout' events' h', (start timeout').run server events' = some h' →
          ∀ draws' now' incoming' resolved' found',
            Server.resolveFor h'.store draws' now' incoming' = some (resolved', found') →
            resolved'.id = resolved.id → resolved'.isNew = resolved.isNew →
            (h'.visits.filter fun v => v.session = resolved.id) =
              (h.visits.filter fun v => v.session = resolved.id) →
            found'.params resolved'.params = found.params resolved.params) ∧
      ∀ bounds draws now stream sink,
        (∀ incoming, receive server.headerLimit stream ≠ .accepted incoming) →
          h.step server (.connection bounds draws now stream sink) = some h := by
  have hisolated := (isolated_start server timeout).run hrun
  refine ⟨?_, fun _ _ _ _ _ => step_of_not_accepted⟩
  intro draws now incoming resolved found hresolve own
  have hsees := (hisolated.grants hresolve).sees
  refine ⟨fun _ _ => hsees, ?_⟩
  intro timeout' events' h' hrun' draws' now' incoming' resolved' found' hresolve' hid hnew hsame
  have hsees' := (((isolated_start server timeout').run hrun').grants hresolve').sees
  have hbefore : h'.before resolved' = h.before resolved := by
    rw [before, before, hid, hnew, ← sinceMinted_filter, hsame, sinceMinted_filter]
  rw [hsees', hsees, hbefore]

/-- A color that was chosen is there for the next request, not that of another
client. -/
theorem next_request_sees_own_color :
    let server : Server :=
      ⟨⟨"", .empty, ⟨.empty⟩, .ofList [("/color", .bgColor)], ""⟩, "localhost", 64⟩
    let choose (color : String) : List Request.Arrival :=
      [.bytes (Text.utf8Bytes ("GET /color?bgcolor=" ++ color ++ " HTTP/1.1\r\n\r\n"))]
    let events : List Event :=
      [.connection ⟨0, 1⟩ ["A"] 0 (choose "00aaff") .unlimited,
       .connection ⟨0, 1⟩ ["B"] 1 (choose "123456") .unlimited, .sweep 59]
    let incoming : Incoming := ⟨⟨"/", .http11, [("Cookie", "sid=A")]⟩, "/", none⟩
    ∃ h resolved found, (start 60).run server events = some h ∧
      Server.resolveFor h.store ["C"] 59 incoming = some (resolved, found) ∧
      resolved.id = "A" ∧ resolved.isNew = false ∧
      (openExchange server incoming resolved (found.params resolved.params) (.ok .empty)
        .unlimited).persistent.get? "bgcolor" = some "00AAFF" := by
  intro server choose events incoming
  have hvalue : (((start 60).run server events).bind fun h =>
      (Server.resolveFor h.store ["C"] 59 incoming).map fun r =>
        let own := if r.1.isNew then [] else sinceMinted r.1.id h.visits
        (r.1.id, r.1.isNew, (Edit.applyAll (sessionEdits server own) .empty).get? "bgcolor")) =
      some ("A", false, some "00AAFF") := by
    decide +kernel
  obtain ⟨h, hrun, hnext⟩ := Option.bind_eq_some_iff.mp hvalue
  obtain ⟨⟨resolved, found⟩, hresolve, hcolor⟩ := Option.map_eq_some_iff.mp hnext
  obtain ⟨hid, hfound⟩ := Prod.mk.inj hcolor
  obtain ⟨hnew, hcolor⟩ := Prod.mk.inj hfound
  obtain ⟨hsees, -⟩ := session_sees_own_edits server 60 events h hrun
  have hpersistent := (hsees ["C"] 59 incoming resolved found hresolve).1 (.ok .empty) .unlimited
  refine ⟨h, resolved, found, hrun, hresolve, hid, hnew, ?_⟩
  rw [hpersistent]
  exact hcolor

end History

end PageServer
