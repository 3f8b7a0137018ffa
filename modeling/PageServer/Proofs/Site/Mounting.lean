import PageServer.Proofs.Site.Containment

/-!
# Mounted handlers

Handlers are mounted on paths as a table has them, while the path of a request
is looked up in canonical form, and the index in the stead of the root. So the
handlers that paths lead to are those mounted on a canonical path other than the
root; an entry with any other path is accepted and has no effect.
-/

namespace PageServer.Site

open Exchange (Action)

/-- A path under which requests are looked up. -/
def IsMountPoint (p : String) : Prop :=
  normalize? p = some p ∧ p ≠ "/"

instance : DecidablePred IsMountPoint :=
  fun p => inferInstanceAs (Decidable (normalize? p = some p ∧ p ≠ "/"))

/-! ### The work of a handler -/

/-- What a handler fails with. -/
inductive CallError where
  | own (e : HandlerError)
  /-- The page that the handler leads to was not answered. -/
  | page (e : DispatchError)

/-- A failure as a site reports it. -/
def CallError.reported (label : String) : CallError → DispatchError
  | own e => .handlerFailed label e
  | page e => e

/-- All the work of a handler, with the page it leads to. -/
def Handler.call (bounds : Bounds) (h : Handler) : Action (Stop CallError) Unit := do
  match ← EStateM.adaptExcept (fun e => .failed (.own e)) h.run with
  | .done => pure ()
  | .forward path => EStateM.adaptExcept (Stop.map .page) (Exchange.nested bounds path)

/-- A path that leads to a handler is answered by it. -/
theorem dispatch_of_route_handler {s : Site} {path label : String} {direct : Bool} {h : Handler}
    (hroute : s.route path direct = .ok (.handler h label)) (bounds : Bounds) :
    s.dispatch ⟨bounds.iterations, bounds.pages + 1⟩ path direct =
      EStateM.adaptExcept (Stop.map (CallError.reported label)) (h.call bounds) := by
  funext ex
  rw [dispatch, dispatchWithin_succ, visit, hroute]
  simp only [serve, Handler.call, EStateM.adaptExcept, bind_apply]
  cases hrun : h.run ex with
  | error e ex' => rfl
  | ok next ex' =>
    cases next with
    | done => rfl
    | forward path' =>
      -- whatever the page fails with is reported as it is
      simp only [EStateM.adaptExcept, Exchange.nested]
      cases hsite : ex'.site with
      | none => rfl
      | some s' =>
        simp only [dispatch]
        cases dispatchWithin bounds.iterations bounds.pages s' path' false ex' with
        | ok u ex'' => rfl
        | error stop ex'' => cases stop <;> rfl

/-! ### Tables of handlers -/

theorem get?_of_go_of_find_none {entries : List (String × String)} {mounted mounted' : Table Handler}
    (h : mount.go entries mounted = .ok mounted') {p : String} (hp : Table.find entries p = none) :
    mounted'.get? p = mounted.get? p := by
  induction entries generalizing mounted with
  | nil =>
    cases h
    rfl
  | cons entry rest ih =>
    obtain ⟨q, name⟩ := entry
    rw [mount.go] at h
    rw [Table.find] at hp
    split at hp
    · cases hp
    · next hne =>
      split at h
      · rw [ih h hp, Table.get?_insert, if_neg hne]
      · cases h

theorem get?_of_go_of_find_some {entries : List (String × String)} {mounted mounted' : Table Handler}
    (hkeys : entries.Pairwise fun a b => a.1 < b.1)
    (h : mount.go entries mounted = .ok mounted') {p name : String}
    (hp : Table.find entries p = some name) :
    ∃ handler, Handler.ofName? name = some handler ∧ mounted'.get? p = some handler := by
  induction entries generalizing mounted with
  | nil => cases hp
  | cons entry rest ih =>
    obtain ⟨q, name'⟩ := entry
    obtain ⟨hq, hrest⟩ := List.pairwise_cons.mp hkeys
    rw [mount.go] at h
    rw [Table.find] at hp
    split at h
    · next handler hname =>
      split at hp
      · next heq =>
        -- no later entry has this path
        cases hp
        refine ⟨handler, hname, ?_⟩
        rw [get?_of_go_of_find_none h (Table.find_eq_none fun e he => heq ▸ hq e he), heq,
          Table.get?_insert_self]
      · exact ih hrest h hp
    · cases h

/-- A table that is accepted mounts the handlers it names, on the paths it has. -/
theorem get?_of_mount {s s' : Site} {table : Table String} (h : s.mount table = .ok s')
    {p name : String} (hp : table.get? p = some name) :
    ∃ handler, Handler.ofName? name = some handler ∧ s'.workers.get? p = some handler := by
  rw [mount] at h
  cases hgo : mount.go table.entries s.workers with
  | error e =>
    rw [hgo] at h
    cases h
  | ok mounted =>
    rw [hgo] at h
    cases h
    exact get?_of_go_of_find_some table.increasing hgo hp

/-! ### Looking up -/

theorem isMountPoint_requested {path : String} (hup : ".." ∉ segments path) :
    IsMountPoint (absolute (requested path)) := by
  have hsegments : ∀ t ∈ requested path, IsSegment t := fun _ => isSegment_of_mem_requested
  refine ⟨?_, absolute_ne_slash hsegments (requested_ne_nil path)⟩
  rw [normalize?_eq, segments_absolute hsegments, if_neg (mt (up_mem_requested_iff path).mp hup)]

theorem IsMountPoint.up_not_mem {p : String} (h : IsMountPoint p) : ".." ∉ segments p := by
  have hnormal := h.1
  rw [normalize?_eq] at hnormal
  exact (Option.ite_none_left_eq_some.mp hnormal).1

theorem IsMountPoint.absolute_segments {p : String} (h : IsMountPoint p) :
    absolute (segments p) = p := by
  have hnormal := h.1
  rw [normalize?_eq, if_neg h.up_not_mem] at hnormal
  exact Option.some.inj hnormal

/-- A request for a mount point is looked up as it is. -/
theorem IsMountPoint.absolute_requested {p : String} (h : IsMountPoint p) :
    absolute (requested p) = p := by
  rw [Site.absolute_requested, h.absolute_segments, if_neg h.2]

theorem lead_congr {s s' : Site} {names : List String}
    (h : s.workers.get? (absolute names) = s'.workers.get? (absolute names)) :
    s.lead names = s'.lead names := by
  simp only [lead, h]

def unmount (s : Site) (p : String) : Site :=
  { s with workers := s.workers.erase p }

/-- What is mounted on a path under which no request is looked up is not there. -/
theorem route_unmount {s : Site} {p : String} (h : ¬ IsMountPoint p) (path : String)
    (direct : Bool) : (s.unmount p).route path direct = s.route path direct := by
  have hinternal (q : String) : (s.unmount p).isInternal q = s.isInternal q := rfl
  rw [route_eq, route_eq, hinternal]
  by_cases hup : ".." ∈ segments path
  · rw [if_pos hup, if_pos hup]
  have hne : absolute (requested path) ≠ p := fun heq => h (heq ▸ isMountPoint_requested hup)
  have hlead : (s.unmount p).lead (requested path) = s.lead (requested path) := by
    apply lead_congr
    rw [unmount, Table.get?_erase, if_neg hne]
  rw [hlead]

theorem route_mounted {s : Site} {p : String} (hp : IsMountPoint p) {h : Handler}
    (hworker : s.workers.get? p = some h) (direct : Bool) :
    s.route p direct =
      if direct && s.isInternal p then .error (.forbidden p) else .ok (.handler h p) := by
  rw [route_eq, if_neg hp.up_not_mem, hp.absolute_requested, lead, hp.absolute_requested, hworker]

/-- Of the entries of a table that a site accepts, those with a canonical path other
than the root are reached: but for internal paths of clients, a request for the path
comes to the work of the handler that the table names, whatever files there are. An
entry with any other path changes nothing about where any path leads. -/
theorem mounted_reached_or_void {s s' : Site} {table : Table String}
    (hmount : s.mount table = .ok s') {p name : String} (hentry : table.get? p = some name) :
    ∃ h, Handler.ofName? name = some h ∧
      (IsMountPoint p → ∀ (bounds : Bounds) (direct : Bool) (ex : Exchange),
        s'.dispatch ⟨bounds.iterations, bounds.pages + 1⟩ p direct ex =
          if direct && s'.isInternal p then .error (.failed (.forbidden p)) ex
          else EStateM.adaptExcept (Stop.map (CallError.reported p)) (h.call bounds) ex) ∧
      (¬ IsMountPoint p → ∀ (path : String) (direct : Bool),
        (s'.unmount p).route path direct = s'.route path direct) := by
  obtain ⟨h, hname, hworker⟩ := get?_of_mount hmount hentry
  refine ⟨h, hname, ?_, fun hp path direct => route_unmount hp path direct⟩
  intro hp bounds direct ex
  have hroute := route_mounted hp hworker direct
  split at hroute
  · next hinternal =>
    rw [if_pos hinternal]
    exact dispatch_of_route_error hroute (Nat.succ_ne_zero _) ex
  · next hopen =>
    rw [if_neg hopen]
    exact congrFun (dispatch_of_route_handler hroute bounds) ex

/-- Two handlers, one of them on a path with a slash at its end. -/
def slashTable : Table String :=
  .ofList [("/calc", "demo.workers.SumWorker"), ("/home/", "HelloWorker")]

def slashSite : Site :=
  { ofFiles "" .empty ⟨.empty⟩ defaultInternalPrefix with
    workers := .ofList [("/calc", .sum), ("/home/", .hello)] }

def slashExchange : Exchange :=
  .start .unlimited .empty .empty [] (some slashSite)

/-- The handler of a dotted name is reached. -/
theorem calc_reached :
    (ofFiles "" .empty ⟨.empty⟩ defaultInternalPrefix).mount slashTable = .ok slashSite ∧
      slashTable.get? "/calc" = some "demo.workers.SumWorker" ∧
      slashSite.dispatch ⟨0, 1⟩ "/calc" true slashExchange =
        EStateM.adaptExcept (Stop.map (CallError.reported "/calc")) (Handler.sum.call ⟨0, 0⟩)
          slashExchange := by
  have hmount : (ofFiles "" .empty ⟨.empty⟩ defaultInternalPrefix).mount slashTable =
      .ok slashSite := rfl
  have hentry : slashTable.get? "/calc" = some "demo.workers.SumWorker" := by decide
  refine ⟨hmount, hentry, ?_⟩
  obtain ⟨h, hname, hreached, -⟩ := mounted_reached_or_void hmount hentry
  obtain rfl : h = .sum := by
    have hsum : Handler.ofName? "demo.workers.SumWorker" = some .sum := by decide
    exact Option.some.inj (hname.symm.trans hsum)
  have hopen : ¬ (true && slashSite.isInternal "/calc") = true := by decide
  rw [hreached (by decide) ⟨0, 0⟩ true, if_neg hopen]

/-- The other handler is mounted as well, and would answer, but is not reached. -/
theorem home_slash_not_reached :
    (ofFiles "" .empty ⟨.empty⟩ defaultInternalPrefix).mount slashTable = .ok slashSite ∧
      slashTable.get? "/home/" = some "HelloWorker" ∧
      Handler.ofName? "HelloWorker" = some .hello ∧
      endResult (Handler.hello.call ⟨0, 0⟩ slashExchange) = .ok () ∧
      slashSite.dispatch ⟨0, 1⟩ "/home/" true slashExchange =
        .error (.failed (.notFound "/home")) slashExchange := by
  refine ⟨rfl, by decide, by decide, rfl, ?_⟩
  have hroute : slashSite.route "/home/" true = .ok (.staticFile ["home"] "/home") := by decide
  rw [dispatch, dispatchWithin_succ, visit, hroute]
  rfl

end PageServer.Site
