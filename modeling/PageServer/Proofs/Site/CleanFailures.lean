import Mathlib.Data.List.Basic
import PageServer.Proofs.Exchange.Calls
import PageServer.Site.Dispatch

/-!
# Failures before a page

A path that leads to no page fails before anything is set or sent, and so do the
pages that handlers lead to. Only the temporary parameters that the handlers left
on the way stay.
-/

namespace PageServer

/-- The exchanges are the same but for the temporary parameters. -/
def Exchange.SameButTemporary (ex ex' : Exchange) : Prop :=
  ex' = { ex with temporary := ex'.temporary }

namespace Exchange.SameButTemporary

theorem refl (ex : Exchange) : ex.SameButTemporary ex := rfl

theorem trans {ex mid ex' : Exchange} (h : ex.SameButTemporary mid)
    (h' : mid.SameButTemporary ex') : ex.SameButTemporary ex' := by
  rw [SameButTemporary] at h h'
  rw [h] at h'
  exact h'

end Exchange.SameButTemporary

namespace Site

open Exchange (Action SameButTemporary)

/-- The errors of paths for which no page was begun. -/
def DispatchError.precedesPage : DispatchError → Bool
  | forbidden _ | notFound _ | malformedTemplate _ _ | unknownHandler _ | unreadable _ _
  | noSite => true
  | templateFailed _ _ | handlerFailed _ _ | response _ => false

/-! ### Refusals -/

/-- There is no page at a target. -/
inductive Lacks (s : Site) : Target → DispatchError → Prop
  | template {names : List String} {path : String} {e : DispatchError}
      (h : s.readTemplate names path = .error e) : Lacks s (.template names path) e
  | staticFile {names : List String} {path : String} {e : OpenError}
      (h : s.staticFile names = .error e) : Lacks s (.staticFile names path) (.notFound path)

/-- What fails before a page lacks one, and nothing has happened. -/
theorem lacks_of_serve {s : Site} {iterations : Nat} {t : Target} {e : DispatchError}
    {ex ex' : Exchange} (h : s.serve iterations t ex = .error (.failed e) ex')
    (he : e.precedesPage = true) : s.Lacks t e ∧ ex' = ex := by
  cases t with
  | handler handler label =>
    rw [serve, EStateM.adaptExcept] at h
    cases hrun : handler.run ex <;> rw [hrun] at h <;> cases h
    cases he
  | template names path =>
    rw [serve] at h
    cases hread : s.readTemplate names path with
    | error e =>
      rw [hread] at h
      cases h
      exact ⟨.template hread, rfl⟩
    | ok d =>
      simp only [hread, bind_apply, EStateM.adaptExcept] at h
      cases hrender : d.render iterations ex with
      | ok u ex' =>
        rw [hrender] at h
        cases h
      | error stop ex' =>
        rw [hrender] at h
        cases stop <;> cases h
        cases he
  | staticFile names path =>
    rw [serve] at h
    cases hfile : s.staticFile names with
    | error e =>
      rw [hfile] at h
      cases h
      exact ⟨.staticFile hfile, rfl⟩
    | ok f =>
      simp only [hfile, bind_apply, EStateM.adaptExcept] at h
      cases hsend : Exchange.sendFile f ex <;> rw [hsend] at h <;> cases h
      cases he

theorem unchanged_of_visit {s : Site} {iterations : Nat} {path : String} {direct : Bool}
    {e : DispatchError} {ex ex' : Exchange}
    (h : s.visit iterations path direct ex = .error (.failed e) ex')
    (he : e.precedesPage = true) : ex' = ex := by
  rw [visit] at h
  cases hroute : s.route path direct with
  | error e =>
    rw [hroute] at h
    cases h
    rfl
  | ok t =>
    rw [hroute] at h
    exact (lacks_of_serve h he).2

/-! ### Pages that lead on -/

/-- An action has left temporary parameters and nothing else where it leads on. -/
def LeadsOnClean {ε : Type} (act : Action ε Next) : Prop :=
  ∀ ex path ex', act ex = .ok (.forward path) ex' → ex.SameButTemporary ex'

namespace LeadsOnClean

variable {ε δ α : Type}

theorem throw (e : ε) : LeadsOnClean (MonadExcept.throw e : Action ε Next) := by
  intro ex path ex' hact
  cases hact

theorem bind_get {next : Exchange → Action ε Next} (h : ∀ ex, LeadsOnClean (next ex)) :
    LeadsOnClean (MonadState.get >>= next) :=
  fun ex => h ex ex

theorem adaptExcept (f : ε → δ) {act : Action ε Next} (h : LeadsOnClean act) :
    LeadsOnClean (EStateM.adaptExcept f act) := by
  intro ex path ex' hact
  rw [EStateM.adaptExcept] at hact
  split at hact
  · cases hact
  · next hrun =>
    cases hact
    exact h ex path ex' hrun

theorem of_done (act : Action ε α) : LeadsOnClean (act >>= fun _ => pure .done) := by
  intro ex path ex' hact
  rw [bind_apply] at hact
  split at hact <;> cases hact

theorem of_modifying {f : Exchange → Exchange} (h : ∀ ex : Exchange, ex.SameButTemporary (f ex))
    (next : Next) : LeadsOnClean (ε := ε) (do Exchange.modifying f; pure next) := by
  intro ex path ex' hact
  cases hact
  exact h ex

end LeadsOnClean

theorem sameButTemporary_setTemporary (key value : String) (ex : Exchange) :
    ex.SameButTemporary (ex.setTemporary key value) := rfl

theorem sameButTemporary_rememberSum (a b sum : Int64) (ex : Exchange) :
    ex.SameButTemporary (Handler.rememberSum a b sum ex) := by
  rw [Handler.rememberSum]
  generalize [("varA", _), _, _, _] = left
  induction left generalizing ex with
  | nil => exact .refl ex
  | cons p left ih => exact (sameButTemporary_setTemporary p.1 p.2 ex).trans (ih _)

theorem leadsOnClean_handler (h : Handler) : LeadsOnClean h.run := by
  cases h with
  | hello => exact .bind_get fun _ => .of_done _
  | echoParams => exact .bind_get fun _ => .of_done _
  | bgColor => exact .bind_get fun _ => .of_done _
  | sum =>
    apply LeadsOnClean.bind_get
    intro ex
    dsimp only
    split
    · exact .throw _
    · exact .of_modifying (sameButTemporary_rememberSum _ _ _) _
  | home =>
    apply LeadsOnClean.bind_get
    intro ex
    exact .of_modifying (sameButTemporary_setTemporary _ _) _

theorem leadsOnClean_serve (s : Site) (iterations : Nat) (t : Target) :
    LeadsOnClean (s.serve iterations t) := by
  cases t with
  | handler h label => exact .adaptExcept _ (leadsOnClean_handler h)
  | template names path =>
    rw [serve]
    split
    · exact .throw _
    · exact .of_done _
  | staticFile names path =>
    rw [serve]
    split
    · exact .throw _
    · exact .of_done _

theorem leadsOnClean_visit (s : Site) (iterations : Nat) (path : String) (direct : Bool) :
    LeadsOnClean (s.visit iterations path direct) := by
  rw [visit]
  split
  · exact .throw _
  · exact leadsOnClean_serve s iterations _

/-! ### The law -/

theorem sameButTemporary_of_dispatchWithin {s : Site} {iterations pages : Nat} {path : String}
    {direct : Bool} {e : DispatchError} {ex ex' : Exchange}
    (h : dispatchWithin iterations pages s path direct ex = .error (.failed e) ex')
    (he : e.precedesPage = true) : ex.SameButTemporary ex' := by
  -- on the pages that may still follow; none of those before has set or sent anything
  induction pages generalizing s path direct ex with
  | zero => cases h
  | succ pages ih =>
    rw [dispatchWithin_succ] at h
    cases hvisit : s.visit iterations path direct ex with
    | error stop mid =>
      rw [hvisit] at h
      cases h
      rw [unchanged_of_visit hvisit he]
      exact .refl ex
    | ok next mid =>
      cases next with
      | done =>
        rw [hvisit] at h
        cases h
      | forward path' =>
        have hmid := leadsOnClean_visit s iterations path direct ex path' mid hvisit
        simp only [hvisit] at h
        split at h
        · cases h
          exact hmid
        · exact hmid.trans (ih h)

/-- If a dispatch fails because there is no page, its own or one that a handler leads
to, then nothing was sent, no head was set and no parameter but temporary ones. -/
theorem dispatch_clean_before_page {s : Site} {bounds : Bounds} {path : String} {direct : Bool}
    {e : DispatchError} {ex ex' : Exchange}
    (h : s.dispatch bounds path direct ex = .error (.failed e) ex')
    (he : e.precedesPage = true) : ex' = { ex with temporary := ex'.temporary } :=
  sameButTemporary_of_dispatchWithin h he

/-- A site with handlers that lead to one another, but without files. -/
def bareSite : Site :=
  ⟨"", .ofList [], ⟨.empty⟩,
    .ofList [("/index.html", .sum), (Handler.sumPage, .home)], defaultInternalPrefix⟩

def bareExchange : Exchange :=
  .start .unlimited .empty .empty [] (some bareSite)

/-- The page that is missing two handlers deep is reported, and what both handlers
have left is there. -/
theorem dispatch_clean_two_handlers_deep :
    ∃ ex', bareSite.dispatch ⟨0, 3⟩ "/" true bareExchange =
        .error (.failed (.notFound Handler.homePage)) ex' ∧
      ex' = { bareExchange with temporary := ex'.temporary } ∧
      ex'.temporary.get? "zbroj" = some "3" ∧ ex'.temporary.get? "background" = some "7F7F7F" := by
  have hindex : bareSite.route "/" true = .ok (.handler .sum "/index.html") := by decide
  have hfails : ∃ ex', bareSite.dispatch ⟨0, 3⟩ "/" true bareExchange =
        .error (.failed (.notFound Handler.homePage)) ex' ∧
      ex'.temporary.get? "zbroj" = some "3" ∧
      ex'.temporary.get? "background" = some "7F7F7F" := by
    simp only [dispatch, dispatchWithin_succ, visit, hindex]
    exact ⟨_, rfl, rfl, rfl⟩
  obtain ⟨ex', hdispatch, hleft⟩ := hfails
  exact ⟨ex', hdispatch, dispatch_clean_before_page hdispatch rfl, hleft⟩

end Site

end PageServer
