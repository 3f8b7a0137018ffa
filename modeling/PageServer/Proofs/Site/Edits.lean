import PageServer.Proofs.Site.Calls
import PageServer.Proofs.Template.Edits

/-!
# What a dispatch leaves in the session

Templates edit the session's parameters, and so does the page that sets the
background color. Pages that lead to one another add up their edits.
-/

namespace PageServer.Site

open Exchange (Action EditsBy noEdits thenEdits)

abbrev PageEdits {ε α : Type} (edits : Exchange → List Edit) (act : Action ε α) : Prop :=
  EditsBy id edits act

/-! ### Handlers -/

def Page.ColorRequest.edits : Page.ColorRequest → List Edit
  | .color digits => [.set Handler.colorParameter digits]
  | .invalid _ | .missing => []

/-- The color is remembered once the content type is set. -/
def Handler.edits : Handler → Exchange → List Edit
  | .bgColor, ex =>
    let r := Page.ColorRequest.ofText? (ex.query.get? Handler.colorParameter)
    thenEdits noEdits (Exchange.setMimeType "text/html") (fun _ _ => r.edits) ex
  | _, _ => []

theorem pageEdits_answering {edits : Exchange → List Edit} {act : Action Response.Error Unit}
    (h : PageEdits edits act) : PageEdits edits (Handler.answering act) :=
  (EditsBy.adaptExcept _ h).bind_first fun _ => .pure _

theorem pageEdits_answerWith (page : String) : PageEdits noEdits (Handler.answerWith page) :=
  (Exchange.editsBy_setMimeType _).bind_none fun _ => Exchange.editsBy_writeText page

theorem pageEdits_rememberColor {ε : Type} (r : Page.ColorRequest) :
    PageEdits (fun _ => r.edits) (Exchange.modifying (ε := ε) (Handler.rememberColor r)) :=
  Exchange.editsBy_modifying fun _ => by cases r <;> rfl

open Handler in
theorem pageEdits_handler (h : Handler) : PageEdits h.edits h.run := by
  cases h with
  | hello =>
    exact .bind_get (fun _ => noEdits) fun _ => pageEdits_answering (pageEdits_answerWith _)
  | echoParams =>
    exact .bind_get (fun _ => noEdits) fun _ => pageEdits_answering (pageEdits_answerWith _)
  | bgColor =>
    intro ex
    let r := Page.ColorRequest.ofText? (ex.query.get? colorParameter)
    have hpage : PageEdits (thenEdits noEdits (Exchange.setMimeType "text/html") fun _ _ => r.edits)
        (do
          Exchange.setMimeType "text/html"
          Exchange.modifying (rememberColor r)
          Exchange.writeText (Page.colorPage r)) :=
      (Exchange.editsBy_setMimeType _).bind fun _ =>
        (pageEdits_rememberColor r).bind_first fun _ => Exchange.editsBy_writeText _
    exact pageEdits_answering hpage ex
  | sum =>
    refine .bind_get (fun _ => noEdits) fun ex => ?_
    dsimp only
    split
    · exact .throw _
    · exact EditsBy.bind_none (Exchange.editsBy_modifying fun _ => rfl) fun _ => .pure _
  | home =>
    refine .bind_get (fun _ => noEdits) fun ex => ?_
    exact EditsBy.bind_none (Exchange.editsBy_modifying fun _ => rfl) fun _ => .pure _

/-! ### Static files -/

theorem pageEdits_sendFile (f : StaticFile) : PageEdits noEdits (Exchange.sendFile f) :=
  sendFile_of_sequential EditsBy.sequential Exchange.editsBy_setMimeType
    (fun _ => Exchange.editsBy_change _ _ _) Exchange.editsBy_write f

/-! ### Dispatch -/

def targetEdits (s : Site) (iterations : Nat) : Target → Exchange → List Edit
  | .handler h _, ex => h.edits ex
  | .template names path, ex =>
    match s.readTemplate names path with
    | .error _ => []
    | .ok d => d.edits iterations ex
  | .staticFile _ _, _ => []

def visitEdits (s : Site) (iterations : Nat) (path : String) (direct : Bool) (ex : Exchange) :
    List Edit :=
  match s.route path direct with
  | .error _ => []
  | .ok target => s.targetEdits iterations target ex

/-- The edits of a path and the pages it leads to. -/
def dispatchEdits (iterations : Nat) : Nat → Site → String → Bool → Exchange → List Edit
  | 0, _, _, _ => noEdits
  | pages + 1, s, path, direct =>
    thenEdits (s.visitEdits iterations path direct) (s.visit iterations path direct)
      fun next ex =>
        match next, ex.site with
        | .forward path, some s => dispatchEdits iterations pages s path false ex
        | _, _ => []

theorem pageEdits_serve (s : Site) (iterations : Nat) (t : Target) :
    PageEdits (s.targetEdits iterations t) (s.serve iterations t) := by
  cases t with
  | handler h label => exact .adaptExcept _ (pageEdits_handler h)
  | template names path =>
    intro ex
    rw [targetEdits, serve]
    cases s.readTemplate names path with
    | error e => rfl
    | ok d =>
      have hrender := EditsBy.adaptExcept (Stop.map (DispatchError.templateFailed path))
        (Template.editsBy_render d iterations)
      exact hrender.bind_first (fun _ => .pure Next.done) ex
  | staticFile names path =>
    rw [serve]
    split
    · exact .throw _
    · next f _ =>
      exact (EditsBy.adaptExcept _ (pageEdits_sendFile f)).bind_none fun _ => .pure _

theorem pageEdits_visit (s : Site) (iterations : Nat) (path : String) (direct : Bool) :
    PageEdits (s.visitEdits iterations path direct) (s.visit iterations path direct) := by
  intro ex
  rw [visit, visitEdits]
  cases s.route path direct with
  | error e => rfl
  | ok t => exact pageEdits_serve s iterations t ex

theorem pageEdits_dispatchWithin (iterations pages : Nat) (s : Site) (path : String)
    (direct : Bool) :
    PageEdits (dispatchEdits iterations pages s path direct)
      (dispatchWithin iterations pages s path direct) := by
  -- on the pages that may still follow; each is of the site the exchange has by then
  induction pages generalizing s path direct with
  | zero => exact .throw _
  | succ pages ih =>
    intro ex
    have hvisit := pageEdits_visit s iterations path direct ex
    rw [dispatchWithin_succ, dispatchEdits, thenEdits, Edit.applyAll_append, ← hvisit]
    cases s.visit iterations path direct ex with
    | error e ex' => rfl
    | ok next ex' =>
      cases next with
      | done => rfl
      | forward path =>
        dsimp only
        cases hsite : ex'.site with
        | none => rfl
        | some s' => exact ih s' path false ex'

end PageServer.Site
