import PageServer.Proofs.Template.Calls
import PageServer.Site.Dispatch

/-!
# The calls of a dispatch

Whatever answers a path, a handler, a template or a static file, and however
many pages lead to one another: of the head only the content type and length are
set, and no cookie and no status.
-/

namespace PageServer

/-- The calls that answering a path may make. -/
def Exchange.Call.IsOfPage : Exchange.Call → Prop
  | .mimeType _ | .contentLength _ | .write _ | .writeText _ | .setPersistent _ _
  | .erasePersistent _ | .setTemporary _ _ | .eraseTemporary _ => True
  | .statusCode _ | .statusText _ | .encoding _ | .cookie _ | .flush | .finish => False

theorem Exchange.Call.IsOfTemplate.isOfPage {c : Exchange.Call} (h : c.IsOfTemplate) :
    c.IsOfPage := by
  cases c with
  | mimeType mime => trivial
  | writeText text => trivial
  | setPersistent key value => trivial
  | erasePersistent key => trivial
  | setTemporary key value => trivial
  | eraseTemporary key => trivial
  | _ => exact h.elim

namespace Site

open Exchange (Action Call ConsistsOf)

/-- An action that consists of calls of a page. -/
abbrev PageCalls {ε α : Type} (act : Action ε α) : Prop :=
  ConsistsOf Call.IsOfPage id act

theorem pageCalls_setMimeType (mime : String) : PageCalls (Exchange.setMimeType mime) :=
  ConsistsOf.call (c := .mimeType mime) trivial

theorem pageCalls_setContentLength (n : UInt64) : PageCalls (Exchange.setContentLength n) :=
  ConsistsOf.call (c := .contentLength n) trivial

theorem pageCalls_write (data : Bytes) : PageCalls (Exchange.write data) :=
  ConsistsOf.call (c := .write data) trivial

theorem pageCalls_writeText (text : String) : PageCalls (Exchange.writeText text) :=
  ConsistsOf.call (c := .writeText text) trivial

/-! ### Handlers -/

theorem pageCalls_answering {act : Action Response.Error Unit} (h : PageCalls act) :
    PageCalls (Handler.answering act) :=
  .bind (.adaptExcept _ h) fun _ => .pure _

theorem pageCalls_answerWith (page : String) : PageCalls (Handler.answerWith page) :=
  .bind (pageCalls_setMimeType _) fun _ => pageCalls_writeText page

theorem pageCalls_setPersistent {ε : Type} (key value : String) :
    PageCalls (Exchange.modifying (ε := ε) (Exchange.setPersistent key value)) := by
  intro ex
  refine ⟨[.setPersistent key value], ?_, rfl⟩
  simp [Call.IsOfPage]

theorem pageCalls_setTemporary {ε : Type} (key value : String) :
    PageCalls (Exchange.modifying (ε := ε) (Exchange.setTemporary key value)) := by
  intro ex
  refine ⟨[.setTemporary key value], ?_, rfl⟩
  simp [Call.IsOfPage]

theorem pageCalls_rememberColor {ε : Type} (r : Page.ColorRequest) :
    PageCalls (Exchange.modifying (ε := ε) (Handler.rememberColor r)) := by
  cases r with
  | color digits => exact pageCalls_setPersistent _ _
  | invalid text => exact .of_unchanged fun _ => rfl
  | missing => exact .of_unchanged fun _ => rfl

theorem pageCalls_rememberSum {ε : Type} (a b sum : Int64) :
    PageCalls (Exchange.modifying (ε := ε) (Handler.rememberSum a b sum)) := by
  intro ex
  let image := if sum.toInt % 2 = 0 then "even.png" else "odd.png"
  refine ⟨[("varA", Decimal.intText a.toInt), ("varB", Decimal.intText b.toInt),
    ("zbroj", Decimal.intText sum.toInt), ("imgName", image)].map
      (fun p => .setTemporary p.1 p.2), ?_, rfl⟩
  intro c hc
  obtain ⟨p, -, rfl⟩ := List.mem_map.mp hc
  trivial

theorem pageCalls_handler (h : Handler) : PageCalls h.run := by
  cases h with
  | hello => exact .bind .get fun _ => pageCalls_answering (pageCalls_answerWith _)
  | echoParams => exact .bind .get fun _ => pageCalls_answering (pageCalls_answerWith _)
  | bgColor =>
    exact .bind .get fun _ => pageCalls_answering (.bind (pageCalls_setMimeType _) fun _ =>
      .bind (pageCalls_rememberColor _) fun _ => pageCalls_writeText _)
  | sum =>
    refine .bind .get fun ex => ?_
    dsimp only
    split
    · exact .throw _
    · exact .bind (pageCalls_rememberSum _ _ _) fun _ => .pure _
  | home =>
    exact .bind .get fun _ => .bind (pageCalls_setTemporary _ _) fun _ => .pure _

/-! ### Static files -/

/-- What writing has in common with setting the type and the length, sending a
file has. -/
theorem sendFile_of_sequential {P : {α : Type} → Action Response.Error α → Prop}
    (h : Sequential P) (htype : ∀ mime, P (Exchange.setMimeType mime))
    (hlength : ∀ n, P (Exchange.setContentLength n)) (hwrite : ∀ data, P (Exchange.write data))
    (f : StaticFile) : P (Exchange.sendFile f) := by
  have hall (pieces : List Bytes) : P (Exchange.writeAll pieces) := by
    induction pieces with
    | nil => exact h.pure ()
    | cons piece rest ih => exact h.bind (hwrite piece) fun _ => ih
  exact h.bind (htype _) fun _ => h.bind (hlength _) fun _ => hall _

theorem pageCalls_sendFile (f : StaticFile) : PageCalls (Exchange.sendFile f) :=
  sendFile_of_sequential ConsistsOf.sequential pageCalls_setMimeType pageCalls_setContentLength
    pageCalls_write f

/-! ### Dispatch -/

theorem pageCalls_serve (s : Site) (iterations : Nat) (t : Target) :
    PageCalls (s.serve iterations t) := by
  cases t with
  | handler h label => exact .adaptExcept _ (pageCalls_handler h)
  | template names path =>
    rw [serve]
    split
    · exact .throw _
    · next d _ =>
      exact .bind (.adaptExcept _ ((Template.consistsOf_render d iterations).mono
        fun _ h => h.isOfPage)) fun _ => .pure _
  | staticFile names path =>
    rw [serve]
    split
    · exact .throw _
    · next f _ => exact .bind (.adaptExcept _ (pageCalls_sendFile f)) fun _ => .pure _

theorem pageCalls_visit (s : Site) (iterations : Nat) (path : String) (direct : Bool) :
    PageCalls (s.visit iterations path direct) := by
  rw [visit]
  split
  · exact .throw _
  · exact pageCalls_serve s iterations _

theorem pageCalls_dispatchWithin (iterations pages : Nat) (s : Site) (path : String)
    (direct : Bool) : PageCalls (dispatchWithin iterations pages s path direct) := by
  -- on the pages that may still follow; each is of the site the exchange has by then
  induction pages generalizing s path direct with
  | zero => exact .throw _
  | succ pages ih =>
    rw [dispatchWithin]
    refine .bind (pageCalls_visit s iterations path direct) fun next => ?_
    cases next with
    | done => exact .pure ()
    | forward path =>
      refine .bind .get fun ex => ?_
      split
      · exact .throw _
      · next s' _ => exact ih s' path false

theorem pageCalls_dispatch (s : Site) (bounds : Bounds) (path : String) (direct : Bool) :
    PageCalls (s.dispatch bounds path direct) :=
  pageCalls_dispatchWithin _ _ s path direct

end Site

end PageServer
