import PageServer.Proofs.Exchange.Refusals
import PageServer.Site.StaticFile

/-!
# Sending files

A file is announced by its type and its length, and then its pieces are written.
Over a sink that takes every write each piece comes right after what would be
sent if the exchange ended before it, so in the end all of the file follows the
head, which is there for an empty file as well.
-/

namespace PageServer.Exchange

open Response (Head IsPlain)
open Site (StaticFile)

/-! ### The announcement -/

/-- Sets the type and the length of a file that is to be sent. -/
def announce (f : StaticFile) : Action Response.Error Unit := do
  setMimeType f.mimeType
  setContentLength (UInt64.ofNat f.content.length)

theorem sendFile_eq (f : StaticFile) :
    sendFile f = announce f >>= fun _ => writeAll (Site.pieces Site.pieceSize f.content) :=
  (bind_assoc ..).symm

def announcing (f : StaticFile) (ex : Exchange) : Exchange :=
  { ex with
    head := { ex.head with
      mimeType := f.mimeType
      contentLength := some (UInt64.ofNat f.content.length) } }

theorem announce_of_open {f : StaticFile} (hmime : IsPlain f.mimeType) {ex : Exchange}
    (hopen : ex.committed = false) : announce f ex = .ok () (announcing f ex) := by
  let typed : Exchange := { ex with head := { ex.head with mimeType := f.mimeType } }
  have hfault : lineFault? .mimeType f.mimeType = none := lineFault?_eq_none_iff.mpr hmime
  have htyped : setMimeType f.mimeType ex = .ok () typed := by
    rw [setMimeType, hfault]
    exact change_of_open hopen _ _
  have hstill : typed.committed = false := hopen
  rw [announce, bind_apply, htyped]
  exact change_of_open hstill _ _

/-- A file is announced unless it comes too late or its type has control characters;
then nothing is announced. -/
theorem after_announce_cases (f : StaticFile) (ex : Exchange) :
    (ex.committed = false ∧ IsPlain f.mimeType ∧ after (announce f) ex = announcing f ex) ∨
      ((ex.committed = true ∨ ¬ IsPlain f.mimeType) ∧ after (announce f) ex = ex) := by
  have hrefused {e : Response.Error} (h : setMimeType f.mimeType ex = .error e ex) :
      after (announce f) ex = ex := by
    rw [after_eq_endState, announce, bind_apply, h]
    rfl
  rcases change_cases .mimeType (lineFault? .mimeType f.mimeType)
      (fun h => { h with mimeType := f.mimeType }) ex with
    ⟨hcommitted, hlate⟩ | ⟨-, e, hbreaks, hfault⟩ | ⟨hopen, hnone, -⟩
  · exact .inr ⟨.inl hcommitted, hrefused hlate⟩
  · have hmime : ¬ IsPlain f.mimeType := by
      intro hplain
      rw [lineFault?_eq_none_iff.mpr hplain] at hbreaks
      cases hbreaks
    exact .inr ⟨.inr hmime, hrefused hfault⟩
  · have hplain : IsPlain f.mimeType := lineFault?_eq_none_iff.mp hnone
    refine .inl ⟨hopen, hplain, ?_⟩
    rw [after_eq_endState, announce_of_open hplain hopen, endState_ok]

/-! ### The pieces -/

/-- What the sink has received once the exchange is finished. -/
def completed (ex : Exchange) : Bytes :=
  (after finish ex).sink.received

namespace TakesAll

variable {ex : Exchange}

theorem finish_eq (h : TakesAll ex) : finish ex = .ok () ex.headSent := by
  rw [finish, headSent]
  cases hc : ex.committed with
  | true => simp only [Exchange.commit, hc, if_true]
  | false => exact h.commit hc

theorem completed_eq (h : TakesAll ex) :
    ex.completed = ex.sink.received ++ if ex.committed then [] else ex.head.bytes := by
  rw [completed, after_eq_endState, h.finish_eq, endState_ok, received_headSent]

/-- A write comes after what would have been sent without it. -/
theorem write_completed (h : TakesAll ex) (data : Bytes) :
    ∃ ex', Exchange.write data ex = .ok () ex' ∧ TakesAll ex' ∧
      ex'.completed = ex.completed ++ data := by
  have hwrote : TakesAll (ex.wrote data) := by
    intro o
    have haccepts := accepts_write data ex
    rw [(h.accepts data).write] at haccepts
    rw [← h o, ← haccepts]
    rfl
  have hcommitted : (ex.wrote data).committed = true := by
    rw [wrote, headSent]
    split
    · assumption
    · rfl
  refine ⟨ex.wrote data, (h.accepts data).write, hwrote, ?_⟩
  rw [hwrote.completed_eq, hcommitted, received_wrote, h.completed_eq]
  exact List.append_nil _

theorem writeAll_completed (h : TakesAll ex) (pieces : List Bytes) :
    ∃ ex', writeAll pieces ex = .ok () ex' ∧ TakesAll ex' ∧
      ex'.completed = ex.completed ++ pieces.flatten := by
  induction pieces generalizing ex with
  | nil => exact ⟨ex, rfl, h, (List.append_nil _).symm⟩
  | cons piece rest ih =>
    obtain ⟨mid, hmid, htakes, hpiece⟩ := h.write_completed piece
    obtain ⟨ex', hrest, htakes', hcompleted⟩ := ih htakes
    refine ⟨ex', ?_, htakes', ?_⟩
    · rw [writeAll, bind_apply, hmid]
      exact hrest
    · rw [hcompleted, hpiece, List.flatten_cons, List.append_assoc]

/-- A file that is sent follows its head, whatever its length is. -/
theorem sendFile_completed (h : TakesAll ex) (hopen : ex.committed = false) {f : StaticFile}
    (hmime : IsPlain f.mimeType) :
    ∃ ex', sendFile f ex = .ok () ex' ∧ TakesAll ex' ∧
      ex'.completed = ex.sink.received ++ (announcing f ex).head.bytes ++ f.content := by
  have hannounced : TakesAll (announcing f ex) := h
  obtain ⟨ex', hsent, htakes, hcompleted⟩ :=
    hannounced.writeAll_completed (Site.pieces Site.pieceSize f.content)
  refine ⟨ex', ?_, htakes, ?_⟩
  · rw [sendFile_eq, bind_apply, announce_of_open hmime hopen]
    exact hsent
  · have hsize : Site.pieceSize ≠ 0 := by decide
    have hstill : (announcing f ex).committed = false := hopen
    rw [hcompleted, Site.flatten_pieces hsize, hannounced.completed_eq, hstill]
    rfl

end TakesAll

end PageServer.Exchange
