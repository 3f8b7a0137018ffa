import PageServer.Proofs.Exchange.FileSending
import PageServer.Proofs.Exchange.HeadLines

/-!
# Error pages and the announced length

An error page sets the status and the content type of its exchange anew. The
length stays as it was announced for the answer that failed, so the head of the
error page gives the length of the error page only if none was announced or the
one announced last happens to be the right one.
-/

namespace PageServer.Exchange

open Response (Cookie Head IsPlain)
open Request (IsLine block)
open Site (StaticFile)
open Text (latin1Bytes)

/-! ### What may come before an error page -/

/-- Something done with an exchange before it is given up. -/
inductive Attempt where
  | call (c : Call)
  /-- A file of which nothing could be read after it was announced. -/
  | brokenFile (f : StaticFile)

/-- The length that a call announces. -/
def Call.length? : Call → Option UInt64
  | .contentLength n => some n
  | _ => none

namespace Attempt

def run : Attempt → Exchange → Exchange
  | .call c => after c.perform
  | .brokenFile f => after (announce f)

def runAll (attempts : List Attempt) (ex : Exchange) : Exchange :=
  attempts.foldl (fun ex a => a.run ex) ex

/-- The length that an attempt announces unless it comes too late. -/
def length? : Attempt → Option UInt64
  | .call c => c.length?
  | .brokenFile f => if IsPlain f.mimeType then some (UInt64.ofNat f.content.length) else none

/-- The length announced last. -/
def lastLength? (attempts : List Attempt) : Option UInt64 :=
  (attempts.filterMap length?).getLast?

theorem lastLength?_cons (a : Attempt) (attempts : List Attempt) :
    lastLength? (a :: attempts) = (lastLength? attempts).or a.length? := by
  rw [lastLength?, lastLength?, List.filterMap_cons]
  cases a.length? with
  | none => exact (Option.or_none).symm
  | some n =>
    rw [List.getLast?_cons]
    cases (attempts.filterMap length?).getLast? <;> rfl

end Attempt

/-! ### Exchanges that are still open -/

/-- Over a sink that takes every write only what sends nothing leaves a head open. -/
theorem TakesAll.sameOutput_of_open {ex : Exchange} (h : TakesAll ex) {c : Call}
    (hopen : (after c.perform ex).committed = false) : SameOutput ex (after c.perform ex) := by
  rcases c.perform_cases ex with ⟨data, -, hw⟩ | ⟨-, hw⟩ | ⟨-, hs⟩
  · have hsent : (after c.perform ex).committed = true := by
      rw [after_eq_endState, hw, (h.accepts data).write, endState_ok, wrote, headSent]
      split
      · assumption
      · rfl
    rw [hopen] at hsent
    cases hsent
  · have hsent := h.committed_finish
    rw [after_eq_endState, finish, ← hw, ← after_eq_endState, hopen] at hsent
    cases hsent
  · exact hs

theorem contentLength_call {ex : Exchange} (hopen : ex.committed = false) (c : Call) :
    (after c.perform ex).head.contentLength = c.length?.or ex.head.contentLength := by
  rcases c.head_cases ex with heq | hchange
  · cases c with
    | contentLength n =>
      rw [after_eq_endState, Call.perform, setContentLength, change_of_open hopen]
      rfl
    | _ =>
      rw [heq]
      rfl
  · cases c with
    | contentLength n =>
      rw [hchange]
      rfl
    | statusCode code =>
      rw [hchange]
      rfl
    | statusText text =>
      rw [hchange.2]
      rfl
    | mimeType mime =>
      rw [hchange.2]
      rfl
    | encoding label =>
      obtain ⟨e, hencoding⟩ := hchange
      rw [hencoding]
      rfl
    | cookie k =>
      rw [hchange.2]
      rfl
    | _ => exact hchange.elim

/-- What an attempt leaves of an exchange that it leaves open. -/
structure Attempt.StaysOpen (a : Attempt) (ex : Exchange) : Prop where
  wasOpen : ex.committed = false
  sink : (a.run ex).sink = ex.sink
  contentLength : (a.run ex).head.contentLength = a.length?.or ex.head.contentLength

theorem TakesAll.staysOpen {ex : Exchange} (h : TakesAll ex) {a : Attempt}
    (hopen : (a.run ex).committed = false) : a.StaysOpen ex := by
  cases a with
  | call c =>
    have hsame := h.sameOutput_of_open hopen
    have hwas : ex.committed = false := hsame.committed.symm.trans hopen
    exact ⟨hwas, hsame.sink, contentLength_call hwas c⟩
  | brokenFile f =>
    rcases after_announce_cases f ex with ⟨hwas, hmime, hrun⟩ | ⟨hrefused, hrun⟩
    · refine ⟨hwas, by rw [Attempt.run, hrun]; rfl, ?_⟩
      rw [Attempt.run, hrun, Attempt.length?, if_pos hmime]
      rfl
    · rw [Attempt.run, hrun] at hopen
      have hmime : ¬ IsPlain f.mimeType := hrefused.resolve_left (Bool.eq_false_iff.mp hopen)
      refine ⟨hopen, by rw [Attempt.run, hrun], ?_⟩
      rw [Attempt.run, hrun, Attempt.length?, if_neg hmime]
      rfl

theorem takesAll_run (a : Attempt) {ex : Exchange} (h : TakesAll ex) : TakesAll (a.run ex) := by
  cases a with
  | call c => exact h.performAll [c]
  | brokenFile f =>
    rw [Attempt.run]
    rcases after_announce_cases f ex with ⟨-, -, hrun⟩ | ⟨-, hrun⟩ <;> rw [hrun] <;> exact h

theorem isClean_run (a : Attempt) {ex : Exchange} (h : ex.head.IsClean) :
    (a.run ex).head.IsClean := by
  cases a with
  | call c => exact isClean_call c h
  | brokenFile f =>
    rw [Attempt.run]
    rcases after_announce_cases f ex with ⟨-, hmime, hrun⟩ | ⟨-, hrun⟩
    · rw [hrun]
      exact ⟨h.reason, hmime, h.cookies⟩
    · rw [hrun]
      exact h

theorem Attempt.takesAll_runAll (attempts : List Attempt) {ex : Exchange} (h : TakesAll ex) :
    TakesAll (runAll attempts ex) := by
  induction attempts generalizing ex with
  | nil => exact h
  | cons a attempts ih => exact ih (takesAll_run a h)

theorem Attempt.isClean_runAll (attempts : List Attempt) {ex : Exchange} (h : ex.head.IsClean) :
    (runAll attempts ex).head.IsClean := by
  induction attempts generalizing ex with
  | nil => exact h
  | cons a attempts ih => exact ih (isClean_run a h)

/-- As long as the head is open nothing was sent, and the length is the one
announced last. -/
theorem TakesAll.open_runAll {attempts : List Attempt} {ex : Exchange} (h : TakesAll ex)
    (hopen : (Attempt.runAll attempts ex).committed = false) :
    ex.committed = false ∧ (Attempt.runAll attempts ex).sink = ex.sink ∧
      (Attempt.runAll attempts ex).head.contentLength =
        (Attempt.lastLength? attempts).or ex.head.contentLength := by
  induction attempts generalizing ex with
  | nil => exact ⟨hopen, rfl, rfl⟩
  | cons a attempts ih =>
    obtain ⟨hmid, hsink, hlength⟩ := ih (takesAll_run a h) hopen
    have hstep := h.staysOpen hmid
    refine ⟨hstep.wasOpen, hsink.trans hstep.sink, ?_⟩
    rw [Attempt.lastLength?_cons, Option.or_assoc, ← hstep.contentLength]
    exact hlength

/-! ### Lines for the length -/

def lengthLabel : Bytes :=
  latin1Bytes "Content-Length: "

/-- Of these lines those for the length give this one. -/
def GiveLength (lines : List Bytes) (n : Nat) : Prop :=
  ∀ value, lengthLabel ++ value ∈ lines → value = latin1Bytes (Decimal.natText n)

theorem latin1Bytes_natText_inj {m n : Nat}
    (h : latin1Bytes (Decimal.natText m) = latin1Bytes (Decimal.natText n)) : m = n := by
  have hchars := congrArg Text.ofLatin1 h
  rw [Text.ofLatin1_of_isLatin1 (Response.isLatin1_natText m),
    Text.ofLatin1_of_isLatin1 (Response.isLatin1_natText n), Decimal.natText, Decimal.natText,
    String.toList_ofList, String.toList_ofList] at hchars
  rw [← Decimal.ofDigits_digits m, hchars, Decimal.ofDigits_digits]

/-- A line that begins in another way than the label is not one for the length. -/
theorem ne_lengthLabel_append {start : String} (hstart : ¬ latin1Bytes start <+: lengthLabel)
    (hshort : (latin1Bytes start).length ≤ lengthLabel.length) (rest : String) (value : Bytes) :
    lengthLabel ++ value ≠ latin1Bytes (start ++ rest) := by
  intro heq
  rw [Text.latin1Bytes_append] at heq
  apply hstart
  exact List.prefix_of_prefix_length_le (heq ▸ List.prefix_append _ _)
    (List.prefix_append _ value) hshort

theorem lengthLabel_append_mem_iff {h : Head} {value : Bytes} :
    lengthLabel ++ value ∈ h.frontLines ++ h.cookies.map Cookie.line ↔
      ∃ n, h.contentLength = some n ∧ value = latin1Bytes (Decimal.natText n.toNat) := by
  have hstatus : lengthLabel ++ value ≠
      latin1Bytes ("HTTP/1.1 " ++ Decimal.natText h.status.toNat ++ " " ++ h.reason) := by
    rw [String.append_assoc, String.append_assoc]
    exact ne_lengthLabel_append (by decide) (by decide) _ value
  have htype : lengthLabel ++ value ≠ latin1Bytes ("Content-Type: " ++ h.contentType) :=
    ne_lengthLabel_append (by decide) (by decide) _ value
  have hcookie (c : Cookie) : c.line ≠ lengthLabel ++ value :=
    (ne_lengthLabel_append (by decide) (by decide) _ value).symm
  have hlength (n : UInt64) :
      latin1Bytes ("Content-Length: " ++ Decimal.natText n.toNat) = lengthLabel ++ value ↔
        value = latin1Bytes (Decimal.natText n.toNat) := by
    rw [Text.latin1Bytes_append, ← lengthLabel, List.append_cancel_left_eq, eq_comm]
  simp only [Head.frontLines, List.mem_append, List.mem_cons, List.not_mem_nil, or_false,
    Option.mem_toList, Option.map_eq_some_iff, List.mem_map, hstatus, htype, hcookie, hlength,
    false_or, and_false, exists_false]

theorem giveLength_lines_iff {h : Head} {n : Nat} :
    GiveLength (h.lines.map latin1Bytes) n ↔ ∀ m, h.contentLength = some m → m.toNat = n := by
  rw [GiveLength, Head.map_lines]
  constructor
  · intro hgive m hm
    exact latin1Bytes_natText_inj (hgive _ (lengthLabel_append_mem_iff.mpr ⟨m, hm, rfl⟩))
  · intro hlength value hvalue
    obtain ⟨m, hm, rfl⟩ := lengthLabel_append_mem_iff.mp hvalue
    rw [hlength m hm]

/-! ### The error page -/

/-- Whatever came before it, as long as the head is open an error page is sent as
one head and the page after it. The head gives a length just if one was announced,
and it is the one announced last; so it is the length of the page exactly if none
was announced or the last one happens to be that length. -/
theorem error_page_gives_length_iff (query persistent : Params) (cookies : List Cookie)
    (site : Option Site) (attempts : List Attempt) (status : UInt16) (message : String) :
    let ex := Attempt.runAll attempts (start .unlimited query persistent cookies site)
    let lines := (errorHead ex.head status).lines.map latin1Bytes
    let page := ex.head.encoding.encode (Response.errorPage status message)
    ex.committed = false →
    (∃ sent, sendError status message ex = .ok () sent ∧
      sent.sink.received = block lines ++ page) ∧
    ((∀ c ∈ cookies, c.fault? = none) → ∀ l ∈ lines, IsLine l) ∧
    (∀ value, lengthLabel ++ value ∈ lines ↔
      ∃ n, Attempt.lastLength? attempts = some n ∧
        value = latin1Bytes (Decimal.natText n.toNat)) ∧
    (GiveLength lines page.length ↔
      ∀ n, Attempt.lastLength? attempts = some n → n.toNat = page.length) := by
  intro ex lines page hopen
  have hstart := takesAll_start query persistent cookies site
  have htakes : TakesAll ex := Attempt.takesAll_runAll attempts hstart
  obtain ⟨-, hsink, hannounced⟩ := hstart.open_runAll hopen
  have hlength : (errorHead ex.head status).contentLength = Attempt.lastLength? attempts :=
    hannounced.trans Option.or_none
  refine ⟨?_, ?_, ?_, ?_⟩
  · have hnothing : (start .unlimited query persistent cookies site).sink.received = [] := rfl
    refine ⟨_, htakes.sendError hopen status message, ?_⟩
    rw [Sink.received_push, Sink.received_push, hsink, Head.bytes_eq_block, hnothing,
      List.nil_append]
    rfl
  · intro hcookies
    have hclean : ex.head.IsClean := Attempt.isClean_runAll attempts (Head.isClean_initial hcookies)
    have hlines := (isClean_errorHead hclean status).isLine
    rwa [← Head.map_lines] at hlines
  · intro value
    rw [← hlength, ← lengthLabel_append_mem_iff, ← Head.map_lines]
  · rw [giveLength_lines_iff, hlength]

/-- The file that could not be read happens to be as long as the page that says so. -/
theorem broken_file_of_right_length :
    let file : StaticFile := ⟨["notes.txt"], "text/plain", List.replicate 100 0⟩
    let attempts : List Attempt := [.call (.encoding "ISO-8859-1"), .brokenFile file]
    let ex := Attempt.runAll attempts (start .unlimited .empty .empty [] none)
    let lines := (errorHead ex.head 404).lines.map latin1Bytes
    let page := ex.head.encoding.encode (Response.errorPage 404 "gone")
    ex.committed = false ∧ ex.head.encoding = .latin1 ∧
      (∃ sent, sendError 404 "gone" ex = .ok () sent ∧
        sent.sink.received = block lines ++ page) ∧
      lengthLabel ++ latin1Bytes "100" ∈ lines ∧ GiveLength lines page.length := by
  intro file attempts ex lines page
  have hopen : ex.committed = false := by decide
  have hencoding : ex.head.encoding = .latin1 := by decide
  have hlast : Attempt.lastLength? attempts = some 100 := by decide
  have hpage : page.length = 100 := by
    change (ex.head.encoding.encode _).length = 100
    rw [hencoding]
    decide +kernel
  obtain ⟨hsent, -, hline, hgive⟩ :=
    error_page_gives_length_iff .empty .empty [] none attempts 404 "gone" hopen
  refine ⟨hopen, hencoding, hsent, (hline _).mpr ⟨100, hlast, by decide⟩, hgive.mpr ?_⟩
  intro n hn
  rw [hlast] at hn
  cases hn
  exact hpage.symm

/-- A length announced for what was not sent stays in the head of the error page. -/
theorem stale_length_on_error_page :
    let ex := Attempt.runAll [.call (.contentLength 3)] (start .unlimited .empty .empty [] none)
    let page := Text.utf8Bytes (Response.errorPage 404 "gone")
    ex.committed = false ∧ page.length = 100 ∧
      ∃ sent, sendError 404 "gone" ex = .ok () sent ∧
        sent.sink.received = block
          [latin1Bytes "HTTP/1.1 404 Not Found",
            latin1Bytes "Content-Type: text/html; charset=UTF-8",
            latin1Bytes "Content-Length: 3"] ++ page := by
  intro ex page
  have hopen : ex.committed = false := by decide
  have htakes : TakesAll ex := fun _ => rfl
  have hlength : page.length = 100 := by decide +kernel
  refine ⟨hopen, hlength, _, htakes.sendError hopen 404 "gone", ?_⟩
  decide +kernel

end PageServer.Exchange
