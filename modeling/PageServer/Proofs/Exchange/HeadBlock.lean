import PageServer.Proofs.Exchange.Calls
import PageServer.Proofs.Request.HeaderReading

/-!
# The head as a block of lines

A head whose texts have no control characters is sent as lines that are not
empty, and then an empty one. Whatever body follows, the block of the head ends
where the first empty line does.
-/

namespace PageServer.Request

/-- Bytes inside a line. -/
def IsLine (bytes : Bytes) : Prop :=
  bytes ≠ [] ∧ ∀ b ∈ bytes, b ≠ lineFeed ∧ b ≠ carriageReturn

/-- The end of a line: a line feed, before which a carriage return may stand. -/
inductive EndsLine : Bytes → Prop
  | feed : EndsLine [lineFeed]
  | returnFeed : EndsLine [carriageReturn, lineFeed]

/-- Lines, each with an end, and an empty one after them. -/
inductive IsBlock : Bytes → Prop
  | empty {e : Bytes} (he : EndsLine e) : IsBlock e
  | line {l e rest : Bytes} (hl : IsLine l) (he : EndsLine e) (h : IsBlock rest) :
      IsBlock (l ++ (e ++ rest))

/-- Lines, each ended by a carriage return and a line feed, and an empty one after
them. -/
def block (lines : List Bytes) : Bytes :=
  lines.flatMap (· ++ [carriageReturn, lineFeed]) ++ [carriageReturn, lineFeed]

namespace HeaderReader

theorem feed_inside {limit : Nat} {bytes : Bytes}
    (hbytes : ∀ b ∈ bytes, b ≠ lineFeed ∧ b ≠ carriageReturn) {taken : Bytes} {size : Nat}
    (hroom : size + bytes.length ≤ limit) (rest : Bytes) :
    feed limit ⟨.inLine, taken, size⟩ (bytes ++ rest) =
      feed limit ⟨.inLine, bytes.reverse ++ taken, size + bytes.length⟩ rest := by
  induction bytes generalizing taken size with
  | nil => rfl
  | cons b bytes ih =>
    obtain ⟨hfeed, hreturn⟩ := hbytes b List.mem_cons_self
    have hlimit : ¬ limit ≤ size := by
      rw [List.length_cons] at hroom
      omega
    have hrest : ∀ c ∈ bytes, c ≠ lineFeed ∧ c ≠ carriageReturn :=
      fun c hc => hbytes c (List.mem_cons_of_mem b hc)
    have hroom' : size + 1 + bytes.length ≤ limit := by
      rw [List.length_cons] at hroom
      omega
    rw [List.cons_append, feed, if_neg hlimit, step?_of_ne hfeed, if_neg fun h => hreturn h.1]
    simp only
    rw [ih hrest hroom']
    simp [Nat.add_assoc, Nat.add_comm 1]

theorem feed_end {e : Bytes} (he : EndsLine e) {limit : Nat} {taken : Bytes} {size : Nat}
    (hroom : size + e.length ≤ limit) (rest : Bytes) :
    feed limit ⟨.inLine, taken, size⟩ (e ++ rest) =
      feed limit ⟨.lineStart, e.reverse ++ taken, size + e.length⟩ rest := by
  have hfed : Place.step? .inLine lineFeed = some .lineStart := rfl
  have hreturned : Place.step? .inLine carriageReturn = some .inLine := rfl
  cases he with
  | feed =>
    rw [List.length_singleton] at hroom
    have hfirst : ¬ limit ≤ size := by omega
    rw [List.singleton_append, feed, if_neg hfirst, hfed]
    simp
  | returnFeed =>
    rw [List.length_cons, List.length_singleton] at hroom
    have hfirst : ¬ limit ≤ size := by omega
    have hsecond : ¬ limit ≤ size + 1 := by omega
    rw [List.cons_append, feed, if_neg hfirst, hreturned]
    simp only
    rw [List.singleton_append, feed, if_neg hsecond, hfed]
    simp

theorem feed_empty {e : Bytes} (he : EndsLine e) {limit : Nat} {taken : Bytes} {size : Nat}
    (hroom : size + e.length ≤ limit) :
    feed limit ⟨.lineStart, taken, size⟩ e = .complete (taken.reverse ++ e) := by
  have hfed : Place.step? .lineStart lineFeed = none := rfl
  have hreturned : Place.step? .lineStart carriageReturn = some .carriage := rfl
  have hended : Place.step? .carriage lineFeed = none := rfl
  cases he with
  | feed =>
    rw [List.length_singleton] at hroom
    have hfirst : ¬ limit ≤ size := by omega
    rw [feed, if_neg hfirst, hfed]
    simp
  | returnFeed =>
    rw [List.length_cons, List.length_singleton] at hroom
    have hfirst : ¬ limit ≤ size := by omega
    have hsecond : ¬ limit ≤ size + 1 := by omega
    rw [feed, if_neg hfirst, hreturned]
    simp only
    rw [feed, if_neg hsecond, hended]
    simp

theorem feed_line {limit : Nat} {line e : Bytes} (hline : IsLine line) (he : EndsLine e)
    {place : Place} {taken : Bytes} {size : Nat} (hroom : size + line.length + e.length ≤ limit)
    (rest : Bytes) :
    feed limit ⟨place, taken, size⟩ (line ++ (e ++ rest)) =
      feed limit ⟨.lineStart, (line ++ e).reverse ++ taken, size + line.length + e.length⟩ rest := by
  obtain ⟨hne, hbytes⟩ := hline
  cases line with
  | nil => exact absurd rfl hne
  | cons b bytes =>
    rw [List.length_cons] at hroom
    obtain ⟨hfeed, hreturn⟩ := hbytes b List.mem_cons_self
    have hrest : ∀ c ∈ bytes, c ≠ lineFeed ∧ c ≠ carriageReturn :=
      fun c hc => hbytes c (List.mem_cons_of_mem b hc)
    have hfirst : ¬ limit ≤ size := by omega
    rw [List.cons_append, feed, if_neg hfirst, step?_of_ne hfeed, if_neg fun h => hreturn h.1]
    simp only
    rw [feed_inside hrest (by omega), feed_end he (by omega)]
    simp [Nat.add_assoc, Nat.add_comm 1]

/-- From the start of a line on, a block is read to its last byte. -/
theorem feed_block {bytes : Bytes} (h : IsBlock bytes) {limit : Nat} {taken : Bytes} {size : Nat}
    (hroom : size + bytes.length ≤ limit) :
    feed limit ⟨.lineStart, taken, size⟩ bytes = .complete (taken.reverse ++ bytes) := by
  -- every line brings the reader back to the start of a line; the empty line then ends it
  induction h generalizing taken size with
  | empty he => exact feed_empty he hroom
  | line hl he h ih =>
    rw [List.length_append, List.length_append] at hroom
    rw [feed_line hl he (by omega), ih (by omega)]
    simp

end HeaderReader

/-- A block that begins with a line is the header of whatever begins with it. -/
theorem IsBlock.isHeaderOf {line e bytes : Bytes} (hline : IsLine line) (he : EndsLine e)
    (h : IsBlock bytes) (rest : Bytes) :
    IsHeaderOf (line ++ (e ++ bytes) ++ rest) (line ++ (e ++ bytes)) := by
  have hlength : line.length + e.length + bytes.length = (line ++ (e ++ bytes)).length := by
    simp [Nat.add_assoc]
  have hcomplete : HeaderReader.start.feed (line ++ (e ++ bytes)).length (line ++ (e ++ bytes)) =
      .complete (line ++ (e ++ bytes)) := by
    rw [HeaderReader.start, HeaderReader.feed_line hline he (by omega),
      HeaderReader.feed_block h (by omega)]
    simp
  have htells := (HeaderReader.hasRead_start (line ++ (e ++ bytes)).length).feed
    (line ++ (e ++ bytes) ++ rest)
  rw [HeaderReader.feed_append, hcomplete] at htells
  exact htells.1

theorem block_cons (line : Bytes) (lines : List Bytes) :
    block (line :: lines) = line ++ ([carriageReturn, lineFeed] ++ block lines) := by
  simp [block]

theorem isBlock_block {lines : List Bytes} (hlines : ∀ l ∈ lines, IsLine l) :
    IsBlock (block lines) := by
  induction lines with
  | nil => exact .empty .returnFeed
  | cons line lines ih =>
    rw [block_cons]
    apply IsBlock.line (hlines line List.mem_cons_self) .returnFeed
    exact ih fun l hl => hlines l (List.mem_cons_of_mem line hl)

theorem isHeaderOf_block {line : Bytes} {lines : List Bytes} (hline : IsLine line)
    (hlines : ∀ l ∈ lines, IsLine l) (rest : Bytes) :
    IsHeaderOf (block (line :: lines) ++ rest) (block (line :: lines)) := by
  rw [block_cons]
  exact IsBlock.isHeaderOf hline .returnFeed (isBlock_block hlines) rest

end PageServer.Request

namespace PageServer.Response

open Request (IsLine block IsHeaderOf lineFeed carriageReturn)

/-- No control character stands in the text. -/
def IsPlain (s : String) : Prop :=
  ∀ c ∈ s.toList, Text.isControl c = false

instance (s : String) : Decidable (IsPlain s) :=
  List.decidableBAll (fun c => Text.isControl c = false) s.toList

theorem isPlain_append {s t : String} : IsPlain (s ++ t) ↔ IsPlain s ∧ IsPlain t := by
  rw [IsPlain, String.toList_append]
  exact List.forall_mem_append

theorem isPlain_of_digits {cs : List Char} (h : ∀ c ∈ cs, c.isDigit = true) :
    IsPlain (String.ofList cs) := by
  intro c hc
  rw [String.toList_ofList] at hc
  have hdigit := h c hc
  simp [Char.isDigit, UInt32.le_iff_toNat_le] at hdigit
  simp [Text.isControl]
  omega

theorem isPlain_natText (n : Nat) : IsPlain (Decimal.natText n) :=
  isPlain_of_digits fun _ => Decimal.isDigit_of_mem_digits

theorem isLatin1_natText (n : Nat) : Text.IsLatin1 (Decimal.natText n) := by
  intro c hc
  rw [Decimal.natText, String.toList_ofList] at hc
  have hdigit := Decimal.isDigit_of_mem_digits hc
  simp [Char.isDigit, UInt32.le_iff_toNat_le] at hdigit
  change c.toNat < 256
  omega

theorem latin1Byte_of_plain {c : Char} (h : Text.isControl c = false) :
    Text.latin1Byte c ≠ lineFeed ∧ Text.latin1Byte c ≠ carriageReturn := by
  have hbreak {d : Char} (hd : Text.isControl d = true) : c ≠ d := by
    rintro rfl
    rw [hd] at h
    cases h
  constructor
  · exact mt (Text.latin1Byte_eq_iff (d := '\n') (by decide) (by decide)).mp (hbreak (by decide))
  · exact mt (Text.latin1Byte_eq_iff (d := '\r') (by decide) (by decide)).mp (hbreak (by decide))

theorem isLine_latin1Bytes {s : String} (hne : s ≠ "") (hs : IsPlain s) :
    IsLine (Text.latin1Bytes s) := by
  constructor
  · intro hnil
    apply hne
    simpa [Text.latin1Bytes] using hnil
  · intro b hb
    obtain ⟨c, hc, rfl⟩ := List.mem_map.mp hb
    exact latin1Byte_of_plain (hs c hc)

namespace Cookie

theorem isPlain_of_not_breaksOut {s : String} (h : s.toList.any breaksOut = false) :
    IsPlain s := by
  intro c hc
  have hbreaks := List.any_eq_false.mp h c hc
  simp only [breaksOut, Bool.or_eq_true, not_or] at hbreaks
  simpa using hbreaks.1.1

/-- What a valid cookie is made of cannot end a part of it. -/
theorem not_breaksOut_of_fault? {c : Cookie} (h : c.fault? = none) :
    ∀ field t, (field, some t) ∈ c.texts → t.toList.any breaksOut = false := by
  intro field t ht
  cases hany : t.toList.any breaksOut with
  | false => rfl
  | true =>
    have hfound : (c.texts.findSome? fun text =>
        text.2.bind fun t => if t.toList.any breaksOut then some (text.1, t) else none).isSome := by
      rw [List.findSome?_isSome_iff]
      refine ⟨(field, some t), ht, ?_⟩
      simp only [Option.bind_some, hany, if_true, Option.isSome_some]
    rw [fault?] at h
    simp only at h
    split at h
    · cases h
    · next hnone =>
      have hsame : (c.texts.findSome? fun text =>
          text.2.bind fun t => if t.toList.any breaksOut then some (text.1, t) else none) = none :=
        hnone
      rw [hsame] at hfound
      cases hfound

/-- What a valid cookie is made of can stand in a line. -/
theorem isPlain_of_fault? {c : Cookie} (h : c.fault? = none) :
    ∀ field t, (field, some t) ∈ c.texts → IsPlain t :=
  fun field t ht => isPlain_of_not_breaksOut (not_breaksOut_of_fault? h field t ht)

theorem isPlain_optional {label : String} (hlabel : IsPlain label) {text : Option String}
    (htext : ∀ t, text = some t → IsPlain t) : IsPlain (optional label text) := by
  cases text with
  | none => exact fun c hc => absurd hc (by simp [optional])
  | some t =>
    have hparts : optional label (some t) = "; " ++ label ++ "=" ++ t := rfl
    rw [hparts, isPlain_append, isPlain_append, isPlain_append]
    exact ⟨⟨⟨by decide, hlabel⟩, by decide⟩, htext t rfl⟩

theorem isPlain_text {c : Cookie} (h : c.fault? = none) : IsPlain c.text := by
  have htexts := isPlain_of_fault? h
  have hname : IsPlain c.name := htexts .cookieName c.name (by simp [texts])
  have hvalue : IsPlain c.value := htexts .cookieValue c.value (by simp [texts])
  have hdomain : ∀ t, c.domain = some t → IsPlain t := by
    intro t ht
    exact htexts .cookieDomain t (by simp [texts, ht])
  have hpath : ∀ t, c.path = some t → IsPlain t := by
    intro t ht
    exact htexts .cookiePath t (by simp [texts, ht])
  have hage : ∀ t, c.maxAge.map (fun n => Decimal.natText n.toNat) = some t → IsPlain t := by
    intro t ht
    obtain ⟨n, -, rfl⟩ := Option.map_eq_some_iff.mp ht
    exact isPlain_natText n.toNat
  have hhttp : IsPlain (if c.httpOnly then "; HttpOnly" else "") := by
    cases c.httpOnly <;> decide
  simp only [text, isPlain_append]
  refine ⟨⟨⟨⟨⟨⟨⟨hname, by decide⟩, hvalue⟩, by decide⟩, ?_⟩, ?_⟩, ?_⟩, hhttp⟩
  · exact isPlain_optional (by decide) hdomain
  · exact isPlain_optional (by decide) hpath
  · exact isPlain_optional (by decide) hage

end Cookie

namespace Head

/-- Nothing in the head can end one of its lines. -/
structure IsClean (h : Head) : Prop where
  reason : IsPlain h.reason
  mimeType : IsPlain h.mimeType
  cookies : ∀ c ∈ h.cookies, c.fault? = none

theorem isClean_initial {cookies : List Cookie} (h : ∀ c ∈ cookies, c.fault? = none) :
    (initial cookies).IsClean := by
  have hreason : IsPlain "OK" := by decide
  have hmime : IsPlain "text/html" := by decide
  exact ⟨hreason, hmime, h⟩

theorem isPlain_contentType {h : Head} (hh : h.IsClean) : IsPlain h.contentType := by
  rw [contentType]
  split
  · rw [isPlain_append, isPlain_append]
    refine ⟨⟨hh.mimeType, by decide⟩, ?_⟩
    cases h.encoding <;> decide
  · exact hh.mimeType

theorem IsClean.lines {h : Head} (hh : h.IsClean) : ∀ l ∈ h.lines, l ≠ "" ∧ IsPlain l := by
  have hstatus : IsPlain ("HTTP/1.1 " ++ Decimal.natText h.status.toNat ++ " " ++ h.reason) := by
    rw [isPlain_append, isPlain_append, isPlain_append]
    exact ⟨⟨⟨by decide, isPlain_natText _⟩, by decide⟩, hh.reason⟩
  have htype : IsPlain ("Content-Type: " ++ h.contentType) :=
    isPlain_append.mpr ⟨by decide, isPlain_contentType hh⟩
  intro l hl
  simp only [Head.lines, List.mem_append, List.mem_cons, List.not_mem_nil, or_false,
    Option.mem_toList, Option.map_eq_some_iff, List.mem_map] at hl
  rcases hl with ((rfl | rfl) | ⟨n, -, rfl⟩) | ⟨c, hc, rfl⟩
  · exact ⟨by simp, hstatus⟩
  · exact ⟨by simp, htype⟩
  · exact ⟨by simp, isPlain_append.mpr ⟨by decide, isPlain_natText _⟩⟩
  · exact ⟨by simp, isPlain_append.mpr ⟨by decide, Cookie.isPlain_text (hh.cookies c hc)⟩⟩

theorem bytes_eq_block (h : Head) : h.bytes = block (h.lines.map Text.latin1Bytes) := by
  have hend : lineEnd.toList.map Text.latin1Byte = [carriageReturn, lineFeed] := by decide
  rw [bytes, Text.latin1Bytes, text, String.toList_append, String.toList_join, List.map_append,
    hend, block, List.flatMap_map, List.flatMap_map, List.map_flatMap]
  simp only [String.toList_append, List.map_append, hend, Text.latin1Bytes]

/-- Whatever follows a clean head, its block is the header of it all. -/
theorem IsClean.isHeaderOf {h : Head} (hh : h.IsClean) (body : Bytes) :
    IsHeaderOf (h.bytes ++ body) h.bytes := by
  have hlines : ∀ l ∈ h.lines.map Text.latin1Bytes, IsLine l := by
    intro l hl
    obtain ⟨s, hs, rfl⟩ := List.mem_map.mp hl
    obtain ⟨hne, hplain⟩ := hh.lines s hs
    exact isLine_latin1Bytes hne hplain
  rw [bytes_eq_block]
  cases hmap : h.lines.map Text.latin1Bytes with
  | nil => simp [Head.lines] at hmap
  | cons line lines =>
    rw [hmap] at hlines
    exact Request.isHeaderOf_block (hlines line List.mem_cons_self)
      (fun l hl => hlines l (List.mem_cons_of_mem line hl)) body

end Head

end PageServer.Response

namespace PageServer.Exchange

open Response (Cookie Head IsPlain)

/-- How a call may change the head of an exchange. -/
def Call.Changes (h h' : Head) : Call → Prop
  | .statusCode code => h' = { h with status := code }
  | .statusText text => IsPlain text ∧ h' = { h with reason := text }
  | .mimeType mime => IsPlain mime ∧ h' = { h with mimeType := mime }
  | .encoding _ => ∃ e, h' = { h with encoding := e }
  | .contentLength n => h' = { h with contentLength := some n }
  | .cookie c => c.fault? = none ∧ h' = { h with cookies := h.cookies ++ [c] }
  | .write _ | .writeText _ | .flush | .finish | .setPersistent _ _ | .erasePersistent _
  | .setTemporary _ _ | .eraseTemporary _ => False

theorem lineFault?_eq_none_iff {field : Response.HeadField} {text : String} :
    lineFault? field text = none ↔ IsPlain text := by
  rw [lineFault?]
  simp [IsPlain]

theorem head_change (field : Response.HeadField) (fault : Option Response.Error)
    (f : Head → Head) (ex : Exchange) :
    (after (change field fault f) ex).head = ex.head ∨
      (fault = none ∧ (after (change field fault f) ex).head = f ex.head) := by
  rw [after_eq_endState]
  unfold change
  split
  · exact .inl rfl
  · cases fault with
    | some e => exact .inl rfl
    | none => exact .inr ⟨rfl, rfl⟩

theorem send_cases (data : Bytes) (ex : Exchange) :
    send data ex = .ok () { ex with sink := ex.sink.push data } ∨
      send data ex = .error .sinkFull { ex with sink := ex.sink.refuse } := by
  rw [send]
  split
  · exact .inl rfl
  · exact .inr rfl

theorem head_commit (ex : Exchange) : (endState (commit ex)).head = ex.head := by
  unfold commit
  split
  · rfl
  · rcases send_cases ex.head.bytes ex with h | h <;> rw [h] <;> rfl

theorem head_write (data : Bytes) (ex : Exchange) :
    (after (write data) ex).head = ex.head := by
  have hcommit := head_commit ex
  rw [after_eq_endState, write, bind_apply]
  cases hc : commit ex with
  | error e ex' =>
    rw [hc] at hcommit
    exact hcommit
  | ok u ex' =>
    rw [hc] at hcommit
    rcases send_cases data ex' with h | h <;> simp only [h] <;> exact hcommit

theorem Call.head_cases (c : Call) (ex : Exchange) :
    (after c.perform ex).head = ex.head ∨ c.Changes ex.head (after c.perform ex).head := by
  cases c with
  | statusCode code =>
    rw [perform, setStatusCode]
    exact (head_change _ _ _ ex).imp_right fun h => h.2
  | statusText text =>
    rw [perform, setStatusText]
    exact (head_change _ _ _ ex).imp_right fun h => ⟨lineFault?_eq_none_iff.mp h.1, h.2⟩
  | mimeType mime =>
    rw [perform, setMimeType]
    exact (head_change _ _ _ ex).imp_right fun h => ⟨lineFault?_eq_none_iff.mp h.1, h.2⟩
  | encoding label =>
    rw [perform, setEncoding]
    split
    · next e _ => exact (head_change _ _ _ ex).imp_right fun h => ⟨e, h.2⟩
    · exact (head_change _ _ _ ex).imp_right fun h => nomatch h.1
  | contentLength n =>
    rw [perform, setContentLength]
    exact (head_change _ _ _ ex).imp_right fun h => h.2
  | cookie c =>
    rw [perform, addCookie]
    exact (head_change _ _ _ ex).imp_right fun h => h
  | write data => exact .inl (head_write data ex)
  | writeText text => exact .inl (head_write _ ex)
  | finish =>
    left
    rw [after_eq_endState]
    exact head_commit ex
  | flush => exact .inl rfl
  | setPersistent key value => exact .inl rfl
  | erasePersistent key => exact .inl rfl
  | setTemporary key value => exact .inl rfl
  | eraseTemporary key => exact .inl rfl

theorem Call.Changes.isClean {c : Call} {h h' : Head} (hc : c.Changes h h') (hh : h.IsClean) :
    h'.IsClean := by
  cases c with
  | statusCode code =>
    obtain rfl := hc
    exact ⟨hh.reason, hh.mimeType, hh.cookies⟩
  | statusText text =>
    obtain ⟨htext, rfl⟩ := hc
    exact ⟨htext, hh.mimeType, hh.cookies⟩
  | mimeType mime =>
    obtain ⟨hmime, rfl⟩ := hc
    exact ⟨hh.reason, hmime, hh.cookies⟩
  | encoding label =>
    obtain ⟨e, rfl⟩ := hc
    exact ⟨hh.reason, hh.mimeType, hh.cookies⟩
  | contentLength n =>
    obtain rfl := hc
    exact ⟨hh.reason, hh.mimeType, hh.cookies⟩
  | cookie k =>
    obtain ⟨hk, rfl⟩ := hc
    refine ⟨hh.reason, hh.mimeType, ?_⟩
    intro k' hk'
    rcases List.mem_append.mp hk' with hk' | hk'
    · exact hh.cookies k' hk'
    · obtain rfl : k' = k := by simpa using hk'
      exact hk
  | _ => exact hc.elim

/-- A clean head stays clean. -/
theorem isClean_call (c : Call) {ex : Exchange} (h : ex.head.IsClean) :
    (after c.perform ex).head.IsClean := by
  rcases c.head_cases ex with heq | hchange
  · rw [heq]
    exact h
  · exact hchange.isClean h

theorem isClean_performAll (cs : List Call) {ex : Exchange} (h : ex.head.IsClean) :
    (performAll cs ex).head.IsClean := by
  induction cs generalizing ex with
  | nil => exact h
  | cons c cs ih => exact ih (isClean_call c h)

end PageServer.Exchange
