import Mathlib.Data.List.Basic
import PageServer.Proofs.Exchange.Accepted

/-!
# The lines of a head

Whatever texts a head was given, it is sent as one line for the status, one for
the content type, one for the length if there is one and one for each cookie.
No text reaches out of its line, and none of a cookie out of its place in it.
-/

namespace PageServer.Response

open Request (IsLine block)
open Text (latin1Char ofLatin1 latin1Bytes)

namespace Cookie

/-! ### What a cookie's text is made of -/

/-- A cookie's text consists of fields and of marks around and between them. -/
inductive Piece where
  | mark (s : String)
  | field (s : String)

def Piece.text : Piece → String
  | mark s => s
  | field s => s

def isDelimiter (c : Char) : Bool :=
  c == '"' || c == ';'

/-- The delimiters that are written with a piece; a field has none of its own. -/
def Piece.delimiters : Piece → List Char
  | mark s => s.toList.filter isDelimiter
  | field _ => []

def labelled (label : String) : Option String → List Piece
  | none => []
  | some v => [.mark ("; " ++ label ++ "="), .field v]

def pieces (c : Cookie) : List Piece :=
  [.field c.name, .mark "=\"", .field c.value, .mark "\""] ++
    labelled "Domain" c.domain ++ labelled "Path" c.path ++
    labelled "Max-Age" (c.maxAge.map fun n => Decimal.natText n.toNat) ++
    if c.httpOnly then [.mark "; HttpOnly"] else []

/-- The line that sets a cookie, as it is sent. -/
def line (c : Cookie) : Bytes :=
  latin1Bytes ("Set-Cookie: " ++ c.text)

theorem toList_optional (label : String) (text : Option String) :
    (optional label text).toList = (labelled label text).flatMap fun p => p.text.toList := by
  cases text with
  | none => rfl
  | some v =>
    have hparts : optional label (some v) = "; " ++ label ++ "=" ++ v := rfl
    rw [hparts, String.toList_append]
    simp [labelled, Piece.text]

theorem toList_text (c : Cookie) : c.text.toList = c.pieces.flatMap fun p => p.text.toList := by
  have hhttp : (if c.httpOnly then "; HttpOnly" else "").toList =
      (if c.httpOnly then [Piece.mark "; HttpOnly"] else []).flatMap fun p => p.text.toList := by
    cases c.httpOnly <;> rfl
  rw [text, pieces]
  simp only [String.toList_append, List.flatMap_append, toList_optional, hhttp]
  simp [Piece.text]

theorem isDelimiter_of_not_breaksOut {s : String} (h : s.toList.any breaksOut = false) :
    ∀ c ∈ s.toList, isDelimiter c = false := by
  intro c hc
  have hbreaks := List.any_eq_false.mp h c hc
  rw [breaksOut, Bool.or_assoc, Bool.or_eq_true, not_or] at hbreaks
  exact Bool.eq_false_iff.mpr hbreaks.2

theorem isDelimiter_natText (n : Nat) :
    ∀ c ∈ (Decimal.natText n).toList, isDelimiter c = false := by
  intro c hc
  rw [Decimal.natText, String.toList_ofList] at hc
  have hdigit := Decimal.isDigit_of_mem_digits hc
  apply Bool.eq_false_iff.mpr
  intro hd
  have hcases : c = '"' ∨ c = ';' := by simpa [isDelimiter] using hd
  rcases hcases with rfl | rfl <;> cases hdigit

theorem eq_some_of_mem_labelled {label s : String} {text : Option String}
    (h : Piece.field s ∈ labelled label text) : text = some s := by
  cases text with
  | none => cases h
  | some v =>
    obtain rfl : s = v := by simpa [labelled] using h
    rfl

/-- No field of a valid cookie holds a delimiter. -/
theorem isDelimiter_field {c : Cookie} (h : c.fault? = none) {s : String}
    (hs : Piece.field s ∈ c.pieces) : ∀ x ∈ s.toList, isDelimiter x = false := by
  have htexts (field : HeadField) (hfield : (field, some s) ∈ c.texts) :
      ∀ x ∈ s.toList, isDelimiter x = false := by
    apply isDelimiter_of_not_breaksOut
    exact not_breaksOut_of_fault? h field s hfield
  have hhttp : Piece.field s ∉ if c.httpOnly then [Piece.mark "; HttpOnly"] else [] := by
    cases c.httpOnly <;> simp
  rw [pieces, List.mem_append, List.mem_append, List.mem_append, List.mem_append] at hs
  rcases hs with (((hquoted | hdomain) | hpath) | hage) | hlast
  · have hcases : s = c.name ∨ s = c.value := by simpa using hquoted
    rcases hcases with rfl | rfl
    · exact htexts .cookieName (by simp [texts])
    · exact htexts .cookieValue (by simp [texts])
  · apply htexts .cookieDomain
    simp [texts, eq_some_of_mem_labelled hdomain]
  · apply htexts .cookiePath
    simp [texts, eq_some_of_mem_labelled hpath]
  · obtain ⟨n, -, rfl⟩ := Option.map_eq_some_iff.mp (eq_some_of_mem_labelled hage)
    exact isDelimiter_natText n.toNat
  · exact absurd hlast hhttp

/-! ### A cookie on its line -/

theorem isDelimiter_latin1Char (c : Char) : isDelimiter (latin1Char c) = isDelimiter c := by
  rw [latin1Char]
  split
  · rfl
  · next hbig =>
    symm
    apply Bool.eq_false_iff.mpr
    intro hc
    have hcases : c = '"' ∨ c = ';' := by simpa [isDelimiter] using hc
    rcases hcases with rfl | rfl <;> exact hbig (by decide)

theorem latin1Char_of_isDelimiter {c : Char} (h : isDelimiter c = true) : latin1Char c = c := by
  have hcases : c = '"' ∨ c = ';' := by simpa [isDelimiter] using h
  rcases hcases with rfl | rfl <;> rfl

/-- What the encoding replaces is no delimiter and becomes none. -/
theorem filter_isDelimiter_map (cs : List Char) :
    (cs.map latin1Char).filter isDelimiter = cs.filter isDelimiter := by
  rw [List.filter_map]
  have hsame : isDelimiter ∘ latin1Char = isDelimiter := funext isDelimiter_latin1Char
  rw [hsame]
  calc
    _ = (cs.filter isDelimiter).map id := by
      apply List.map_congr_left
      intro c hc
      exact latin1Char_of_isDelimiter (List.mem_filter.mp hc).2
    _ = cs.filter isDelimiter := List.map_id _

theorem ofLatin1_line (c : Cookie) :
    ofLatin1 c.line = "Set-Cookie: ".toList ++ c.text.toList.map latin1Char := by
  rw [line, Text.ofLatin1_latin1Bytes, String.toList_append, List.map_append]
  rfl

/-- The delimiters on the line of a valid cookie are those of its marks. -/
theorem filter_isDelimiter_line {c : Cookie} (h : c.fault? = none) :
    (ofLatin1 c.line).filter isDelimiter = c.pieces.flatMap Piece.delimiters := by
  have hlabel : "Set-Cookie: ".toList.filter isDelimiter = [] := by decide
  rw [ofLatin1_line, List.filter_append, hlabel, List.nil_append, filter_isDelimiter_map,
    toList_text, List.filter_flatMap]
  apply List.flatMap_congr
  intro p hp
  cases p with
  | mark s => rfl
  | field s =>
    apply List.filter_eq_nil_iff.mpr
    intro x hx
    rw [isDelimiter_field h hp x hx]
    exact Bool.false_ne_true

end Cookie

namespace Head

/-- The lines before those of the cookies. -/
def frontLines (h : Head) : List Bytes :=
  [latin1Bytes ("HTTP/1.1 " ++ Decimal.natText h.status.toNat ++ " " ++ h.reason),
    latin1Bytes ("Content-Type: " ++ h.contentType)] ++
  (h.contentLength.map fun n => latin1Bytes ("Content-Length: " ++ Decimal.natText n.toNat)).toList

theorem map_lines (h : Head) :
    h.lines.map latin1Bytes = h.frontLines ++ h.cookies.map Cookie.line := by
  rw [lines, frontLines, List.map_append, List.map_append, List.map_map]
  cases h.contentLength <;> rfl

theorem length_frontLines (h : Head) :
    h.frontLines.length = 2 + if h.contentLength.isSome then 1 else 0 := by
  rw [frontLines, List.length_append]
  cases h.contentLength <;> rfl

theorem not_prefix_latin1Bytes {s : String} (t : String) {c : Char} (hs : s.toList.head? = some c)
    (hc : Text.latin1Byte 'S' ≠ Text.latin1Byte c) :
    ¬ latin1Bytes "Set-Cookie: " <+: latin1Bytes (s ++ t) := by
  obtain ⟨cs, hcs⟩ := List.head?_eq_some_iff.mp hs
  intro hprefix
  rw [latin1Bytes, latin1Bytes, String.toList_append, hcs] at hprefix
  exact hc (List.cons_prefix_cons.mp hprefix).1

/-- No line before those of the cookies is one that sets a cookie. -/
theorem not_prefix_frontLines (h : Head) :
    ∀ l ∈ h.frontLines, ¬ latin1Bytes "Set-Cookie: " <+: l := by
  intro l hl
  simp only [frontLines, List.mem_append, List.mem_cons, List.not_mem_nil, or_false,
    Option.mem_toList, Option.map_eq_some_iff] at hl
  rcases hl with (rfl | rfl) | ⟨n, -, rfl⟩
  · rw [String.append_assoc, String.append_assoc]
    exact not_prefix_latin1Bytes _ (c := 'H') (by decide) (by decide)
  · exact not_prefix_latin1Bytes _ (c := 'C') (by decide) (by decide)
  · exact not_prefix_latin1Bytes _ (c := 'C') (by decide) (by decide)

theorem IsClean.isLine {h : Head} (hh : h.IsClean) :
    ∀ l ∈ h.frontLines ++ h.cookies.map Cookie.line, IsLine l := by
  rw [← map_lines]
  intro l hl
  obtain ⟨s, hs, rfl⟩ := List.mem_map.mp hl
  obtain ⟨hne, hplain⟩ := hh.lines s hs
  exact isLine_latin1Bytes hne hplain

end Head

end PageServer.Response

namespace PageServer.Exchange

open Response (Cookie Head)
open Request (IsLine block)
open Text (latin1Char ofLatin1 latin1Bytes)

/-- The calls that only set the head. -/
def Call.SetsHead : Call → Prop
  | .statusCode _ | .statusText _ | .mimeType _ | .encoding _ | .contentLength _ | .cookie _ => True
  | _ => False

/-- The cookie that a call adds unless the head was sent. -/
def Call.validCookie? : Call → Option Cookie
  | .cookie c => if c.fault? = none then some c else none
  | _ => none

/-- Each of these calls is one change of the head, and only one that is not at
fault touches the cookies. -/
theorem Call.SetsHead.perform_eq {c : Call} (hc : c.SetsHead) :
    ∃ field fault f, c.perform = change field fault f ∧
      (fault = none → ∀ h, (f h).cookies = h.cookies ++ c.validCookie?.toList) ∧
      (fault ≠ none → c.validCookie? = none) := by
  have hnone (f : Head → Head) (hf : ∀ h, (f h).cookies = h.cookies) (h : Head) :
      (f h).cookies = h.cookies ++ (none : Option Cookie).toList := by
    rw [hf]
    exact (List.append_nil _).symm
  cases c with
  | statusCode code =>
    rw [perform, setStatusCode]
    exact ⟨_, _, _, rfl, fun _ => hnone _ fun _ => rfl, fun _ => rfl⟩
  | statusText text =>
    rw [perform, setStatusText]
    exact ⟨_, _, _, rfl, fun _ => hnone _ fun _ => rfl, fun _ => rfl⟩
  | mimeType mime =>
    rw [perform, setMimeType]
    exact ⟨_, _, _, rfl, fun _ => hnone _ fun _ => rfl, fun _ => rfl⟩
  | contentLength n =>
    rw [perform, setContentLength]
    exact ⟨_, _, _, rfl, fun _ => hnone _ fun _ => rfl, fun _ => rfl⟩
  | encoding label =>
    rw [perform, setEncoding]
    split
    · exact ⟨_, _, _, rfl, fun _ => hnone _ fun _ => rfl, fun _ => rfl⟩
    · exact ⟨_, _, _, rfl, fun _ => hnone _ fun _ => rfl, fun _ => rfl⟩
  | cookie c =>
    rw [perform, addCookie]
    refine ⟨_, _, _, rfl, ?_, ?_⟩
    · intro hvalid h
      simp [validCookie?, hvalid]
    · intro hinvalid
      exact if_neg hinvalid
  | _ => cases hc

theorem cookies_call {c : Call} (hc : c.SetsHead) {ex : Exchange} (hopen : ex.committed = false) :
    (after c.perform ex).committed = false ∧
      (after c.perform ex).head.cookies = ex.head.cookies ++ c.validCookie?.toList := by
  obtain ⟨field, fault, f, hperform, hvalid, hinvalid⟩ := hc.perform_eq
  rw [hperform]
  constructor
  · rw [(sameOutput_change field fault f ex).committed, hopen]
  · cases hfault : fault with
    | none =>
      rw [after_eq_endState, change_of_open hopen]
      exact hvalid hfault ex.head
    | some e =>
      rw [hinvalid (by simp [hfault])]
      rcases head_change field (some e) f ex with h | ⟨hnone, -⟩
      · rw [h]
        exact (List.append_nil _).symm
      · cases hnone

/-- Setting the head adds the valid ones among the cookies, in order. -/
theorem cookies_performAll {cs : List Call} (hcs : ∀ c ∈ cs, c.SetsHead) {ex : Exchange}
    (hopen : ex.committed = false) :
    (performAll cs ex).head.cookies = ex.head.cookies ++ cs.filterMap Call.validCookie? := by
  induction cs generalizing ex with
  | nil => exact (List.append_nil _).symm
  | cons c cs ih =>
    obtain ⟨hopen', hcookies⟩ := cookies_call (hcs c List.mem_cons_self) hopen
    have hrest := ih (fun d hd => hcs d (List.mem_cons_of_mem c hd)) hopen'
    rw [performAll, hrest, hcookies, List.filterMap_cons, List.append_assoc]
    cases c.validCookie? <;> rfl

/-- However the head of a new exchange was set, it is sent as lines that are not
empty and that nothing else breaks: two, one more if a length is set, and one for
each cookie. A cookie's line is its text with a question mark for what the
encoding lacks, and the only delimiters on it are those around its fields. -/
theorem head_sent_in_unbroken_lines (sink : Sink) (query persistent : Params)
    (cookies : List Cookie) (hcookies : ∀ c ∈ cookies, c.fault? = none) (site : Option Site)
    (calls : List Call) :
    let first := start sink query persistent cookies site
    let h := (performAll calls first).head
    ∃ front : List Bytes,
      h.bytes = block (front ++ h.cookies.map Cookie.line) ∧
      front.length = (2 + if h.contentLength.isSome then 1 else 0) ∧
      (∀ l ∈ front ++ h.cookies.map Cookie.line, IsLine l) ∧
      (∀ l ∈ front, ¬ latin1Bytes "Set-Cookie: " <+: l) ∧
      (∀ c ∈ h.cookies,
        ofLatin1 c.line = "Set-Cookie: ".toList ++ c.text.toList.map latin1Char ∧
        (c.text.toList = c.pieces.flatMap fun p => p.text.toList) ∧
        (ofLatin1 c.line).filter Cookie.isDelimiter = c.pieces.flatMap Cookie.Piece.delimiters) ∧
      ((∀ c ∈ calls, c.SetsHead) →
        h.cookies = cookies ++ calls.filterMap Call.validCookie?) := by
  intro first h
  have hclean : h.IsClean := by
    apply isClean_performAll
    exact Head.isClean_initial hcookies
  refine ⟨h.frontLines, ?_, h.length_frontLines, hclean.isLine, h.not_prefix_frontLines, ?_, ?_⟩
  · rw [Head.bytes_eq_block, Head.map_lines]
  · intro c hc
    exact ⟨c.ofLatin1_line, c.toList_text, Cookie.filter_isDelimiter_line (hclean.cookies c hc)⟩
  · intro hcalls
    exact cookies_performAll hcalls rfl

theorem refused_breaks_leave_four_lines :
    let session : Cookie := ⟨"sid", "é€", some "localhost", some "/", some 60, true⟩
    let calls : List Call :=
      [.mimeType "text/html\r\nX: y", .contentLength 3, .cookie (.plain "a" "b\"; c")]
    let h := (performAll calls (start .unlimited .empty .empty [session] none)).head
    (∀ c ∈ [session], c.fault? = none) ∧ ∃ front : List Bytes,
      h.bytes = block (front ++ [session.line]) ∧ front.length = 3 ∧
        ∀ l ∈ front ++ [session.line], IsLine l := by
  intro session calls h
  have hvalid : ∀ c ∈ [session], c.fault? = none := by decide
  have hcookies : h.cookies = [session] := by decide
  have hlength : h.contentLength = some 3 := by decide
  obtain ⟨front, hbytes, hfront, hlines, -⟩ :=
    head_sent_in_unbroken_lines .unlimited .empty .empty [session] hvalid none calls
  change h.bytes = block (front ++ h.cookies.map Cookie.line) at hbytes
  change front.length = (2 + if h.contentLength.isSome then 1 else 0) at hfront
  change ∀ l ∈ front ++ h.cookies.map Cookie.line, IsLine l at hlines
  rw [hcookies] at hbytes hlines
  rw [hlength] at hfront
  exact ⟨hvalid, front, hbytes, hfront, hlines⟩

end PageServer.Exchange
