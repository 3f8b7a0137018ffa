import Mathlib.Data.List.Basic
import PageServer.Proofs.Request.Lines

/-!
# Reading cookies

A block of lines is read as these lines, and a cookie field that was put
together from pairs as the names and values in them. So a request with one
cookie field, whatever else it says, has the cookies that were put there.
-/

namespace PageServer.Request

open Text (latin1Bytes ofLatin1 splitBy)

/-! ### Lines -/

theorem splitBy_block {lines : List Bytes} (hlines : ∀ l ∈ lines, IsLine l) :
    splitBy (· == lineFeed) (block lines) =
      lines.map (· ++ [carriageReturn]) ++ [[carriageReturn], []] := by
  have hend : splitBy (· == lineFeed) ([carriageReturn, lineFeed] : Bytes) =
      [[carriageReturn], []] := by decide
  induction lines with
  | nil => exact hend
  | cons l lines ih =>
    have hrest := ih fun k hk => hlines k (List.mem_cons_of_mem l hk)
    have hline : ∀ b ∈ l ++ [carriageReturn], (b == lineFeed) = false := by
      intro b hb
      rcases List.mem_append.mp hb with hb | hb
      · exact beq_eq_false_iff_ne.mpr ((hlines l List.mem_cons_self).2 b hb).1
      · obtain rfl := List.mem_singleton.mp hb
        decide
    have hblock : block (l :: lines) = (l ++ [carriageReturn]) ++ lineFeed :: block lines := by
      simp [block]
    rw [hblock, Text.splitBy_append_cons (p := (· == lineFeed)) rfl, Text.splitBy_eq_self hline,
      hrest]
    rfl

/-- A line of a header as it is read. -/
def lineText (line : Bytes) : String :=
  String.ofList (ofLatin1 line)

theorem headerLines_block {line : Bytes} {fields : List Bytes}
    (hlines : ∀ l ∈ line :: fields, IsLine l)
    (hfields : ∀ l ∈ fields, continues (ofLatin1 l) = false) :
    headerLines (block (line :: fields)) = (line :: fields).map lineText := by
  have hfolded := foldl_addLine (List.forall_mem_map.mpr hfields) [ofLatin1 line]
  rw [(laysOut_block hlines).headerLines_eq, List.map_cons, List.foldl_cons, addLine, hfolded]
  simp [lineText]

/-- A block of lines that begins with a request line is a request. -/
theorem parse_block {line : Bytes} {fields : List Bytes} {target : String} {version : Version}
    (hlines : ∀ l ∈ line :: fields, IsLine l)
    (hfields : ∀ l ∈ fields, continues (ofLatin1 l) = false)
    (hline : parseLine (lineText line) = .ok (target, version)) :
    parse (block (line :: fields)) =
      .ok ⟨target, version, fields.filterMap fun l => parseField? (lineText l)⟩ := by
  simp only [parse, headerLines_block hlines hfields, List.map_cons, List.headD_cons, hline]
  simp [bind, Except.bind, pure, Except.pure, List.filterMap_map]

/-! ### Pairs -/

/-- A pair as it stands in a cookie field. -/
def pairText (name value : List Char) : List Char :=
  name ++ "=\"".toList ++ value ++ ['"']

/-- A name and a value that a pair can be put together from. -/
structure IsPair (name value : List Char) : Prop where
  nonempty : name ≠ []
  first : ∀ c, name.head? = some c → Text.isBlank c = false
  last : ∀ c, name.getLast? = some c → Text.isBlank c = false
  unassigned : '=' ∉ name
  name_undelimited : ';' ∉ name
  value_undelimited : ';' ∉ value

theorem IsPair.trimChars_pairText {name value : List Char} (h : IsPair name value) :
    Text.trimChars (pairText name value) = pairText name value := by
  apply Text.trimChars_eq_self
  · intro c hc
    apply h.first c
    cases name with
    | nil => exact absurd rfl h.nonempty
    | cons d name => exact hc
  · intro c hc
    rw [pairText, List.getLast?_concat] at hc
    obtain rfl := Option.some.inj hc
    decide

theorem IsPair.cutBy?_pairText {name value : List Char} (h : IsPair name value) :
    Text.cutBy? (· == '=') (pairText name value) = some (name, '"' :: value ++ ['"']) := by
  have htext : pairText name value = name ++ '=' :: ('"' :: value ++ ['"']) := by
    simp [pairText]
  rw [htext]
  exact Text.cutBy?_append_cons h.unassigned _

theorem unquote_quoted (value : List Char) : unquote ('"' :: value ++ ['"']) = value := by
  simp [unquote]

theorem trimChars_quoted (value : List Char) :
    Text.trimChars ('"' :: value ++ ['"']) = '"' :: value ++ ['"'] := by
  apply Text.trimChars_eq_self
  · intro c hc
    obtain rfl := Option.some.inj hc
    decide
  · intro c hc
    rw [List.getLast?_concat] at hc
    obtain rfl := Option.some.inj hc
    decide

theorem IsPair.cookiePair?_pairText {name value : List Char} (h : IsPair name value) :
    cookiePair? (pairText name value) = some (String.ofList name, String.ofList value) := by
  have hname : Text.trimChars name = name := Text.trimChars_eq_self h.first h.last
  have hnonempty : name.isEmpty = false := by
    simpa using h.nonempty
  simp only [cookiePair?, h.trimChars_pairText, h.cutBy?_pairText, Option.getD_some, hname,
    hnonempty, trimChars_quoted, unquote_quoted]
  rfl

theorem cookiePair?_cons_of_isBlank {c : Char} (hc : Text.isBlank c = true) (pair : List Char) :
    cookiePair? (c :: pair) = cookiePair? pair := by
  rw [cookiePair?, cookiePair?, Text.trimChars_cons_of_isBlank hc]

theorem IsPair.not_mem_pairText {name value : List Char} (h : IsPair name value) :
    ∀ c ∈ pairText name value, (c == ';') = false := by
  intro c hc
  apply beq_eq_false_iff_ne.mpr
  rintro rfl
  have hparts : ';' ∈ name ∨ ';' ∈ value := by simpa [pairText] using hc
  rcases hparts with hname | hvalue
  · exact h.name_undelimited hname
  · exact h.value_undelimited hvalue

/-- Pairs, joined as a client joins them. -/
def pairsText (pairs : List (List Char × List Char)) : List Char :=
  "; ".toList.intercalate (pairs.map fun p => pairText p.1 p.2)

theorem pairsText_cons_cons (p q : List Char × List Char) (pairs : List (List Char × List Char)) :
    pairsText (p :: q :: pairs) = pairText p.1 p.2 ++ "; ".toList ++ pairsText (q :: pairs) :=
  List.intercalate_cons_cons

theorem pairsText_begins (p : List Char × List Char) (pairs : List (List Char × List Char)) :
    ∃ rest, pairsText (p :: pairs) = p.1 ++ rest := by
  cases pairs with
  | nil =>
    refine ⟨"=\"".toList ++ p.2 ++ ['"'], ?_⟩
    simp [pairsText, pairText]
  | cons q pairs =>
    rw [pairsText_cons_cons, pairText]
    simp only [List.append_assoc]
    exact ⟨_, rfl⟩

theorem pairsText_ends (p : List Char × List Char) (pairs : List (List Char × List Char)) :
    ∃ front, pairsText (p :: pairs) = front ++ ['"'] := by
  induction pairs generalizing p with
  | nil => exact ⟨p.1 ++ "=\"".toList ++ p.2, List.intercalate_singleton⟩
  | cons q pairs ih =>
    obtain ⟨front, hfront⟩ := ih q
    refine ⟨pairText p.1 p.2 ++ "; ".toList ++ front, ?_⟩
    rw [pairsText_cons_cons, hfront, List.append_assoc, List.append_assoc, List.append_assoc]

theorem trimChars_pairsText {pairs : List (List Char × List Char)}
    (h : ∀ p ∈ pairs, IsPair p.1 p.2) : Text.trimChars (pairsText pairs) = pairsText pairs := by
  cases pairs with
  | nil => rfl
  | cons p pairs =>
    have hp := h p List.mem_cons_self
    obtain ⟨rest, hbegins⟩ := pairsText_begins p pairs
    obtain ⟨front, hends⟩ := pairsText_ends p pairs
    apply Text.trimChars_eq_self
    · intro c hc
      apply hp.first c
      rwa [hbegins, List.head?_append_of_ne_nil _ hp.nonempty] at hc
    · intro c hc
      rw [hends, List.getLast?_concat] at hc
      obtain rfl := Option.some.inj hc
      decide

/-- Pairs that were joined are read again. -/
theorem cookiePairs_pairsText {pairs : List (List Char × List Char)}
    (h : ∀ p ∈ pairs, IsPair p.1 p.2) :
    cookiePairs (String.ofList (pairsText pairs)) =
      pairs.map fun p => (String.ofList p.1, String.ofList p.2) := by
  have hspace : Text.isBlank ' ' = true := by decide
  cases pairs with
  | nil => decide
  | cons p pairs =>
    have hp := h p List.mem_cons_self
    have hpairs : ∀ q ∈ pairs, IsPair q.1 q.2 := fun q hq => h q (List.mem_cons_of_mem p hq)
    have hsplit : Text.splitAt ';' (pairsText (p :: pairs)) =
        pairText p.1 p.2 :: (pairs.map fun q => pairText q.1 q.2).map ([' '] ++ ·) := by
      apply Text.splitBy_intercalate (p := (· == ';')) rfl (List.forall_mem_singleton.mpr rfl)
        hp.not_mem_pairText
      intro text htext
      obtain ⟨q, hq, rfl⟩ := List.mem_map.mp htext
      exact (hpairs q hq).not_mem_pairText
    rw [cookiePairs, String.toList_ofList, hsplit, List.filterMap_cons, hp.cookiePair?_pairText]
    simp only [List.map_map, List.filterMap_map, List.map_cons]
    congr 1
    rw [← List.filterMap_eq_map]
    apply List.filterMap_congr
    intro q hq
    simp only [Function.comp_apply, List.cons_append, List.nil_append,
      cookiePair?_cons_of_isBlank hspace, (hpairs q hq).cookiePair?_pairText]

/-! ### Requests with one cookie field -/

/-- The lines of a request around its one cookie field. -/
structure CookieFrame where
  line : Bytes
  before : List Bytes
  after : List Bytes
  target : String
  version : Version
  isLine : ∀ l ∈ line :: (before ++ after), IsLine l
  separate : ∀ l ∈ before ++ after, continues (ofLatin1 l) = false
  parseLine_eq : parseLine (lineText line) = .ok (target, version)
  others : ∀ l ∈ before ++ after, ∀ f, parseField? (lineText l) = some f →
    isNamed "cookie" f = false

namespace CookieFrame

def fieldLine (value : Bytes) : Bytes :=
  latin1Bytes "Cookie: " ++ value

/-- The request in which the cookie field has this value. -/
def bytes (r : CookieFrame) (value : Bytes) : Bytes :=
  block (r.line :: (r.before ++ fieldLine value :: r.after))

theorem parseField?_fieldLine (value : Bytes) :
    parseField? (lineText (fieldLine value)) = some ("Cookie", Text.trim (lineText value)) := by
  have htext : (lineText (fieldLine value)).toList =
      "Cookie".toList ++ ':' :: ' ' :: ofLatin1 value := by
    rw [lineText, String.toList_ofList, fieldLine, ofLatin1, List.map_append]
    rfl
  have hcut : Text.cutBy? (· == ':') (lineText (fieldLine value)).toList =
      some ("Cookie".toList, ' ' :: ofLatin1 value) := by
    have hcolon : ':' ∉ "Cookie".toList := by decide
    rw [htext]
    exact Text.cutBy?_append_cons hcolon _
  have hname : Text.trimChars "Cookie".toList = "Cookie".toList := by decide
  have hblank : Text.isBlank ' ' = true := by decide
  rw [parseField?, Text.cut?, hcut]
  simp only [Option.map_some, Text.trim, String.toList_ofList, hname,
    Text.trimChars_cons_of_isBlank hblank, lineText, String.ofList_toList]

theorem isLine_fieldLine {value : Bytes}
    (hvalue : ∀ b ∈ value, b ≠ lineFeed ∧ b ≠ carriageReturn) : IsLine (fieldLine value) := by
  have hlabel : ∀ b ∈ latin1Bytes "Cookie: ", b ≠ lineFeed ∧ b ≠ carriageReturn := by
    decide +kernel
  constructor
  · exact List.append_ne_nil_of_left_ne_nil (by decide) value
  · exact List.forall_mem_append.mpr ⟨hlabel, hvalue⟩

theorem continues_fieldLine (value : Bytes) : continues (ofLatin1 (fieldLine value)) = false := by
  rfl

/-- The request has the cookies of the field's value and no others. -/
theorem parse_bytes (r : CookieFrame) {value : Bytes}
    (hvalue : ∀ b ∈ value, b ≠ lineFeed ∧ b ≠ carriageReturn) :
    ∃ request, parse (r.bytes value) = .ok request ∧ request.target = r.target ∧
      request.version = r.version ∧
      request.cookies = parseCookies (Text.trim (lineText value)) := by
  have hlines : ∀ l ∈ r.line :: (r.before ++ fieldLine value :: r.after), IsLine l := by
    intro l hl
    have hcases : l = fieldLine value ∨ l ∈ r.line :: (r.before ++ r.after) := by grind
    rcases hcases with rfl | hmem
    · exact isLine_fieldLine hvalue
    · exact r.isLine l hmem
  have hseparate : ∀ l ∈ r.before ++ fieldLine value :: r.after,
      continues (ofLatin1 l) = false := by
    intro l hl
    have hcases : l = fieldLine value ∨ l ∈ r.before ++ r.after := by grind
    rcases hcases with rfl | hmem
    · exact continues_fieldLine value
    · exact r.separate l hmem
  have hother (lines : List Bytes) (hmem : ∀ l ∈ lines, l ∈ r.before ++ r.after) :
      (lines.filterMap fun l => parseField? (lineText l)).filter (isNamed "cookie") = [] := by
    apply List.filter_eq_nil_iff.mpr
    intro f hf
    obtain ⟨l, hl, hfield⟩ := List.mem_filterMap.mp hf
    rw [r.others l (hmem l hl) f hfield]
    exact Bool.false_ne_true
  have hnamed : isNamed "cookie" ("Cookie", Text.trim (lineText value)) = true := by
    have hlower : Text.asciiLower "Cookie" = Text.asciiLower "cookie" := by decide
    exact beq_iff_eq.mpr hlower
  refine ⟨_, parse_block hlines hseparate r.parseLine_eq, rfl, rfl, ?_⟩
  rw [cookies, List.filterMap_append, List.filterMap_cons, parseField?_fieldLine]
  simp only [List.filter_append, List.filter_cons, hnamed, if_true,
    hother r.before fun l => List.mem_append_left _,
    hother r.after fun l => List.mem_append_right _]
  simp [parseCookies]

/-- Pairs that stand in the field are the cookies of the request. -/
theorem parse_pairs (r : CookieFrame) {value : Bytes} {pairs : List (List Char × List Char)}
    (hvalue : ∀ b ∈ value, b ≠ lineFeed ∧ b ≠ carriageReturn)
    (htext : ofLatin1 value = pairsText pairs) (hpairs : ∀ p ∈ pairs, IsPair p.1 p.2) :
    ∃ request, parse (r.bytes value) = .ok request ∧ request.target = r.target ∧
      request.version = r.version ∧
      request.cookies = .ofList (pairs.map fun p => (String.ofList p.1, String.ofList p.2)) := by
  obtain ⟨request, hparse, htarget, hversion, hcookies⟩ := r.parse_bytes hvalue
  refine ⟨request, hparse, htarget, hversion, ?_⟩
  rw [hcookies, parseCookies, Text.trim, lineText, String.toList_ofList, htext,
    trimChars_pairsText hpairs, cookiePairs_pairsText hpairs]

end CookieFrame

end PageServer.Request
