import Mathlib.Data.List.Basic
import PageServer.Proofs.Connection.Receiving
import PageServer.Proofs.Request.Lines

/-!
# Spellings of a request

A request may be written in many ways. Each line ends with a line feed, with or
without a carriage return before it, and a value may go on in the next line
wherever a blank stands in it. Whichever way is taken, the same request is read,
and nothing is read beyond its empty line.
-/

namespace PageServer.Request

open Text (isBlank latin1Byte latin1Bytes ofLatin1 trimChars chop splitAt)

/-! ### Folded values -/

/-- Text that neither begins nor ends in white space. -/
structure IsTrimmed (cs : List Char) : Prop where
  first : ∀ c ∈ cs.head?, isBlank c = false
  last : ∀ c ∈ cs.getLast?, isBlank c = false

instance : DecidablePred IsTrimmed := fun cs =>
  decidable_of_iff ((cs.head?.all fun c => !isBlank c) ∧ cs.getLast?.all fun c => !isBlank c) (by
    simp only [Option.all_eq_true, Bool.not_eq_true']
    exact ⟨fun ⟨hfirst, hlast⟩ => ⟨hfirst, hlast⟩, fun h => ⟨h.first, h.last⟩⟩)

/-- White space that a line may begin with. -/
structure IsIndent (cs : List Char) : Prop where
  ne_nil : cs ≠ []
  blank : ∀ c ∈ cs, c = ' ' ∨ c = '\t'

/-- The ways of writing a value. A single blank between two characters that are no
white space may be written as a line end and the indent of the next line. -/
inductive Folding : List Char → List Char → Prop
  | whole (value : List Char) : Folding value value
  | fold {front value written e indent : List Char} {a b : Char} (ha : isBlank a = false)
      (hb : isBlank b = false) (he : IsLineEnd e) (hindent : IsIndent indent)
      (h : Folding (b :: value) written) :
      Folding (front ++ a :: ' ' :: b :: value) (front ++ a :: (e ++ (indent ++ written)))

namespace IsTrimmed

theorem trimChars_eq {cs : List Char} (h : IsTrimmed cs) : trimChars cs = cs :=
  Text.trimChars_eq_self h.first h.last

theorem before_blank {front rest : List Char} {a : Char} (h : IsTrimmed (front ++ a :: rest))
    (ha : isBlank a = false) : IsTrimmed (front ++ [a]) := by
  constructor
  · intro c hc
    apply h.first c
    cases front with
    | nil => exact hc
    | cons d front => exact hc
  · intro c hc
    rw [List.getLast?_concat] at hc
    obtain rfl := Option.some.inj hc
    exact ha

theorem after_blank {front rest : List Char} {a b : Char}
    (h : IsTrimmed (front ++ a :: ' ' :: b :: rest)) (hb : isBlank b = false) :
    IsTrimmed (b :: rest) := by
  constructor
  · intro c hc
    obtain rfl := Option.some.inj hc
    exact hb
  · intro c hc
    apply h.last c
    rw [List.getLast?_append_of_ne_nil _ (List.cons_ne_nil _ _), List.getLast?_cons_cons,
      List.getLast?_cons_cons]
    exact hc

end IsTrimmed

namespace IsIndent

theorem isBlank_of_mem {indent : List Char} (h : IsIndent indent) : ∀ c ∈ indent, isBlank c = true := by
  intro c hc
  rcases h.blank c hc with rfl | rfl <;> decide

theorem isInline {indent : List Char} (h : IsIndent indent) : IsInline indent := by
  intro c hc
  rcases h.blank c hc with rfl | rfl <;> decide

theorem continues_append {indent : List Char} (h : IsIndent indent) (line : List Char) :
    continues (indent ++ line) = true := by
  cases indent with
  | nil => exact absurd rfl h.ne_nil
  | cons c indent =>
    rcases h.blank c List.mem_cons_self with rfl | rfl <;> rfl

theorem trimChars_append {indent : List Char} (h : IsIndent indent) (cs : List Char) :
    trimChars (indent ++ cs) = trimChars cs := by
  have hblank := h.isBlank_of_mem
  clear h
  induction indent with
  | nil => rfl
  | cons c indent ih =>
    rw [List.cons_append, Text.trimChars_cons_of_isBlank (hblank c List.mem_cons_self)]
    exact ih fun d hd => hblank d (List.mem_cons_of_mem c hd)

end IsIndent

namespace IsInline

variable {front rest : List Char} {a b : Char}

theorem before_blank (h : IsInline (front ++ a :: ' ' :: b :: rest)) : IsInline (front ++ [a]) :=
  fun c hc => h c (by grind)

theorem after_blank (h : IsInline (front ++ a :: ' ' :: b :: rest)) : IsInline (b :: rest) :=
  fun c hc => h c (by grind)

end IsInline

theorem addLine_indent {indent cs : List Char} (hindent : IsIndent indent) (hcs : IsTrimmed cs)
    (previous : List Char) (before : List (List Char)) :
    addLine (previous :: before) (indent ++ cs) = (previous ++ [' '] ++ cs) :: before := by
  rw [addLine_of_continues (hindent.continues_append cs), hindent.trimChars_append,
    hcs.trimChars_eq, List.append_assoc]
  rfl

/-- The lines that a folded value is laid out in are put together again, whether
the first of them begins a line or goes on with one. -/
theorem Folding.lays {value written : List Char} (h : Folding value written)
    (htrim : IsTrimmed value) (hvalue : IsInline value) {lead start e text : List Char}
    {lines before after : List (List Char)} (hne : lead ≠ []) (hlead : IsInline lead)
    (hput : ∀ cs, IsTrimmed cs → addLine before (lead ++ cs) = (start ++ cs) :: after)
    (he : IsLineEnd e) (hrest : LaysOut lines text) :
    ∃ more, LaysOut (more ++ lines) (lead ++ (written ++ (e ++ text))) ∧
      more.foldl addLine before = (start ++ value) :: after := by
  induction h generalizing lead start before with
  | whole value =>
    refine ⟨[lead ++ value], ?_, hput value htrim⟩
    rw [← List.append_assoc]
    apply LaysOut.line
    · exact List.append_ne_nil_of_left_ne_nil hne value
    · exact List.forall_mem_append.mpr ⟨hlead, hvalue⟩
    · exact he
    · exact hrest
  | @fold front value written e' indent a b ha hb he' hindent h ih =>
    have hfirst := hput _ (htrim.before_blank ha)
    obtain ⟨more, hlays, hadd⟩ := ih (htrim.after_blank hb) hvalue.after_blank hindent.ne_nil
      hindent.isInline fun cs hcs => addLine_indent hindent hcs (start ++ (front ++ [a])) after
    refine ⟨(lead ++ (front ++ [a])) :: more, ?_, ?_⟩
    · have htext : lead ++ (front ++ a :: (e' ++ (indent ++ written)) ++ (e ++ text)) =
          (lead ++ (front ++ [a])) ++ (e' ++ (indent ++ (written ++ (e ++ text)))) := by
        simp
      rw [htext]
      apply LaysOut.line
      · exact List.append_ne_nil_of_left_ne_nil hne _
      · exact List.forall_mem_append.mpr ⟨hlead, hvalue.before_blank⟩
      · exact he'
      · exact hlays
    · rw [List.foldl_cons, hfirst, hadd]
      simp

/-! ### Fields -/

/-- A name and a value that a header can say. -/
structure IsField (name value : List Char) : Prop where
  name_ne_nil : name ≠ []
  name_inline : IsInline name
  name_trimmed : IsTrimmed name
  name_colonFree : ':' ∉ name
  value_inline : IsInline value
  value_trimmed : IsTrimmed value

instance (name value : List Char) : Decidable (IsField name value) :=
  decidable_of_iff (name ≠ [] ∧ IsInline name ∧ IsTrimmed name ∧ ':' ∉ name ∧ IsInline value ∧
      IsTrimmed value)
    ⟨fun ⟨hne, hname, htrim, hcolon, hvalue, htrimmed⟩ =>
      ⟨hne, hname, htrim, hcolon, hvalue, htrimmed⟩,
      fun h => ⟨h.name_ne_nil, h.name_inline, h.name_trimmed, h.name_colonFree, h.value_inline,
        h.value_trimmed⟩⟩

def fieldLine (name value : List Char) : List Char :=
  name ++ ':' :: ' ' :: value

/-- The ways of writing fields, one after the other, and the empty line after
them. -/
inductive FieldsSpelling : List (String × String) → List Char → Prop
  | empty {e : List Char} (he : IsLineEnd e) : FieldsSpelling [] e
  | field {name value : String} {written e text : List Char} {fields : List (String × String)}
      (hvalue : Folding value.toList written) (he : IsLineEnd e) (h : FieldsSpelling fields text) :
      FieldsSpelling ((name, value) :: fields) (fieldLine name.toList written ++ (e ++ text))

theorem IsField.parseField?_fieldLine {name value : String} (h : IsField name.toList value.toList) :
    parseField? (String.ofList (fieldLine name.toList value.toList)) = some (name, value) := by
  have hcut : Text.cutBy? (· == ':') (fieldLine name.toList value.toList) =
      some (name.toList, ' ' :: value.toList) :=
    Text.cutBy?_append_cons h.name_colonFree _
  have hblank : isBlank ' ' = true := by decide
  rw [parseField?, Text.cut?, String.toList_ofList, hcut]
  simp only [Option.map_some, Text.trim, String.toList_ofList, h.name_trimmed.trimChars_eq,
    Text.trimChars_cons_of_isBlank hblank, h.value_trimmed.trimChars_eq, String.ofList_toList]

theorem ne_of_isBlank {c d : Char} (hc : isBlank c = false) (hd : isBlank d = true) : c ≠ d := by
  rintro rfl
  rw [hd] at hc
  cases hc

theorem IsField.continues_name {name value : List Char} (h : IsField name value)
    (cs : List Char) : continues (name ++ cs) = false := by
  cases name with
  | nil => exact absurd rfl h.name_ne_nil
  | cons c name =>
    have hc := h.name_trimmed.first c rfl
    have hspace : c ≠ ' ' := ne_of_isBlank hc (by decide)
    have htab : c ≠ '\t' := ne_of_isBlank hc (by decide)
    simp [continues, hspace, htab]

theorem fieldLine_append (name value cs : List Char) :
    fieldLine name value ++ cs = name ++ [':', ' '] ++ (value ++ cs) := by
  simp [fieldLine]

theorem FieldsSpelling.lays {fields : List (String × String)} {text : List Char}
    (h : FieldsSpelling fields text) (hfields : ∀ f ∈ fields, IsField f.1.toList f.2.toList)
    (before : List (List Char)) :
    ∃ lines, LaysOut lines text ∧ lines.foldl addLine before =
      (fields.map fun f => fieldLine f.1.toList f.2.toList).reverse ++ before := by
  induction h generalizing before with
  | empty he => exact ⟨[], .empty he, rfl⟩
  | @field name value written e text fields hvalue he h ih =>
    have hfield := hfields (name, value) List.mem_cons_self
    have hcolon : IsInline [':', ' '] := by decide
    have hlead : IsInline (name.toList ++ [':', ' ']) :=
      List.forall_mem_append.mpr ⟨hfield.name_inline, hcolon⟩
    obtain ⟨lines, hlays, hadd⟩ := ih (fun f hf => hfields f (List.mem_cons_of_mem _ hf))
      (fieldLine name.toList value.toList :: before)
    have hput : ∀ cs, IsTrimmed cs → addLine before (name.toList ++ [':', ' '] ++ cs) =
        (name.toList ++ [':', ' '] ++ cs) :: before := by
      intro cs _
      rw [List.append_assoc]
      exact addLine_of_not_continues (hfield.continues_name _) before
    obtain ⟨more, hmore, hvalue⟩ := hvalue.lays hfield.value_trimmed hfield.value_inline
      (List.append_ne_nil_of_right_ne_nil _ (List.cons_ne_nil _ _)) hlead hput he hlays
    refine ⟨more ++ lines, ?_, ?_⟩
    · rwa [fieldLine_append]
    · have hline : name.toList ++ [':', ' '] ++ value.toList =
          fieldLine name.toList value.toList := by simp [fieldLine]
      rw [List.foldl_append, hvalue, hline, hadd]
      simp

/-! ### Requests -/

/-- A request that a header can say. -/
structure IsSendable (r : Request) : Prop where
  rooted : r.target.toList.head? = some '/'
  target_latin1 : Text.IsLatin1 r.target
  target_unblank : ∀ c ∈ r.target.toList, isBlank c = false
  fields : ∀ f ∈ r.fields, IsField f.1.toList f.2.toList

def line (r : Request) : String :=
  method ++ " " ++ r.target ++ " " ++ r.version.text

/-- The ways of writing the header of a request. -/
def Spelling (r : Request) (header : String) : Prop :=
  ∃ e text, IsLineEnd e ∧ FieldsSpelling r.fields text ∧
    header.toList = r.line.toList ++ (e ++ text)

theorem words_append_blank {c : Char} (hc : isBlank c = true) (a b : List Char) :
    Text.words (a ++ c :: b) = Text.words a ++ Text.words b := by
  rw [Text.words, Text.splitBy_append_cons hc, List.filter_append]
  rfl

theorem words_of_unblank {w : List Char} (hne : w ≠ []) (h : ∀ c ∈ w, isBlank c = false) :
    Text.words w = [w] := by
  rw [Text.words, Text.splitBy_eq_self h]
  exact List.filter_cons_of_pos (by simpa using hne)

namespace IsSendable

variable {r : Request}

theorem target_ne_nil (h : r.IsSendable) : r.target.toList ≠ [] := by
  intro hnil
  have hrooted := h.rooted
  rw [hnil] at hrooted
  cases hrooted

theorem words_line (h : r.IsSendable) :
    (Text.words r.line.toList).map String.ofList = [method, r.target, r.version.text] := by
  have hspace : isBlank ' ' = true := by decide
  have hmethod : Text.words method.toList = [method.toList] := by decide
  have hversion : Text.words r.version.text.toList = [r.version.text.toList] := by
    cases r.version <;> decide
  have hline : r.line.toList = method.toList ++ ' ' :: (r.target.toList ++ ' ' ::
      r.version.text.toList) := by
    simp [line]
  rw [hline, words_append_blank hspace, words_append_blank hspace, hmethod, hversion,
    words_of_unblank h.target_ne_nil h.target_unblank]
  simp

theorem parseLine_line (h : r.IsSendable) : parseLine r.line = .ok (r.target, r.version) := by
  have hversion : (Version.all.find? fun v => v.text == r.version.text) = some r.version := by
    cases r.version <;> decide
  simp only [parseLine, h.words_line, ne_eq, not_true_eq_false, if_false, hversion, h.rooted,
    if_true]

theorem line_inline (h : r.IsSendable) : IsInline r.line.toList := by
  have hversion : IsInline r.version.text.toList := by
    cases r.version <;> decide
  have htarget : IsInline r.target.toList := by
    intro c hc
    have hblank := h.target_unblank c hc
    exact ⟨h.target_latin1 c hc, ne_of_isBlank hblank (by decide), ne_of_isBlank hblank (by decide)⟩
  have hspace : IsInline " ".toList := by decide
  have hmethod : IsInline method.toList := by decide
  rw [line]
  simp only [String.toList_append]
  exact List.forall_mem_append.mpr ⟨List.forall_mem_append.mpr ⟨List.forall_mem_append.mpr
    ⟨List.forall_mem_append.mpr ⟨hmethod, hspace⟩, htarget⟩, hspace⟩, hversion⟩

theorem line_ne_nil (h : r.IsSendable) : r.line.toList ≠ [] := by
  intro hnil
  have hwords := h.words_line
  rw [hnil] at hwords
  cases hwords

end IsSendable

theorem Spelling.lays {r : Request} {header : String} (h : r.Spelling header)
    (hr : r.IsSendable) :
    ∃ lines, LaysOut (r.line.toList :: lines) header.toList ∧
      (r.line.toList :: lines).foldl addLine [] =
        (r.line.toList :: r.fields.map fun f => fieldLine f.1.toList f.2.toList).reverse := by
  obtain ⟨e, text, he, hfields, hheader⟩ := h
  obtain ⟨lines, hlays, hadd⟩ := hfields.lays hr.fields [r.line.toList]
  refine ⟨lines, ?_, ?_⟩
  · rw [hheader]
    exact .line hr.line_ne_nil hr.line_inline he hlays
  · rw [List.foldl_cons, addLine, hadd, List.reverse_cons]

theorem Spelling.headerLines_eq {r : Request} {header : String} (h : r.Spelling header)
    (hr : r.IsSendable) :
    headerLines (latin1Bytes header) =
      r.line :: r.fields.map fun f => String.ofList (fieldLine f.1.toList f.2.toList) := by
  obtain ⟨lines, hlays, hadd⟩ := h.lays hr
  rw [← Text.ofLatin1_of_isLatin1 hlays.latin1] at hlays
  rw [hlays.headerLines_eq, hadd, List.reverse_reverse, List.map_cons, String.ofList_toList,
    List.map_map]
  rfl

theorem Spelling.parse_eq {r : Request} {header : String} (h : r.Spelling header)
    (hr : r.IsSendable) : parse (latin1Bytes header) = .ok r := by
  have hfields : (r.fields.map fun f =>
      String.ofList (fieldLine f.1.toList f.2.toList)).filterMap parseField? = r.fields := by
    rw [List.filterMap_map]
    calc
      r.fields.filterMap _ = r.fields.filterMap some :=
        List.filterMap_congr fun f hf => (hr.fields f hf).parseField?_fieldLine
      _ = r.fields := List.filterMap_some
  simp only [parse, h.headerLines_eq hr, List.headD_cons, hr.parseLine_line, List.tail_cons,
    hfields]
  rfl

/-- However a request is written, and whatever follows it, exactly its header is
read if the limit allows, and the header is read as the request. -/
theorem read_every_spelling {r : Request} {header : String} (hr : r.IsSendable)
    (hheader : r.Spelling header) {limit : Nat} {stream : List Arrival} {rest : Bytes}
    (hstream : delivered stream = latin1Bytes header ++ rest)
    (hfits : (latin1Bytes header).length ≤ limit) :
    readHeader limit stream = .ok (some (latin1Bytes header)) ∧
      parse (latin1Bytes header) = .ok r := by
  refine ⟨?_, hheader.parse_eq hr⟩
  obtain ⟨lines, hlays, -⟩ := hheader.lays hr
  apply Connection.readHeader_of_isHeaderOf _ hfits
  rw [hstream]
  exact hlays.isHeaderOf rest

/-- A request with both ends of lines, an empty value, a name that comes twice and a
folded value right before the empty line. -/
theorem read_folded_spelling :
    let r : Request := ⟨"/é?a", .http10, [("Host", ""), ("X", "a:b"), ("X", "x y")]⟩
    let header := "GET /é?a HTTP/1.0\nHost: \r\nX: a:b\nX: x\r\n\t y\n\r\n"
    let stream := [.bytes (latin1Bytes header), .interrupted, .bytes [10, 13, 10]]
    r.IsSendable ∧ r.Spelling header ∧ delivered stream = latin1Bytes header ++ [10, 13, 10] ∧
      (latin1Bytes header).length ≤ 45 ∧
      readHeader 45 stream = .ok (some (latin1Bytes header)) ∧
      parse (latin1Bytes header) = .ok r := by
  intro r header stream
  have hr : r.IsSendable := by
    have hfields : ∀ f ∈ r.fields, IsField f.1.toList f.2.toList := by decide
    have hunblank : (r.target.toList.all fun c => !isBlank c) = true := by decide
    have htarget : ∀ c ∈ r.target.toList, isBlank c = false := by
      intro c hc
      simpa using List.all_eq_true.mp hunblank c hc
    exact ⟨by decide, by decide, htarget, hfields⟩
  have hindent : IsIndent ['\t', ' '] := by
    constructor
    · exact List.cons_ne_nil _ _
    · exact List.forall_mem_cons.mpr ⟨.inr rfl, List.forall_mem_singleton.mpr (.inl rfl)⟩
  have hfold : Folding "x y".toList "x\r\n\t y".toList :=
    @Folding.fold [] [] ['y'] ['\r', '\n'] ['\t', ' '] 'x' 'y' (by decide) (by decide) .returnFeed
      hindent (.whole _)
  have hfields : FieldsSpelling r.fields "Host: \r\nX: a:b\nX: x\r\n\t y\n\r\n".toList := by
    apply FieldsSpelling.field (.whole _) .returnFeed
    apply FieldsSpelling.field (.whole _) .feed
    exact .field hfold .feed (.empty .returnFeed)
  have hheader : r.Spelling header := ⟨['\n'], _, .feed, hfields, by decide⟩
  have hstream : delivered stream = latin1Bytes header ++ [10, 13, 10] := by decide
  have hfits : (latin1Bytes header).length ≤ 45 := by decide
  obtain ⟨hread, hparse⟩ := read_every_spelling hr hheader hstream hfits
  exact ⟨hr, hheader, hstream, hfits, hread, hparse⟩

end PageServer.Request
