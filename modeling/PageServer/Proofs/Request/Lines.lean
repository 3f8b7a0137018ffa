import PageServer.Proofs.Exchange.HeadBlock
import PageServer.Request.Basic

/-!
# The lines of a header

A header is lines that are not empty, each with an end of either kind, and then an
empty one. It is read as these lines, of which each that begins with white space
goes on with the one before it.
-/

namespace PageServer.Request

open Text (latin1Byte ofLatin1 trimChars chop splitAt)

inductive IsLineEnd : List Char → Prop
  | feed : IsLineEnd ['\n']
  | returnFeed : IsLineEnd ['\r', '\n']

/-- Characters that a header can say within a line. -/
def IsInline (cs : List Char) : Prop :=
  ∀ c ∈ cs, c.toNat < 256 ∧ c ≠ '\n' ∧ c ≠ '\r'

instance : DecidablePred IsInline := fun cs =>
  List.decidableBAll (fun c : Char => c.toNat < 256 ∧ c ≠ '\n' ∧ c ≠ '\r') cs

/-- Lines that are not empty, each with an end, and then an empty one. -/
inductive LaysOut : List (List Char) → List Char → Prop
  | empty {e : List Char} (he : IsLineEnd e) : LaysOut [] e
  | line {l e text : List Char} {lines : List (List Char)} (hne : l ≠ []) (hl : IsInline l)
      (he : IsLineEnd e) (h : LaysOut lines text) : LaysOut (l :: lines) (l ++ (e ++ text))

theorem chop_of_isInline {l : List Char} (hl : IsInline l) : chop '\r' l = l := by
  rw [chop, if_neg]
  intro hlast
  exact (hl '\r' (List.mem_of_getLast? hlast)).2.2 rfl

theorem splitAt_line {l e : List Char} (hl : IsInline l) (he : IsLineEnd e) (text : List Char) :
    (splitAt '\n' (l ++ (e ++ text))).map (chop '\r') =
      l :: (splitAt '\n' text).map (chop '\r') := by
  have hinside : '\n' ∉ l := fun h => (hl '\n' h).2.1 rfl
  cases he with
  | feed =>
    rw [List.singleton_append, Text.splitAt_append_cons hinside, List.map_cons,
      chop_of_isInline hl]
  | returnFeed =>
    have hreturn : '\n' ∉ l ++ ['\r'] := by simp [hinside]
    have hfront : l ++ (['\r', '\n'] ++ text) = (l ++ ['\r']) ++ '\n' :: text := by simp
    rw [hfront, Text.splitAt_append_cons hreturn, List.map_cons, Text.chop_concat]

theorem LaysOut.kept {lines : List (List Char)} {text : List Char} (h : LaysOut lines text) :
    (((splitAt '\n' text).map (chop '\r')).filter fun l => !l.isEmpty) = lines := by
  induction h with
  | empty he => cases he <;> decide
  | line hne hl he h ih =>
    rw [splitAt_line hl he, List.filter_cons_of_pos (by simpa using hne), ih]

theorem LaysOut.headerLines_eq {lines : List (List Char)} {header : Bytes}
    (h : LaysOut lines (ofLatin1 header)) :
    headerLines header = (lines.foldl addLine []).reverse.map String.ofList := by
  simp only [headerLines, h.kept]

theorem IsLineEnd.endsLine {e : List Char} (he : IsLineEnd e) : EndsLine (e.map latin1Byte) := by
  cases he with
  | feed => exact .feed
  | returnFeed => exact .returnFeed

theorem IsInline.isLine {l : List Char} (hl : IsInline l) (hne : l ≠ []) :
    IsLine (l.map latin1Byte) := by
  constructor
  · simpa using hne
  · intro b hb
    obtain ⟨c, hc, rfl⟩ := List.mem_map.mp hb
    obtain ⟨-, hfeed, hreturn⟩ := hl c hc
    constructor
    · exact mt (Text.latin1Byte_eq_iff (d := '\n') (by decide) (by decide)).mp hfeed
    · exact mt (Text.latin1Byte_eq_iff (d := '\r') (by decide) (by decide)).mp hreturn

theorem LaysOut.isBlock {lines : List (List Char)} {text : List Char} (h : LaysOut lines text) :
    IsBlock (text.map latin1Byte) := by
  induction h with
  | empty he => exact .empty he.endsLine
  | line hne hl he h ih =>
    rw [List.map_append, List.map_append]
    exact .line (hl.isLine hne) he.endsLine ih

/-- Lines are the header of whatever begins with them. -/
theorem LaysOut.isHeaderOf {l text : List Char} {lines : List (List Char)}
    (h : LaysOut (l :: lines) text) (rest : Bytes) :
    IsHeaderOf (text.map latin1Byte ++ rest) (text.map latin1Byte) := by
  cases h with
  | line hne hl he h =>
    rw [List.map_append, List.map_append]
    exact IsBlock.isHeaderOf (hl.isLine hne) he.endsLine h.isBlock rest

theorem LaysOut.latin1 {lines : List (List Char)} {text : List Char} (h : LaysOut lines text) :
    ∀ c ∈ text, c.toNat < 256 := by
  have hend {e : List Char} (he : IsLineEnd e) : ∀ c ∈ e, c.toNat < 256 := by
    have hfeed : ∀ c ∈ ['\n'], c.toNat < 256 := List.forall_mem_singleton.mpr (by decide)
    cases he with
    | feed => exact hfeed
    | returnFeed => exact List.forall_mem_cons.mpr ⟨by decide, hfeed⟩
  induction h with
  | empty he => exact hend he
  | line hne hl he h ih =>
    have hline := fun c hc => (hl c hc).1
    exact List.forall_mem_append.mpr ⟨hline, List.forall_mem_append.mpr ⟨hend he, ih⟩⟩

/-! ### Blocks -/

theorem isInline_ofLatin1 {l : Bytes} (hl : IsLine l) : IsInline (ofLatin1 l) := by
  intro c hc
  obtain ⟨b, hb, rfl⟩ := List.mem_map.mp hc
  obtain ⟨hfeed, hreturn⟩ := hl.2 b hb
  have hcode {d : UInt8} (hd : Char.ofNat b.toNat = Char.ofNat d.toNat) : b = d := by
    rw [← UInt8.toNat_inj, ← Text.toNat_ofNat_toNat b, hd, Text.toNat_ofNat_toNat]
  refine ⟨?_, mt (hcode (d := lineFeed)) hfeed, mt (hcode (d := carriageReturn)) hreturn⟩
  rw [Text.toNat_ofNat_toNat]
  exact b.toNat_lt

/-- The lines of a block are laid out in it. -/
theorem laysOut_block {lines : List Bytes} (hlines : ∀ l ∈ lines, IsLine l) :
    LaysOut (lines.map ofLatin1) (ofLatin1 (block lines)) := by
  induction lines with
  | nil => exact .empty .returnFeed
  | cons l lines ih =>
    obtain ⟨hl, hrest⟩ := List.forall_mem_cons.mp hlines
    rw [block_cons, ofLatin1, List.map_append, List.map_append]
    apply LaysOut.line
    · exact mt List.map_eq_nil_iff.mp hl.1
    · exact isInline_ofLatin1 hl
    · exact .returnFeed
    · exact ih hrest

/-! ### Lines that go on -/

theorem addLine_of_continues {line : List Char} (h : continues line = true)
    (previous : List Char) (before : List (List Char)) :
    addLine (previous :: before) line = (previous ++ ' ' :: trimChars line) :: before :=
  if_pos h

theorem addLine_of_not_continues {line : List Char} (h : continues line = false)
    (before : List (List Char)) : addLine before line = line :: before := by
  cases before with
  | nil => rfl
  | cons previous before => exact if_neg (by simp [h])

/-- Lines that do not continue others stay lines of their own. -/
theorem foldl_addLine {lines : List (List Char)} (h : ∀ l ∈ lines, continues l = false)
    (before : List (List Char)) : lines.foldl addLine before = lines.reverse ++ before := by
  induction lines generalizing before with
  | nil => rfl
  | cons l lines ih =>
    obtain ⟨hl, hrest⟩ := List.forall_mem_cons.mp h
    rw [List.foldl_cons, addLine_of_not_continues hl, ih hrest, List.reverse_cons,
      List.append_assoc, List.singleton_append]

end PageServer.Request
