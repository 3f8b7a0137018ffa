import PageServer.Decimal.Reader
import PageServer.Template.Token
import PageServer.Text.CharClass

/-!
# Scanning a template

A scanner reads one token at a time, as text or as part of a directive. It
never changes between the two by itself; `tokens` reads a whole template and
enters a directive after each opening mark and leaves it after each closing
one. Reading leads forward over the characters that are ahead, and a token other
than the end of the input takes at least one of them (`Cursor.Advances`), which is
why reading all of them ends.
-/

namespace PageServer.Template

open Text (isBlank)

/-- A place in a template: what follows, and how many characters came before. -/
structure Cursor where
  rest : List Char
  offset : Nat
  deriving DecidableEq, Repr

namespace Cursor

def skip (c : Cursor) (n : Nat) : Cursor :=
  ⟨c.rest.drop n, c.offset + n⟩

def skipBlanks (c : Cursor) : Cursor :=
  c.skip (c.rest.takeWhile isBlank).length

end Cursor

abbrev Scan (α : Type) := Except ScanError α × Cursor

/-- Literal text up to the next opening mark, with what was read before it last
character first. A backslash stands before each backslash of the text and may
stand before a brace. -/
def scanText : List Char → Nat → List Char → Scan Token
  | '{' :: '$' :: rest, n, acc => (.ok (.text (String.ofList acc.reverse)), ⟨'{' :: '$' :: rest, n⟩)
  | '\\' :: c :: rest, n, acc =>
    if c = '\\' ∨ c = '{' then scanText rest (n + 2) (c :: acc)
    else (.error (.invalidEscape c n), ⟨'\\' :: c :: rest, n⟩)
  | ['\\'], n, _ => (.error (.trailingBackslash n), ⟨['\\'], n⟩)
  | c :: rest, n, acc => scanText rest (n + 1) (c :: acc)
  | [], n, acc => (.ok (.text (String.ofList acc.reverse)), ⟨[], n⟩)

/-- The character for which a letter stands after a backslash in a string. -/
def stringEscape? (c : Char) : Option Char :=
  if c = '\\' then some '\\'
  else if c = '"' then some '"'
  else if c = 'n' then some '\n'
  else if c = 'r' then some '\r'
  else if c = 't' then some '\t'
  else none

/-- The rest of a string whose opening quote stands at `start`. -/
def scanString (start : Nat) : List Char → Nat → List Char → Scan Token
  | [], n, _ => (.error (.unterminatedString start), ⟨[], n⟩)
  | '"' :: rest, n, acc => (.ok (.string (String.ofList acc.reverse)), ⟨rest, n + 1⟩)
  | ['\\'], n, _ => (.error (.unterminatedString start), ⟨['\\'], n⟩)
  | '\\' :: c :: rest, n, acc =>
    match stringEscape? c with
    | some d => scanString start rest (n + 2) (d :: acc)
    | none => (.error (.invalidEscape c n), ⟨'\\' :: c :: rest, n⟩)
  | c :: rest, n, acc => scanString start rest (n + 1) (c :: acc)

def leadingName (cs : List Char) : List Char :=
  cs.takeWhile isNameChar

/-- A name; every spelling of the closing keyword is the same. -/
def nameToken (cs : List Char) : Token :=
  .name (if spells endKeyword cs then endKeyword else String.ofList cs)

def startsWithDigit : List Char → Bool
  | c :: _ => c.isDigit
  | [] => false

def startsWithLetter : List Char → Bool
  | c :: _ => c.isAlpha
  | [] => false

/-- The text of a number at the front: a minus sign, digits and, if a point with
a digit after it follows them, the digits after that point. -/
structure NumberText where
  negative : Bool
  whole : List Char
  places : Option (List Char)
  deriving DecidableEq, Repr

namespace NumberText

def ofChars (cs : List Char) : NumberText :=
  let negative := cs.head? = some '-'
  let body := if negative then cs.drop 1 else cs
  let after := body.dropWhile Char.isDigit
  { negative
    whole := body.takeWhile Char.isDigit
    places :=
      if after.head? = some '.' && startsWithDigit (after.drop 1) then
        some ((after.drop 1).takeWhile Char.isDigit)
      else none }

def chars (t : NumberText) : List Char :=
  (if t.negative then ['-'] else []) ++ t.whole ++
    match t.places with
    | none => []
    | some places => '.' :: places

/-- A number with a point is a double, another one has to fit in 64 bits. -/
def token (t : NumberText) (position : Nat) : Except ScanError Token :=
  match t.places with
  | some places =>
    let x := Decimal.ofScientific (Decimal.ofDigits (t.whole ++ places)) (-(places.length : Int))
    .ok (.double (if t.negative then -x else x))
  | none =>
    match Decimal.readInt64? t.chars with
    | some v => .ok (.integer v)
    | none => .error (.integerOverflow (String.ofList t.chars) position)

end NumberText

def scanNumber (c : Cursor) : Scan Token :=
  let t := NumberText.ofChars c.rest
  (t.token c.offset, c.skip t.chars.length)

/-- A token inside a directive, white space before it skipped. -/
def scanDirective (c : Cursor) : Scan Token :=
  let c := c.skipBlanks
  match c.rest with
  | [] => (.error (.unterminatedDirective c.offset), c)
  | ch :: rest =>
    if ch = '$' && rest.head? = some '}' then (.ok .tagClose, c.skip 2)
    else if ch.isAlpha then
      let name := leadingName c.rest
      (.ok (nameToken name), c.skip name.length)
    else if ch = '@' then
      if startsWithLetter rest then
        let name := leadingName rest
        (.ok (.function (String.ofList name)), c.skip (1 + name.length))
      else (.error (.invalidFunctionName c.offset), c)
    else if ch.isDigit || (ch = '-' && startsWithDigit rest) then scanNumber c
    else if operators.contains ch then (.ok (.operator ch), c.skip 1)
    else if ch = '"' then scanString c.offset rest (c.offset + 1) []
    else (.error (.unexpectedChar ch c.offset), c)

def scanLiteral (c : Cursor) : Scan Token :=
  match c.rest with
  | [] => (.ok .endOfInput, c)
  | '{' :: '$' :: rest => (.ok .tagOpen, ⟨rest, c.offset + 2⟩)
  | _ => scanText c.rest c.offset []

inductive Mode where
  | literal
  | directive
  deriving DecidableEq, Repr

structure Scanner where
  cursor : Cursor
  mode : Mode
  last : Option Token

namespace Scanner

def ofChars (cs : List Char) : Scanner :=
  ⟨⟨cs, 0⟩, .literal, none⟩

def atEnd (s : Scanner) : Bool :=
  match s.last with
  | some t => t.isEnd
  | none => false

/-- The next token in the present mode. After an error the scanner stands where
reading failed. -/
def next (s : Scanner) : Except ScanError Token × Scanner :=
  if s.atEnd then (.error .exhausted, s)
  else
    let (r, c) := match s.mode with
      | .literal => scanLiteral s.cursor
      | .directive => scanDirective s.cursor
    match r with
    | .ok t => (.ok t, ⟨c, s.mode, some t⟩)
    | .error e => (.error e, ⟨c, s.mode, s.last⟩)

def modeAfter (mode : Mode) : Token → Mode
  | .tagOpen => .directive
  | .tagClose => .literal
  | _ => mode

end Scanner

/-! ### Reading takes characters -/

namespace Cursor

/-- A place that comes after another, some characters lying between them. -/
def Reaches (c c' : Cursor) : Prop :=
  ∃ between, c.rest = between ++ c'.rest ∧ c'.offset = c.offset + between.length

variable {c c' c'' : Cursor}

theorem Reaches.refl (c : Cursor) : c.Reaches c :=
  ⟨[], rfl, rfl⟩

theorem Reaches.trans (h : c.Reaches c') (h' : c'.Reaches c'') : c.Reaches c'' := by
  obtain ⟨cs, hrest, hoffset⟩ := h
  obtain ⟨ds, hrest', hoffset'⟩ := h'
  refine ⟨cs ++ ds, ?_, ?_⟩
  · rw [hrest, hrest', List.append_assoc]
  · rw [hoffset', hoffset, List.length_append, Nat.add_assoc]

/-- Characters that are behind were ahead before. -/
theorem Reaches.length_eq (h : c.Reaches c') :
    c'.offset + c'.rest.length = c.offset + c.rest.length := by
  obtain ⟨cs, hrest, hoffset⟩ := h
  rw [hrest, hoffset, List.length_append, Nat.add_assoc]

theorem Reaches.offset_le (h : c.Reaches c') : c.offset ≤ c'.offset := by
  obtain ⟨cs, -, hoffset⟩ := h
  exact hoffset ▸ Nat.le_add_right _ _

theorem Reaches.length_le (h : c.Reaches c') : c'.rest.length ≤ c.rest.length := by
  have hlength := h.length_eq
  have hoffset := h.offset_le
  omega

theorem reaches_cons (ch : Char) (cs : List Char) (n : Nat) :
    Reaches ⟨ch :: cs, n⟩ ⟨cs, n + 1⟩ :=
  ⟨[ch], rfl, rfl⟩

theorem reaches_skip {n : Nat} (h : n ≤ c.rest.length) : c.Reaches (c.skip n) :=
  ⟨c.rest.take n, (List.take_append_drop n c.rest).symm, by simp [skip, Nat.min_eq_left h]⟩

theorem reaches_skipBlanks (c : Cursor) : c.Reaches c.skipBlanks :=
  reaches_skip (List.takeWhile_sublist _).length_le

/-- What is read from a place leads on from there, by at least one character if it
is a token other than the end of the input. -/
structure Advances (c : Cursor) (scan : Scan Token) : Prop where
  reaches : c.Reaches scan.2
  shorter : ∀ t, scan.1 = .ok t → t.isEnd = false → scan.2.rest.length < c.rest.length

theorem Reaches.fails (h : c.Reaches c') (e : ScanError) : c.Advances (.error e, c') :=
  ⟨h, nofun⟩

theorem Reaches.skips (h : c.Reaches c') {n : Nat} (hpos : 0 < n) (hle : n ≤ c'.rest.length)
    (result : Except ScanError Token) : c.Advances (result, c'.skip n) where
  reaches := h.trans (reaches_skip hle)
  shorter t _ _ := by
    have hlength := h.length_le
    simp only [skip, List.length_drop]
    omega

end Cursor

theorem scanText_reaches (cs : List Char) (n : Nat) (acc : List Char) :
    Cursor.Reaches ⟨cs, n⟩ (scanText cs n acc).2 := by
  fun_induction scanText cs n acc with
  | case2 c rest n acc hc ih =>
    exact (Cursor.reaches_cons _ _ _).trans ((Cursor.reaches_cons _ _ _).trans ih)
  | case5 c rest n acc hopen hslash hlast ih => exact (Cursor.reaches_cons _ _ _).trans ih
  | _ => exact .refl _

theorem scanText_lt {cs acc : List Char} {n : Nat} {t : Token} (hne : cs ≠ [])
    (hopen : ∀ rest, cs ≠ '{' :: '$' :: rest) (h : (scanText cs n acc).1 = .ok t) :
    (scanText cs n acc).2.rest.length < cs.length := by
  fun_cases scanText cs n acc with
  | case1 rest => exact absurd rfl (hopen rest)
  | case2 c rest =>
    have hle : (scanText rest (n + 2) (c :: acc)).2.rest.length ≤ rest.length :=
      (scanText_reaches rest (n + 2) (c :: acc)).length_le
    simp only [List.length_cons]
    omega
  | case3 c rest => simp_all [scanText]
  | case4 => simp [scanText] at h
  | case5 c rest =>
    have hle : (scanText rest (n + 1) (c :: acc)).2.rest.length ≤ rest.length :=
      (scanText_reaches rest (n + 1) (c :: acc)).length_le
    simp only [List.length_cons]
    omega
  | case6 => exact absurd rfl hne

theorem scanString_reaches (start : Nat) (cs : List Char) (n : Nat) (acc : List Char) :
    Cursor.Reaches ⟨cs, n⟩ (scanString start cs n acc).2 := by
  fun_induction scanString start cs n acc with
  | case2 rest n acc => exact Cursor.reaches_cons _ _ _
  | case4 c rest n acc d hd ih =>
    exact (Cursor.reaches_cons _ _ _).trans ((Cursor.reaches_cons _ _ _).trans ih)
  | case6 c rest n acc hquote hslash hlast ih => exact (Cursor.reaches_cons _ _ _).trans ih
  | _ => exact .refl _

theorem takeWhile_cons_pos {p : Char → Bool} {c : Char} {cs : List Char} (h : p c = true) :
    0 < ((c :: cs).takeWhile p).length := by
  simp [h]

/-- The text of a number is what stands at the front. -/
theorem NumberText.chars_front (cs : List Char) : (ofChars cs).chars <+: cs := by
  have hplaces (after : List Char) :
      (match (if after.head? = some '.' && startsWithDigit (after.drop 1) then
          some ((after.drop 1).takeWhile Char.isDigit) else none) with
        | none => []
        | some places => '.' :: places) <+: after := by
    cases after with
    | nil => exact List.nil_prefix
    | cons c after =>
      by_cases hpoint : c = '.' ∧ startsWithDigit after = true
      · obtain ⟨rfl, hdigit⟩ := hpoint
        simp [hdigit, List.takeWhile_prefix]
      · simp [hpoint]
  have hbody (body : List Char) := (List.prefix_append_right_inj (body.takeWhile Char.isDigit)).mpr
    (hplaces (body.dropWhile Char.isDigit))
  simp only [List.takeWhile_append_dropWhile] at hbody
  by_cases hminus : cs.head? = some '-'
  · obtain ⟨body, rfl⟩ := List.head?_eq_some_iff.mp hminus
    simpa [chars, ofChars] using hbody body
  · simpa [chars, ofChars, hminus] using hbody cs

theorem scanNumber_advances {c c' : Cursor} (hreaches : c.Reaches c') {ch : Char}
    {rest : List Char} (hc : c'.rest = ch :: rest)
    (h : (ch.isDigit || (ch = '-' && startsWithDigit rest)) = true) :
    c.Advances (scanNumber c') := by
  refine hreaches.skips (List.length_pos_iff.2 ?_) (NumberText.chars_front _).length_le _
  by_cases hm : ch = '-'
  · simp [NumberText.chars, NumberText.ofChars, hc, hm]
  · have hd : ch.isDigit = true := by simpa [hm] using h
    simp [NumberText.chars, NumberText.ofChars, hc, hm, hd]

theorem scanDirective_advances (c : Cursor) : c.Advances (scanDirective c) := by
  have hblanks := c.reaches_skipBlanks
  unfold scanDirective
  generalize c.skipBlanks = d at hblanks ⊢
  obtain ⟨cs, n⟩ := d
  cases cs with
  | nil => exact hblanks.fails _
  | cons ch rest =>
    simp only
    split
    · next hclose =>
      have hbrace : rest ≠ [] := by
        rintro rfl
        simp at hclose
      exact hblanks.skips (by omega) (Nat.succ_le_succ (List.length_pos_iff.2 hbrace)) _
    split
    · next halpha =>
      have hname : isNameChar ch = true := by simp [isNameChar, Char.isAlphanum, halpha]
      exact hblanks.skips (takeWhile_cons_pos hname) (List.takeWhile_sublist _).length_le _
    split
    · split
      · have hname : (leadingName rest).length ≤ rest.length :=
          (List.takeWhile_sublist _).length_le
        refine hblanks.skips (by omega) ?_ _
        rw [List.length_cons]
        omega
      · exact hblanks.fails _
    split
    · next hnumber => exact scanNumber_advances hblanks rfl hnumber
    split
    · exact hblanks.skips (by omega) (Nat.succ_le_succ (Nat.zero_le _)) _
    split
    · have hstring := scanString_reaches n rest (n + 1) []
      refine ⟨hblanks.trans ((Cursor.reaches_cons ch rest n).trans hstring), fun t _ _ => ?_⟩
      exact Nat.lt_of_lt_of_le (Nat.lt_succ_of_le hstring.length_le) hblanks.length_le
    · exact hblanks.fails _

theorem scanLiteral_advances (c : Cursor) : c.Advances (scanLiteral c) := by
  obtain ⟨cs, n⟩ := c
  unfold scanLiteral
  split
  · next hr =>
    simp only at hr
    subst hr
    refine ⟨.refl _, fun t ht hend => ?_⟩
    obtain rfl : Token.endOfInput = t := by simpa using ht
    simp [Token.isEnd, Token.kind] at hend
  · next rest hr =>
    simp only at hr
    subst hr
    exact (Cursor.Reaches.refl _).skips (n := 2) (by omega) (by simp) _
  · next hnil hopen =>
    exact ⟨scanText_reaches cs n [], fun t ht _ => scanText_lt hnil hopen ht⟩

namespace Scanner

/-- A token other than the end of the input takes at least one character. -/
theorem next_shorter {s s' : Scanner} {t : Token} (h : s.next = (.ok t, s'))
    (ht : t.isEnd = false) : s'.cursor.rest.length < s.cursor.rest.length := by
  unfold next at h
  split at h
  · simp at h
  · cases hm : s.mode with
    | literal =>
      simp only [hm] at h
      split at h
      · next r hr =>
        obtain ⟨rfl, rfl⟩ : r = t ∧ _ := by simpa using h
        exact (scanLiteral_advances s.cursor).shorter r hr ht
      · simp at h
    | directive =>
      simp only [hm] at h
      split at h
      · next r hr =>
        obtain ⟨rfl, rfl⟩ : r = t ∧ _ := by simpa using h
        exact (scanDirective_advances s.cursor).shorter r hr ht
      · simp at h

end Scanner

/-- The tokens of a template up to the first that cannot be read, and why it
cannot. Without a failure the last token is the end of the input. -/
structure TokenStream where
  tokens : List Token
  failure : Option ScanError

def TokenStream.cons (t : Token) (ts : TokenStream) : TokenStream :=
  ⟨t :: ts.tokens, ts.failure⟩

/-- All tokens from here on, entering and leaving directives at their marks. -/
def Scanner.drain (s : Scanner) : TokenStream :=
  match h : s.next with
  | (.error e, _) => ⟨[], some e⟩
  | (.ok t, s') =>
    if ht : t.isEnd then ⟨[t], none⟩
    else
      have := Scanner.next_shorter h (by simpa using ht)
      (Scanner.drain { s' with mode := modeAfter s'.mode t }).cons t
termination_by s.cursor.rest.length

def tokens (source : String) : TokenStream :=
  (Scanner.ofChars source.toList).drain

end PageServer.Template
