import PageServer.Proofs.Exchange.HeadLines
import PageServer.Proofs.Exchange.Refusals
import PageServer.Proofs.Request.CookieReading

/-!
# Cookies sent back

A client sends the name and quoted value of every cookie back as it received
them. What is read then are the names and values that were set, but with a
question mark for every character that the head was not able to say.
-/

namespace PageServer.Text

/-! ### Text that was sent -/

/-- A text as it is read after it was sent in a head. -/
def latin1Text (s : String) : String :=
  String.ofList (s.toList.map latin1Char)

theorem isLatin1_latin1Text (s : String) : IsLatin1 (latin1Text s) := by
  intro c hc
  rw [latin1Text, String.toList_ofList] at hc
  obtain ⟨d, -, rfl⟩ := List.mem_map.mp hc
  rw [latin1Char]
  split
  · assumption
  · decide

theorem latin1Text_of_isLatin1 {s : String} (h : IsLatin1 s) : latin1Text s = s := by
  rw [latin1Text, ← ofLatin1_latin1Bytes, ofLatin1_of_isLatin1 h, String.ofList_toList]

/-! ### Pieces -/

theorem takeWhile_append_of_nil {α : Type} {p : α → Bool} {a b : List α} (ha : a.takeWhile p = [])
    (hb : b.takeWhile p = []) : (a ++ b).takeWhile p = [] := by
  cases a with
  | nil => exact hb
  | cons c a =>
    have hc : ¬ p c = true := by
      intro h
      rw [List.takeWhile_cons_of_pos h] at ha
      cases ha
    rw [List.cons_append, List.takeWhile_cons_of_neg hc]

theorem map_intercalate {α β : Type} (f : α → β) (sep : List α) (ws : List (List α)) :
    (sep.intercalate ws).map f = (sep.map f).intercalate (ws.map (List.map f)) := by
  induction ws with
  | nil => rfl
  | cons w ws ih =>
    cases ws with
    | nil => simp only [List.intercalate_singleton, List.map_cons, List.map_nil]
    | cons v ws =>
      rw [List.intercalate_cons_cons, List.map_append, List.map_append, ih]
      simp only [List.map_cons, List.intercalate_cons_cons]

theorem forall_mem_intercalate {α : Type} {P : α → Prop} {sep : List α} {ws : List (List α)}
    (hsep : ∀ c ∈ sep, P c) (hws : ∀ w ∈ ws, ∀ c ∈ w, P c) : ∀ c ∈ sep.intercalate ws, P c := by
  induction ws with
  | nil => nofun
  | cons w ws ih =>
    have hw := hws w List.mem_cons_self
    cases ws with
    | nil =>
      rw [List.intercalate_singleton]
      exact hw
    | cons v ws =>
      rw [List.intercalate_cons_cons, List.forall_mem_append, List.forall_mem_append]
      exact ⟨⟨hw, hsep⟩, ih fun u hu => hws u (List.mem_cons_of_mem w hu)⟩

end PageServer.Text

namespace PageServer.Response

open Request (IsLine block IsPair pairText pairsText lineFeed carriageReturn)
open Text (latin1Bytes latin1Byte latin1Char ofLatin1 latin1Text IsLatin1 splitBy)

/-! ### Pairs in a head -/

namespace Cookie

/-- The name and quoted value of a cookie. -/
def pair (c : Cookie) : String :=
  c.name ++ "=\"" ++ c.value ++ "\""

def attributes (c : Cookie) : String :=
  optional "Domain" c.domain ++ optional "Path" c.path ++
    optional "Max-Age" (c.maxAge.map fun n => Decimal.natText n.toNat) ++
    if c.httpOnly then "; HttpOnly" else ""

theorem text_eq (c : Cookie) : c.text = c.pair ++ c.attributes := by
  simp only [text, pair, attributes, String.append_assoc]

/-- A byte before the first semicolon of a line. -/
def inPair (b : UInt8) : Bool :=
  b != latin1Byte ';' && b != carriageReturn

theorem takeWhile_optional (label : String) (text : Option String) :
    (latin1Bytes (optional label text)).takeWhile inPair = [] := by
  cases text with
  | none => rfl
  | some v =>
    have hsemicolon : ¬ inPair (latin1Byte ';') = true := by decide
    have hparts : (optional label (some v)).toList = ';' :: ' ' :: (label ++ "=" ++ v).toList := by
      change ("; " ++ label ++ "=" ++ v).toList = _
      simp
    rw [latin1Bytes, hparts]
    exact List.takeWhile_cons_of_neg hsemicolon

theorem takeWhile_attributes (c : Cookie) :
    (latin1Bytes c.attributes ++ [carriageReturn]).takeWhile inPair = [] := by
  have hlast : (latin1Bytes (if c.httpOnly then "; HttpOnly" else "")).takeWhile inPair = [] := by
    cases c.httpOnly <;> decide
  have hreturn : [carriageReturn].takeWhile inPair = [] := by decide
  simp only [attributes, Text.latin1Bytes_append]
  apply Text.takeWhile_append_of_nil _ hreturn
  apply Text.takeWhile_append_of_nil _ hlast
  apply Text.takeWhile_append_of_nil _ (takeWhile_optional _ _)
  exact Text.takeWhile_append_of_nil (takeWhile_optional _ _) (takeWhile_optional _ _)

theorem isPlain_pair {c : Cookie} (h : c.fault? = none) : IsPlain c.pair := by
  have htext := isPlain_text h
  rw [text_eq, isPlain_append] at htext
  exact htext.1

theorem not_mem_of_not_breaksOut {s : String} (h : s.toList.any breaksOut = false) :
    ';' ∉ s.toList := by
  intro hmem
  have hbreaks := List.any_eq_false.mp h ';' hmem
  exact hbreaks (by decide)

theorem inPair_pair {c : Cookie} (h : c.fault? = none) :
    ∀ b ∈ latin1Bytes c.pair, inPair b = true := by
  have htexts := not_breaksOut_of_fault? h
  have hname := not_mem_of_not_breaksOut (htexts .cookieName c.name (by simp [texts]))
  have hvalue := not_mem_of_not_breaksOut (htexts .cookieValue c.value (by simp [texts]))
  intro b hb
  obtain ⟨x, hx, rfl⟩ := List.mem_map.mp hb
  have hreturn := (latin1Byte_of_plain (isPlain_pair h x hx)).2
  have hsemicolon : latin1Byte x ≠ latin1Byte ';' := by
    intro heq
    obtain rfl := (Text.latin1Byte_eq_iff (d := ';') (by decide) (by decide)).mp heq
    have hcases : ';' ∈ c.name.toList ∨ ';' ∈ c.value.toList := by simpa [pair] using hx
    exact hcases.elim hname hvalue
  simp [inPair, hreturn, hsemicolon]

end Cookie

/-- The name and value that a line sets, if it sets a cookie. -/
def setPair? (line : Bytes) : Option Bytes :=
  (line.dropPrefix? (latin1Bytes "Set-Cookie: ")).map fun rest => rest.takeWhile Cookie.inPair

/-- The names and values that the lines of a head set. -/
def setPairs (head : Bytes) : List Bytes :=
  (splitBy (· == lineFeed) head).filterMap setPair?

theorem setPair?_line {c : Cookie} (h : c.fault? = none) :
    setPair? (c.line ++ [carriageReturn]) = some (latin1Bytes c.pair) := by
  have hline : c.line ++ [carriageReturn] = latin1Bytes "Set-Cookie: " ++
      (latin1Bytes c.pair ++ (latin1Bytes c.attributes ++ [carriageReturn])) := by
    rw [Cookie.line, Cookie.text_eq, Text.latin1Bytes_append, Text.latin1Bytes_append,
      List.append_assoc, List.append_assoc]
  have hdrop : (c.line ++ [carriageReturn]).dropPrefix? (latin1Bytes "Set-Cookie: ") =
      some (latin1Bytes c.pair ++ (latin1Bytes c.attributes ++ [carriageReturn])) := by
    apply List.dropPrefix?_eq_some_iff.mpr
    exact ⟨_, hline, beq_self_eq_true _⟩
  rw [setPair?, hdrop, Option.map_some, List.takeWhile_append_of_pos (Cookie.inPair_pair h),
    c.takeWhile_attributes, List.append_nil]

theorem setPair?_eq_none {line : Bytes} (h : ¬ latin1Bytes "Set-Cookie: " <+: line) :
    setPair? line = none := by
  rw [setPair?, Option.map_eq_none_iff]
  cases hdrop : line.dropPrefix? (latin1Bytes "Set-Cookie: ") with
  | none => rfl
  | some rest =>
    obtain ⟨start, hline, hstart⟩ := List.dropPrefix?_eq_some_iff.mp hdrop
    obtain rfl := beq_iff_eq.mp hstart
    exact absurd ⟨rest, hline.symm⟩ h

/-- The pairs in the bytes of a head are those of its cookies. -/
theorem setPairs_bytes {h : Head} (hh : h.IsClean) :
    setPairs h.bytes = h.cookies.map fun c => latin1Bytes c.pair := by
  have hfront : (h.frontLines.map (· ++ [carriageReturn])).filterMap setPair? = [] := by
    apply List.filterMap_eq_nil_iff.mpr
    intro line hline
    obtain ⟨l, hl, rfl⟩ := List.mem_map.mp hline
    apply setPair?_eq_none
    intro hprefix
    rcases List.prefix_concat_iff.mp hprefix with heq | hinside
    · have hlast := congrArg List.getLast? heq
      rw [List.getLast?_concat] at hlast
      revert hlast
      decide
    · exact h.not_prefix_frontLines l hl hinside
  have hcookies : (h.cookies.map fun c => c.line ++ [carriageReturn]).filterMap setPair? =
      h.cookies.map fun c => latin1Bytes c.pair := by
    rw [List.filterMap_map, ← List.filterMap_eq_map]
    apply List.filterMap_congr
    intro c hc
    exact setPair?_line (hh.cookies c hc)
  have hend : [[carriageReturn], []].filterMap setPair? = [] := by decide
  rw [setPairs, Head.bytes_eq_block, Head.map_lines, Request.splitBy_block hh.isLine,
    List.map_append, List.map_map, List.filterMap_append, List.filterMap_append, hfront, hend]
  simp only [List.nil_append, List.append_nil]
  exact hcookies

/-! ### Pairs sent back -/

/-- What a client sends back of the cookies in a head. -/
def returned (head : Bytes) : Bytes :=
  (latin1Bytes "; ").intercalate (setPairs head)

/-- The name and value of a cookie as they are read. -/
def Cookie.readPair (c : Cookie) : List Char × List Char :=
  (c.name.toList.map latin1Char, c.value.toList.map latin1Char)

theorem Cookie.ofLatin1_pair (c : Cookie) :
    ofLatin1 (latin1Bytes c.pair) = pairText c.readPair.1 c.readPair.2 := by
  have hequals : "=\"".toList.map latin1Char = "=\"".toList := by decide
  have hquote : "\"".toList.map latin1Char = ['"'] := by decide
  rw [Text.ofLatin1_latin1Bytes, pair]
  simp only [String.toList_append, List.map_append, hequals, hquote]
  rfl

theorem ofLatin1_returned {h : Head} (hh : h.IsClean) :
    ofLatin1 (returned h.bytes) = pairsText (h.cookies.map Cookie.readPair) := by
  have hsep : ofLatin1 (latin1Bytes "; ") = "; ".toList := by decide
  rw [returned, setPairs_bytes hh, ofLatin1, Text.map_intercalate, ← ofLatin1, hsep, pairsText,
    List.map_map, List.map_map]
  congr 1
  apply List.map_congr_left
  intro c hc
  exact c.ofLatin1_pair

theorem isLine_returned {h : Head} (hh : h.IsClean) :
    ∀ b ∈ returned h.bytes, b ≠ lineFeed ∧ b ≠ carriageReturn := by
  rw [returned, setPairs_bytes hh]
  apply Text.forall_mem_intercalate
  · decide +kernel
  · intro w hw b hb
    obtain ⟨c, hc, rfl⟩ := List.mem_map.mp hw
    obtain ⟨x, hx, rfl⟩ := List.mem_map.mp hb
    exact latin1Byte_of_plain (Cookie.isPlain_pair (hh.cookies c hc) x hx)

/-- White space that a name may have at its ends, but not keep when it is read. -/
def noBreakSpace : Char :=
  Char.ofNat 0xa0

/-- The name of a cookie has no white space at its ends. -/
structure Cookie.IsTight (c : Cookie) : Prop where
  first : c.name.toList.head? ≠ some noBreakSpace
  last : c.name.toList.getLast? ≠ some noBreakSpace

theorem isBlank_latin1Char {c : Char} (hplain : Text.isControl c = false) (hspace : c ≠ ' ')
    (hwide : c ≠ noBreakSpace) : Text.isBlank (latin1Char c) = false := by
  rw [latin1Char]
  split
  · next hsmall =>
    have hspace' : c.toNat ≠ ' '.toNat := fun h => hspace (Char.toNat_inj.mp h)
    have hwide' : c.toNat ≠ noBreakSpace.toNat := fun h => hwide (Char.toNat_inj.mp h)
    have h32 : ' '.toNat = 32 := by decide
    have h160 : noBreakSpace.toNat = 160 := by decide
    rw [h32] at hspace'
    rw [h160] at hwide'
    simp [Text.isControl] at hplain
    simp [Text.isBlank, Text.inRanges, Text.blankRanges]
    omega
  · decide

theorem Cookie.name_of_fault? {c : Cookie} (h : c.fault? = none) :
    c.name.toList ≠ [] ∧ '=' ∉ c.name.toList ∧ ' ' ∉ c.name.toList := by
  simp only [fault?] at h
  split at h
  · cases h
  · split at h
    · cases h
    · next hname =>
      simp only [Bool.or_eq_true, List.any_eq_true, not_or, not_exists, not_and] at hname
      obtain ⟨hempty, hsigns⟩ := hname
      refine ⟨?_, ?_, ?_⟩
      · intro hnil
        apply hempty
        simpa using hnil
      · intro hmem
        exact (hsigns '=' hmem).1 (by decide)
      · intro hmem
        exact (hsigns ' ' hmem).2 (by decide)

theorem Cookie.isPair {c : Cookie} (h : c.fault? = none) (htight : c.IsTight) :
    IsPair c.readPair.1 c.readPair.2 := by
  have htexts := not_breaksOut_of_fault? h
  have hname := htexts .cookieName c.name (by simp [texts])
  have hvalue := htexts .cookieValue c.value (by simp [texts])
  obtain ⟨hnonempty, hequals, hspace⟩ := name_of_fault? h
  have hblank {x : Char} (hx : x ∈ c.name.toList) (hwide : x ≠ noBreakSpace) :
      Text.isBlank (latin1Char x) = false := by
    apply isBlank_latin1Char (isPlain_of_not_breaksOut hname x hx) _ hwide
    rintro rfl
    exact hspace hx
  have hkept {d : Char} (hd : d.toNat < 256) (hmark : d ≠ '?') {cs : List Char} (hcs : d ∉ cs) :
      d ∉ cs.map latin1Char := by
    intro hmem
    obtain ⟨x, hx, hread⟩ := List.mem_map.mp hmem
    rw [Text.latin1Char_eq_iff hd hmark] at hread
    exact hcs (hread ▸ hx)
  refine ⟨?_, ?_, ?_, ?_, ?_, ?_⟩
  · exact mt List.map_eq_nil_iff.mp hnonempty
  · intro x hx
    rw [readPair, List.head?_map] at hx
    obtain ⟨d, hd, rfl⟩ := Option.map_eq_some_iff.mp hx
    apply hblank (List.mem_of_head? hd)
    rintro rfl
    exact htight.first hd
  · intro x hx
    rw [readPair, List.getLast?_map] at hx
    obtain ⟨d, hd, rfl⟩ := Option.map_eq_some_iff.mp hx
    apply hblank (List.mem_of_getLast? hd)
    rintro rfl
    exact htight.last hd
  · exact hkept (by decide) (by decide) hequals
  · exact hkept (by decide) (by decide) (not_mem_of_not_breaksOut hname)
  · exact hkept (by decide) (by decide) (not_mem_of_not_breaksOut hvalue)

/-! ### Names and values -/

/-- What is read of cookies is what was set exactly if a head can say all of it. -/
theorem ofList_latin1Text_eq_iff {cookies : List Cookie}
    (hnames : (cookies.map Cookie.name).Nodup) :
    Table.ofList (cookies.map fun c => (latin1Text c.name, latin1Text c.value)) =
        .ofList (cookies.map fun c => (c.name, c.value)) ↔
      ∀ c ∈ cookies, IsLatin1 c.name ∧ IsLatin1 c.value := by
  constructor
  · intro hsame c hc
    have hkeys : ((cookies.map fun c => (c.name, c.value)).map Prod.fst).Nodup := by
      rw [List.map_map]
      exact hnames
    have hset := Table.get?_ofList_of_mem hkeys (List.mem_map_of_mem hc)
    rw [← hsame] at hset
    obtain ⟨d, -, hd⟩ := List.mem_map.mp (Table.mem_of_get?_ofList hset)
    obtain ⟨hname, hvalue⟩ := Prod.mk.inj hd
    rw [← hname, ← hvalue]
    exact ⟨Text.isLatin1_latin1Text _, Text.isLatin1_latin1Text _⟩
  · intro hlatin
    congr 1
    apply List.map_congr_left
    intro c hc
    obtain ⟨hname, hvalue⟩ := hlatin c hc
    rw [Text.latin1Text_of_isLatin1 hname, Text.latin1Text_of_isLatin1 hvalue]

end PageServer.Response

namespace PageServer.Exchange

open Response (Cookie returned)
open Text (IsLatin1 latin1Text)

/-- Cookies that were added one after another are valid and are all there. -/
theorem forM_addCookie {cookies : List Cookie} {ex ex' : Exchange}
    (h : forM cookies addCookie ex = .ok () ex') :
    (∀ c ∈ cookies, c.fault? = none) ∧
      ex' = { ex with head := { ex.head with cookies := ex.head.cookies ++ cookies } } := by
  induction cookies generalizing ex with
  | nil =>
    cases h
    refine ⟨fun c hc => absurd hc List.not_mem_nil, ?_⟩
    simp
  | cons c cookies ih =>
    rw [List.forM_cons, bind_apply] at h
    rcases change_cases .cookies c.fault? (fun h => { h with cookies := h.cookies ++ [c] }) ex with
      ⟨-, hlate⟩ | ⟨-, e, -, hfault⟩ | ⟨-, hvalid, hadded⟩
    · simp only [addCookie, hlate] at h
      cases h
    · simp only [addCookie, hfault] at h
      cases h
    · simp only [addCookie, hadded] at h
      obtain ⟨hrest, hlast⟩ := ih h
      refine ⟨List.forall_mem_cons.mpr ⟨hvalid, hrest⟩, ?_⟩
      rw [hlast]
      simp

/-- Cookies that were all accepted, sent back as they stand in the head, are read
as their names and values with a question mark for every character above U+00FF:
so they are the ones that were set exactly if there is no such character. Of
cookies that are read with one name the last counts. -/
theorem sent_cookies_read_back {sink : Sink} {query persistent : Params} {site : Option Site}
    {cookies : List Cookie} {ex : Exchange}
    (hadded : forM cookies addCookie (start sink query persistent [] site) = .ok () ex)
    (hnames : (cookies.map Cookie.name).Nodup) (htight : ∀ c ∈ cookies, c.IsTight)
    (frame : Request.CookieFrame) :
    ∃ request, Request.parse (frame.bytes (returned ex.head.bytes)) = .ok request ∧
      request.target = frame.target ∧ request.version = frame.version ∧
      request.cookies = .ofList (cookies.map fun c => (latin1Text c.name, latin1Text c.value)) ∧
      (request.cookies = .ofList (cookies.map fun c => (c.name, c.value)) ↔
        ∀ c ∈ cookies, IsLatin1 c.name ∧ IsLatin1 c.value) := by
  obtain ⟨hvalid, rfl⟩ := forM_addCookie hadded
  have hclean : (Response.Head.initial cookies).IsClean := Response.Head.isClean_initial hvalid
  have hpairs : ∀ p ∈ cookies.map Cookie.readPair, Request.IsPair p.1 p.2 := by
    intro p hp
    obtain ⟨c, hc, rfl⟩ := List.mem_map.mp hp
    exact Cookie.isPair (hvalid c hc) (htight c hc)
  obtain ⟨request, hparse, htarget, hversion, hcookies⟩ := frame.parse_pairs
    (Response.isLine_returned hclean) (Response.ofLatin1_returned hclean) hpairs
  have hread : request.cookies =
      .ofList (cookies.map fun c => (latin1Text c.name, latin1Text c.value)) := by
    rw [hcookies]
    exact congrArg Table.ofList List.map_map
  refine ⟨request, hparse, htarget, hversion, hread, ?_⟩
  rw [hread]
  exact Response.ofList_latin1Text_eq_iff hnames

/-- A request with a cookie field and no other. -/
def onlyCookies : Request.CookieFrame where
  line := Text.latin1Bytes "GET / HTTP/1.1"
  before := []
  after := []
  target := "/"
  version := .http11
  isLine := by
    intro l hl
    obtain rfl := List.mem_singleton.mp hl
    exact ⟨by decide, by decide +kernel⟩
  separate := nofun
  parseLine_eq := by decide +kernel
  others := nofun

theorem session_and_euro_read_back :
    let cookies : List Cookie :=
      [⟨"sid", "A", some "localhost", some "/", some 60, true⟩, .plain "\u00e9" "1 = \u20ac"]
    let first := start .unlimited .empty .empty [] none
    ∃ ex request, forM cookies addCookie first = .ok () ex ∧
      Request.parse (onlyCookies.bytes (returned ex.head.bytes)) = .ok request ∧
      request.cookies = .ofList [("sid", "A"), ("\u00e9", "1 = ?")] ∧
      request.cookies ≠ .ofList (cookies.map fun c => (c.name, c.value)) := by
  intro cookies first
  have hadded : ∃ ex, forM cookies addCookie first = .ok () ex := ⟨_, rfl⟩
  obtain ⟨ex, hadded⟩ := hadded
  have hnames : (cookies.map Cookie.name).Nodup := by decide
  have htight : ∀ c ∈ cookies, c.IsTight := by
    have hfirst : ∀ c ∈ cookies, c.name.toList.head? ≠ some Response.noBreakSpace := by decide
    have hlast : ∀ c ∈ cookies, c.name.toList.getLast? ≠ some Response.noBreakSpace := by decide
    exact fun c hc => ⟨hfirst c hc, hlast c hc⟩
  obtain ⟨request, hparse, -, -, hread, hset⟩ :=
    sent_cookies_read_back hadded hnames htight onlyCookies
  refine ⟨ex, request, hadded, hparse, hread, ?_⟩
  intro hsame
  have hlatin := hset.mp hsame (.plain "\u00e9" "1 = \u20ac") (by decide)
  revert hlatin
  decide

/-- What becomes of one cookie on its way to the client and back. -/
def sentBack (c : Cookie) : Option (List (String × String)) :=
  match addCookie c (start .unlimited .empty .empty [] none) with
  | .ok _ ex =>
    match Request.parse (onlyCookies.bytes (returned ex.head.bytes)) with
    | .ok request => some request.cookies.entries
    | .error _ => none
  | .error _ _ => none

/-- A value with a character that the head cannot say, and a name that begins with
white space: both are accepted, and neither is read as it was set. -/
theorem euro_and_wide_space_not_read_back :
    sentBack (.plain "a" "\u20ac") = some [("a", "?")] ∧
      sentBack (.plain "\u00a0a" "1") = some [("a", "1")] := by
  constructor
  · decide +kernel
  · decide +kernel

end PageServer.Exchange
