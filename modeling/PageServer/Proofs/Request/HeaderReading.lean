import PageServer.Request.Header

/-!
# The header in a stream

Reading a header byte by byte finds the shortest beginning of what a connection
brings that ends with an empty line, if the limit does not come first. How the
bytes were cut into reads does not matter.
-/

namespace PageServer.Request

def lineFeed : UInt8 :=
  '\n'.toUInt8

def carriageReturn : UInt8 :=
  '\r'.toUInt8

/-- The bytes that a stream brings before it ends or fails. -/
def delivered : List Arrival → Bytes
  | [] => []
  | .bytes data :: rest => data ++ delivered rest
  | .interrupted :: rest => delivered rest
  | .failure :: _ => []

/-- Whether a stream fails before it ends. -/
def fails : List Arrival → Bool
  | [] => false
  | .bytes _ :: rest => fails rest
  | .interrupted :: rest => fails rest
  | .failure :: _ => true

/-- The bytes end with an empty line. -/
def EndsHeader (bytes : Bytes) : Prop :=
  [lineFeed, lineFeed] <:+ bytes ∨ [lineFeed, carriageReturn, lineFeed] <:+ bytes

instance : DecidablePred EndsHeader := fun bytes =>
  inferInstanceAs
    (Decidable ([lineFeed, lineFeed] <:+ bytes ∨ [lineFeed, carriageReturn, lineFeed] <:+ bytes))

/-- The shortest beginning that ends with an empty line. -/
structure IsHeaderOf (bytes header : Bytes) : Prop where
  begins : header <+: bytes
  ends : EndsHeader header
  shortest : ∀ p, p <+: bytes → EndsHeader p → header.length ≤ p.length

theorem IsHeaderOf.unique {bytes header header' : Bytes} (h : IsHeaderOf bytes header)
    (h' : IsHeaderOf bytes header') : header = header' := by
  have hle := h.shortest header' h'.begins h'.ends
  have hge := h'.shortest header h.begins h.ends
  have hprefix := List.prefix_of_prefix_length_le h.begins h'.begins hle
  exact hprefix.eq_of_length (Nat.le_antisymm hle hge)

/-! ### One byte -/

/-- Where in its lines the bytes end, the last byte first. -/
def placeAfter (taken : Bytes) : Place :=
  if [lineFeed] <+: taken then .lineStart
  else if [carriageReturn, lineFeed] <+: taken then .carriage
  else .inLine

theorem endsHeader_reverse_cons (b : UInt8) (taken : Bytes) :
    EndsHeader (b :: taken).reverse ↔
      b = lineFeed ∧ ([lineFeed] <+: taken ∨ [carriageReturn, lineFeed] <+: taken) := by
  have hpair : [lineFeed, lineFeed] = [lineFeed, lineFeed].reverse := rfl
  have htriple : [lineFeed, carriageReturn, lineFeed] =
      [lineFeed, carriageReturn, lineFeed].reverse := rfl
  rw [EndsHeader, hpair, htriple, List.reverse_suffix, List.reverse_suffix,
    List.cons_prefix_cons, List.cons_prefix_cons, ← and_or_left]
  exact and_congr_left fun _ => eq_comm

theorem step?_lineFeed (taken : Bytes) :
    (placeAfter taken).step? lineFeed =
      if [lineFeed] <+: taken ∨ [carriageReturn, lineFeed] <+: taken then none
      else some .lineStart := by
  rw [placeAfter]
  by_cases hline : [lineFeed] <+: taken
  · rw [if_pos hline, if_pos (.inl hline)]
    rfl
  · rw [if_neg hline]
    by_cases hcarriage : [carriageReturn, lineFeed] <+: taken
    · rw [if_pos hcarriage, if_pos (.inr hcarriage)]
      rfl
    · rw [if_neg hcarriage, if_neg (not_or.mpr ⟨hline, hcarriage⟩)]
      rfl

theorem step?_of_ne {b : UInt8} (hb : b ≠ lineFeed) (p : Place) :
    p.step? b = some (if b = carriageReturn ∧ p = .lineStart then .carriage else .inLine) := by
  have hstep : p.step? b =
      if b = carriageReturn ∧ p = .lineStart then some .carriage else some .inLine :=
    if_neg hb
  rw [hstep]
  split <;> rfl

theorem placeAfter_cons_of_ne {b : UInt8} (hb : b ≠ lineFeed) (taken : Bytes) :
    placeAfter (b :: taken) =
      if b = carriageReturn ∧ [lineFeed] <+: taken then .carriage else .inLine := by
  have hline : ¬ [lineFeed] <+: b :: taken := by
    intro h
    exact hb (List.cons_prefix_cons.mp h).1.symm
  simp [placeAfter, hline, List.cons_prefix_cons, eq_comm]

theorem placeAfter_eq_lineStart {taken : Bytes} :
    placeAfter taken = .lineStart ↔ [lineFeed] <+: taken := by
  rw [placeAfter]
  by_cases hline : [lineFeed] <+: taken
  · simp [hline]
  · rw [if_neg hline]
    by_cases hcarriage : [carriageReturn, lineFeed] <+: taken <;> simp [hline, hcarriage]

/-- The reader stops just when the bytes end with an empty line. -/
theorem step?_placeAfter (taken : Bytes) (b : UInt8) :
    (EndsHeader (b :: taken).reverse ∧ (placeAfter taken).step? b = none) ∨
      (¬ EndsHeader (b :: taken).reverse ∧
        (placeAfter taken).step? b = some (placeAfter (b :: taken))) := by
  rw [endsHeader_reverse_cons]
  by_cases hb : b = lineFeed
  · subst hb
    have hstart : placeAfter (lineFeed :: taken) = .lineStart :=
      placeAfter_eq_lineStart.mpr ⟨taken, rfl⟩
    rw [step?_lineFeed, hstart]
    by_cases hends : [lineFeed] <+: taken ∨ [carriageReturn, lineFeed] <+: taken
    · exact .inl ⟨⟨rfl, hends⟩, if_pos hends⟩
    · exact .inr ⟨fun h => hends h.2, if_neg hends⟩
  · refine .inr ⟨fun h => hb h.1, ?_⟩
    rw [step?_of_ne hb, placeAfter_cons_of_ne hb]
    simp only [placeAfter_eq_lineStart]

/-! ### All bytes of a stream -/

/-- A reader that has taken these bytes and met neither the end of the header
nor the limit. -/
structure HeaderReader.HasRead (limit : Nat) (r : HeaderReader) (bytes : Bytes) : Prop where
  taken : r.taken = bytes.reverse
  place : r.place = placeAfter bytes.reverse
  size : r.size = bytes.length
  within : bytes.length ≤ limit
  unended : ∀ p, p <+: bytes → ¬ EndsHeader p

/-- What feeding bytes to a new reader comes to. -/
def Progress.Tells (limit : Nat) (bytes : Bytes) : Progress → Prop
  | reading _ => bytes.length ≤ limit ∧ ∀ p, p <+: bytes → ¬ EndsHeader p
  | complete header => IsHeaderOf bytes header ∧ header.length ≤ limit
  | tooLarge => limit < bytes.length ∧ ∀ p, p <+: bytes → EndsHeader p → limit < p.length

theorem not_endsHeader_nil : ¬ EndsHeader [] := by
  rintro (h | h) <;> exact absurd h.length_le (by decide)

theorem HeaderReader.hasRead_start (limit : Nat) : start.HasRead limit [] where
  taken := rfl
  place := rfl
  size := rfl
  within := Nat.zero_le limit
  unended := by
    intro p hp
    obtain rfl := List.prefix_nil.mp hp
    exact not_endsHeader_nil

/-- A beginning of more bytes is one of the first bytes or longer than them. -/
theorem prefix_append_cases {p bytes rest : Bytes} (h : p <+: bytes ++ rest) :
    p <+: bytes ∨ bytes.length < p.length := by
  by_cases hle : p.length ≤ bytes.length
  · exact .inl (List.prefix_of_prefix_length_le h (List.prefix_append bytes rest) hle)
  · exact .inr (Nat.lt_of_not_le hle)

theorem HeaderReader.HasRead.feed {limit : Nat} {r : HeaderReader} {bytes : Bytes}
    (hr : r.HasRead limit bytes) (rest : Bytes) :
    (r.feed limit rest).Tells limit (bytes ++ rest) := by
  -- on the bytes to come, while no beginning of those taken ends the header
  induction rest generalizing r bytes with
  | nil =>
    rw [List.append_nil]
    exact ⟨hr.within, hr.unended⟩
  | cons b rest ih =>
    rw [HeaderReader.feed]
    by_cases hlimit : limit ≤ r.size
    · rw [if_pos hlimit]
      have hlength : limit ≤ bytes.length := hr.size ▸ hlimit
      refine ⟨by rw [List.length_append, List.length_cons]; omega, ?_⟩
      intro p hp hends
      rcases prefix_append_cases hp with hp | hp
      · exact absurd hends (hr.unended p hp)
      · exact Nat.lt_of_le_of_lt hlength hp
    · rw [if_neg hlimit, hr.place]
      have hlength : bytes.length + 1 ≤ limit := by
        have hsize := hr.size
        omega
      have hreverse : (b :: bytes.reverse).reverse = bytes ++ [b] := by
        simp
      have hwhole : bytes ++ b :: rest = bytes ++ [b] ++ rest := by
        simp
      rcases step?_placeAfter bytes.reverse b with ⟨hends, hstep⟩ | ⟨hopen, hstep⟩
      · -- this byte ends the header, and no earlier one did
        rw [hstep, hr.taken, hreverse]
        rw [hreverse] at hends
        refine ⟨⟨?_, hends, ?_⟩, by simpa using hlength⟩
        · rw [hwhole]
          exact List.prefix_append _ _
        · intro p hp hpends
          rcases prefix_append_cases hp with hp | hp
          · exact absurd hpends (hr.unended p hp)
          · rw [List.length_append, List.length_singleton]
            exact hp
      · rw [hstep, hwhole]
        rw [hreverse] at hopen
        apply ih
        refine ⟨?_, ?_, ?_, by simpa using hlength, ?_⟩
        · simp [hr.taken]
        · simp
        · simp [hr.size]
        · intro p hp
          rcases List.prefix_concat_iff.mp hp with rfl | hp
          · exact hopen
          · exact hr.unended p hp

theorem HeaderReader.readFrom_eq (limit : Nat) (r : HeaderReader) (stream : List Arrival) :
    r.readFrom limit stream =
      match r.feed limit (delivered stream) with
      | .reading _ => if fails stream then .error .readFailed else .ok none
      | .complete header => .ok (some header)
      | .tooLarge => .error (.headerTooLarge limit) := by
  induction stream generalizing r with
  | nil => rfl
  | cons arrival rest ih =>
    cases arrival with
    | interrupted => exact ih r
    | failure => rfl
    | bytes data =>
      rw [readFrom, delivered, feed_append]
      cases hfeed : r.feed limit data with
      | reading r' => exact ih r'
      | complete header => rfl
      | tooLarge => rfl

/-- What reading the header of a stream comes to, in terms of the bytes that the
stream brings. -/
theorem readHeader_cases (limit : Nat) (stream : List Arrival) :
    ((delivered stream).length ≤ limit ∧ (∀ p, p <+: delivered stream → ¬ EndsHeader p) ∧
        readHeader limit stream = if fails stream then .error .readFailed else .ok none) ∨
      (∃ header, IsHeaderOf (delivered stream) header ∧ header.length ≤ limit ∧
        readHeader limit stream = .ok (some header)) ∨
      (limit < (delivered stream).length ∧
        (∀ p, p <+: delivered stream → EndsHeader p → limit < p.length) ∧
        readHeader limit stream = .error (.headerTooLarge limit)) := by
  have htells := (HeaderReader.hasRead_start limit).feed (delivered stream)
  rw [readHeader, HeaderReader.readFrom_eq]
  rw [List.nil_append] at htells
  cases hfeed : HeaderReader.start.feed limit (delivered stream) with
  | reading r =>
    rw [hfeed] at htells
    exact .inl ⟨htells.1, htells.2, rfl⟩
  | complete header =>
    rw [hfeed] at htells
    exact .inr (.inl ⟨header, htells.1, htells.2, rfl⟩)
  | tooLarge =>
    rw [hfeed] at htells
    exact .inr (.inr ⟨htells.1, htells.2, rfl⟩)

/-! ### The length of the header -/

/-- The length of the shortest beginning that ends with an empty line. -/
def headerLength? (bytes : Bytes) : Option Nat :=
  (List.range (bytes.length + 1)).find? fun n => EndsHeader (bytes.take n)

theorem endsHeader_of_headerLength? {bytes : Bytes} {n : Nat} (h : headerLength? bytes = some n) :
    EndsHeader (bytes.take n) := by
  simpa using List.find?_some h

theorem headerLength?_of_isHeaderOf {bytes header : Bytes} (h : IsHeaderOf bytes header) :
    headerLength? bytes = some header.length := by
  rw [headerLength?, List.find?_range_eq_some]
  have hbegins := List.prefix_iff_eq_take.mp h.begins
  refine ⟨?_, ?_, ?_⟩
  · rw [← hbegins]
    exact decide_eq_true h.ends
  · exact List.mem_range.mpr (Nat.lt_succ_of_le h.begins.length_le)
  · intro n hn
    rw [Bool.not_eq_true', decide_eq_false_iff_not]
    intro hends
    have hle := h.shortest _ (List.take_prefix n bytes) hends
    have htake := List.length_take_le n bytes
    omega

theorem headerLength?_eq_none {bytes : Bytes} (h : ∀ p, p <+: bytes → ¬ EndsHeader p) :
    headerLength? bytes = none := by
  rw [headerLength?, List.find?_eq_none]
  intro n _
  rw [decide_eq_true_eq]
  exact h _ (List.take_prefix n bytes)

/-- No beginning that ends with an empty line fits the limit. -/
theorem filter_headerLength?_eq_none {bytes : Bytes} {limit : Nat}
    (h : ∀ p, p <+: bytes → EndsHeader p → limit < p.length) :
    (headerLength? bytes).filter (· ≤ limit) = none := by
  rw [Option.filter_eq_none_iff]
  intro n hn
  have hlong := h _ (List.take_prefix n bytes) (endsHeader_of_headerLength? hn)
  have htake := List.length_take_le n bytes
  rw [decide_eq_true_eq]
  omega

theorem readHeader_congr {stream other : List Arrival} (hbytes : delivered other = delivered stream)
    (hfails : fails other = fails stream) (limit : Nat) :
    readHeader limit other = readHeader limit stream := by
  rw [readHeader, readHeader, HeaderReader.readFrom_eq, HeaderReader.readFrom_eq, hbytes, hfails]

/-- The header is the shortest beginning of the bytes that ends with an empty
line, if it fits the limit. Without one, more bytes than the limit are too many,
and with no more of them the stream has ended or failed. How the bytes are cut into
reads, and how often a read is interrupted, does not show. -/
theorem readHeader_takes_first_empty_line (limit : Nat) (stream : List Arrival) :
    readHeader limit stream =
      (match (headerLength? (delivered stream)).filter (· ≤ limit) with
      | some n => .ok (some ((delivered stream).take n))
      | none =>
        if limit < (delivered stream).length then .error (.headerTooLarge limit)
        else if fails stream then .error .readFailed
        else .ok none) ∧
    ∀ other, delivered other = delivered stream → fails other = fails stream →
      readHeader limit other = readHeader limit stream := by
  refine ⟨?_, fun other hbytes hfails => readHeader_congr hbytes hfails limit⟩
  rcases readHeader_cases limit stream with
    ⟨hshort, hopen, hread⟩ | ⟨header, hheader, hfits, hread⟩ | ⟨hlong, hlate, hread⟩
  · rw [headerLength?_eq_none hopen, Option.filter_none, hread]
    exact (if_neg (Nat.not_lt.mpr hshort)).symm
  · have hkept : (some header.length).filter (· ≤ limit) = some header.length :=
      Option.filter_some_pos (decide_eq_true hfits)
    rw [headerLength?_of_isHeaderOf hheader, hkept, hread]
    simp only [← List.prefix_iff_eq_take.mp hheader.begins]
  · rw [filter_headerLength?_eq_none hlate, hread]
    exact (if_pos hlong).symm

/-- A header that ends right at the limit, with a read that breaks off inside its
empty line. -/
theorem readHeader_cut_in_empty_line :
    let stream := [.bytes [71, 10, 13], .interrupted, .bytes [10, 66]]
    let other := [.bytes [71], .bytes [10, 13, 10, 66]]
    delivered other = delivered stream ∧ fails other = fails stream ∧
      readHeader 4 other = readHeader 4 stream ∧
      readHeader 4 stream = .ok (some [71, 10, 13, 10]) := by
  intro stream other
  have hbytes : delivered other = delivered stream := by decide
  have hfails : fails other = fails stream := by decide
  exact ⟨hbytes, hfails,
    (readHeader_takes_first_empty_line 4 stream).2 other hbytes hfails, rfl⟩

end PageServer.Request
