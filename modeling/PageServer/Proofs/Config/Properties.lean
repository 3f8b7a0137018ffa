import PageServer.Config.Properties
import PageServer.Proofs.Text.Lines

/-!
# What a properties text says

A text is read line by line. A line that says nothing is passed over, one that gives a
value to a key adds an entry, and the first one that does neither is named by the error.
Which entries a text comes to is first stated as a relation between entries and lines;
a table that is written down in any of the usual ways is such a text for its entries.
-/

namespace PageServer.Config.Properties

open Text (isBlank trimChars cutBy? Lined)

/-! ### One line -/

/-- Lines that are not blank and no comments. -/
def Speaks (line : List Char) : Prop :=
  ∃ c rest, trimChars line = c :: rest ∧ c ≠ '#' ∧ c ≠ '!'

/-- What stands before and after the first separator of a text. -/
def Divided (text front back : List Char) : Prop :=
  (∀ c ∈ front, c ≠ '=' ∧ c ≠ ':') ∧
    ∃ sep, (sep = '=' ∨ sep = ':') ∧ text = front ++ sep :: back

/-- A line that gives a value to a key. -/
def Gives (line : List Char) (key value : String) : Prop :=
  Speaks line ∧ ∃ front back, Divided (trimChars line) front back ∧
    (∃ c ∈ front, isBlank c = false) ∧
    trimChars front = key.toList ∧ trimChars back = value.toList

/-- A line that says something, but not to which key: it has no separator, or there is
only white space before the first one. -/
def Offends (line : List Char) : Prop :=
  Speaks line ∧ ∀ front back, Divided (trimChars line) front back →
    ∀ c ∈ front, isBlank c = true

theorem isSeparator_iff {c : Char} : isSeparator c = true ↔ c = '=' ∨ c = ':' := by
  simp [isSeparator]

theorem divided_iff {text front back : List Char} :
    Divided text front back ↔ cutBy? isSeparator text = some (front, back) := by
  have hnone (c : Char) : (c ≠ '=' ∧ c ≠ ':') ↔ isSeparator c = false := by
    rw [← not_or, ← isSeparator_iff, Bool.not_eq_true]
  simp only [Divided, Text.cutBy?_eq_some_iff, hnone, isSeparator_iff]

theorem speaks_iff {line : List Char} : Speaks line ↔ isSilent (trimChars line) = false := by
  rw [Speaks]
  cases trimChars line with
  | nil => simp [isSilent]
  | cons c rest => simp [isSilent]

theorem ofChars_of_not_speaks {line : List Char} (h : ¬ Speaks line) :
    Line.ofChars line = .nothing := by
  rw [speaks_iff, Bool.not_eq_false] at h
  exact if_pos h

theorem Gives.ofChars_eq {line : List Char} {key value : String} (h : Gives line key value) :
    Line.ofChars line = .pair key value := by
  obtain ⟨hspeaks, front, back, hdivided, ⟨c, hc, hblank⟩, hkey, hvalue⟩ := h
  rw [speaks_iff] at hspeaks
  have hfront : key.toList.isEmpty = false := by
    rw [List.isEmpty_eq_false_iff, ← hkey]
    intro hempty
    have hall := Text.trimChars_eq_nil_iff.mp hempty c hc
    simp [hblank] at hall
  simp only [Line.ofChars, hspeaks, divided_iff.mp hdivided, hkey, hvalue, hfront,
    String.ofList_toList, Bool.false_eq_true, if_false]

/-- The error for a line that offends. -/
def Tells (line : List Char) (number : Nat) (e : PropertiesError) : Prop :=
  (∃ front back, Divided (trimChars line) front back) ∧ e = .emptyKey number ∨
    (∀ front back, ¬ Divided (trimChars line) front back) ∧
      e = .noSeparator number (String.ofList (trimChars line))

theorem Tells.message_eq {line : List Char} {number : Nat} {e : PropertiesError}
    (h : Tells line number e) :
    ∃ rest, e.message = "line " ++ Decimal.natText number ++ ": " ++ rest := by
  rcases h with ⟨-, rfl⟩ | ⟨-, rfl⟩
  · refine ⟨"empty key", ?_⟩
    simp only [PropertiesError.message, String.append_assoc]
    rfl
  · refine ⟨"expected `key = value`, found `" ++ String.ofList (trimChars line) ++ "`", ?_⟩
    simp only [PropertiesError.message, String.append_assoc]
    rfl

/-- A line that says something gives a value to a key or offends. -/
theorem Speaks.gives_or_offends {line : List Char} (h : Speaks line) :
    (∃ key value, Gives line key value) ∨ Offends line := by
  by_cases hkey : ∃ front back, Divided (trimChars line) front back ∧
      ∃ c ∈ front, isBlank c = false
  · obtain ⟨front, back, hdivided, hblank⟩ := hkey
    refine .inl ⟨String.ofList (trimChars front), String.ofList (trimChars back), h, front, back,
      hdivided, hblank, ?_, ?_⟩
    · rw [String.toList_ofList]
    · rw [String.toList_ofList]
  · refine .inr ⟨h, fun front back hdivided c hc => ?_⟩
    rw [← Bool.not_eq_false]
    exact fun hblank => hkey ⟨front, back, hdivided, c, hc, hblank⟩

theorem Gives.not_offends {line : List Char} {key value : String} (h : Gives line key value) :
    ¬ Offends line := by
  obtain ⟨-, front, back, hdivided, ⟨c, hc, hblank⟩, -, -⟩ := h
  rintro ⟨-, hall⟩
  simp [hall front back hdivided c hc] at hblank

theorem Gives.unique {line : List Char} {key value key' value' : String}
    (h : Gives line key value) (h' : Gives line key' value') : key = key' ∧ value = value' := by
  have heq : Line.pair key value = .pair key' value' := h.ofChars_eq.symm.trans h'.ofChars_eq
  exact Line.pair.inj heq

/-! ### All lines -/

/-- The entries that lines come to, if none of them offends. -/
inductive Lists : List (String × String) → List (List Char) → Prop
  | nil : Lists [] []
  | silent {line : List Char} {es : List (String × String)} {lines : List (List Char)}
      (hline : ¬ Speaks line) (h : Lists es lines) : Lists es (line :: lines)
  | entry {line : List Char} {key value : String} {es : List (String × String)}
      {lines : List (List Char)} (hline : Gives line key value) (h : Lists es lines) :
      Lists ((key, value) :: es) (line :: lines)

theorem Lists.pairs_eq {es : List (String × String)} {lines : List (List Char)}
    (h : Lists es lines) (number : Nat) : pairs number lines = .ok es := by
  induction h generalizing number with
  | nil => rfl
  | silent hline h ih => simp only [pairs, ofChars_of_not_speaks hline, ih]
  | entry hline h ih => simp only [pairs, hline.ofChars_eq, ih]; rfl

theorem pairs_offending {line : List Char} (h : Offends line) (number : Nat)
    (lines : List (List Char)) :
    ∃ e, pairs number (line :: lines) = .error e ∧ Tells line number e := by
  obtain ⟨hspeaks, hblank⟩ := h
  rw [speaks_iff] at hspeaks
  cases hcut : cutBy? isSeparator (trimChars line) with
  | none =>
    have hnone : ∀ front back, ¬ Divided (trimChars line) front back := by
      intro front back hdivided
      rw [divided_iff, hcut] at hdivided
      cases hdivided
    have hline : Line.ofChars line = .noSeparator (String.ofList (trimChars line)) := by
      simp only [Line.ofChars, hspeaks, hcut, Bool.false_eq_true, if_false]
    exact ⟨_, by rw [pairs, hline], .inr ⟨hnone, rfl⟩⟩
  | some cut =>
    obtain ⟨front, back⟩ := cut
    have hdivided := divided_iff.mpr hcut
    have hempty : trimChars front = [] :=
      Text.trimChars_eq_nil_iff.mpr (hblank front back hdivided)
    have hline : Line.ofChars line = .emptyKey := by
      simp only [Line.ofChars, hspeaks, hcut, hempty, List.isEmpty_nil, Bool.false_eq_true,
        if_false, if_true]
    exact ⟨_, by rw [pairs, hline], .inl ⟨⟨front, back, hdivided⟩, rfl⟩⟩

/-- Lines before the first one that offends leave it to that one to fail. -/
theorem Lists.pairs_append {es : List (String × String)} {before : List (List Char)}
    (h : Lists es before) {e : PropertiesError} (after : List (List Char)) (number : Nat)
    (he : pairs (number + before.length) after = .error e) :
    pairs number (before ++ after) = .error e := by
  induction h generalizing number with
  | nil => exact he
  | @silent line es before hline h ih =>
    have hrest := ih (number + 1) (by rwa [Nat.add_right_comm])
    simp only [List.cons_append, pairs, ofChars_of_not_speaks hline, hrest]
  | @entry line key value es before hline h ih =>
    have hrest := ih (number + 1) (by rwa [Nat.add_right_comm])
    simp only [List.cons_append, pairs, hline.ofChars_eq, hrest]
    rfl

/-- Lines come to entries unless one of them offends, of which there is a first. -/
theorem lists_or_offends (lines : List (List Char)) :
    (∃ es, Lists es lines) ∨ ∃ es before line after, lines = before ++ line :: after ∧
      Lists es before ∧ Offends line := by
  induction lines with
  | nil => exact .inl ⟨[], .nil⟩
  | cons line lines ih =>
    -- What the line adds to any entries, unless it offends itself.
    have hadds : Offends line ∨ ∃ fs, ∀ es ls, Lists es ls → Lists (fs ++ es) (line :: ls) := by
      by_cases hspeaks : Speaks line
      · rcases hspeaks.gives_or_offends with ⟨key, value, hgives⟩ | hoffends
        · exact .inr ⟨[(key, value)], fun es ls h => .entry hgives h⟩
        · exact .inl hoffends
      · exact .inr ⟨[], fun es ls h => .silent hspeaks h⟩
    rcases hadds with hoffends | ⟨fs, hfs⟩
    · exact .inr ⟨[], [], line, lines, rfl, .nil, hoffends⟩
    · rcases ih with ⟨es, hes⟩ | ⟨es, before, bad, after, rfl, hes, hbad⟩
      · exact .inl ⟨fs ++ es, hfs es lines hes⟩
      · exact .inr ⟨fs ++ es, line :: before, bad, after, rfl, hfs es before hes, hbad⟩

theorem Lists.not_offends {es : List (String × String)} {lines : List (List Char)}
    (h : Lists es lines) : ∀ l ∈ lines, ¬ Offends l := by
  induction h with
  | nil => exact fun l hl => absurd hl List.not_mem_nil
  | silent hline h ih => exact List.forall_mem_cons.mpr ⟨fun hbad => hline hbad.1, ih⟩
  | entry hline h ih => exact List.forall_mem_cons.mpr ⟨hline.not_offends, ih⟩

/-- The last line with a key gives it this value. -/
def LastGives (lines : List (List Char)) (key value : String) : Prop :=
  ∃ before line after, lines = before ++ line :: after ∧ Gives line key value ∧
    ∀ l ∈ after, ∀ v, ¬ Gives l key v

theorem lastGives_cons_iff {line : List Char} {lines : List (List Char)} {key value : String} :
    LastGives (line :: lines) key value ↔
      LastGives lines key value ∨
        Gives line key value ∧ ∀ l ∈ lines, ∀ v, ¬ Gives l key v := by
  constructor
  · rintro ⟨before, l, after, heq, hgives, hlast⟩
    cases before with
    | nil =>
      obtain ⟨rfl, rfl⟩ := List.cons.inj heq
      exact .inr ⟨hgives, hlast⟩
    | cons first before =>
      obtain ⟨rfl, rfl⟩ := List.cons.inj heq
      exact .inl ⟨before, l, after, rfl, hgives, hlast⟩
  · rintro (⟨before, l, after, rfl, hgives, hlast⟩ | ⟨hgives, hlast⟩)
    · exact ⟨line :: before, l, after, rfl, hgives, hlast⟩
    · exact ⟨[], line, lines, rfl, hgives, hlast⟩

theorem lookup_singleton (key key' value' : String) :
    [(key', value')].lookup key = if key = key' then some value' else none := by
  by_cases h : key = key'
  · simp [h]
  · simp [List.lookup_cons, beq_false_of_ne h, h]

/-- Among the entries of lines there is one with a key if a line gives it a value. -/
theorem Lists.lookup_eq_none_iff {es : List (String × String)} {lines : List (List Char)}
    (h : Lists es lines) (key : String) :
    es.reverse.lookup key = none ↔ ∀ l ∈ lines, ∀ v, ¬ Gives l key v := by
  induction h with
  | nil => simp
  | silent hline h ih =>
    rw [ih, List.forall_mem_cons]
    exact (and_iff_right fun v hgives => hline hgives.1).symm
  | @entry line key' value' es lines hline h ih =>
    have hfirst : (∀ v, ¬ Gives line key v) ↔ key ≠ key' := by
      constructor
      · rintro hnot rfl
        exact hnot value' hline
      · exact fun hne v hgives => hne (hgives.unique hline).1
    rw [List.reverse_cons, List.lookup_append, Option.or_eq_none_iff, ih, List.forall_mem_cons,
      hfirst, and_comm, lookup_singleton, ite_eq_right_iff]
    simp

theorem Lists.lookup_eq_some_iff {es : List (String × String)} {lines : List (List Char)}
    (h : Lists es lines) (key value : String) :
    es.reverse.lookup key = some value ↔ LastGives lines key value := by
  induction h with
  | nil => simp [LastGives]
  | silent hline h ih =>
    rw [ih, lastGives_cons_iff]
    exact (or_iff_left fun hgives => hline hgives.1.1).symm
  | @entry line key' value' es lines hline h ih =>
    have hfirst : Gives line key value ↔ key = key' ∧ value' = value := by
      constructor
      · intro hgives
        exact ⟨(hgives.unique hline).1, (hgives.unique hline).2.symm⟩
      · rintro ⟨rfl, rfl⟩
        exact hline
    rw [List.reverse_cons, List.lookup_append, Option.or_eq_some_iff, ih, lastGives_cons_iff,
      ← h.lookup_eq_none_iff key, hfirst, and_comm, lookup_singleton, Option.ite_none_right_eq_some,
      Option.some.injEq]

/-- What is read of lines: the entries they come to, or the error of the first one that
offends. -/
theorem pairs_cases (lines : List (List Char)) :
    (∃ es, Lists es lines ∧ pairs 1 lines = .ok es) ∨
      ∃ before line after e, lines = before ++ line :: after ∧ (∀ l ∈ before, ¬ Offends l) ∧
        Offends line ∧ Tells line (before.length + 1) e ∧ pairs 1 lines = .error e := by
  rcases lists_or_offends lines with ⟨es, hes⟩ | ⟨es, before, line, after, rfl, hes, hbad⟩
  · exact .inl ⟨es, hes, hes.pairs_eq 1⟩
  · obtain ⟨e, he, htells⟩ := pairs_offending hbad (1 + before.length) after
    have herror := hes.pairs_append (line :: after) 1 he
    rw [Nat.add_comm] at htells
    exact .inr ⟨before, line, after, e, rfl, hes.not_offends, hbad, htells, herror⟩

/-! ### Tables written down -/

/-- Entries that can be written as `key = value`. -/
structure IsWritable (key value : String) : Prop where
  key_ne : key.toList ≠ []
  key_first : ∀ c, key.toList.head? = some c → isBlank c = false ∧ c ≠ '#' ∧ c ≠ '!'
  key_last : ∀ c, key.toList.getLast? = some c → isBlank c = false
  key_chars : ∀ c ∈ key.toList, c ≠ '\n' ∧ c ≠ '=' ∧ c ≠ ':'
  value_first : ∀ c, value.toList.head? = some c → isBlank c = false
  value_last : ∀ c, value.toList.getLast? = some c → isBlank c = false
  value_chars : '\n' ∉ value.toList

/-- The line of an entry, and lines that are blank or comments for no entry. -/
inductive LineOf : List (String × String) → List Char → Prop
  | remark {line : List Char} (hfeed : '\n' ∉ line) (hline : ¬ Speaks line) : LineOf [] line
  | entry (key value : String) :
      LineOf [(key, value)] (key.toList ++ " = ".toList ++ value.toList)

/-- The ways of writing entries down: each on a line of its own, with any number of blank
lines and comments before, between and after them. Lines have an end of either kind, the
last one may go without. -/
inductive Written : List (String × String) → List Char → Prop
  | last {es : List (String × String)} {line : List Char} (h : LineOf es line) :
      Written es line
  | feed {es rest : List (String × String)} {line text : List Char} (h : LineOf es line)
      (hrest : Written rest text) : Written (es ++ rest) (line ++ '\n' :: text)
  | returnFeed {es rest : List (String × String)} {line text : List Char} (h : LineOf es line)
      (hrest : Written rest text) : Written (es ++ rest) (line ++ '\r' :: '\n' :: text)

namespace IsWritable

variable {key value : String}

theorem trimChars_key (h : IsWritable key value) :
    trimChars (key.toList ++ [' ']) = key.toList := by
  rw [Text.trimChars_concat_of_isBlank (by decide)]
  exact Text.trimChars_eq_self (fun c hc => (h.key_first c hc).1) h.key_last

theorem trimChars_value (h : IsWritable key value) : trimChars value.toList = value.toList :=
  Text.trimChars_eq_self h.value_first h.value_last

/-- With a value the line of an entry has no white space at its ends; without one it has
the blank after the separator. -/
theorem trimChars_line (h : IsWritable key value) :
    ∃ back, trimChars (key.toList ++ " = ".toList ++ value.toList) =
      (key.toList ++ [' ']) ++ '=' :: back ∧ trimChars back = value.toList := by
  have hfirst (rest : List Char) :
      ∀ c, (key.toList ++ rest).head? = some c → isBlank c = false := by
    intro c hc
    rw [List.head?_append, Option.or_of_isSome (List.isSome_head?.mpr h.key_ne)] at hc
    exact (h.key_first c hc).1
  by_cases hvalue : value.toList = []
  · refine ⟨[], ?_, by rw [hvalue]; rfl⟩
    have hline : key.toList ++ " = ".toList ++ value.toList =
        (key.toList ++ [' ', '=']) ++ [' '] := by
      rw [hvalue]
      simp
    rw [hline, Text.trimChars_concat_of_isBlank (by decide), Text.trimChars_eq_self (hfirst _)]
    · simp
    · intro c hc
      obtain rfl : '=' = c := by simpa using hc
      decide
  · refine ⟨' ' :: value.toList, ?_, ?_⟩
    · rw [List.append_assoc, Text.trimChars_eq_self (hfirst _)]
      · simp
      · intro c hc
        rw [← List.append_assoc, List.getLast?_append_of_ne_nil _ hvalue] at hc
        exact h.value_last c hc
    · rw [Text.trimChars_cons_of_isBlank (by decide), h.trimChars_value]

theorem gives (h : IsWritable key value) :
    Gives (key.toList ++ " = ".toList ++ value.toList) key value := by
  obtain ⟨back, hline, hback⟩ := h.trimChars_line
  obtain ⟨c, rest, hkey⟩ := List.exists_cons_of_ne_nil h.key_ne
  obtain ⟨hblank, hcomment⟩ := h.key_first c (by rw [hkey]; rfl)
  constructor
  · refine ⟨c, rest ++ [' '] ++ '=' :: back, ?_, hcomment⟩
    rw [hline, hkey]
    rfl
  · refine ⟨key.toList ++ [' '], back, ⟨?_, '=', .inl rfl, hline⟩, ⟨c, ?_, hblank⟩,
      h.trimChars_key, hback⟩
    · intro d hd
      rcases List.mem_append.mp hd with hd | hd
      · exact (h.key_chars d hd).2
      · obtain rfl := List.mem_singleton.mp hd
        decide
    · rw [hkey]
      exact List.mem_cons_self

theorem feed_not_mem (h : IsWritable key value) :
    '\n' ∉ key.toList ++ " = ".toList ++ value.toList := by
  intro hfeed
  rcases List.mem_append.mp hfeed with hfeed | hfeed
  · rcases List.mem_append.mp hfeed with hfeed | hfeed
    · exact (h.key_chars _ hfeed).1 rfl
    · exact absurd hfeed (by decide)
  · exact h.value_chars hfeed

end IsWritable

theorem speaks_congr {line line' : List Char} (h : trimChars line = trimChars line') :
    Speaks line ↔ Speaks line' := by
  rw [Speaks, Speaks, h]

theorem Gives.congr {line line' : List Char} {key value : String} (hgives : Gives line key value)
    (h : trimChars line = trimChars line') : Gives line' key value := by
  rw [Gives, ← h, ← speaks_congr h]
  exact hgives

theorem LineOf.feed_not_mem {es : List (String × String)} {line : List Char} (h : LineOf es line)
    (hes : ∀ e ∈ es, IsWritable e.1 e.2) : '\n' ∉ line := by
  cases h with
  | remark hfeed hline => exact hfeed
  | entry key value => exact (hes (key, value) List.mem_cons_self).feed_not_mem

/-- A line is for its entries also without the white space at its ends. -/
theorem LineOf.lists {es rest : List (String × String)} {line : List Char} (h : LineOf es line)
    (hes : ∀ e ∈ es, IsWritable e.1 e.2) {line' : List Char}
    (htrim : trimChars line = trimChars line') {lines : List (List Char)}
    (hrest : Lists rest lines) : Lists (es ++ rest) (line' :: lines) := by
  cases h with
  | remark hfeed hline => exact .silent (mt (speaks_congr htrim).mpr hline) hrest
  | entry key value =>
    have hgives := (hes (key, value) List.mem_cons_self).gives
    exact .entry (hgives.congr htrim) hrest

theorem Written.lists {es : List (String × String)} {text : List Char} (h : Written es text)
    (hes : ∀ e ∈ es, IsWritable e.1 e.2) : Lists es (Text.lines text) := by
  induction h with
  | @last es line h =>
    by_cases hne : line = []
    · cases h with
      | remark hfeed hline =>
        subst hne
        exact .nil
      | entry key value => simp at hne
    · rw [Text.lines_of_not_mem hne (h.feed_not_mem hes), ← List.append_nil es]
      exact h.lists hes rfl .nil
  | feed h hrest ih =>
    obtain ⟨hfirst, hothers⟩ := List.forall_mem_append.mp hes
    rw [Text.lines_append_feed (h.feed_not_mem hfirst)]
    exact h.lists hfirst (Text.trimChars_chop_return _).symm (ih hothers)
  | @returnFeed es rest line text h hrest ih =>
    obtain ⟨hfirst, hothers⟩ := List.forall_mem_append.mp hes
    have hfeed : '\n' ∉ line ++ ['\r'] := by simp [h.feed_not_mem hfirst]
    have hend : line ++ '\r' :: '\n' :: text = (line ++ ['\r']) ++ '\n' :: text := by simp
    rw [hend, Text.lines_append_feed hfeed, Text.chop_concat]
    exact h.lists hfirst rfl (ih hothers)

/-- Every text has lines, and what it says is decided by them. It is read if no line
offends, and then a key has the value that the last line with it gives; otherwise the error
names the first line that offends. A table is read back from every text that its entries
are written in, in any order and with blank lines and comments between them. -/
theorem parse_describes (text : String) :
    (∃ lines, Lined lines text.toList) ∧
      (∀ lines, Lined lines text.toList →
        ((∃ t, parse text = .ok t) ↔ ∀ l ∈ lines, ¬ Offends l) ∧
        (∀ t, parse text = .ok t →
          ∀ key value, t.get? key = some value ↔ LastGives lines key value) ∧
        ∀ e, parse text = .error e → ∃ before line after,
          lines = before ++ line :: after ∧ (∀ l ∈ before, ¬ Offends l) ∧ Offends line ∧
          Tells line (before.length + 1) e ∧
          ∃ rest, e.message = "line " ++ Decimal.natText (before.length + 1) ++ ": " ++ rest) ∧
      ∀ (t : Table String) (es : List (String × String)),
        es.Perm t.entries → (∀ e ∈ es, IsWritable e.1 e.2) → Written es text.toList →
        parse text = .ok t := by
  refine ⟨⟨_, Text.lined_lines _⟩, ?_, ?_⟩
  · intro lines hlines
    have hparse : parse text = (pairs 1 lines).map .ofList := by rw [parse, hlines.lines_eq]
    rcases pairs_cases lines with ⟨es, hes, hok⟩ |
      ⟨before, line, after, e, hsplit, hbefore, hbad, htells, herror⟩
    · rw [hok] at hparse
      refine ⟨⟨fun _ => hes.not_offends, fun _ => ⟨_, hparse⟩⟩, ?_, ?_⟩
      · intro t ht key value
        obtain rfl : Table.ofList es = t := Except.ok.inj (hparse.symm.trans ht)
        rw [Table.get?_ofList]
        exact hes.lookup_eq_some_iff key value
      · intro e he
        rw [hparse] at he
        cases he
    · rw [herror] at hparse
      refine ⟨⟨?_, ?_⟩, ?_, ?_⟩
      · rintro ⟨t, ht⟩
        rw [hparse] at ht
        cases ht
      · intro hall
        exact absurd hbad (hall line (by rw [hsplit]; simp))
      · intro t ht
        rw [hparse] at ht
        cases ht
      · intro e' he'
        obtain rfl : e = e' := Except.error.inj (hparse.symm.trans he')
        exact ⟨before, line, after, hsplit, hbefore, hbad, htells, htells.message_eq⟩
  · intro t es hperm hes hwritten
    have hpairs := (hwritten.lists hes).pairs_eq 1
    rw [parse, hpairs]
    exact congrArg Except.ok (Table.ofList_eq_of_perm hperm)

/-- A comment, an entry with a second separator in its value and a blank line; and a text
whose third line has no separator. -/
theorem parse_types :
    let text := "! types\r\nhtml = text:html\n\n"
    let t : Table String := .ofList [("html", "text:html")]
    let bad := "html = text/html\n\njust text\n"
    parse text = .ok t ∧ (∀ l ∈ Text.lines text.toList, ¬ Offends l) ∧
      LastGives (Text.lines text.toList) "html" "text:html" ∧
      parse bad = .error (.noSeparator 3 "just text") ∧
      ∃ before line after, Text.lines bad.toList = before ++ line :: after ∧ Offends line := by
  intro text t bad
  have hentry : IsWritable "html" "text:html" := by
    constructor
    case key_first => intro c hc; obtain rfl : 'h' = c := Option.some.inj hc; decide
    case key_last => intro c hc; obtain rfl : 'l' = c := Option.some.inj hc; decide
    case key_chars =>
      intro c hc
      have hletter : c.isAlpha = true := List.all_eq_true.mp (by decide) c hc
      refine ⟨?_, ?_, ?_⟩ <;> (rintro rfl; exact absurd hletter (by decide))
    case value_first => intro c hc; obtain rfl : 't' = c := Option.some.inj hc; decide
    case value_last => intro c hc; obtain rfl : 'l' = c := Option.some.inj hc; decide
    all_goals decide
  have hcomment : ¬ Speaks "! types".toList := by rw [speaks_iff]; decide
  have hblank : ¬ Speaks [] := by rw [speaks_iff]; decide
  have hwritten : Written [("html", "text:html")] text.toList := by
    have htext : text.toList = "! types".toList ++ '\r' :: '\n' ::
        ("html".toList ++ " = ".toList ++ "text:html".toList ++ '\n' :: ([] ++ '\n' :: [])) := by
      decide +kernel
    rw [htext]
    exact .returnFeed (.remark (by decide) hcomment) (.feed (.entry "html" "text:html")
      (.feed (.remark (by decide) hblank) (.last (.remark (by decide) hblank))))
  obtain ⟨-, hsays, hreads⟩ := parse_describes text
  have hparse : parse text = .ok t :=
    hreads t _ (.refl _) (List.forall_mem_singleton.mpr hentry) hwritten
  obtain ⟨hok, hvalues, -⟩ := hsays _ (Text.lined_lines _)
  have hbad : parse bad = .error (.noSeparator 3 "just text") := by
    have hpairs : pairs 1 (Text.lines bad.toList) = .error (.noSeparator 3 "just text") := by
      decide +kernel
    rw [parse, hpairs]
    rfl
  obtain ⟨before, line, after, hsplit, -, hoffends, -⟩ :=
    ((parse_describes bad).2.1 _ (Text.lined_lines _)).2.2 _ hbad
  refine ⟨hparse, hok.mp ⟨t, hparse⟩, (hvalues t hparse _ _).mp ?_, hbad, before, line, after,
    hsplit, hoffends⟩
  decide

end PageServer.Config.Properties
