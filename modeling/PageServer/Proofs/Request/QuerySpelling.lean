import PageServer.Proofs.Request.Escapes

/-!
# Spellings of a query

The pairs of a query may be written in many ways, each character as it is or as
the escapes of its bytes, with empty segments anywhere between the pairs. All of
them are read as the same parameters. What is read as no parameters at all has a
segment that is no pair.
-/

namespace PageServer.Request

open Text (hexValue? utf8Bytes)

/-! ### Texts -/

/-- The ways of writing bytes as escapes. -/
inductive Escaped : Bytes → List Char → Prop
  | nil : Escaped [] []
  | cons {b : UInt8} {high low : Char} {bytes : Bytes} {cs : List Char} (hb : IsEscape b high low)
      (h : Escaped bytes cs) : Escaped (b :: bytes) ('%' :: high :: low :: cs)

/-- The ways of writing a character in a query. -/
inductive CharSpelling (c : Char) : List Char → Prop
  | literal (hc : c ∉ ['%', '&', '+', '=']) : CharSpelling c [c]
  | plus (hc : c = ' ') : CharSpelling c ['+']
  | escaped {cs : List Char} (h : Escaped (String.utf8EncodeChar c) cs) : CharSpelling c cs

inductive TextSpelling : List Char → List Char → Prop
  | nil : TextSpelling [] []
  | cons {c : Char} {text spelled rest : List Char} (hc : CharSpelling c spelled)
      (h : TextSpelling text rest) : TextSpelling (c :: text) (spelled ++ rest)

/-- Text without marks may be written as it is. -/
theorem TextSpelling.self {text : List Char}
    (h : (text.all fun c => c ∉ ['%', '&', '+', '=']) = true) : TextSpelling text text := by
  induction text with
  | nil => exact .nil
  | cons c text ih =>
    obtain ⟨hc, htext⟩ := Bool.and_eq_true_iff.mp h
    exact .cons (.literal (of_decide_eq_true hc)) (ih htext)

theorem Escaped.standsFor_append {bytes others : Bytes} {cs rest : List Char}
    (h : Escaped bytes cs) (hrest : StandsFor true rest others) :
    StandsFor true (cs ++ rest) (bytes ++ others) := by
  induction h with
  | nil => exact hrest
  | cons hb h ih => exact .escape hb ih

theorem CharSpelling.standsFor_append {c : Char} {cs rest : List Char} {others : Bytes}
    (h : CharSpelling c cs) (hrest : StandsFor true rest others) :
    StandsFor true (cs ++ rest) (String.utf8EncodeChar c ++ others) := by
  cases h with
  | literal hc =>
    have hpercent : c ≠ '%' := by grind
    have hread : reading true c = c := by
      simp only [reading]
      grind
    have hplain : StandsFor true (c :: rest) (String.utf8EncodeChar (reading true c) ++ others) :=
      .plain hpercent hrest
    rwa [hread] at hplain
  | plus hc =>
    subst hc
    exact .plain (by decide) hrest
  | escaped h => exact h.standsFor_append hrest

theorem TextSpelling.standsFor {text cs : List Char} (h : TextSpelling text cs) :
    StandsFor true cs (text.flatMap String.utf8EncodeChar) := by
  induction h with
  | nil => exact .nil
  | cons hc h ih => exact hc.standsFor_append ih

theorem TextSpelling.decode_eq {text : String} {cs : List Char} (h : TextSpelling text.toList cs) :
    decode true (String.ofList cs) = .ok text := by
  rw [decode_eq_ok_iff, String.toList_ofList]
  exact h.standsFor

theorem Escaped.not_mem {bytes : Bytes} {cs : List Char} (h : Escaped bytes cs) {c : Char}
    (hc : hexValue? c = none) (hpercent : c ≠ '%') : c ∉ cs := by
  induction h with
  | nil => exact List.not_mem_nil
  | cons hb h ih =>
    obtain ⟨hhigh, hlow⟩ := hb.ne_of_hexValue? hc
    simp [hpercent, hhigh.symm, hlow.symm, ih]

/-- A mark of the query is no part of what is written between the marks. -/
theorem CharSpelling.not_mem {c mark : Char} {cs : List Char} (h : CharSpelling c cs)
    (hmark : mark = '&' ∨ mark = '=') : mark ∉ cs := by
  cases h with
  | literal hc => grind
  | plus hc => grind
  | escaped h =>
    rcases hmark with rfl | rfl
    · exact h.not_mem (by decide) (by decide)
    · exact h.not_mem (by decide) (by decide)

theorem TextSpelling.not_mem {text cs : List Char} (h : TextSpelling text cs) {mark : Char}
    (hmark : mark = '&' ∨ mark = '=') : mark ∉ cs := by
  induction h with
  | nil => exact List.not_mem_nil
  | cons hc h ih =>
    rw [List.mem_append]
    exact not_or.mpr ⟨hc.not_mem hmark, ih⟩

/-! ### Pairs -/

/-- What is wrong with a segment that is no pair. -/
inductive PairFault : List Char → Prop
  | noEquals {segment : List Char} (h : '=' ∉ segment) : PairFault segment
  | emptyKey {key value : List Char} (hkey : '=' ∉ key) (h : StandsFor true key []) :
      PairFault (key ++ '=' :: value)
  | key {key value : List Char} (hkey : '=' ∉ key) (h : ComponentFault true key) :
      PairFault (key ++ '=' :: value)
  | value {key value : List Char} (hkey : '=' ∉ key) (h : ComponentFault true value) :
      PairFault (key ++ '=' :: value)

theorem decodePair_append {key : List Char} (hkey : '=' ∉ key) (value : List Char) :
    decodePair (String.ofList (key ++ '=' :: value)) = do
      let k ← decode true (String.ofList key)
      if k.isEmpty then .error (.malformedQuery (String.ofList (key ++ '=' :: value)))
      else
        let v ← decode true (String.ofList value)
        return (k, v) := by
  rw [decodePair, Text.cut?, String.toList_ofList, Text.cutBy?_append_cons hkey]
  rfl

theorem TextSpelling.decodePair_eq {key value : String} {keyText valueText : List Char}
    (hkey : TextSpelling key.toList keyText) (hvalue : TextSpelling value.toList valueText)
    (hne : key ≠ "") :
    decodePair (String.ofList (keyText ++ '=' :: valueText)) = .ok (key, value) := by
  rw [decodePair_append (hkey.not_mem (.inr rfl)), hkey.decode_eq, hvalue.decode_eq]
  have hfull : key.isEmpty = false := by simpa using hne
  simp [bind, Except.bind, hfull, pure, Except.pure]

theorem pairWith_exists_error_iff {key : String} {refusal : Error} {value : List Char} :
    (∃ e, (if key.isEmpty then .error refusal
      else do
        let v ← decode true (String.ofList value)
        return (key, v) : Except Error (String × String)) = .error e) ↔
      key = "" ∨ ComponentFault true value := by
  have hempty : key.isEmpty = true ↔ key = "" := by simp
  by_cases hkey : key = ""
  · simp [hkey]
  · have hfull : ¬ key.isEmpty = true := mt hempty.mp hkey
    have hlast (v : String) : ¬ ∃ e, (return (key, v) : Except Error (String × String)) = .error e :=
      nofun
    rw [if_neg hfull, bind_exists_error_iff, decode_exists_error_iff, String.toList_ofList]
    simp [hkey, hlast]

theorem decodePair_append_exists_error_iff {key : List Char} (hkey : '=' ∉ key)
    (value : List Char) :
    (∃ e, decodePair (String.ofList (key ++ '=' :: value)) = .error e) ↔
      StandsFor true key [] ∨ ComponentFault true key ∨ ComponentFault true value := by
  have hread (k : String) :
      decode true (String.ofList key) = .ok k ↔ StandsFor true key (utf8Bytes k) := by
    rw [decode_eq_ok_iff, String.toList_ofList]
  rw [decodePair_append hkey, bind_exists_error_iff, decode_exists_error_iff, String.toList_ofList]
  simp only [pairWith_exists_error_iff]
  constructor
  · rintro (hfault | ⟨k, hk, rfl | hfault⟩)
    · exact .inr (.inl hfault)
    · exact .inl ((hread "").mp hk)
    · exact .inr (.inr hfault)
  · rintro (hempty | hfault | hfault)
    · exact .inr ⟨"", (hread "").mpr hempty, .inl rfl⟩
    · exact .inl hfault
    · cases hk : decode true (String.ofList key) with
      | error e =>
        have hkeyFault := decode_exists_error_iff.mp ⟨e, hk⟩
        rw [String.toList_ofList] at hkeyFault
        exact .inl hkeyFault
      | ok k => exact .inr ⟨k, rfl, .inr hfault⟩

theorem decodePair_exists_error_iff {segment : List Char} :
    (∃ e, decodePair (String.ofList segment) = .error e) ↔ PairFault segment := by
  constructor
  · intro h
    by_cases hequals : '=' ∈ segment
    · obtain ⟨key, value, rfl, hkey⟩ := List.eq_append_cons_of_mem hequals
      rcases (decodePair_append_exists_error_iff hkey value).mp h with hempty | hfault | hfault
      · exact .emptyKey hkey hempty
      · exact .key hkey hfault
      · exact .value hkey hfault
    · exact .noEquals hequals
  · intro h
    cases h with
    | noEquals h =>
      have hcut : Text.cut? '=' (String.ofList segment) = none := by
        rwa [Text.cut?_eq_none_iff, String.toList_ofList]
      rw [decodePair, hcut]
      exact ⟨_, rfl⟩
    | emptyKey hkey h => exact (decodePair_append_exists_error_iff hkey _).mpr (.inl h)
    | key hkey h => exact (decodePair_append_exists_error_iff hkey _).mpr (.inr (.inl h))
    | value hkey h => exact (decodePair_append_exists_error_iff hkey _).mpr (.inr (.inr h))

/-! ### Queries -/

/-- The ways of writing pairs as the segments of a query. -/
inductive QuerySpelling : List (String × String) → List (List Char) → Prop
  | nil : QuerySpelling [] []
  | empty {pairs : List (String × String)} {segments : List (List Char)}
      (h : QuerySpelling pairs segments) : QuerySpelling pairs ([] :: segments)
  | pair {key value : String} {keyText valueText : List Char} {pairs : List (String × String)}
      {segments : List (List Char)} (hkey : TextSpelling key.toList keyText)
      (hvalue : TextSpelling value.toList valueText) (h : QuerySpelling pairs segments) :
      QuerySpelling ((key, value) :: pairs) ((keyText ++ '=' :: valueText) :: segments)

theorem queryPairs_eq (query : String) :
    queryPairs query = ((query.toList.splitOn '&').filter fun p => !p.isEmpty).map String.ofList := by
  rw [queryPairs, Text.splitAt, Text.splitBy_eq_splitOnP]
  rfl

namespace QuerySpelling

variable {pairs : List (String × String)} {segments : List (List Char)}

theorem not_mem (h : QuerySpelling pairs segments) : ∀ s ∈ segments, '&' ∉ s := by
  induction h with
  | nil => exact List.forall_mem_nil _
  | empty h ih => exact List.forall_mem_cons.mpr ⟨List.not_mem_nil, ih⟩
  | pair hkey hvalue h ih =>
    refine List.forall_mem_cons.mpr ⟨?_, ih⟩
    simp [hkey.not_mem (.inl rfl), hvalue.not_mem (.inl rfl)]

theorem mapM_decodePair (h : QuerySpelling pairs segments) (hkeys : ∀ p ∈ pairs, p.1 ≠ "") :
    ((segments.filter fun p => !p.isEmpty).map String.ofList).mapM decodePair = .ok pairs := by
  induction h with
  | nil => rfl
  | empty h ih => exact ih hkeys
  | @pair key value keyText valueText pairs segments hkey hvalue h ih =>
    obtain ⟨hne, hrest⟩ := List.forall_mem_cons.mp hkeys
    have hfull : ((keyText ++ '=' :: valueText) :: segments).filter (fun p => !p.isEmpty) =
        (keyText ++ '=' :: valueText) :: segments.filter fun p => !p.isEmpty :=
      List.filter_cons_of_pos (by simp)
    rw [hfull, List.map_cons, List.mapM_cons,
      hkey.decodePair_eq hvalue hne, ih hrest]
    rfl

theorem filter_splitOn (h : QuerySpelling pairs segments) :
    ((['&'].intercalate segments).splitOn '&').filter (fun p => !p.isEmpty) =
      segments.filter fun p => !p.isEmpty := by
  cases segments with
  | nil => rfl
  | cons s segments => rw [List.splitOn_intercalate '&' h.not_mem (List.cons_ne_nil s segments)]

theorem parameters_eq (h : QuerySpelling pairs segments) (hkeys : ∀ p ∈ pairs, p.1 ≠ "") :
    parameters (some (String.ofList (['&'].intercalate segments))) = .ok (.ofList pairs) := by
  rw [parameters, parseQuery, queryPairs_eq, String.toList_ofList, h.filter_splitOn,
    h.mapM_decodePair hkeys]
  rfl

end QuerySpelling

theorem parameters_exists_error_iff {query : String} :
    (∃ e, parameters (some query) = .error e) ↔
      ∃ segment ∈ query.toList.splitOn '&', segment ≠ [] ∧ PairFault segment := by
  rw [parameters, parseQuery, map_exists_error_iff, mapM_exists_error_iff, queryPairs_eq]
  constructor
  · rintro ⟨pair, hpair, hfails⟩
    obtain ⟨segment, hsegment, rfl⟩ := List.mem_map.mp hpair
    obtain ⟨hmem, hfull⟩ := List.mem_filter.mp hsegment
    have hne : segment ≠ [] := by simpa using hfull
    exact ⟨segment, hmem, hne, decodePair_exists_error_iff.mp hfails⟩
  · rintro ⟨segment, hmem, hne, hfault⟩
    have hsegment : segment ∈ (query.toList.splitOn '&').filter fun p => !p.isEmpty :=
      List.mem_filter.mpr ⟨hmem, by simpa using hne⟩
    exact ⟨String.ofList segment, List.mem_map_of_mem hsegment,
      decodePair_exists_error_iff.mpr hfault⟩

/-- However pairs are written, they are read as they are, the last with a key for
all of them. A query is refused exactly if a segment of it, not empty, is no pair. -/
theorem parameters_of_every_query :
    (∀ pairs segments, QuerySpelling pairs segments → (∀ p ∈ pairs, p.1 ≠ "") →
      ∃ t, parameters (some (String.ofList (['&'].intercalate segments))) = .ok t ∧
        ∀ k, t.get? k = pairs.reverse.lookup k) ∧
    ∀ query, (∃ e, parameters (some query) = .error e) ↔
      ∃ segment ∈ query.toList.splitOn '&', segment ≠ [] ∧ PairFault segment := by
  constructor
  · intro pairs segments h hkeys
    refine ⟨.ofList pairs, h.parameters_eq hkeys, ?_⟩
    intro k
    exact Table.get?_ofList pairs k
  · intro query
    exact parameters_exists_error_iff

/-- A key that comes twice, escapes in both cases, a plus sign that is written and
one that is a space, and empty segments; a query that ends within a character. -/
theorem parameters_of_mixed_query :
    let pairs := [("ü+&", "a b"), ("k", "é"), ("k", "=%")]
    let segments := [[], "%c3%BC%2B%26".toList ++ '=' :: "a+b".toList,
      "k".toList ++ '=' :: "é".toList, [], "k".toList ++ '=' :: "%3D%25".toList]
    QuerySpelling pairs segments ∧ (∀ p ∈ pairs, p.1 ≠ "") ∧
      (∃ t, parameters (some "&%c3%BC%2B%26=a+b&k=é&&k=%3D%25") = .ok t ∧
        t.get? "ü+&" = some "a b" ∧ t.get? "k" = some "=%" ∧ t.get? "" = none) ∧
      ∃ e, parameters (some "a=1&b=%C3") = .error e := by
  intro pairs segments
  have hmarks : TextSpelling "ü+&".toList "%c3%BC%2B%26".toList := by
    apply @TextSpelling.cons 'ü' _ "%c3%BC".toList
    · exact .escaped (.cons ⟨by decide, by decide⟩ (.cons ⟨by decide, by decide⟩ .nil))
    · apply @TextSpelling.cons '+' _ "%2B".toList
      · exact .escaped (.cons ⟨by decide, by decide⟩ .nil)
      · apply @TextSpelling.cons '&' _ "%26".toList
        · exact .escaped (.cons ⟨by decide, by decide⟩ .nil)
        · exact .nil
  have hblank : TextSpelling "a b".toList "a+b".toList :=
    .cons (.literal (by decide)) (.cons (.plus rfl) (.self (by decide)))
  have hsigns : TextSpelling "=%".toList "%3D%25".toList := by
    apply @TextSpelling.cons '=' _ "%3D".toList
    · exact .escaped (.cons ⟨by decide, by decide⟩ .nil)
    · apply @TextSpelling.cons '%' _ "%25".toList
      · exact .escaped (.cons ⟨by decide, by decide⟩ .nil)
      · exact .nil
  have hspelling : QuerySpelling pairs segments := by
    apply QuerySpelling.empty
    apply QuerySpelling.pair hmarks hblank
    apply QuerySpelling.pair (.self (by decide)) (.self (by decide))
    apply QuerySpelling.empty
    exact .pair (.self (by decide)) hsigns .nil
  have hkeys : ∀ p ∈ pairs, p.1 ≠ "" := by decide
  refine ⟨hspelling, hkeys, ?_, ?_⟩
  · obtain ⟨t, ht, hget⟩ := parameters_of_every_query.1 pairs segments hspelling hkeys
    refine ⟨t, ?_, ?_, ?_, ?_⟩
    · exact ht
    · rw [hget]
      decide
    · rw [hget]
      decide
    · rw [hget]
      decide
  · apply (parameters_of_every_query.2 "a=1&b=%C3").mpr
    have hstands : StandsFor true ['%', 'C', '3'] [0xC3] :=
      .escape ⟨by decide, by decide⟩ .nil
    have hbytes : ∀ s, utf8Bytes s ≠ [0xC3] := by
      intro s hs
      have hread := Text.ofUtf8?_eq_some_iff.mpr hs
      cases hread
    refine ⟨"b=%C3".toList, by decide, by decide, ?_⟩
    exact @PairFault.value ['b'] ['%', 'C', '3'] (by decide) (.notText hstands hbytes)

end PageServer.Request
