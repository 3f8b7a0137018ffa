import PageServer.Proofs.Decimal.Finiteness
import PageServer.Proofs.Template.Canonical
import PageServer.Proofs.Template.Postorder
import PageServer.Proofs.Template.Visits

/-!
# Finite values

Operators refuse a result that is not finite, and the text of a counter is read
as a finite number or not at all. So the one element of an echo that may put a
double on the stack that is no number is the sine of a string.
-/

namespace PageServer.Template

open Text (isBlank)

/-! ### Texts of numbers -/

theorem mem_signed {i : Int} {c : Char} (h : c ∈ Decimal.signed i) :
    c = '-' ∨ c.isDigit = true := by
  rw [Decimal.signed] at h
  split at h
  · obtain rfl | h := List.mem_cons.mp h
    · exact .inl rfl
    · exact .inr (Decimal.isDigit_of_mem_digits h)
  · exact .inr (Decimal.isDigit_of_mem_digits h)

theorem mem_pointed {x : Float} (h : x.isFinite = true) {c : Char} (hc : c ∈ Decimal.pointed x) :
    c = '-' ∨ c = '.' ∨ c.isDigit = true := by
  obtain ⟨negative, whole, places, htext, -, -, hdigits, -⟩ := Decimal.readsBack_of_isFinite h
  rw [htext, List.mem_append, List.mem_append, List.mem_cons] at hc
  obtain (hsign | hwhole) | rfl | hplaces := hc
  · cases negative with
    | true => exact .inl (List.mem_singleton.mp hsign)
    | false => cases hsign
  · exact .inr (.inr (hdigits c (List.mem_append_left _ hwhole)))
  · exact .inr (.inl rfl)
  · exact .inr (.inr (hdigits c (List.mem_append_right _ hplaces)))

theorem point_mem_pointed {x : Float} (h : x.isFinite = true) : '.' ∈ Decimal.pointed x := by
  obtain ⟨negative, whole, places, htext, -⟩ := Decimal.readsBack_of_isFinite h
  simp [htext]

theorem trimChars_of_no_blank {cs : List Char} (h : ∀ c ∈ cs, isBlank c = false) :
    Text.trimChars cs = cs :=
  Text.trimChars_eq_self (fun c hc => h c (List.mem_of_head? hc))
    fun c hc => h c (List.mem_of_getLast? hc)

theorem isBlank_of_isDigit {c : Char} (h : c.isDigit = true) : isBlank c = false :=
  not_isBlank_of_isNameChar (isNameChar_of_isDigit h)

namespace Number

def IsFinite : Number → Prop
  | int _ => True
  | double x => x.isFinite = true

/-- The text of a number is read as that number. -/
theorem parse_text {n : Number} (h : n.IsFinite) : parse n.text = .ok n := by
  cases n with
  | int v =>
    have hblank : ∀ c ∈ Decimal.signed v.toInt, isBlank c = false := by
      intro c hc
      obtain rfl | hdigit := mem_signed hc
      · decide
      · exact isBlank_of_isDigit hdigit
    have hwhole :
        (Decimal.signed v.toInt).any (fun c => c == '.' || c == 'e' || c == 'E') = false := by
      rw [List.any_eq_false]
      intro c hc hpoint
      obtain rfl | hdigit := mem_signed hc
      · cases hpoint
      · simp only [Bool.or_eq_true, beq_iff_eq] at hpoint
        obtain (rfl | rfl) | rfl := hpoint <;> cases hdigit
    rw [parse, text, chars, String.toList_ofList, trimChars_of_no_blank hblank, hwhole]
    simp [Decimal.readInt64?_signed]
  | double x =>
    have hblank : ∀ c ∈ Decimal.pointed x, isBlank c = false := by
      intro c hc
      obtain rfl | rfl | hdigit := mem_pointed h hc
      · decide
      · decide
      · exact isBlank_of_isDigit hdigit
    have hpoint : (Decimal.pointed x).any (fun c => c == '.' || c == 'e' || c == 'E') = true :=
      List.any_eq_true.mpr ⟨'.', point_mem_pointed h, rfl⟩
    rw [parse, text, chars, String.toList_ofList, trimChars_of_no_blank hblank, hpoint]
    simp [Decimal.readFloat?_pointed h]

/-- What is written for a double that is no number is not read as one. -/
theorem isFinite_of_parse_text {n m : Number} (h : parse n.text = .ok m) : m.IsFinite := by
  by_cases hn : n.IsFinite
  · rw [parse_text hn] at h
    obtain rfl := Except.ok.inj h
    exact hn
  · cases n with
    | int v => exact absurd trivial hn
    | double x =>
      rw [text, chars] at h
      obtain htext | htext | htext := pointed_of_not_isFinite (Bool.eq_false_iff.mpr hn) <;>
        · rw [htext] at h
          cases h

end Number

/-! ### What one element leaves -/

def Value.IsFinite : Value → Prop
  | int _ | string _ => True
  | double x => x.isFinite = true

theorem isFinite_toValue {n : Number} (h : n.IsFinite) : n.toValue.IsFinite := by
  cases n <;> exact h

theorem isFinite_lookup {scopes : List Scope} (h : HoldNumbers scopes) {name : String}
    {n : Number} (hn : lookup scopes name = .ok n) : n.IsFinite := by
  rw [lookup] at hn
  cases htext : findVariable scopes name with
  | none =>
    rw [htext] at hn
    cases hn
  | some text =>
    obtain ⟨m, rfl⟩ := h.find htext
    rw [htext] at hn
    cases hparse : Number.parse m.text with
    | error e =>
      simp only [hparse] at hn
      cases hn
    | ok n' =>
      simp only [hparse] at hn
      obtain rfl := Except.ok.inj hn
      exact Number.isFinite_of_parse_text hparse

/-- Arithmetic that fails or has a finite value. -/
def GivesFinite (r : Except ValueError Value) : Prop :=
  ∀ v, r = .ok v → v.IsFinite

namespace GivesFinite

theorem ok {v : Value} (h : v.IsFinite) : GivesFinite (.ok v) := by
  rintro v' hv
  obtain rfl := Except.ok.inj hv
  exact h

theorem error (e : ValueError) : GivesFinite (.error e) :=
  nofun

theorem ite {p : Prop} [Decidable p] {r q : Except ValueError Value} (hr : GivesFinite r)
    (hq : GivesFinite q) : GivesFinite (if p then r else q) := by
  split
  · exact hr
  · exact hq

theorem bind {α : Type} {r : Except ValueError α} {f : α → Except ValueError Value}
    (h : ∀ a, GivesFinite (f a)) : GivesFinite (r >>= f) := by
  cases r with
  | ok a => exact h a
  | error e => exact error e

theorem finite (op : Char) (x : Float) : GivesFinite (Template.finite op x) := by
  rw [Template.finite]
  split
  · next hx => exact ok hx
  · exact error _

theorem applyInt (op : Char) (x y : Int64) : GivesFinite (Template.applyInt op x y) := by
  rw [Template.applyInt]
  refine ite ?_ (ite ?_ (ite ?_ (ite (ite (error _) ?_) (ite (ite (finite _ _) ?_) (error _)))))
  -- the whole numbers that are left either fit or are refused
  all_goals
    dsimp only
    split
    · exact ok trivial
    · exact error _

theorem applyFloat (op : Char) (x y : Float) : GivesFinite (Template.applyFloat op x y) := by
  apply ite (finite _ _)
  apply ite (finite _ _)
  apply ite (finite _ _)
  apply ite (finite _ _)
  exact ite (finite _ _) (error _)

/-- Every operator checks its result. -/
theorem applyOperator (op : Char) (left right : Value) :
    GivesFinite (Template.applyOperator op left right) := by
  apply bind
  intro a
  apply bind
  intro b
  cases a with
  | double x => exact applyFloat _ _ _
  | int x =>
    cases b with
    | int y => exact applyInt _ _ _
    | double y => exact applyFloat _ _ _

end GivesFinite

/-- A sine of the topmost value that was found. -/
def SineOf (found : List Value) (v : Value) : Prop :=
  ∃ angle rest n, found = angle :: rest ∧ angle.toNumber = .ok n ∧
    v = .double (Builtin.sineOfDegrees n.toFloat)

theorem Builtin.name_of_ofName? {name : String} {b : Builtin} (h : ofName? name = some b) :
    b.name = name := by
  have hname := List.find?_some h
  exact eq_of_beq hname

section Left

variable {scopes : List Scope} {s s' : EchoState} {v : Value}

theorem mem_of_replaces {ex : Exchange} {e : Element} {taken stack : List Value}
    {result : Except RenderError Value} (hreplaces : Replaces scopes ex e taken result)
    (h : echoElement scopes e ⟨taken ++ stack, ex⟩ = .ok () s') (hv : v ∈ s'.stack) :
    result = .ok v ∨ v ∈ stack := by
  have hpushes := hreplaces stack
  rw [h] at hpushes
  cases hpushes with
  | ok w =>
    obtain rfl | hv := List.mem_cons.mp hv
    · exact .inl rfl
    · exact .inr hv

theorem mem_push {w : Value} (h : EchoM.push w s = .ok () s') (hv : v ∈ s'.stack)
    (hw : w.IsFinite) : v ∈ s.stack ∨ v.IsFinite := by
  cases h
  obtain rfl | hrest := List.mem_cons.mp hv
  · exact .inr hw
  · exact .inl hrest

theorem stack_onExchange {act : Exchange.Action Response.Error Unit} {stack : List Value}
    {ex : Exchange} (h : EchoM.onExchange act ⟨stack, ex⟩ = .ok () s') : s'.stack = stack := by
  rw [EchoM.onExchange] at h
  cases hact : act ex with
  | ok u ex' =>
    rw [hact] at h
    cases h
    rfl
  | error e ex' =>
    rw [hact] at h
    cases h

theorem exists_of_ofValue {α : Type} {r : Except ValueError α} {f : α → Value}
    (h : (do
      let a ← r.mapError .value
      .ok (f a) : Except RenderError Value) = .ok v) : ∃ a, r = .ok a ∧ f a = v := by
  cases r with
  | ok a => exact ⟨a, rfl, Except.ok.inj h⟩
  | error e => cases h

theorem sineOf_run (h : Builtin.sin.run s = .ok () s') (hv : v ∈ s'.stack) :
    v ∈ s.stack ∨ SineOf s.stack v := by
  obtain ⟨stack, ex⟩ := s
  match stack with
  | [] => cases h
  | angle :: rest =>
    rw [← @echoElement_builtin []] at h
    obtain hresult | hrest := mem_of_replaces (replaces_sin angle) h hv
    · obtain ⟨n, hn, rfl⟩ := exists_of_ofValue hresult
      exact .inr ⟨angle, rest, n, rfl, hn, rfl⟩
    · exact .inl (List.mem_cons_of_mem _ hrest)

theorem mem_decfmt (h : Builtin.decfmt.run s = .ok () s') (hv : v ∈ s'.stack) :
    v ∈ s.stack ∨ v.IsFinite := by
  obtain ⟨stack, ex⟩ := s
  match stack with
  | [] => cases h
  | [_] => cases h
  | pattern :: number :: rest =>
    rw [← @echoElement_builtin []] at h
    obtain hresult | hrest := mem_of_replaces (replaces_decfmt number pattern) h hv
    · obtain ⟨n, -, rfl⟩ := exists_of_ofValue hresult
      exact .inr trivial
    · exact .inl (List.mem_cons_of_mem _ (List.mem_cons_of_mem _ hrest))

theorem mem_parameter (kind : ParameterKind) (h : kind.function.run s = .ok () s')
    (hv : v ∈ s'.stack) : v ∈ s.stack ∨ v.IsFinite := by
  obtain ⟨stack, ex⟩ := s
  match stack with
  | [] => cases kind <;> cases h
  | [_] => cases kind <;> cases h
  | default :: key :: rest =>
    rw [← @echoElement_builtin []] at h
    obtain hresult | hrest := mem_of_replaces (replaces_parameter kind key default) h hv
    · obtain rfl := Except.ok.inj hresult
      rw [ParameterKind.find]
      split
      · exact .inr trivial
      · exact .inl List.mem_cons_self
    · exact .inl (List.mem_cons_of_mem _ (List.mem_cons_of_mem _ hrest))

theorem mem_setParameter {b : Builtin} {set : String → String → Exchange → Exchange}
    (h : b.setParameter set s = .ok () s') (hv : v ∈ s'.stack) : v ∈ s.stack := by
  obtain ⟨stack, ex⟩ := s
  match stack with
  | [] => cases h
  | [_] => cases h
  | name :: value :: rest =>
    change EchoM.onExchange (Exchange.modifying (set name.text value.text)) ⟨rest, ex⟩ = _ at h
    rw [stack_onExchange h] at hv
    exact List.mem_cons_of_mem _ (List.mem_cons_of_mem _ hv)

theorem mem_eraseParameter {b : Builtin} {erase : String → Exchange → Exchange}
    (h : b.eraseParameter erase s = .ok () s') (hv : v ∈ s'.stack) : v ∈ s.stack := by
  obtain ⟨stack, ex⟩ := s
  match stack with
  | [] => cases h
  | name :: rest =>
    change EchoM.onExchange (Exchange.modifying (erase name.text)) ⟨rest, ex⟩ = _ at h
    rw [stack_onExchange h] at hv
    exact List.mem_cons_of_mem _ hv

/-- But for the sine, a function leaves what it found and strings. -/
theorem mem_run {b : Builtin} (h : b.run s = .ok () s') (hv : v ∈ s'.stack) :
    v ∈ s.stack ∨ v.IsFinite ∨ b = .sin ∧ SineOf s.stack v := by
  cases b with
  | sin => exact (sineOf_run h hv).imp_right fun hsine => .inr ⟨rfl, hsine⟩
  | decfmt => exact (mem_decfmt h hv).imp_right .inl
  | dup =>
    obtain ⟨_ | ⟨w, rest⟩, ex⟩ := s <;> cases h
    left
    simpa using hv
  | swap =>
    obtain ⟨_ | ⟨w, _ | ⟨u, rest⟩⟩, ex⟩ := s <;> cases h
    left
    simpa [or_left_comm] using hv
  | setMimeType =>
    obtain ⟨_ | ⟨mime, rest⟩, ex⟩ := s
    · cases h
    · rw [stack_onExchange h] at hv
      exact .inl (List.mem_cons_of_mem _ hv)
  | paramGet => exact (mem_parameter .query h hv).imp_right .inl
  | pparamGet => exact (mem_parameter .persistent h hv).imp_right .inl
  | tparamGet => exact (mem_parameter .temporary h hv).imp_right .inl
  | pparamSet => exact .inl (mem_setParameter h hv)
  | tparamSet => exact .inl (mem_setParameter h hv)
  | pparamDel => exact .inl (mem_eraseParameter h hv)
  | tparamDel => exact .inl (mem_eraseParameter h hv)

theorem operator_left {op : Char} (h : echoElement scopes (.operator op) s = .ok () s') :
    ∃ w rest, s'.stack = w :: rest ∧ w.IsFinite ∧ ∀ u ∈ rest, u ∈ s.stack := by
  obtain ⟨stack, ex⟩ := s
  match stack with
  | [] => cases h
  | [_] => cases h
  | right :: left :: rest =>
    have hpushes := @replaces_operator scopes ex op left right rest
    rw [List.cons_append, List.singleton_append, h] at hpushes
    cases hvalue : applyOperator op left right with
    | ok w =>
      rw [hvalue] at hpushes
      cases hpushes with
      | ok w =>
        refine ⟨w, rest, rfl, GivesFinite.applyOperator op left right w hvalue, fun u hu => ?_⟩
        exact List.mem_cons_of_mem _ (List.mem_cons_of_mem _ hu)
    | error e =>
      rw [hvalue] at hpushes
      cases hpushes

/-- Every value on the stack was there before or is finite, or it is a sine. -/
theorem mem_echoElement {e : Element} (hscopes : HoldNumbers scopes)
    (he : ∀ x ∈ e.doubles, x.isFinite = true) (h : echoElement scopes e s = .ok () s')
    (hv : v ∈ s'.stack) :
    v ∈ s.stack ∨ v.IsFinite ∨ e = .function Builtin.sin.name ∧ SineOf s.stack v := by
  cases e with
  | name name =>
    have hreplaces : Replaces scopes s.exchange (.name name) [] _ := replaces_name name
    obtain hresult | hrest := mem_of_replaces hreplaces h hv
    · cases hn : lookup scopes name with
      | ok n =>
        rw [hn] at hresult
        obtain rfl := Except.ok.inj hresult
        exact .inr (.inl (isFinite_toValue (isFinite_lookup hscopes hn)))
      | error e =>
        rw [hn] at hresult
        cases hresult
    · exact .inl hrest
  | integer i => exact (mem_push h hv trivial).imp_right .inl
  | double x => exact (mem_push h hv (he x List.mem_cons_self)).imp_right .inl
  | string t => exact (mem_push h hv trivial).imp_right .inl
  | function name =>
    rw [echoElement] at h
    cases hb : Builtin.ofName? name with
    | none =>
      rw [hb] at h
      cases h
    | some b =>
      rw [hb] at h
      obtain rfl := Builtin.name_of_ofName? hb
      obtain hfound | hfinite | ⟨rfl, hsine⟩ := mem_run h hv
      · exact .inl hfound
      · exact .inr (.inl hfinite)
      · exact .inr (.inr ⟨rfl, hsine⟩)
  | operator op =>
    obtain ⟨w, rest, hstack, hw, hrest⟩ := operator_left h
    rw [hstack] at hv
    obtain rfl | hv := List.mem_cons.mp hv
    · exact .inr (.inl hw)
    · exact .inl (hrest v hv)

end Left

/-! ### Sines -/

theorem isFinite_sineOfDegrees {x : Float} (h : x.isFinite = true) :
    (Builtin.sineOfDegrees x).isFinite = true := by
  have hone : (1 : Float).isFinite = true := by decide +kernel
  have hminus : (-1 : Float).isFinite = true := Decimal.isFinite_neg hone
  rw [Builtin.sineOfDegrees, if_pos h]
  generalize (x * Builtin.radiansPerDegree).sin = y
  change (if (-1 : Float) ≤ (if y ≤ 1 then y else 1) then (if y ≤ 1 then y else 1)
    else -1).isFinite = true
  by_cases hhigh : y ≤ 1
  · rw [if_pos hhigh]
    split
    · next hlow => exact Decimal.isFinite_of_between hminus hone hlow hhigh
    · exact hminus
  · rw [if_neg hhigh]
    split
    · exact hone
    · exact hminus

def nan : Float :=
  Float.ofBits 0x7ff8000000000000

theorem sineOfDegrees_of_not_isFinite {x : Float} (h : x.isFinite = false) :
    Builtin.sineOfDegrees x = nan := by
  rw [Builtin.sineOfDegrees, h]
  exact if_neg Bool.false_ne_true

theorem not_isFinite_nan : ¬ (Value.double nan).IsFinite := by
  change ¬ nan.isFinite = true
  decide +kernel

theorem text_nan : (Value.double nan).text = "NaN.0" := by
  decide +kernel

/-- The topmost value is a string that spells a number beyond all doubles. -/
def EndlessAngle (found : List Value) : Prop :=
  ∃ t x rest, found = .string t :: rest ∧ Number.parse t = .ok (.double x) ∧ x.isFinite = false

theorem SineOf.cases {found : List Value} {v : Value} (h : SineOf found v) :
    v.IsFinite ∨ v = .double nan ∧ (EndlessAngle found ∨ ∃ w ∈ found, ¬ w.IsFinite) := by
  obtain ⟨angle, rest, n, rfl, hn, rfl⟩ := h
  by_cases hfinite : n.toFloat.isFinite = true
  · exact .inl (isFinite_sineOfDegrees hfinite)
  · right
    rw [sineOfDegrees_of_not_isFinite (Bool.eq_false_iff.mpr hfinite)]
    refine ⟨rfl, ?_⟩
    cases n with
    | int i => exact absurd (Decimal.isFinite_ofInt i) hfinite
    | double x =>
      cases angle with
      | int i => cases hn
      | double y =>
        obtain rfl : y = x := Number.double.inj (Except.ok.inj hn)
        exact .inr ⟨_, List.mem_cons_self, hfinite⟩
      | string t => exact .inl ⟨t, x, rest, rfl, hn, Bool.eq_false_iff.mpr hfinite⟩

/-- The sine of such a string is pushed unchecked. -/
theorem echoElement_endless {scopes : List Scope} {s : EchoState} (h : EndlessAngle s.stack) :
    echoElement scopes (.function Builtin.sin.name) s =
      .ok () ⟨.double nan :: s.stack.tail, s.exchange⟩ := by
  obtain ⟨t, x, rest, hstack, hparse, hinfinite⟩ := h
  obtain ⟨stack, ex⟩ := s
  obtain rfl : stack = .string t :: rest := hstack
  have hpushes := @replaces_sin scopes ex (.string t) rest
  rw [List.singleton_append, Value.toNumber, hparse] at hpushes
  change Pushes ex rest (.ok (.double (Builtin.sineOfDegrees x))) _ at hpushes
  rw [sineOfDegrees_of_not_isFinite hinfinite] at hpushes
  generalize echoElement scopes (.function Builtin.sin.name) ⟨.string t :: rest, ex⟩ = out
    at hpushes
  cases hpushes
  rfl

end PageServer.Template
