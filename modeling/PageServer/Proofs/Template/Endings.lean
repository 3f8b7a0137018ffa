import PageServer.Proofs.Decimal.Whole
import PageServer.Proofs.Template.Counters
import PageServer.Proofs.Template.Steps

/-!
# Loops that end

Every loop over whole numbers ends: its counter passes the last bound or has no
room for one more step. A counter that is a double never runs out of room, and
it may come to a double in the range that absorbs the step. Then it stays there
and the loop does not end; all other loops over finite doubles do.
-/

namespace PageServer.Template

/-! ### Counters -/

namespace Range

variable {r : Range} {j k : ℕ} {c : Number}

/-- The counter after so many steps, if it had room for them. -/
def counter (r : Range) : ℕ → Option Number
  | 0 => some r.start
  | k + 1 => (r.counter k).bind (·.advance r.step)

/-- After so many steps there is a counter, and it has not passed the last
bound. -/
def Goes (r : Range) (k : ℕ) : Prop :=
  ∃ c, r.counter k = some c ∧ c.inRange r.ascending r.last = true

/-- After finitely many steps the counter has no room or has passed the last
bound. -/
def Ends (r : Range) : Prop :=
  ∃ k, ¬ r.Goes k

/-- The counter comes to a value that the step does not change, and the last
bound is not passed till then. -/
def Stalls (r : Range) : Prop :=
  ∃ k c, (∀ j ≤ k, r.Goes j) ∧ r.counter k = some c ∧ c.advance r.step = some c

theorem counter_succ (h : r.counter k = some c) : r.counter (k + 1) = c.advance r.step := by
  rw [counter, h, Option.bind_some]

theorem Goes.inRange (h : r.Goes k) (hc : r.counter k = some c) :
    c.inRange r.ascending r.last = true := by
  obtain ⟨c', hc', hin⟩ := h
  obtain rfl := Option.some.inj (hc.symm.trans hc')
  exact hin

theorem counter_add_of_stays (h : r.counter k = some c) (hstays : c.advance r.step = some c)
    (n : ℕ) : r.counter (k + n) = some c := by
  induction n with
  | zero => exact h
  | succ n ih => exact (counter_succ ih).trans hstays

theorem Stalls.goes (h : r.Stalls) (j : ℕ) : r.Goes j := by
  obtain ⟨k, c, hgoes, hc, hstays⟩ := h
  obtain hle | hlt := le_or_gt j k
  · exact hgoes j hle
  · obtain ⟨n, rfl⟩ := Nat.exists_eq_add_of_lt hlt
    exact ⟨c, counter_add_of_stays hc hstays (n + 1), (hgoes k le_rfl).inRange hc⟩

theorem ends_of_passed (hc : r.counter k = some c)
    (hout : c.inRange r.ascending r.last = false) : r.Ends :=
  ⟨k, fun hgoes => Bool.false_ne_true (hout.symm.trans (hgoes.inRange hc))⟩

theorem not_ends_iff : ¬ r.Ends ↔ ∀ k, r.Goes k := by
  rw [Ends, not_exists]
  exact forall_congr' fun k => not_not

end Range

/-! ### Whole numbers -/

section Whole

variable {r : Range} {first step : Int64}

theorem counter_whole (hstart : r.start = .int first) (hstep : r.step = .int step) {k : ℕ}
    {c : Number} (h : r.counter k = some c) :
    ∃ v : Int64, c = .int v ∧ v.toInt = first.toInt + k * step.toInt := by
  induction k generalizing c with
  | zero =>
    rw [Range.counter, hstart] at h
    obtain rfl := Option.some.inj h
    exact ⟨first, rfl, by simp⟩
  | succ k ih =>
    rw [Range.counter, Option.bind_eq_some_iff] at h
    obtain ⟨c', hc', hadvance⟩ := h
    obtain ⟨v, rfl, hv⟩ := ih hc'
    rw [hstep, Number.advance, Option.map_eq_some_iff] at hadvance
    obtain ⟨w, hw, rfl⟩ := hadvance
    by_cases hfits : Decimal.Fits (v.toInt + step.toInt)
    · obtain ⟨w', hw', hread⟩ := hfits.int64?
      obtain rfl : w = w' := Option.some.inj (hw.symm.trans hread)
      refine ⟨w, rfl, ?_⟩
      rw [hw', hv]
      push_cast
      ring
    · have hnone : Decimal.Int64Arith.add? v step = none := Decimal.int64?_of_not_fits hfits
      rw [hnone] at hw
      cases hw

theorem ends_whole (hstart : r.start = .int first) (hstep : r.step = .int step)
    (hzero : (Number.int step).isZero = false) : r.Ends := by
  have hint : step.toInt ≠ 0 := fun hint => by
    obtain rfl : step = 0 := Int64.toInt_inj.mp hint
    cases hzero
  -- so many steps, each of one at least, lead beyond all numbers of 64 bits
  refine ⟨2 ^ 64, ?_⟩
  rintro ⟨c, hc, -⟩
  obtain ⟨v, -, hv⟩ := counter_whole hstart hstep hc
  have hlow := first.le_toInt
  have hhigh := first.toInt_lt
  have hvlow := v.le_toInt
  have hvhigh := v.toInt_lt
  push_cast at hv
  omega

end Whole

/-! ### Doubles -/

section Double

variable {r : Range} {x : Float} {k : ℕ}

theorem counter_double (hstart : r.start = .double x) :
    r.counter k = some (.double ((· + r.step.toFloat)^[k] x)) := by
  induction k with
  | zero => rw [Range.counter, hstart, Function.iterate_zero_apply]
  | succ k ih => rw [Range.counter_succ ih, Number.advance_double, Function.iterate_succ_apply']

theorem stalls_of_absorbed (hstart : r.start = .double x) (hgoes : ∀ j ≤ k, r.Goes j)
    (hk : (· + r.step.toFloat)^[k] x + r.step.toFloat = (· + r.step.toFloat)^[k] x) :
    r.Stalls := by
  refine ⟨k, _, hgoes, counter_double hstart, ?_⟩
  rw [Number.advance_double, hk]

theorem isFinite_counter {c : Number} (hstart : r.start.IsFinite) (hlast : r.last.IsFinite)
    (hzero : r.step.isZero = false) (hgoes : ∀ j, r.Goes j) (hc : r.counter k = some c) :
    c.IsFinite := by
  induction k generalizing c with
  | zero =>
    obtain rfl := Option.some.inj hc
    exact hstart
  | succ k ih =>
    obtain ⟨c', hc', -⟩ := hgoes k
    rw [Range.counter_succ hc'] at hc
    exact Number.isFinite_advance (ih hc') hlast hzero hc
      ((hgoes (k + 1)).inRange ((Range.counter_succ hc').trans hc))

theorem stalls_of_goes (hstart : r.start = .double x) (hx : x.isFinite = true)
    (hlast : r.last.IsFinite) (hstep : r.step.IsFinite) (hzero : r.step.isZero = false)
    (hgoes : ∀ j, r.Goes j) : r.Stalls := by
  have hfinite (k : ℕ) : ((· + r.step.toFloat)^[k] x).isFinite = true :=
    isFinite_counter (hstart ▸ hx) hlast hzero hgoes (counter_double hstart)
  obtain ⟨k, hk⟩ := Decimal.exists_absorbed (Number.isFinite_toFloat hstep)
    (Number.heading_mul_pos hstep hzero) hfinite
  exact stalls_of_absorbed hstart (fun j _ => hgoes j) hk

end Double

/-! ### Rendering -/

section Rendering

variable {r : Range} {k : ℕ} {c : Number}

/-- With enough turns left, a body without nodes is run till the end. -/
theorem iterate_nil {counter : String} {bound left last : ℕ} {own : Scope} {scopes : List Scope}
    {ex : Exchange} (hc : r.counter k = some c) (hlast : ¬ r.Goes last) (hk : k ≤ last)
    (hleft : last ≤ k + left) :
    ∃ own', iterate r (loopBody counter bound []) left c ⟨own :: scopes, ex⟩ =
      .ok () ⟨own' :: scopes, ex⟩ := by
  induction left generalizing k c own with
  | zero =>
    obtain rfl : k = last := by omega
    have hout : c.inRange r.ascending r.last = false :=
      Bool.eq_false_iff.mpr fun hin => hlast ⟨c, hc, hin⟩
    exact ⟨own, iterate_passed hout _ _⟩
  | succ left ih =>
    cases hin : c.inRange r.ascending r.last with
    | false => exact ⟨own, iterate_passed hin _ _⟩
    | true =>
      have hne : k ≠ last := fun heq => hlast (heq ▸ ⟨c, hc, hin⟩)
      have hbody : loopBody counter bound [] c ⟨own :: scopes, ex⟩ =
          .ok () ⟨own.insert counter c.text :: scopes, ex⟩ := rfl
      rw [iterate_succ hin, bind_apply, hbody]
      dsimp only
      cases hadvance : c.advance r.step with
      | none => exact ⟨_, rfl⟩
      | some next =>
        have hnext : r.counter (k + 1) = some next := (Range.counter_succ hc).trans hadvance
        exact ih hnext (by omega) (by omega)

/-- As long as the counter goes on, no number of turns is enough. -/
theorem iterate_ne_ok {body : Number → RenderM Unit} {bound : ℕ} {s s' : RenderState}
    (hc : r.counter k = some c) (hgoes : ∀ j, r.Goes j) :
    iterate r body bound c s ≠ .ok () s' := by
  induction bound generalizing k c s with
  | zero =>
    rw [iterate_zero ((hgoes k).inRange hc)]
    nofun
  | succ bound ih =>
    rw [iterate_succ ((hgoes k).inRange hc), bind_apply]
    cases body c s with
    | error e s₁ => nofun
    | ok u s₁ =>
      obtain ⟨next, hnext, -⟩ := hgoes (k + 1)
      have hadvance := (Range.counter_succ hc).symm.trans hnext
      dsimp only
      rw [hadvance]
      exact ih hnext

theorem render_nil_of_ends {h : LoopHeader} {scopes : List Scope} (hrange : h.range scopes = .ok r)
    (hends : r.Ends) (ex : Exchange) :
    ∃ bound, (Node.loop h []).render bound ⟨scopes, ex⟩ = .ok () ⟨scopes, ex⟩ := by
  obtain ⟨last, hlast⟩ := hends
  have hturns : ∃ own : Scope, iterate r (loopBody h.counter last []) last r.start
      ⟨Table.empty :: scopes, ex⟩ = .ok () ⟨own :: scopes, ex⟩ :=
    iterate_nil (k := 0) rfl hlast (Nat.zero_le _) (Nat.zero_add _).ge
  obtain ⟨own, hrun⟩ := hturns
  refine ⟨last, ?_⟩
  rw [render_loop, hrange]
  exact (inScope_eq_finished_iff (r := .ok ())).mpr ⟨_, hrun, rfl⟩

theorem render_ne_ok {h : LoopHeader} {scopes : List Scope} (hrange : h.range scopes = .ok r)
    (hgoes : ∀ j, r.Goes j) {ns : List Node} {bound : ℕ} {ex : Exchange} {s : RenderState} :
    (Node.loop h ns).render bound ⟨scopes, ex⟩ ≠ .ok () s := by
  intro hok
  rw [render_loop, hrange] at hok
  obtain ⟨s₁, hrun, -⟩ := (inScope_eq_finished_iff (r := .ok ())).mp hok
  exact iterate_ne_ok (k := 0) rfl hgoes hrun

end Rendering

section Bounds

variable {first last step : Number}

/-- A counter is whole or a double from its start on. -/
theorem ofBounds_cases (first last step : Number) :
    (∃ v w, first = .int v ∧ step = .int w) ∨
      (Range.ofBounds first last step).start = .double first.toFloat := by
  cases first with
  | double x => cases step <;> exact .inr rfl
  | int v =>
    cases step with
    | double y => exact .inr rfl
    | int w => exact .inl ⟨v, w, rfl, rfl⟩

theorem ends_iff_not_stalls (hzero : step.isZero = false) (hfirst : first.IsFinite)
    (hlast : last.IsFinite) (hstep : step.IsFinite) :
    (Range.ofBounds first last step).Ends ↔ ¬ (Range.ofBounds first last step).Stalls := by
  constructor
  · rintro ⟨k, hk⟩ hstalls
    exact hk (hstalls.goes k)
  · intro hmoves
    obtain ⟨v, w, rfl, rfl⟩ | hstart := ofBounds_cases first last step
    · exact ends_whole rfl rfl hzero
    · by_contra hends
      exact hmoves (stalls_of_goes hstart (Number.isFinite_toFloat hfirst) hlast hstep hzero
        (Range.not_ends_iff.mp hends))

end Bounds

/-- A loop over finite numbers ends unless its counter comes to a double that
absorbs the step. -/
theorem ends_unless_stalls {h : LoopHeader} {scopes : List Scope} {first last step : Number}
    (hfirst : resolve scopes h.first = .ok first) (hlast : resolve scopes h.last = .ok last)
    (hstep : h.stepNumber scopes = .ok step) (hzero : step.isZero = false)
    (hfinite : first.IsFinite ∧ last.IsFinite ∧ step.IsFinite) :
    ∃ r, h.range scopes = .ok r ∧ r = .ofBounds first last step ∧ (r.Ends ↔ ¬ r.Stalls) ∧
      (∀ v w, first = .int v → step = .int w → r.Ends) ∧
      ∀ ex,
        (r.Ends → ∃ bound,
          (Node.loop h []).render bound ⟨scopes, ex⟩ = .ok () ⟨scopes, ex⟩) ∧
        (r.Stalls → ∀ ns bound s, (Node.loop h ns).render bound ⟨scopes, ex⟩ ≠ .ok () s) := by
  have hrange := LoopHeader.range_of_bounds hfirst hlast hstep hzero
  obtain ⟨hf, hl, hs⟩ := hfinite
  refine ⟨_, hrange, rfl, ends_iff_not_stalls hzero hf hl hs, ?_, fun ex => ⟨?_, ?_⟩⟩
  · rintro v w rfl rfl
    exact ends_whole rfl rfl hzero
  · intro hends
    exact render_nil_of_ends hrange hends ex
  · intro hstalls ns bound s
    exact render_ne_ok hrange hstalls.goes

/-- Below 2 ^ 52 half steps lead past the last bound and the loop ends. Above it the
second of them is lost, and the loop goes on without end. -/
theorem small_step_ends_unless_stalls :
    let below : LoopHeader :=
      ⟨"x", .integer 4503599627370494, .string " 4503599627370495", some (.double 0.5)⟩
    let beyond : LoopHeader :=
      ⟨"x", .integer 4503599627370497, .string " 9e15", some (.double 0.5)⟩
    (∃ r, below.range [] = .ok r ∧ (r.Ends ↔ ¬ r.Stalls) ∧ r.Ends ∧
      ∀ ex, ∃ bound, (Node.loop below []).render bound ⟨[], ex⟩ = .ok () ⟨[], ex⟩) ∧
    ∃ last, resolve [] beyond.last = .ok (.double last) ∧ last.isFinite = true ∧
      ∃ r, beyond.range [] = .ok r ∧ (r.Ends ↔ ¬ r.Stalls) ∧ r.Stalls ∧
        ∀ ns bound ex s, (Node.loop beyond ns).render bound ⟨[], ex⟩ ≠ .ok () s := by
  intro below beyond
  have hhalf : (0.5 : Float).isFinite = true := by decide +kernel
  have hzero : ((0.5 : Float) == 0) = false := by decide +kernel
  constructor
  · have hfirst : resolve [] below.first = .ok (.int 4503599627370494) := rfl
    have hlast : resolve [] below.last = .ok (.int 4503599627370495) := rfl
    have hstep : below.stepNumber [] = .ok (.double 0.5) := rfl
    obtain ⟨r, hrange, rfl, hiff, -, hrender⟩ := ends_unless_stalls hfirst hlast hstep hzero
      ⟨trivial, trivial, hhalf⟩
    have hpassed : (Number.double ((· + (0.5 : Float))^[3] (Float.ofInt 4503599627370494))).inRange
        true (.int 4503599627370495) = false := by decide +kernel
    have hends : (Range.ofBounds (.int 4503599627370494) (.int 4503599627370495)
        (.double 0.5)).Ends := Range.ends_of_passed (counter_double rfl) hpassed
    exact ⟨_, hrange, hiff, hends, fun ex => (hrender ex).1 hends⟩
  · have hfirst : resolve [] beyond.first = .ok (.int 4503599627370497) := rfl
    have hlast : resolve [] beyond.last = .ok (.double 9e15) := rfl
    have hstep : beyond.stepNumber [] = .ok (.double 0.5) := rfl
    have hfinite : (9e15 : Float).isFinite = true := by decide +kernel
    obtain ⟨r, hrange, rfl, hiff, -, hrender⟩ := ends_unless_stalls hfirst hlast hstep hzero
      ⟨trivial, hfinite, hhalf⟩
    -- the first half step is rounded up to the next even number, the second one back to it
    have hin : ∀ j ≤ 1, (Number.double ((· + (0.5 : Float))^[j]
        (Float.ofInt 4503599627370497))).inRange true (.double 9e15) = true := by decide +kernel
    have hlost : (· + (0.5 : Float))^[1] (Float.ofInt 4503599627370497) + 0.5 =
        (· + (0.5 : Float))^[1] (Float.ofInt 4503599627370497) := by decide +kernel
    have hstalls : (Range.ofBounds (.int 4503599627370497) (.double 9e15)
        (.double 0.5)).Stalls :=
      stalls_of_absorbed rfl (fun j hj => ⟨_, counter_double rfl, hin j hj⟩) hlost
    exact ⟨9e15, hlast, hfinite, _, hrange, hiff, hstalls,
      fun ns bound ex s => (hrender ex).2 hstalls ns bound s⟩

/-- From 2 ^ 53 on, one is added in vain. -/
theorem unit_step_absorbed :
    let h : LoopHeader := ⟨"x", .double 9007199254740992, .double 9007199254740992, none⟩
    ∃ r, h.range [] = .ok r ∧ (∀ k, r.counter k = some r.start) ∧
      r.start.inRange r.ascending r.last = true ∧
      ∀ ns bound ex s, (Node.loop h ns).render bound ⟨[], ex⟩ ≠ .ok () s := by
  intro h
  let r : Range := .ofBounds (.double 9007199254740992) (.double 9007199254740992) (.int 1)
  have hrange : h.range [] = .ok r := rfl
  have hin : r.start.inRange r.ascending r.last = true := by decide +kernel
  have hstays : r.start.advance r.step = some r.start := by
    have habsorbed : (9007199254740992 : Float) + Float.ofInt 1 = 9007199254740992 := by
      decide +kernel
    exact congrArg (fun x => some (Number.double x)) habsorbed
  have hcounter (k : ℕ) : r.counter k = some r.start := by
    rw [← Nat.zero_add k]
    exact Range.counter_add_of_stays rfl hstays k
  refine ⟨r, hrange, hcounter, hin, fun ns bound ex s => ?_⟩
  exact render_ne_ok hrange fun k => ⟨_, hcounter k, hin⟩

end PageServer.Template
