import PageServer.Proofs.Decimal.Whole
import PageServer.Proofs.Template.Counters

/-!
# Loops over whole numbers

A loop whose bounds and step are whole numbers runs its body for each member of
an arithmetic progression, up to the last one that has not passed the bound. The
progression is that of the exact numbers: the counter stops before it runs out
of room, because the members that are not past the bound have room.
-/

namespace PageServer.Template

open Decimal

/-- The member of a progression is not past the last bound. -/
def NotPassed (first last step : ℤ) (k : ℕ) : Prop :=
  if 0 < step then first + k * step ≤ last else last ≤ first + k * step

/-- How many members of a progression are not past the last bound. -/
def turns (first last step : ℤ) : ℕ :=
  ((last - first).fdiv step + 1).toNat

section Exact

variable {first last step : ℤ} {k : ℕ}

theorem lt_turns_iff (hstep : step ≠ 0) :
    k < turns first last step ↔ NotPassed first last step k := by
  rw [turns, NotPassed, Int.lt_toNat, Int.lt_add_one_iff]
  obtain hneg | hpos := lt_or_gt_of_ne hstep
  · have hflip : (last - first).fdiv step = (first - last) / -step := by
      rw [← Int.fdiv_eq_ediv_of_nonneg _ (by omega), ← Int.neg_fdiv_neg, neg_sub]
    rw [hflip, Int.le_ediv_iff_mul_le (by omega), if_neg (by omega), mul_neg]
    omega
  · rw [Int.fdiv_eq_ediv_of_nonneg _ hpos.le, Int.le_ediv_iff_mul_le hpos, if_pos hpos]
    omega

theorem NotPassed.fits (h : NotPassed first last step k) (hfirst : Fits first)
    (hlast : Fits last) : Fits (first + k * step) := by
  obtain ⟨hfirst_low, hfirst_high⟩ := hfirst
  obtain ⟨hlast_low, hlast_high⟩ := hlast
  rw [NotPassed] at h
  split at h
  · next hpos =>
    have hmul : 0 ≤ (k : ℤ) * step := by positivity
    constructor <;> omega
  · next hneg =>
    have hmul : (k : ℤ) * step ≤ 0 := mul_nonpos_of_nonneg_of_nonpos (by omega) (by omega)
    constructor <;> omega

end Exact

theorem fits_toInt (v : Int64) : Fits v.toInt :=
  ⟨v.le_toInt, v.toInt_lt⟩

def Range.whole (first last step : Int64) : Range :=
  .ofBounds (.int first) (.int last) (.int step)

/-- The counter at the turn of that number. -/
def member (first step : Int64) (k : ℕ) : Int64 :=
  Int64.ofInt (first.toInt + k * step.toInt)

theorem eq_member {first step c : Int64} {k : ℕ} (h : c.toInt = first.toInt + k * step.toInt) :
    c = member first step k := by
  rw [member, ← h, Int64.ofInt_toInt]

section Turns

variable {first last step : Int64} {k : ℕ}

theorem toInt_member (h : NotPassed first.toInt last.toInt step.toInt k) :
    (member first step k).toInt = first.toInt + k * step.toInt := by
  obtain ⟨v, hv, -⟩ := (h.fits (fits_toInt first) (fits_toInt last)).int64?
  rw [← eq_member hv, hv]

theorem inRange_iff {c : Int64} (hc : c.toInt = first.toInt + k * step.toInt)
    (hstep : step ≠ 0) :
    (Number.int c).inRange (Range.whole first last step).ascending (.int last) = true ↔
      NotPassed first.toInt last.toInt step.toInt k := by
  have hne : step.toInt ≠ 0 := fun hzero => hstep (Int64.toInt_inj.mp hzero)
  rw [NotPassed, ← hc]
  by_cases hneg : step < 0
  · have hdown : ¬ 0 < step.toInt := by
      have hlt := Int64.lt_iff_toInt_lt.mp hneg
      exact not_lt.mpr hlt.le
    rw [if_neg hdown, ← Int64.le_iff_toInt_le]
    simp [Number.inRange, Range.ascending, Range.whole, Range.ofBounds, Number.isNegative, hneg]
  · have hup : 0 < step.toInt := by
      have hle : (0 : Int64).toInt ≤ step.toInt :=
        not_lt.mp fun hlt => hneg (Int64.lt_iff_toInt_lt.mpr hlt)
      exact lt_of_le_of_ne hle hne.symm
    rw [if_pos hup, ← Int64.le_iff_toInt_le]
    simp [Number.inRange, Range.ascending, Range.whole, Range.ofBounds, Number.isNegative, hneg]

/-- From a turn on, with at least as many rounds left as the progression has
members. -/
theorem iterate_eq_forM (hstep : step ≠ 0) (body : Number → RenderM Unit) {left bound : ℕ}
    {c : Int64} (hc : c.toInt = first.toInt + k * step.toInt)
    (hleft : k + left = turns first.toInt last.toInt step.toInt) (hbound : left ≤ bound)
    (s : RenderState) :
    iterate (Range.whole first last step) body bound (.int c) s =
      ((List.range' k left).forM fun j => body (.int (member first step j))) s := by
  have hne : step.toInt ≠ 0 := fun hzero => hstep (Int64.toInt_inj.mp hzero)
  have hin : (Number.int c).inRange (Range.whole first last step).ascending (.int last) = true ↔
      NotPassed first.toInt last.toInt step.toInt k := inRange_iff hc hstep
  -- on the members left: at the last of them the sum may have no room, but then
  -- there is no further one
  induction left generalizing k bound c s with
  | zero =>
    have hpassed : ¬ NotPassed first.toInt last.toInt step.toInt k := by
      rw [← lt_turns_iff hne]
      omega
    have hout := Bool.eq_false_iff.mpr fun htrue => hpassed (hin.mp htrue)
    exact iterate_passed hout bound s
  | succ left ih =>
    obtain ⟨bound, rfl⟩ : ∃ b, bound = b + 1 := ⟨bound - 1, by omega⟩
    have hnow : NotPassed first.toInt last.toInt step.toInt k := by
      rw [← lt_turns_iff hne]
      omega
    rw [iterate_succ (hin.mpr hnow), List.range'_succ, bind_apply, eq_member hc]
    change _ = (body (.int (member first step k)) >>= fun _ =>
      (List.range' (k + 1) left).forM fun j => body (.int (member first step j))) s
    rw [bind_apply]
    cases body (.int (member first step k)) s with
    | error e s₁ => rfl
    | ok u s₁ =>
      dsimp only
      have hnext : (Number.int (member first step k)).advance (Range.whole first last step).step =
          (int64? (first.toInt + (k + 1 : ℕ) * step.toInt)).map .int := by
        have hexact : (member first step k).toInt + step.toInt =
            first.toInt + (k + 1 : ℕ) * step.toInt := by
          rw [toInt_member hnow]
          push_cast
          ring
        rw [← hexact]
        rfl
      rw [hnext]
      by_cases hfits : Fits (first.toInt + (k + 1 : ℕ) * step.toInt)
      · obtain ⟨v, hv, hread⟩ := hfits.int64?
        rw [hread, Option.map_some]
        exact ih hv (by omega) (by omega) s₁ (inRange_iff hv hstep)
      · have hlast : left = 0 := by
          by_contra hmore
          apply hfits
          have hthere : NotPassed first.toInt last.toInt step.toInt (k + 1) := by
            rw [← lt_turns_iff hne]
            omega
          exact hthere.fits (fits_toInt first) (fits_toInt last)
        rw [int64?_of_not_fits hfits, hlast]
        rfl

end Turns

/-! ### Turn after turn -/

theorem forM_append_apply {α : Type} (act : α → RenderM Unit) (as bs : List α) (s : RenderState) :
    (as ++ bs).forM act s = match as.forM act s with
      | .ok _ s' => bs.forM act s'
      | .error e s' => .error e s' := by
  induction as generalizing s with
  | nil => rfl
  | cons a as ih =>
    change (act a >>= fun _ => (as ++ bs).forM act) s =
      match (act a >>= fun _ => as.forM act) s with
      | .ok _ s' => bs.forM act s'
      | .error e s' => .error e s'
    rw [bind_apply, bind_apply]
    cases act a s with
    | ok u s' => exact ih s'
    | error e s' => rfl

/-- The first turn that fails ends all. -/
theorem forM_range_of_error {act : ℕ → RenderM Unit} {k n : ℕ} (hk : k < n) {s s₁ s₂ : RenderState}
    {e : Stop RenderError} (hbefore : (List.range k).forM act s = .ok () s₁)
    (hfails : act k s₁ = .error e s₂) : (List.range n).forM act s = .error e s₂ := by
  have hsplit : List.range n = List.range k ++ k :: List.range' (k + 1) (n - k - 1) := by
    have hlength : n = k + (n - k - 1 + 1) := by omega
    calc
      List.range n = List.range' 0 (k + (n - k - 1 + 1)) := by rw [← hlength, List.range_eq_range']
      _ = List.range' 0 k ++ List.range' (0 + 1 * k) (n - k - 1 + 1) := List.range'_append.symm
      _ = List.range k ++ k :: List.range' (k + 1) (n - k - 1) := by
        rw [List.range'_succ, List.range_eq_range', one_mul, zero_add]
  have hrest : (k :: List.range' (k + 1) (n - k - 1)).forM act s₁ =
      (act k >>= fun _ => (List.range' (k + 1) (n - k - 1)).forM act) s₁ := rfl
  rw [hsplit, forM_append_apply, hbefore]
  dsimp only
  rw [hrest, bind_apply, hfails]

/-- The body of a loop at the turn of that number. -/
def bodyAt (h : LoopHeader) (ns : List Node) (first step : Int64) (bound k : ℕ) : RenderM Unit :=
  loopBody h.counter bound ns (.int (member first step k))

/-- The turns of a loop before the one of that number. -/
def turnsBefore (h : LoopHeader) (ns : List Node) (first step : Int64) (bound k : ℕ) :
    RenderM Unit :=
  (List.range k).forM (bodyAt h ns first step bound)

/-- What a loop leaves, with the scopes around it again. -/
def outside (scopes : List Scope) :
    EStateM.Result (Stop RenderError) RenderState Unit →
      EStateM.Result (Stop RenderError) RenderState Unit
  | .ok _ s => .ok () ⟨scopes, s.exchange⟩
  | .error e s => .error e ⟨scopes, s.exchange⟩

/-- A loop counts from the first number by the step, as long as the last number
is not passed. -/
structure CountsThrough (h : LoopHeader) (ns : List Node) (first last step : Int64) (bound : ℕ)
    (scopes : List Scope) (ex : Exchange) : Prop where
  /-- The body runs at each turn, in order, and a turn that fails is the last. -/
  inOrder : (Node.loop h ns).render bound ⟨scopes, ex⟩ = outside scopes
    (turnsBefore h ns first step bound (turns first.toInt last.toInt step.toInt)
      ⟨Table.empty :: scopes, ex⟩)
  /-- At each turn that the loop comes to, the body finds the exact number. -/
  reads : ∀ k < turns first.toInt last.toInt step.toInt, ∀ s,
    turnsBefore h ns first step bound k ⟨Table.empty :: scopes, ex⟩ = .ok () s →
    ∃ own, bodyAt h ns first step bound k s =
        Node.renderAll bound ns ⟨own :: scopes, s.exchange⟩ ∧
      ∃ v : Int64, v.toInt = first.toInt + k * step.toInt ∧
        lookup (own :: scopes) h.counter = .ok (.int v)
  /-- After all its turns the loop ends. -/
  ends : ∀ s, turnsBefore h ns first step bound (turns first.toInt last.toInt step.toInt)
      ⟨Table.empty :: scopes, ex⟩ = .ok () s →
    (Node.loop h ns).render bound ⟨scopes, ex⟩ = .ok () ⟨scopes, s.exchange⟩
  /-- The error of a turn is that of the loop. -/
  fails : ∀ k < turns first.toInt last.toInt step.toInt, ∀ s s' e,
    turnsBefore h ns first step bound k ⟨Table.empty :: scopes, ex⟩ = .ok () s →
    bodyAt h ns first step bound k s = .error e s' →
    (Node.loop h ns).render bound ⟨scopes, ex⟩ = .error e ⟨scopes, s'.exchange⟩

section Loop

variable {h : LoopHeader} {ns : List Node} {first last step : Int64} {bound k : ℕ} {own : Scope}
  {scopes : List Scope} {ex : Exchange} {s : RenderState}

theorem scopes_turnsBefore
    (hturns : turnsBefore h ns first step bound k ⟨own :: scopes, ex⟩ = .ok () s) :
    ∃ own', s.scopes = own' :: scopes := by
  induction k generalizing s with
  | zero =>
    cases hturns
    exact ⟨own, rfl⟩
  | succ k ih =>
    rw [turnsBefore, List.range_succ, forM_append_apply] at hturns
    change (match turnsBefore h ns first step bound k ⟨own :: scopes, ex⟩ with
      | .ok _ s' => (bodyAt h ns first step bound k >>= fun _ => pure ()) s'
      | .error e s' => .error e s') = .ok () s at hturns
    cases hbefore : turnsBefore h ns first step bound k ⟨own :: scopes, ex⟩ with
    | error e s₁ =>
      rw [hbefore] at hturns
      cases hturns
    | ok u s₁ =>
      obtain ⟨own₁, hown⟩ := ih hbefore
      obtain ⟨scopes₁, ex₁⟩ := s₁
      obtain rfl : scopes₁ = own₁ :: scopes := hown
      rw [hbefore] at hturns
      dsimp only at hturns
      rw [bind_apply] at hturns
      cases hlast : bodyAt h ns first step bound k ⟨own₁ :: scopes, ex₁⟩ with
      | error e s₂ =>
        rw [hlast] at hturns
        cases hturns
      | ok u s₂ =>
        rw [hlast] at hturns
        cases hturns
        exact ⟨_, scopes_loopBody hlast⟩

theorem inScope_eq_outside {act : RenderM Unit}
    (hscopes : (endState (RenderM.inScope act ⟨scopes, ex⟩)).scopes = scopes) :
    RenderM.inScope act ⟨scopes, ex⟩ = outside scopes (act ⟨Table.empty :: scopes, ex⟩) := by
  rw [RenderM.inScope] at hscopes ⊢
  cases hact : act ⟨Table.empty :: scopes, ex⟩ with
  | ok u s =>
    rw [hact] at hscopes
    obtain rfl : s.scopes.tail = scopes := hscopes
    rfl
  | error e s =>
    rw [hact] at hscopes
    obtain rfl : s.scopes.tail = scopes := hscopes
    rfl

theorem render_turns (hrange : h.range scopes = .ok (.whole first last step)) (hne : step ≠ 0)
    (hbound : turns first.toInt last.toInt step.toInt ≤ bound) :
    (Node.loop h ns).render bound ⟨scopes, ex⟩ = outside scopes
      (turnsBefore h ns first step bound (turns first.toInt last.toInt step.toInt)
        ⟨Table.empty :: scopes, ex⟩) := by
  have hfirst : first.toInt = first.toInt + (0 : ℕ) * step.toInt := by simp
  have hturns : iterate (Range.whole first last step) (loopBody h.counter bound ns) bound
      (Range.whole first last step).start ⟨Table.empty :: scopes, ex⟩ =
        turnsBefore h ns first step bound (turns first.toInt last.toInt step.toInt)
          ⟨Table.empty :: scopes, ex⟩ := by
    rw [turnsBefore, List.range_eq_range']
    exact iterate_eq_forM hne _ hfirst (Nat.zero_add _) hbound _
  have hscopes := scopes_render bound (.loop h ns) ⟨scopes, ex⟩
  rw [render_loop, hrange] at hscopes ⊢
  rw [← hturns]
  exact inScope_eq_outside hscopes

end Loop

/-- A loop over whole numbers runs its body once for each member of the
progression that is not past the last number, and then ends. -/
theorem counts_each_member_once {h : LoopHeader} {scopes : List Scope} {first last step : Int64}
    (hfirst : resolve scopes h.first = .ok (.int first))
    (hlast : resolve scopes h.last = .ok (.int last))
    (hstep : h.stepNumber scopes = .ok (.int step)) (hne : step ≠ 0) (ns : List Node)
    (ex : Exchange) :
    (∀ k : ℕ, k < turns first.toInt last.toInt step.toInt ↔
      NotPassed first.toInt last.toInt step.toInt k) ∧
      ∀ bound, turns first.toInt last.toInt step.toInt ≤ bound →
        CountsThrough h ns first last step bound scopes ex := by
  have hint : step.toInt ≠ 0 := fun hzero => hne (Int64.toInt_inj.mp hzero)
  have hzero : (Number.int step).isZero = false := by
    simpa [Number.isZero] using hne
  have hrange := LoopHeader.range_of_bounds hfirst hlast hstep hzero
  refine ⟨fun k => lt_turns_iff hint, fun bound hbound => ⟨?_, ?_, ?_, ?_⟩⟩
  · exact render_turns hrange hne hbound
  · intro k hk s hbefore
    obtain ⟨own, hown⟩ := scopes_turnsBefore hbefore
    obtain ⟨scopes₁, ex₁⟩ := s
    obtain rfl : scopes₁ = own :: scopes := hown
    refine ⟨own.insert h.counter (Number.int (member first step k)).text, rfl,
      member first step k, toInt_member ((lt_turns_iff hint).mp hk), ?_⟩
    exact lookup_of_find_finite (findVariable_insert _) trivial
  · intro s hall
    rw [render_turns hrange hne hbound, hall]
    rfl
  · intro k hk s s' e hbefore hfails
    have hall : turnsBefore h ns first step bound (turns first.toInt last.toInt step.toInt)
        ⟨Table.empty :: scopes, ex⟩ = .error e s' := forM_range_of_error hk hbefore hfails
    rw [render_turns hrange hne hbound, hall]
    rfl

/-- The second turn is the last: there is no room for a third number. -/
theorem counts_down_to_least :
    let h : LoopHeader :=
      ⟨"i", .integer (-9223372036854775805), .string " -9223372036854775808", some (.integer (-2))⟩
    let ex := Exchange.start .unlimited .empty .empty [] none
    resolve [] h.first = .ok (.int (-9223372036854775805)) ∧
      resolve [] h.last = .ok (.int (-9223372036854775808)) ∧
      h.stepNumber [] = .ok (.int (-2)) ∧
      CountsThrough h [.echo [.name "i"]] (-9223372036854775805) (-9223372036854775808) (-2) 2 []
        ex := by
  intro h ex
  have hfirst : resolve [] h.first = .ok (.int (-9223372036854775805)) := rfl
  have hlast : resolve [] h.last = .ok (.int (-9223372036854775808)) := rfl
  have hstep : h.stepNumber [] = .ok (.int (-2)) := rfl
  have hcounts := (counts_each_member_once hfirst hlast hstep (by decide) [.echo [.name "i"]] ex).2
  exact ⟨hfirst, hlast, hstep, hcounts 2 (by decide)⟩

end PageServer.Template
