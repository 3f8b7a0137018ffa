import PageServer.Proofs.Failures
import PageServer.Proofs.Template.FiniteValues

/-!
# Counters of loops

The range that the header of a loop stands for, and the scope in which its
counter is found again: the loop's own scope is the innermost one at each turn,
and the nodes of the body leave it as it was.
-/

namespace PageServer.Template

/-! ### Headers -/

namespace LoopHeader

variable {h : LoopHeader} {scopes : List Scope} {first last step : Number}

/-- What a loop adds to its counter, one if its header does not say. -/
def stepNumber (h : LoopHeader) (scopes : List Scope) : Except RenderError Number :=
  match h.step with
  | some e => resolve scopes e
  | none => .ok (.int 1)

theorem range_eq_bind (h : LoopHeader) (scopes : List Scope) : h.range scopes = (do
    let first ← resolve scopes h.first
    let last ← resolve scopes h.last
    let step ← h.stepNumber scopes
    if step.isZero then .error (.zeroStep h.counter) else .ok (.ofBounds first last step)) := by
  rw [range, stepNumber]
  cases h.step <;> rfl

theorem range_of_bounds (hfirst : resolve scopes h.first = .ok first)
    (hlast : resolve scopes h.last = .ok last) (hstep : h.stepNumber scopes = .ok step)
    (hzero : step.isZero = false) : h.range scopes = .ok (.ofBounds first last step) := by
  simp only [range_eq_bind, hfirst, hlast, hstep, hzero, bind, Except.bind]
  rfl

theorem isZero_of_range {r : Range} (hrange : h.range scopes = .ok r) : r.step.isZero = false := by
  rw [range_eq_bind, bind_eq_ok_iff] at hrange
  obtain ⟨first, -, hrange⟩ := hrange
  rw [bind_eq_ok_iff] at hrange
  obtain ⟨last, -, hrange⟩ := hrange
  rw [bind_eq_ok_iff] at hrange
  obtain ⟨step, -, hrange⟩ := hrange
  cases hzero : step.isZero with
  | true =>
    rw [hzero] at hrange
    cases hrange
  | false =>
    rw [hzero] at hrange
    cases hrange
    exact hzero

end LoopHeader

/-! ### The scope of a loop -/

section Scope

variable {own : Scope} {scopes : List Scope} {counter : String}

theorem findVariable_insert (text : String) :
    findVariable (own.insert counter text :: scopes) counter = some text := by
  rw [findVariable, List.findSome?_cons, Table.get?_insert_self]

/-- A counter is read from its text. -/
theorem lookup_of_find {n : Number} (h : findVariable scopes counter = some n.text) :
    lookup scopes counter = (Number.parse n.text).mapError .value := by
  rw [lookup, h]

theorem lookup_of_find_finite {n : Number} (h : findVariable scopes counter = some n.text)
    (hn : n.IsFinite) : lookup scopes counter = .ok n := by
  rw [lookup_of_find h, Number.parse_text hn]
  rfl

theorem scopes_loopBody {bound : Nat} {ns : List Node} {n : Number} {ex : Exchange}
    {s : RenderState} (h : loopBody counter bound ns n ⟨own :: scopes, ex⟩ = .ok () s) :
    s.scopes = own.insert counter n.text :: scopes := by
  rw [loopBody_apply] at h
  have hscopes := scopes_renderAll bound ns ⟨own.insert counter n.text :: scopes, ex⟩
  rwa [h, endState_ok] at hscopes

end Scope

end PageServer.Template
