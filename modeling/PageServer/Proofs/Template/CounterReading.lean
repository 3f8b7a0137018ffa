import PageServer.Proofs.Template.Endings

/-!
# Counters are read back

The scopes hold the texts of the counters. In the body of a loop the counter is
found in the loop's own scope, unless an inner loop has taken its name, and is
read as the same number with the same kind. Only the text of an infinite counter
is not read as a number; a loop with finite bounds has no such counter.
-/

namespace PageServer.Template

/-! ### Nodes of a body -/

/-- Rendering these nodes from this state comes to a node, and in no inner loop
with that counter. -/
inductive ComesTo (counter : String) (bound : ℕ) : List Node → RenderState → RenderState → Prop
  | here {n : Node} {ns : List Node} {s : RenderState} : ComesTo counter bound (n :: ns) s s
  | inside {h : LoopHeader} {body ns : List Node} {s s₁ s₂ t : RenderState} {r : Range}
      {left : ℕ} {current : Number} (hname : h.counter ≠ counter)
      (hrange : h.range s.scopes = .ok r)
      (hturn : Turn r (loopBody h.counter bound body) bound ⟨Table.empty :: s.scopes, s.exchange⟩
        (left + 1) current s₁)
      (hin : current.inRange r.ascending r.last = true)
      (hset : RenderM.setVariable h.counter current.text s₁ = .ok () s₂)
      (hbody : ComesTo counter bound body s₂ t) : ComesTo counter bound (.loop h body :: ns) s t
  | after {n : Node} {ns : List Node} {s s' t : RenderState} (hn : n.render bound s = .ok () s')
      (hrest : ComesTo counter bound ns s' t) : ComesTo counter bound (n :: ns) s t

section Scopes

variable {counter : String} {bound left : ℕ} {ns : List Node} {r : Range} {current : Number}
  {own : Scope} {scopes : List Scope} {ex : Exchange} {s t : RenderState}

/-- At each turn the loop's own scope is on top, and names its counter only. -/
theorem Turn.ownScope (hown : own.OnlyNames counter)
    (h : Turn r (loopBody counter bound ns) bound ⟨own :: scopes, ex⟩ left current s) :
    ∃ own' : Scope, s.scopes = own' :: scopes ∧ own'.OnlyNames counter := by
  induction h with
  | first => exact ⟨own, rfl, hown⟩
  | @next left current succ s₁ s₂ _ _ hbody _ ih =>
    obtain ⟨own₁, hscopes, hown₁⟩ := ih
    obtain ⟨scopes₁, ex₁⟩ := s₁
    obtain rfl : scopes₁ = own₁ :: scopes := hscopes
    exact ⟨_, scopes_loopBody hbody, hown₁.insert _⟩

theorem setVariable_of_scopes {text : String} (hs : s.scopes = own :: scopes)
    (h : RenderM.setVariable counter text s = .ok () t) :
    t.scopes = own.insert counter text :: scopes := by
  obtain ⟨scopes', ex⟩ := s
  obtain rfl : scopes' = own :: scopes := hs
  cases h
  rfl

theorem findVariable_of_onlyNames {name : String} (hown : own.OnlyNames counter)
    (hname : counter ≠ name) :
    findVariable (own :: scopes) name = findVariable scopes name := by
  rw [findVariable, List.findSome?_cons, hown name hname.symm]
  rfl

/-- An inner loop hides no other name than that of its own counter. -/
theorem ComesTo.find (h : ComesTo counter bound ns s t) :
    findVariable t.scopes counter = findVariable s.scopes counter := by
  induction h with
  | here => rfl
  | @inside h body ns s s₁ s₂ t r left current hname _ hturn _ hset _ ih =>
    obtain ⟨own, hscopes, hown⟩ := hturn.ownScope (Scope.onlyNames_empty h.counter)
    rw [ih, setVariable_of_scopes hscopes hset, findVariable_of_onlyNames (hown.insert _) hname]
  | @after n ns s s' t hn _ ih =>
    have hscopes := scopes_render bound n s
    rw [hn, endState_ok] at hscopes
    rw [ih, hscopes]

end Scopes

/-! ### Finite counters -/

/-- A counter between finite bounds is finite, whatever the step. -/
theorem Turn.isFinite {r : Range} {body : Number → RenderM Unit} {bound left : ℕ}
    {current : Number} {s s' : RenderState} (h : Turn r body bound s left current s')
    (hzero : r.step.isZero = false) (hstart : r.start.IsFinite) (hlast : r.last.IsFinite)
    (hin : current.inRange r.ascending r.last = true) : current.IsFinite := by
  induction h with
  | first => exact hstart
  | next _ hbefore _ hsucc ih => exact Number.isFinite_advance (ih hbefore) hlast hzero hsucc hin

theorem parse_text_of_not_isFinite {n : Number} (h : ¬ n.IsFinite) :
    Number.parse n.text = .error (.notANumber n.text) := by
  cases n with
  | int v => exact absurd trivial h
  | double x =>
    rw [Number.text, Number.chars]
    obtain htext | htext | htext := pointed_of_not_isFinite (Bool.eq_false_iff.mpr h) <;>
      · rw [htext]
        rfl

/-! ### Reading -/

/-- A body reads the counter of its loop just if it is finite, as it always is
between finite bounds. -/
theorem lookup_counter_iff {h : LoopHeader} {ns : List Node} {bound left : ℕ}
    {scopes : List Scope} {ex : Exchange} {r : Range} {current : Number} {s s₁ t : RenderState}
    (hrange : h.range scopes = .ok r)
    (hturn : Turn r (loopBody h.counter bound ns) bound ⟨Table.empty :: scopes, ex⟩ (left + 1)
      current s)
    (hin : current.inRange r.ascending r.last = true)
    (hset : RenderM.setVariable h.counter current.text s = .ok () s₁)
    (hnode : ComesTo h.counter bound ns s₁ t) :
    (lookup t.scopes h.counter = .ok current ↔ current.IsFinite) ∧
      (¬ current.IsFinite →
        lookup t.scopes h.counter = .error (.value (.notANumber current.text))) ∧
      (r.start.IsFinite → r.last.IsFinite → current.IsFinite) := by
  obtain ⟨own, hscopes, -⟩ := hturn.ownScope (Scope.onlyNames_empty h.counter)
  have htext : findVariable t.scopes h.counter = some current.text := by
    rw [hnode.find, setVariable_of_scopes hscopes hset, findVariable_insert]
  have hrefused (hinfinite : ¬ current.IsFinite) :
      lookup t.scopes h.counter = .error (.value (.notANumber current.text)) := by
    rw [lookup_of_find htext, parse_text_of_not_isFinite hinfinite]
    rfl
  refine ⟨⟨fun hok => ?_, lookup_of_find_finite htext⟩, hrefused, fun hstart hlast => ?_⟩
  · by_contra hinfinite
    rw [hrefused hinfinite] at hok
    cases hok
  · exact hturn.isFinite (LoopHeader.isZero_of_range hrange) hstart hlast hin

/-- A fraction that a string spells is read in an inner loop. -/
theorem lookup_counter_of_string :
    let inner : LoopHeader := ⟨"y", .name "x", .integer 1, none⟩
    let h : LoopHeader := ⟨"x", .string " 25E-2", .string "1.0", none⟩
    let ns : List Node := [.loop inner [.echo [.name "x", .name "y", .operator '+']]]
    let ex := Exchange.start .unlimited .empty .empty [] none
    let outer : Scope := Table.empty.insert "x" "0.25"
    let scopes : List Scope := [Table.empty.insert "y" "0.25", outer]
    h.range [] = .ok (.ofBounds (.double 0.25) (.double 1) (.int 1)) ∧
      ComesTo "x" 1 ns ⟨[outer], ex⟩ ⟨scopes, ex⟩ ∧ lookup scopes "x" = .ok (.double 0.25) := by
  intro inner h ns ex outer scopes
  have htext : (Number.double 0.25).text = "0.25" := by decide +kernel
  have hrange : h.range [] = .ok (.ofBounds (.double 0.25) (.double 1) (.int 1)) := rfl
  have hinner : inner.range [outer] = .ok (.ofBounds (.double 0.25) (.int 1) (.int 1)) := rfl
  have hset : RenderM.setVariable "x" (Number.double 0.25).text ⟨[Table.empty], ex⟩ =
      .ok () ⟨[outer], ex⟩ := by
    rw [htext]
    rfl
  have hset' : RenderM.setVariable "y" (Number.double 0.25).text ⟨[Table.empty, outer], ex⟩ =
      .ok () ⟨scopes, ex⟩ := by
    rw [htext]
    rfl
  have hnode : ComesTo "x" 1 ns ⟨[outer], ex⟩ ⟨scopes, ex⟩ :=
    .inside (by decide) hinner .first (by decide +kernel) hset' .here
  have hfinite : (0.25 : Float).isFinite = true := by decide +kernel
  have hread := lookup_counter_iff hrange .first (by decide +kernel) hset hnode
  exact ⟨hrange, hnode, hread.1.mpr hfinite⟩

/-- The body of a loop runs for an infinite counter, but cannot read it. -/
theorem endless_counter_not_read :
    let h : LoopHeader := ⟨"x", .string "1e400", .integer 5, some (.string "-1e400")⟩
    let endless : Float := Float.ofBits 0x7ff0000000000000
    let ex := Exchange.start .unlimited .empty .empty [] none
    ∃ r, h.range [] = .ok r ∧ r.start = .double endless ∧
      r.start.inRange r.ascending r.last = true ∧
      lookup [Table.empty.insert "x" r.start.text] "x" = .error (.value (.notANumber "inf.0")) ∧
      (Node.loop h [.echo [.name "x"]]).render 1 ⟨[], ex⟩ =
        .error (.failed (.value (.notANumber "inf.0"))) ⟨[], ex⟩ := by
  intro h endless ex
  let r : Range := .ofBounds (.double endless) (.int 5) (.double (Float.ofBits 0xfff0000000000000))
  have hrange : h.range [] = .ok r := rfl
  have hstart : r.start = .double endless := rfl
  have htext : (Number.double endless).text = "inf.0" := by decide +kernel
  have hread : lookup [Table.empty.insert "x" (Number.double endless).text] "x" =
      .error (.value (.notANumber "inf.0")) := by
    rw [htext]
    rfl
  have hin : r.start.inRange r.ascending r.last = true := by decide +kernel
  have hbody : loopBody "x" 1 [.echo [.name "x"]] (.double endless) ⟨[Table.empty], ex⟩ =
      .error (.failed (.value (.notANumber "inf.0")))
        ⟨[Table.empty.insert "x" (Number.double endless).text], ex⟩ := by
    rw [loopBody_apply, htext]
    rfl
  have hturns : iterate r (loopBody "x" 1 [.echo [.name "x"]]) 1 r.start ⟨[Table.empty], ex⟩ =
      .error (.failed (.value (.notANumber "inf.0")))
        ⟨[Table.empty.insert "x" (Number.double endless).text], ex⟩ := by
    rw [iterate_succ hin, bind_apply, hstart, hbody]
  refine ⟨r, hrange, rfl, hin, hread, ?_⟩
  rw [render_loop, hrange]
  exact (inScope_eq_finished_iff (r := .error (.value (.notANumber "inf.0")))).mpr
    ⟨_, hturns, rfl⟩

end PageServer.Template
