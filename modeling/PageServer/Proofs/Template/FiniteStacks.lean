import PageServer.Proofs.Template.FiniteValues

/-!
# The doubles on the stack of an echo

Where all doubles of a document are finite, an echo has nothing but finite
numbers on its stack until it takes the sine of a string that spells a number
beyond all doubles. It never has an infinite one.
-/

namespace PageServer.Template

namespace EchoVisit

/-- The echo comes to an element, which finds one state and succeeds in another. -/
structure Step (v : EchoVisit) (before : List Element) (e : Element) (found left : EchoState) :
    Prop where
  inside : before ++ [e] <+: v.elements
  reached : echoElements v.scopes before ⟨[], v.exchange⟩ = .ok () found
  succeeds : echoElement v.scopes e found = .ok () left

/-- Among these first elements one takes the sine of a string that spells a
number beyond all doubles. -/
def TakesEndlessAngle (v : EchoVisit) (elements : List Element) : Prop :=
  ∃ before found left, before ++ [.function Builtin.sin.name] <+: elements ∧
    v.Step before (.function Builtin.sin.name) found left ∧ EndlessAngle found.stack

variable {v : EchoVisit}

theorem TakesEndlessAngle.mono {es fs : List Element} (h : v.TakesEndlessAngle es)
    (hinitial : es <+: fs) : v.TakesEndlessAngle fs := by
  obtain ⟨before, found, left, hbefore, hrest⟩ := h
  exact ⟨before, found, left, hbefore.trans hinitial, hrest⟩

theorem exists_step {before : List Element} {e : Element} {left : EchoState}
    (hinside : before ++ [e] <+: v.elements)
    (h : echoElements v.scopes (before ++ [e]) ⟨[], v.exchange⟩ = .ok () left) :
    ∃ found, v.Step before e found left := by
  rw [echoElements_append] at h
  cases hbefore : echoElements v.scopes before ⟨[], v.exchange⟩ with
  | ok u found =>
    rw [hbefore] at h
    dsimp only at h
    rw [echoElements_singleton] at h
    exact ⟨found, hinside, hbefore, h⟩
  | error e found =>
    rw [hbefore] at h
    cases h

theorem Step.reaches {before : List Element} {e : Element} {found left : EchoState}
    (h : v.Step before e found left) :
    echoElements v.scopes (before ++ [e]) ⟨[], v.exchange⟩ = .ok () left := by
  rw [echoElements_append, h.reached]
  dsimp only
  rw [echoElements_singleton, h.succeeds]

theorem Step.doubles (hdoubles : ∀ x ∈ v.elements.flatMap Element.doubles, x.isFinite = true)
    {before : List Element} {e : Element} {found left : EchoState}
    (h : v.Step before e found left) : ∀ x ∈ e.doubles, x.isFinite = true := by
  intro x hx
  have he : e ∈ v.elements := h.inside.subset (by simp)
  apply hdoubles
  exact List.mem_flatMap.mpr ⟨e, he, hx⟩

/-- What is on the stack and not finite is the sine of an endless angle. -/
theorem takesEndlessAngle_of_mem (hscopes : HoldNumbers v.scopes)
    (hdoubles : ∀ x ∈ v.elements.flatMap Element.doubles, x.isFinite = true)
    {es : List Element} (hes : es <+: v.elements) {s : EchoState}
    (h : echoElements v.scopes es ⟨[], v.exchange⟩ = .ok () s) {w : Value} (hw : w ∈ s.stack)
    (hinfinite : ¬ w.IsFinite) :
    w = .double nan ∧ v.TakesEndlessAngle es := by
  -- from the end: what the last element found on the stack is there by those before it
  induction es using List.reverseRecOn generalizing s w with
  | nil =>
    cases h
    cases hw
  | append_singleton es e ih =>
    obtain ⟨found, hstep⟩ := exists_step hes h
    have hinitial : es <+: es ++ [e] := List.prefix_append es [e]
    have hearlier {u : Value} (hu : u ∈ found.stack) (huinfinite : ¬ u.IsFinite) :=
      ih (hinitial.trans hes) hstep.reached hu huinfinite
    have he := hstep.doubles hdoubles
    obtain hfound | hfinite | ⟨rfl, hsine⟩ := mem_echoElement hscopes he hstep.succeeds hw
    · obtain ⟨hnan, hangle⟩ := hearlier hfound hinfinite
      exact ⟨hnan, hangle.mono hinitial⟩
    · exact absurd hfinite hinfinite
    · obtain hfinite | ⟨hnan, hangle | ⟨u, hu, huinfinite⟩⟩ := hsine.cases
      · exact absurd hfinite hinfinite
      · exact ⟨hnan, es, found, s, List.prefix_refl _, hstep, hangle⟩
      · exact ⟨hnan, (hearlier hu huinfinite).2.mono hinitial⟩

theorem Step.nan_mem {before : List Element} {found left : EchoState}
    (h : v.Step before (.function Builtin.sin.name) found left)
    (hangle : EndlessAngle found.stack) : .double nan ∈ left.stack := by
  have hrun := h.succeeds
  rw [echoElement_endless hangle] at hrun
  cases hrun
  exact List.mem_cons_self

/-! ### What is printed -/

theorem not_mem_text_of_isFinite {x : Float} (h : x.isFinite = true) {c : Char}
    (hc : (c == '-' || c == '.' || c.isDigit) = false) : c ∉ (Value.double x).text.toList := by
  intro hmem
  rw [Value.text, String.toList_ofList] at hmem
  obtain rfl | rfl | hdigit := mem_pointed h hmem
  · cases hc
  · cases hc
  · simp [hdigit] at hc

/-- What the stacks of an echo hold and what it prints. -/
structure FiniteButForSines (v : EchoVisit) : Prop where
  /-- On the stack is nothing infinite, and what is no number at all is the sine
  of an endless angle. -/
  doubles : ∀ before e found left, v.Step before e found left → ∀ x, .double x ∈ left.stack →
    x.isFinite = true ∨ x.isNaN = true ∧ v.TakesEndlessAngle (before ++ [e])
  /-- Such a sine is the one step that spoils a stack. -/
  step : ∀ before e found left, v.Step before e found left → (∀ w ∈ found.stack, w.IsFinite) →
    ((∀ w ∈ left.stack, w.IsFinite) ↔
      ¬ (e = .function Builtin.sin.name ∧ EndlessAngle found.stack))
  operator : ∀ before op found left, v.Step before (.operator op) found left →
    ∃ w rest, left.stack = w :: rest ∧ w.IsFinite
  all : (∀ before e found left, v.Step before e found left → ∀ w ∈ left.stack, w.IsFinite) ↔
    ¬ v.TakesEndlessAngle v.elements
  printed : ∀ x s, echoElements v.scopes v.elements ⟨[], v.exchange⟩ = .ok () s →
    s.stack = [.double x] → (Value.double x).text ≠ "inf.0" ∧ (Value.double x).text ≠ "-inf.0" ∧
      ((Value.double x).text = "NaN.0" → v.TakesEndlessAngle v.elements)

theorem finiteButForSines (hscopes : HoldNumbers v.scopes)
    (hdoubles : ∀ x ∈ v.elements.flatMap Element.doubles, x.isFinite = true) :
    v.FiniteButForSines where
  doubles before e found left hstep x hx := by
    by_cases hfinite : x.isFinite = true
    · exact .inl hfinite
    · right
      obtain ⟨hnan, hangle⟩ :=
        takesEndlessAngle_of_mem hscopes hdoubles hstep.inside hstep.reaches hx hfinite
      obtain rfl := Value.double.inj hnan
      exact ⟨by decide +kernel, hangle⟩
  step before e found left hstep hfound := by
    constructor
    · rintro hleft ⟨rfl, hangle⟩
      exact not_isFinite_nan (hleft _ (hstep.nan_mem hangle))
    · intro hno w hw
      have he := hstep.doubles hdoubles
      obtain hold | hfinite | ⟨rfl, hsine⟩ := mem_echoElement hscopes he hstep.succeeds hw
      · exact hfound w hold
      · exact hfinite
      · obtain hfinite | ⟨-, hangle | ⟨u, hu, huinfinite⟩⟩ := hsine.cases
        · exact hfinite
        · exact absurd ⟨rfl, hangle⟩ hno
        · exact absurd (hfound u hu) huinfinite
  operator before op found left hstep := by
    obtain ⟨w, rest, hstack, hw, -⟩ := operator_left hstep.succeeds
    exact ⟨w, rest, hstack, hw⟩
  all := by
    constructor
    · rintro hall ⟨before, found, left, -, hstep, hangle⟩
      exact not_isFinite_nan (hall _ _ _ _ hstep _ (hstep.nan_mem hangle))
    · intro hno before e found left hstep w hw
      by_contra hinfinite
      obtain ⟨-, hangle⟩ :=
        takesEndlessAngle_of_mem hscopes hdoubles hstep.inside hstep.reaches hw hinfinite
      exact hno (hangle.mono hstep.inside)
  printed x s hs hstack := by
    by_cases hfinite : x.isFinite = true
    · have hletter {t : String} {c : Char} (hc : (c == '-' || c == '.' || c.isDigit) = false)
          (ht : c ∈ t.toList) : (Value.double x).text ≠ t := by
        rintro rfl
        exact not_mem_text_of_isFinite hfinite hc ht
      refine ⟨@hletter _ 'i' (by decide) (by decide), @hletter _ 'i' (by decide) (by decide), ?_⟩
      intro htext
      exact absurd htext (@hletter _ 'N' (by decide) (by decide))
    · have hx : .double x ∈ s.stack := by simp [hstack]
      obtain ⟨hnan, hangle⟩ :=
        takesEndlessAngle_of_mem hscopes hdoubles (List.prefix_refl _) hs hx hfinite
      rw [hnan, text_nan]
      exact ⟨by decide, by decide, fun _ => hangle⟩

end EchoVisit

theorem finite_unless_endless_angle {d : Document} (hd : ∀ x ∈ d.doubles, x.isFinite = true)
    {bound : Nat} {ex : Exchange} {v : EchoVisit} (hv : d.Visits bound ex v) :
    v.FiniteButForSines := by
  apply EchoVisit.finiteButForSines (HoldNumbers.nil.visits hv)
  intro x hx
  exact hd x (hv.doubles hx)

/-- A counter is in scope as text and comes back as a number. -/
theorem counted_power_finite :
    let echo : List Element := [.double 0.5, .name "i", .operator '^']
    let d : Document := ⟨[.loop ⟨"i", .integer 1, .integer 2, none⟩ [.echo echo]]⟩
    let ex := Exchange.start .unlimited .empty .empty [] none
    let v : EchoVisit := ⟨[Table.empty.insert "i" "1"], echo, ex⟩
    (∀ x ∈ d.doubles, x.isFinite = true) ∧ d.Visits 1 ex v ∧ v.FiniteButForSines := by
  intro echo d ex v
  have hd : ∀ x ∈ d.doubles, x.isFinite = true := by
    intro x hx
    obtain rfl : x = 0.5 := by
      simpa [d, echo, Document.doubles, Node.allDoubles, Node.doubles, Element.doubles,
        LoopHeader.bounds] using hx
    decide +kernel
  have hv : d.Visits 1 ex v := .loop rfl .first rfl rfl .echo
  exact ⟨hd, hv, finite_unless_endless_angle hd hv⟩

theorem endlessAngle_string (rest : List Value) : EndlessAngle (.string "1e400" :: rest) := by
  have hparse : Number.parse "1e400" = .ok (.double (Float.ofBits 0x7ff0000000000000)) := rfl
  exact ⟨_, _, rest, rfl, hparse, by decide +kernel⟩

/-- The double of a string is not checked before its sine is taken. -/
theorem endless_angle_prints_nan :
    let d : Document := ⟨[.echo [.string "1e400", .function "sin"]]⟩
    let ex := Exchange.start .unlimited .empty .empty [] none
    (∀ x ∈ d.doubles, x.isFinite = true) ∧
      (∃ v found left x, d.Visits 0 ex v ∧
        v.Step [.string "1e400"] (.function "sin") found left ∧ .double x ∈ left.stack ∧
        x.isFinite = false) ∧
      d.render 0 ex = .ok () (ex.wrote (ex.head.encoding.encode "NaN.0")) := by
  intro d ex
  have hsine : echoElement [] (.function "sin") ⟨[.string "1e400"], ex⟩ =
      .ok () ⟨[.double nan], ex⟩ := echoElement_endless (endlessAngle_string [])
  have haccepts : ex.Accepts (ex.head.encoding.encode "NaN.0") :=
    (Exchange.takesAll_start _ _ _ _).accepts _
  have hwrite : Exchange.writeText "NaN.0" ex = .ok () _ := haccepts.write
  let v : EchoVisit := ⟨[], [.string "1e400", .function "sin"], ex⟩
  have hstep : v.Step [.string "1e400"] (.function "sin") ⟨[.string "1e400"], ex⟩
      ⟨[.double nan], ex⟩ := ⟨List.prefix_refl _, rfl, hsine⟩
  refine ⟨nofun, ⟨v, _, _, nan, .echo, hstep, List.mem_cons_self, ?_⟩, ?_⟩
  · exact Bool.eq_false_iff.mpr not_isFinite_nan
  · have hrun : echoElements [] v.elements ⟨[], ex⟩ = .ok () ⟨[.double nan], ex⟩ := hstep.reaches
    have hresult : echoResult ⟨[.double nan], ex⟩ =
        EchoM.onExchange (Exchange.writeText (Value.double nan).text) ⟨[.double nan], ex⟩ := rfl
    rw [text_nan, EchoM.onExchange, hwrite] at hresult
    have hnode : (Node.echo v.elements).render 0 ⟨[], ex⟩ =
        .ok () ⟨[], ex.wrote (ex.head.encoding.encode "NaN.0")⟩ := by
      rw [Node.render, RenderM.onEcho, runEcho, bind_apply, hrun]
      dsimp only
      rw [hresult]
    rw [Document.render, Node.renderAll, bind_apply, hnode]
    rfl

end PageServer.Template
