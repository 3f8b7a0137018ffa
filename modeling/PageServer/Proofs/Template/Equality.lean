import Mathlib
import PageServer.Proofs.Template.WellFormed

/-!
# Equal documents

Documents are compared with their doubles as numbers, so a document may differ
from an equal one in the sign of a zero. What equals a well-formed document is
well-formed, and a document without infinite or undefined doubles equals itself.
-/

namespace PageServer.Template

theorem Element.WellFormed.of_beq {e f : Element} (hf : f.WellFormed) (h : (e == f) = true) :
    e.WellFormed := by
  cases e with
  | name s =>
    cases f with
    | name t =>
      have hst : (s == t) = true := h
      obtain rfl := eq_of_beq hst
      exact hf
    | _ => cases h
  | function s =>
    cases f with
    | function t =>
      have hst : (s == t) = true := h
      obtain rfl := eq_of_beq hst
      exact hf
    | _ => cases h
  | operator c =>
    cases f with
    | operator d =>
      have hcd : (c == d) = true := h
      obtain rfl := eq_of_beq hcd
      exact hf
    | _ => cases h
  | integer v => trivial
  | double x => trivial
  | string s => trivial

theorem Element.isBound_of_beq {e f : Element} (h : (e == f) = true) : e.isBound = f.isBound := by
  cases e <;> cases f <;> first | rfl | cases h

theorem forall_of_beq {P : Element → Prop} (hP : ∀ {e f : Element}, P f → (e == f) = true → P e)
    {es fs : List Element} (hfs : ∀ f ∈ fs, P f) (h : (es == fs) = true) : ∀ e ∈ es, P e := by
  induction es generalizing fs with
  | nil => nofun
  | cons e es ih =>
    cases fs with
    | nil => cases h
    | cons f fs =>
      obtain ⟨he, hes⟩ : (e == f) = true ∧ (es == fs) = true := by
        simpa using h
      intro e' he'
      rcases List.mem_cons.mp he' with rfl | he'
      · exact hP (hfs f List.mem_cons_self) he
      · exact ih (fun f' hf' => hfs f' (List.mem_cons_of_mem f hf')) hes e' he'

theorem LoopHeader.beq_iff {h k : LoopHeader} :
    (h == k) = true ↔ h.counter = k.counter ∧ (h.bounds == k.bounds) = true := by
  obtain ⟨counter, first, last, step⟩ := h
  obtain ⟨counter', first', last', step'⟩ := k
  have hunfold : ((⟨counter, first, last, step⟩ : LoopHeader) == ⟨counter', first', last', step'⟩) =
      (counter == counter' && (first == first' && (last == last' && step == step'))) := rfl
  rw [hunfold]
  cases step <;> cases step' <;> simp [bounds]

theorem float_beq_self {x : Float} (h : x.isFinite = true) : (x == x) = true := by
  rw [Float.beq_self_iff]
  rintro rfl
  exact absurd h (by decide +kernel)

theorem Element.beq_self {e : Element} (h : ∀ x ∈ e.doubles, x.isFinite = true) :
    (e == e) = true := by
  cases e with
  | name s => exact beq_self_eq_true s
  | integer v => exact beq_self_eq_true v
  | double x => exact float_beq_self (h x List.mem_cons_self)
  | string s => exact beq_self_eq_true s
  | function s => exact beq_self_eq_true s
  | operator c => exact beq_self_eq_true c

theorem elements_beq_self {es : List Element}
    (h : ∀ x ∈ es.flatMap Element.doubles, x.isFinite = true) : (es == es) = true := by
  induction es with
  | nil => rfl
  | cons e es ih =>
    have he : (e == e) = true :=
      Element.beq_self fun x hx => h x (List.mem_append_left _ hx)
    have hes : (es == es) = true :=
      ih fun x hx => h x (List.mem_append_right _ hx)
    rw [List.cons_beq_cons, he, hes]
    rfl

namespace Node

theorem isText_of_same {n m : Node} (h : same n m = true) : n.isText = m.isText := by
  cases n <;> cases m <;> first | rfl | simp [same] at h

theorem Separated.of_sameAll {ns ms : List Node} (hms : Separated ms)
    (h : sameAll ns ms = true) : Separated ns := by
  induction ns generalizing ms with
  | nil => exact List.IsChain.nil
  | cons n ns ih =>
    cases ms with
    | nil => simp [sameAll] at h
    | cons m ms =>
      obtain ⟨hn, hns⟩ : same n m = true ∧ sameAll ns ms = true := by
        simpa [sameAll] using h
      obtain ⟨hnext, hms⟩ := List.isChain_cons.mp hms
      refine List.isChain_cons.mpr ⟨?_, ih hms hns⟩
      intro n' hn' htexts
      cases ns with
      | nil => cases hn'
      | cons a ns =>
        obtain rfl : a = n' := by simpa using hn'
        cases ms with
        | nil => simp [sameAll] at hns
        | cons b ms =>
          have hab : same a b = true := by
            simp only [sameAll, Bool.and_eq_true] at hns
            exact hns.1
          rw [isText_of_same hn, isText_of_same hab] at htexts
          exact hnext b rfl htexts

mutual

theorem WellFormed.of_same {n m : Node} (hm : m.WellFormed) (h : same n m = true) :
    n.WellFormed := by
  cases n with
  | text s =>
    cases m with
    | text t =>
      obtain rfl : s = t := by simpa [same] using h
      exact hm
    | _ => simp [same] at h
  | echo es =>
    cases m with
    | echo fs =>
      have hes : (es == fs) = true := by simpa only [same] using h
      exact forall_of_beq Element.WellFormed.of_beq hm hes
    | _ => simp [same] at h
  | loop header ns =>
    cases m with
    | loop k ms =>
      obtain ⟨hk, hsep, hms⟩ := hm
      obtain ⟨hheader, hns⟩ : (header == k) = true ∧ sameAll ns ms = true := by
        simpa only [same, Bool.and_eq_true] using h
      obtain ⟨hcounter, hbounds⟩ := LoopHeader.beq_iff.mp hheader
      have hbound : ∀ e ∈ header.bounds, e.isBound = true ∧ e.WellFormed := by
        refine forall_of_beq ?_ hk.bounds hbounds
        intro e f hf hef
        exact ⟨Element.isBound_of_beq hef ▸ hf.1, hf.2.of_beq hef⟩
      exact ⟨⟨hcounter ▸ hk.counter, hbound⟩, hsep.of_sameAll hns, allWellFormed_of_sameAll hms hns⟩
    | _ => simp [same] at h

theorem allWellFormed_of_sameAll {ns ms : List Node} (hms : AllWellFormed ms)
    (h : sameAll ns ms = true) : AllWellFormed ns := by
  cases ns with
  | nil => trivial
  | cons n ns =>
    cases ms with
    | nil => simp [sameAll] at h
    | cons m ms =>
      obtain ⟨hn, hns⟩ : same n m = true ∧ sameAll ns ms = true := by
        simpa only [sameAll, Bool.and_eq_true] using h
      exact ⟨WellFormed.of_same hms.1 hn, allWellFormed_of_sameAll hms.2 hns⟩

end

mutual

theorem same_self {n : Node} (h : ∀ x ∈ n.doubles, x.isFinite = true) : same n n = true := by
  cases n with
  | text s => simp [same]
  | echo es =>
    rw [same]
    exact elements_beq_self h
  | loop header ns =>
    have hheader : (header == header) = true :=
      LoopHeader.beq_iff.mpr ⟨rfl, elements_beq_self fun x hx => h x (List.mem_append_left _ hx)⟩
    have hns : sameAll ns ns = true :=
      sameAll_self fun x hx => h x (List.mem_append_right _ hx)
    rw [same, hheader, hns]
    rfl

theorem sameAll_self {ns : List Node} (h : ∀ x ∈ allDoubles ns, x.isFinite = true) :
    sameAll ns ns = true := by
  cases ns with
  | nil => rfl
  | cons n ns =>
    have hn : same n n = true :=
      same_self fun x hx => h x (List.mem_append_left _ hx)
    have hns : sameAll ns ns = true :=
      sameAll_self fun x hx => h x (List.mem_append_right _ hx)
    rw [sameAll, hn, hns]
    rfl

end

end Node

namespace Document

theorem WellFormed.of_beq {d e : Document} (he : e.WellFormed) (h : (d == e) = true) :
    d.WellFormed :=
  ⟨he.separated.of_sameAll h, Node.allWellFormed_of_sameAll he.nodes h⟩

theorem beq_self {d : Document} (h : ∀ x ∈ d.doubles, x.isFinite = true) : (d == d) = true :=
  Node.sameAll_self h

end Document

end PageServer.Template
