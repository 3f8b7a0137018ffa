import Mathlib.Data.Option.Basic
import PageServer.Proofs.Template.Draining
import PageServer.Proofs.Template.Items

/-!
# The layout of a template

A template is laid out as items and what follows the last of them: the end, a
place where no token can be read, or a directive that is never closed. The
layout decides whether the template is read, as which document, and with which
error if it is refused.
-/

namespace PageServer.Template

/-- The items of a template, as far as its tokens go. -/
structure Layout where
  items : List Item
  /-- The tokens of a last directive that is never closed. -/
  cutOff : Option (List Token)
  failure : Option ScanError

namespace Layout

/-- The tokens behind the last item. -/
def ending (l : Layout) : List Token :=
  match l.cutOff, l.failure with
  | some inner, _ => .tagOpen :: inner
  | none, some _ => []
  | none, none => [.endOfInput]

def stream (l : Layout) : TokenStream :=
  ⟨l.items.flatMap Item.tokens ++ l.ending, l.failure⟩

/-- Directives end at the first mark that closes them, and only a failure
leaves one unclosed. -/
structure Closed (l : Layout) : Prop where
  items : ∀ i ∈ l.items, i.Closed
  cutOff : ∀ inner ∈ l.cutOff, ∀ t ∈ inner, t ≠ .tagClose
  finished : l.failure = none → l.cutOff = none

def cons (i : Item) (l : Layout) : Layout :=
  { l with items := i :: l.items }

/-- Cuts tokens into items. The tokens of a directive that is open stand last
first. -/
def cut (failure : Option ScanError) : Option (List Token) → List Token → Layout
  | inner, [] => ⟨[], inner.map List.reverse, failure⟩
  | none, .text s :: ts => (cut failure none ts).cons (.text s)
  | none, .tagOpen :: ts => cut failure (some []) ts
  | none, _ :: ts => cut failure none ts
  | some inner, .tagClose :: ts => (cut failure none ts).cons (.directive inner.reverse)
  | some inner, t :: ts => cut failure (some (t :: inner)) ts

end Layout

def layout (source : String) : Layout :=
  Layout.cut (tokens source).failure none (tokens source).tokens

/-! ### Cutting loses nothing -/

namespace Scanner

theorem next_kind {s s' : Scanner} {t : Token} (h : s.next = (.ok t, s')) :
    s'.mode = s.mode ∧
      match s.mode with
      | .literal => (∃ text, t = .text text) ∨ t = .tagOpen ∨ t = .endOfInput
      | .directive => t.isEnd = false := by
  cases outcome_of_next h with
  | token hopen hscan =>
    refine ⟨rfl, ?_⟩
    cases hmode : s.mode with
    | literal =>
      rw [hmode] at hscan
      exact scanLiteral_kind (congrArg Prod.fst hscan)
    | directive =>
      rw [hmode] at hscan
      have hinside : t.kind.isOutside ≠ true := fun hkind => nomatch (scanIn_shape hscan).2.mp hkind
      exact decide_eq_false fun hkind => hinside (by rw [hkind]; rfl)

end Scanner

namespace Layout

/-- The tokens of a directive that is open. -/
def opened : Option (List Token) → List Token
  | none => []
  | some inner => .tagOpen :: inner.reverse

/-- The mode of a scanner in front of the tokens to be cut. -/
def modeFor : Option (List Token) → Mode
  | none => .literal
  | some _ => .directive

theorem cut_failure (failure : Option ScanError) (inner : Option (List Token))
    (ts : List Token) : (cut failure inner ts).failure = failure := by
  fun_induction cut failure inner ts <;> first | rfl | assumption

theorem stream_cons (i : Item) (l : Layout) :
    (l.cons i).stream.tokens = i.tokens ++ l.stream.tokens := by
  simp [stream, cons, ending]

theorem cut_inner (failure : Option ScanError) {t : Token} (ht : t ≠ .tagClose)
    (inner ts : List Token) :
    cut failure (some inner) (t :: ts) = cut failure (some (t :: inner)) ts := by
  cases t with
  | tagClose => exact absurd rfl ht
  | _ => rfl

theorem modeAfter_inner {t : Token} (ht : t ≠ .tagClose) :
    Scanner.modeAfter .directive t = .directive := by
  cases t with
  | tagClose => exact absurd rfl ht
  | _ => rfl

/-- The layout of what a scanner reads is made of the tokens it reads. -/
theorem cut_drain {s : Scanner} {inner : Option (List Token)} (hmode : s.mode = modeFor inner) :
    (cut s.drain.failure inner s.drain.tokens).stream.tokens = opened inner ++ s.drain.tokens ∧
      (s.drain.failure = none → (cut s.drain.failure inner s.drain.tokens).cutOff = none) := by
  fun_induction Scanner.drain s generalizing inner with
  | case1 s e s' h =>
    refine ⟨?_, fun hnone => absurd hnone (Option.some_ne_none e)⟩
    cases inner with
    | none => rfl
    | some inner => simp [cut, stream, ending, opened]
  | case2 s t s' h ht =>
    obtain ⟨-, hkind⟩ := Scanner.next_kind h
    rw [hmode] at hkind
    cases inner with
    | none =>
      rcases hkind with ⟨text, rfl⟩ | rfl | rfl
      · cases ht
      · cases ht
      · exact ⟨rfl, fun _ => rfl⟩
    | some inner =>
      rw [show t.isEnd = false from hkind] at ht
      cases ht
  | case3 s t s' h ht this ih =>
    obtain ⟨hsame, hkind⟩ := Scanner.next_kind h
    rw [hmode] at hsame hkind
    simp only [TokenStream.cons]
    cases inner with
    | none =>
      rcases hkind with ⟨text, rfl⟩ | rfl | rfl
      · obtain ⟨htokens, hcutOff⟩ := @ih none hsame
        refine ⟨?_, hcutOff⟩
        rw [cut, stream_cons, htokens]
        rfl
      · exact @ih (some []) rfl
      · exact absurd rfl ht
    | some inner =>
      by_cases hclose : t = .tagClose
      · subst hclose
        obtain ⟨htokens, hcutOff⟩ := @ih none rfl
        refine ⟨?_, hcutOff⟩
        rw [cut, stream_cons, htokens]
        simp [opened, Item.tokens, directiveTokens]
      · have hinside : Scanner.modeAfter s'.mode t = modeFor (some (t :: inner)) := by
          rw [hsame]
          exact modeAfter_inner hclose
        obtain ⟨htokens, hcutOff⟩ := ih hinside
        rw [cut_inner _ hclose]
        refine ⟨?_, hcutOff⟩
        rw [htokens]
        simp [opened]

theorem closed_cut (failure : Option ScanError) (inner : Option (List Token)) (ts : List Token)
    (hinner : ∀ us ∈ inner, ∀ t ∈ us, t ≠ .tagClose) :
    (∀ i ∈ (cut failure inner ts).items, i.Closed) ∧
      ∀ us ∈ (cut failure inner ts).cutOff, ∀ t ∈ us, t ≠ .tagClose := by
  fun_induction cut failure inner ts with
  | case1 inner =>
    refine ⟨nofun, ?_⟩
    intro us hus t ht
    obtain ⟨vs, hvs, rfl⟩ := Option.mem_map.mp hus
    exact hinner vs hvs t (List.mem_reverse.mp ht)
  | case2 text ts ih =>
    obtain ⟨hitems, hcutOff⟩ := ih nofun
    exact ⟨List.forall_mem_cons.mpr ⟨trivial, hitems⟩, hcutOff⟩
  | case3 ts ih =>
    apply ih
    rintro us ⟨⟩ t ht
    cases ht
  | case4 t ts htext hopen ih => exact ih nofun
  | case5 inner ts ih =>
    obtain ⟨hitems, hcutOff⟩ := ih nofun
    refine ⟨List.forall_mem_cons.mpr ⟨?_, hitems⟩, hcutOff⟩
    intro t ht
    exact hinner inner rfl t (List.mem_reverse.mp ht)
  | case6 inner t ts hclose ih =>
    apply ih
    rintro us ⟨⟩ u hu
    rcases List.mem_cons.mp hu with rfl | hu
    · exact hclose
    · exact hinner inner rfl u hu

end Layout

theorem stream_layout (source : String) : (layout source).stream = tokens source := by
  have hcut := (@Layout.cut_drain (Scanner.ofChars source.toList) none rfl).1
  have hfailure : (layout source).stream.failure = (tokens source).failure :=
    Layout.cut_failure _ _ _
  exact congrArg₂ TokenStream.mk hcut hfailure

theorem closed_layout (source : String) : (layout source).Closed := by
  obtain ⟨hitems, hcutOff⟩ :=
    Layout.closed_cut (tokens source).failure none (tokens source).tokens nofun
  refine ⟨hitems, hcutOff, ?_⟩
  intro h
  have hfailure : (layout source).failure = (tokens source).failure :=
    Layout.cut_failure _ _ _
  rw [hfailure] at h
  exact (@Layout.cut_drain (Scanner.ofChars source.toList) none rfl).2 h

/-! ### What the layout decides -/

namespace Layout

/-- All tokens can be read, every directive says something and the loops match. -/
structure Accepted (l : Layout) : Prop where
  finished : l.failure = none
  inOrder : InOrder l.items
  total : ends l.items = fors l.items

/-- A template is refused for the earliest of its faults: an item behind others
that are in order, a mistake in a directive that is never closed, a place where
no token can be read, and only then a loop that is still open at the end. -/
inductive Refused (l : Layout) : ParseError → Prop
  | item {before after : List Item} {i : Item} {e : ParseError}
      (hitems : l.items = before ++ i :: after) (hbefore : InOrder before)
      (hfault : i.Fault before e) : Refused l e
  | mistaken {inner : List Token} {e : ParseError} (hitems : InOrder l.items)
      (hcutOff : l.cutOff = some inner) (he : Directive.Mistaken inner e) : Refused l e
  | scan {e : ScanError} (hitems : InOrder l.items)
      (hcutOff : ∀ inner ∈ l.cutOff, ∀ e', ¬ Directive.Mistaken inner e')
      (hfailure : l.failure = some e) : Refused l (.scan e)
  | unclosedLoop {h : LoopHeader} (hitems : InOrder l.items) (hfinished : l.failure = none)
      (hopen : InnermostOpen l.items h) : Refused l (.unclosedLoop h.counter)

variable {l : Layout}

theorem document_mistaken {r : Reader} (hr : r.HasRead l.items) {e : ParseError}
    (hrun : r.run l.ending = .error e) : l.stream.document = .error e := by
  simp only [TokenStream.document, stream, hr.run, hrun]

theorem document_failed {r r' : Reader} (hr : r.HasRead l.items) (hrun : r.run l.ending = .ok r')
    {e : ScanError} (h : l.failure = some e) : l.stream.document = .error (.scan e) := by
  simp only [TokenStream.document, stream, hr.run, hrun, h]

theorem document_finished {r : Reader} (hl : l.Closed) (hr : r.HasRead l.items)
    (h : l.failure = none) : l.stream.document = r.finish := by
  have hrun : r.run l.ending = .ok r := by
    rw [ending, hl.finished h, h]
    exact Reader.run_cons (Reader.step_outside hr.directive)
  simp only [TokenStream.document, stream, hr.run, hrun, h]

theorem document_of_accepted (hl : l.Closed) (h : l.Accepted) :
    ∃ d, l.stream.document = .ok d ∧
      List.Forall₂ Item.Reads l.items (Node.allEvents d.nodes) := by
  obtain ⟨r, hr⟩ := Reader.exists_hasRead h.inOrder hl.items
  have hloops : r.loops = [] := by
    have hcount := hr.loops
    have htotal := h.total
    exact List.length_eq_zero_iff.mp (by omega)
  refine ⟨⟨r.nodes.reverse⟩, ?_, ?_⟩
  · rw [document_finished hl hr h.finished, Reader.finish, hloops]
  · have hreads := hr.reads
    rwa [Reader.events, hloops] at hreads

/-- Behind the header of the innermost loop that is open the reader has begun a
body, so this is the loop it is in. -/
theorem loops_of_innermostOpen {r : Reader} {items : List Item} (hr : r.HasRead items)
    {h : LoopHeader} (hopen : InnermostOpen items h) :
    ∃ before loops, r.loops = ⟨h, before⟩ :: loops := by
  obtain ⟨before, i, after, rfl, hi, hafter⟩ := hopen
  have hread := hr.taken
  have hbefore := List.forall₂_take before.length hr.reads
  have hbehind := List.forall₂_drop before.length hr.reads
  rw [← List.take_append_drop before.length r.events, Reader.takeAll_append] at hread
  rw [List.take_left] at hbefore
  rw [List.drop_left] at hbehind
  obtain ⟨ev, w, hev, hw, hevents⟩ := List.forall₂_cons_left_iff.mp hbehind
  obtain rfl := Item.reads_rightUnique hev hi
  rw [hevents] at hread
  split at hread
  · next r₁ hr₁ =>
    have hhead : r₁.take (.directive (.loop h)) =
        .ok (Reader.start.above (⟨h, r₁.nodes⟩ :: r₁.loops)) := rfl
    have hprefix (k : Nat) : closes (w.take k) ≤ opens (w.take k) := by
      have htake := List.forall₂_take k hw
      rw [← ends_eq_closes htake, ← fors_eq_opens htake]
      exact hafter.prefixes k
    obtain ⟨r₂, hr₂⟩ := Reader.exists_takeAll hprefix
    have hloops : r₂.loops = [] := by
      have hcount := (Reader.takeAll_ok rfl hr₂).2.2
      have htotal := hafter.total
      rw [ends_eq_closes hw, fors_eq_opens hw] at htotal
      have hstart : Reader.start.loops.length = 0 := rfl
      exact List.length_eq_zero_iff.mp (by omega)
    have habove := Reader.takeAll_above hr₂ (⟨h, r₁.nodes⟩ :: r₁.loops)
    rw [Reader.takeAll_cons hhead, habove] at hread
    obtain rfl := Except.ok.inj hread
    refine ⟨r₁.nodes, r₁.loops, ?_⟩
    rw [Reader.above, hloops]
    rfl
  · cases hread

theorem innermostOpen_of_loops {r : Reader} {items : List Item} (hr : r.HasRead items)
    {l : OpenLoop} {loops : List OpenLoop} (hloops : r.loops = l :: loops) :
    InnermostOpen items l.header := by
  have hreads := hr.reads
  let w := loops.reverse.flatMap OpenLoop.events ++ Node.allEvents l.before.reverse
  have hevents : r.events = w ++ .directive (.loop l.header) :: Node.allEvents r.nodes.reverse := by
    simp [Reader.events, hloops, OpenLoop.events, w]
  rw [hevents] at hreads
  have hbehind := List.forall₂_drop_append _ _ _ hreads
  obtain ⟨i, after, hi, hafter, hdrop⟩ := List.forall₂_cons_right_iff.mp hbehind
  refine ⟨items.take w.length, i, after, ?_, hi, ?_, ?_⟩
  · rw [← hdrop, List.take_append_drop]
  · intro k
    have htake := List.forall₂_take k hafter
    rw [ends_eq_closes htake, fors_eq_opens htake]
    exact Node.closes_take_le_opens _ k
  · rw [ends_eq_closes hafter, fors_eq_opens hafter]
    exact Node.closes_eq_opens _

theorem document_of_refused (hl : l.Closed) {e : ParseError} (h : l.Refused e) :
    l.stream.document = .error e := by
  cases h with
  | @item before after i e hitems hbefore hfault =>
    have hclosed : ∀ j ∈ before ++ i :: after, j.Closed := hitems ▸ hl.items
    obtain ⟨hbeforeClosed, hclosed⟩ := List.forall_mem_append.mp hclosed
    obtain ⟨r, hr⟩ := Reader.exists_hasRead hbefore hbeforeClosed
    have htokens : l.stream.tokens =
        before.flatMap Item.tokens ++
          (i.tokens ++ (after.flatMap Item.tokens ++ l.ending)) := by
      simp [stream, hitems]
    have hrun := hr.run_fault (List.forall_mem_cons.mp hclosed).1 hfault
    rw [TokenStream.document, htokens, hr.run, hrun]
  | @mistaken inner e hitems hcutOff he =>
    obtain ⟨r, hr⟩ := Reader.exists_hasRead hitems hl.items
    rcases Reader.run_cutOff (hl.cutOff inner hcutOff) hr.directive with
      ⟨e', he', hrun⟩ | ⟨hnone, -⟩
    · obtain rfl : e' = e := Except.error.inj ((he' []).symm.trans (he []))
      apply document_mistaken hr
      rw [ending, hcutOff, hrun]
    · exact absurd he (hnone e)
  | @scan e hitems hcutOff hfailure =>
    obtain ⟨r, hr⟩ := Reader.exists_hasRead hitems hl.items
    have hending : ∃ r', r.run l.ending = .ok r' := by
      rw [ending, hfailure]
      cases hinner : l.cutOff with
      | none => exact ⟨r, rfl⟩
      | some inner =>
        rcases Reader.run_cutOff (hl.cutOff inner hinner) hr.directive with
          ⟨e', he', -⟩ | ⟨-, hrun⟩
        · exact absurd he' (hcutOff inner hinner e')
        · exact hrun
    obtain ⟨r', hrun⟩ := hending
    exact document_failed hr hrun hfailure
  | @unclosedLoop h hitems hfinished hopen =>
    obtain ⟨r, hr⟩ := Reader.exists_hasRead hitems hl.items
    obtain ⟨before, loops, hloops⟩ := loops_of_innermostOpen hr hopen
    rw [document_finished hl hr hfinished, Reader.finish, hloops]

theorem accepted_or_refused (hl : l.Closed) : l.Accepted ∨ ∃ e, l.Refused e := by
  rcases inOrder_or_fault l.items with hitems | ⟨before, i, after, e, hitems, hbefore, hfault⟩
  · by_cases hmistaken : ∃ inner ∈ l.cutOff, ∃ e, Directive.Mistaken inner e
    · obtain ⟨inner, hinner, e, he⟩ := hmistaken
      exact .inr ⟨e, .mistaken hitems hinner he⟩
    · cases hfailure : l.failure with
      | some e =>
        right
        refine ⟨.scan e, .scan hitems ?_ hfailure⟩
        intro inner hinner e' he'
        exact hmistaken ⟨inner, hinner, e', he'⟩
      | none =>
        obtain ⟨r, hr⟩ := Reader.exists_hasRead hitems hl.items
        have hcount := hr.loops
        cases hloops : r.loops with
        | nil =>
          rw [hloops, List.length_nil, Nat.zero_add] at hcount
          exact .inl ⟨hfailure, hitems, hcount⟩
        | cons loop loops =>
          right
          exact ⟨_, .unclosedLoop hitems hfailure (innermostOpen_of_loops hr hloops)⟩
  · exact .inr ⟨e, .item hitems hbefore hfault⟩

theorem document_eq_ok_iff (hl : l.Closed) {d : Document} :
    l.stream.document = .ok d ↔
      l.Accepted ∧ List.Forall₂ Item.Reads l.items (Node.allEvents d.nodes) := by
  constructor
  · intro h
    rcases accepted_or_refused hl with hacc | ⟨e, he⟩
    · obtain ⟨d', hd', hreads⟩ := document_of_accepted hl hacc
      obtain rfl : d = d' := Except.ok.inj (h.symm.trans hd')
      exact ⟨hacc, hreads⟩
    · rw [document_of_refused hl he] at h
      cases h
  · rintro ⟨hacc, hreads⟩
    obtain ⟨d', hd', hreads'⟩ := document_of_accepted hl hacc
    have hevents := List.right_unique_forall₂' Item.reads_rightUnique hreads hreads'
    have hnodes : d.nodes = d'.nodes := Node.allEvents_injective hevents
    have hsame : d = d' := congrArg Document.mk hnodes
    rw [hsame, hd']

theorem document_eq_error_iff (hl : l.Closed) {e : ParseError} :
    l.stream.document = .error e ↔ l.Refused e := by
  refine ⟨?_, document_of_refused hl⟩
  intro h
  rcases accepted_or_refused hl with hacc | ⟨e', he'⟩
  · obtain ⟨d, hd, -⟩ := document_of_accepted hl hacc
    rw [hd] at h
    cases h
  · rw [document_of_refused hl he'] at h
    obtain rfl := Except.error.inj h
    exact he'

/-- Loops that do not match are the only reason for an error that says so. -/
theorem Refused.of_isNesting {e : ParseError} (h : l.Refused e) (he : e.isNesting = true) :
    (e = .unmatchedEnd ∧ ∃ before i after, l.items = before ++ i :: after ∧ InOrder before ∧
        i.Reads (.directive .close) ∧ ends before = fors before) ∨
      ∃ header, e = .unclosedLoop header.counter ∧ l.failure = none ∧ InOrder l.items ∧
        InnermostOpen l.items header := by
  have halone (inner : List Token) (hof : Directive.ofTokens inner = .error e) : False := by
    have hlocal : e.isNesting = false := Directive.failsAlone_ofTokens inner e hof
    rw [he] at hlocal
    cases hlocal
  cases h with
  | @item before after i e hitems hbefore hfault =>
    cases hfault with
    | invalid hof => exact (halone _ hof).elim
    | unmatchedEnd hi hcount => exact .inl ⟨rfl, before, i, after, hitems, hbefore, hi, hcount⟩
  | mistaken hitems hcutOff hmistaken => exact (halone _ (hmistaken [])).elim
  | scan => cases he
  | @unclosedLoop header hitems hfinished hopen =>
    exact .inr ⟨header, rfl, hfinished, hitems, hopen⟩

end Layout

/-- A template is read exactly if its layout is accepted, and then as the one
forest whose word its items say. It is refused for the earliest of its faults. -/
theorem parse_builds_bracket_forest (source : String) :
    let l := layout source
    l.stream = tokens source ∧
      ((∃ d, parse source = .ok d) ↔ l.Accepted) ∧
      (∀ d, parse source = .ok d →
        ∀ ns, List.Forall₂ Item.Reads l.items (Node.allEvents ns) ↔ ns = d.nodes) ∧
      (∀ e, parse source = .error e ↔ l.Refused e) ∧
      (parse source = .error .unmatchedEnd →
        ∃ before i after, l.items = before ++ i :: after ∧ InOrder before ∧
          i.Reads (.directive .close) ∧ ends before = fors before) ∧
      (∀ counter, parse source = .error (.unclosedLoop counter) →
        l.failure = none ∧ InOrder l.items ∧
          ∃ h, h.counter = counter ∧ InnermostOpen l.items h) := by
  intro l
  have hl : l.Closed := closed_layout source
  have hstream : l.stream = tokens source := stream_layout source
  have hparse : parse source = l.stream.document := by
    rw [parse, hstream]
  have hok (d : Document) : l.stream.document = .ok d ↔
      l.Accepted ∧ List.Forall₂ Item.Reads l.items (Node.allEvents d.nodes) :=
    Layout.document_eq_ok_iff hl
  have herror (e : ParseError) : l.stream.document = .error e ↔ l.Refused e :=
    Layout.document_eq_error_iff hl
  rw [hparse]
  refine ⟨hstream, ⟨?_, ?_⟩, ?_, herror, ?_, ?_⟩
  · rintro ⟨d, hd⟩
    exact ((hok d).mp hd).1
  · intro h
    obtain ⟨d, hd, -⟩ := Layout.document_of_accepted hl h
    exact ⟨d, hd⟩
  · intro d hd ns
    have hreads := ((hok d).mp hd).2
    constructor
    · intro hns
      exact Node.allEvents_injective
        (List.right_unique_forall₂' Item.reads_rightUnique hns hreads)
    · rintro rfl
      exact hreads
  · intro h
    rcases ((herror _).mp h).of_isNesting rfl with ⟨-, hfault⟩ | ⟨header, hnot, -⟩
    · exact hfault
    · cases hnot
  · intro counter h
    rcases ((herror _).mp h).of_isNesting rfl with
      ⟨hnot, -⟩ | ⟨header, heq, hfinished, hitems, hopen⟩
    · cases hnot
    · exact ⟨hfinished, hitems, header, (ParseError.unclosedLoop.inj heq).symm, hopen⟩

end PageServer.Template
