import PageServer.Proofs.Template.Brackets

/-!
# Templates as sequences of items

The tokens of a template are cut into items, which are texts and directives.
The document is the bracket forest of the items if every directive says
something and the loops match, else the template is refused for the first item
that is at fault.
-/

namespace PageServer.Template

/-! ### Items -/

/-- Literal text, or the tokens between the marks of a directive. -/
inductive Item where
  | text (s : String)
  | directive (inner : List Token)

namespace Item

def tokens : Item → List Token
  | text s => [.text s]
  | directive inner => directiveTokens inner

/-- What an item says, taken alone. -/
inductive Reads : Item → Event → Prop
  | text (s : String) : Reads (.text s) (.text s)
  | directive {inner : List Token} {d : Directive} (h : Directive.Reads inner d) :
      Reads (.directive inner) (.directive d)

def isFor : Item → Bool
  | directive (.name s :: _) => spells forKeyword s.toList
  | _ => false

def isEnd : Item → Bool
  | directive (.name s :: _) => s = endKeyword
  | _ => false

/-- No mark that closes a directive stands inside one. -/
def Closed : Item → Prop
  | text _ => True
  | directive inner => ∀ t ∈ inner, t ≠ .tagClose

theorem Reads.isFor {i : Item} {ev : Event} (h : i.Reads ev) : i.isFor = ev.isOpen := by
  cases h with
  | text s => rfl
  | directive h =>
    cases h with
    | echo => rfl
    | loop hkeyword => exact hkeyword
    | close => decide

theorem Reads.isEnd {i : Item} {ev : Event} (h : i.Reads ev) : i.isEnd = ev.isClose := by
  cases h with
  | text s => rfl
  | directive h =>
    cases h with
    | echo => rfl
    | @loop keyword h hkeyword =>
      refine decide_eq_false ?_
      rintro rfl
      exact absurd hkeyword (by decide)
    | close => decide

theorem reads_rightUnique : Relator.RightUnique Reads := by
  intro i ev ev' h h'
  cases h with
  | text s =>
    cases h'
    rfl
  | directive h =>
    cases h' with
    | directive h' =>
      have hsame := (Directive.ofTokens_of_reads h).symm.trans (Directive.ofTokens_of_reads h')
      rw [Except.ok.inj hsame]

end Item

def fors (items : List Item) : Nat :=
  items.countP Item.isFor

def ends (items : List Item) : Nat :=
  items.countP Item.isEnd

section Counts

variable {items : List Item} {w : List Event}

theorem fors_eq_opens (h : List.Forall₂ Item.Reads items w) : fors items = opens w := by
  induction h with
  | nil => rfl
  | cons hi _ ih =>
    simp only [fors, opens, List.countP_cons] at ih ⊢
    rw [ih, hi.isFor]

theorem ends_eq_closes (h : List.Forall₂ Item.Reads items w) : ends items = closes w := by
  induction h with
  | nil => rfl
  | cons hi _ ih =>
    simp only [ends, closes, List.countP_cons] at ih ⊢
    rw [ih, hi.isEnd]

end Counts

/-- Every directive says something, and no loop is closed before it is opened. -/
structure InOrder (items : List Item) : Prop where
  valid : ∀ i ∈ items, ∃ ev, i.Reads ev
  prefixes : ∀ k, ends (items.take k) ≤ fors (items.take k)

/-- As many loops are closed as are opened, and none before it is opened. -/
structure Matched (items : List Item) : Prop where
  prefixes : ∀ k, ends (items.take k) ≤ fors (items.take k)
  total : ends items = fors items

/-- The last loop header behind which all loops match is that of the innermost
loop that is open. -/
def InnermostOpen (items : List Item) (h : LoopHeader) : Prop :=
  ∃ before i after, items = before ++ i :: after ∧ i.Reads (.directive (.loop h)) ∧ Matched after

theorem inOrder_nil : InOrder [] where
  valid := nofun
  prefixes k := by rw [List.take_nil]; rfl

theorem InOrder.append_singleton {items : List Item} {i : Item} (h : InOrder items)
    {ev : Event} (hi : i.Reads ev) (hcount : ends (items ++ [i]) ≤ fors (items ++ [i])) :
    InOrder (items ++ [i]) where
  valid := by
    intro j hj
    rcases List.mem_append.mp hj with hj | hj
    · exact h.valid j hj
    · obtain rfl := List.mem_singleton.mp hj
      exact ⟨ev, hi⟩
  prefixes := by
    intro k
    by_cases hk : k ≤ items.length
    · rw [List.take_append_of_le_length hk]
      exact h.prefixes k
    · have hlong : (items ++ [i]).length ≤ k := by
        rw [List.length_append, List.length_singleton]
        omega
      rwa [List.take_of_length_le hlong]

theorem InOrder.exists_events {items : List Item} (h : InOrder items) :
    ∃ w, List.Forall₂ Item.Reads items w := by
  have hvalid := h.valid
  clear h
  induction items with
  | nil => exact ⟨[], .nil⟩
  | cons i items ih =>
    obtain ⟨hi, hitems⟩ := List.forall_mem_cons.mp hvalid
    obtain ⟨ev, hev⟩ := hi
    obtain ⟨w, hw⟩ := ih hitems
    exact ⟨ev :: w, .cons hev hw⟩

/-- Why an item is at fault behind items that are in order: it says nothing, or
it is an end and no loop is left to close. -/
inductive Item.Fault (before : List Item) : Item → ParseError → Prop
  | invalid {inner : List Token} {e : ParseError} (h : Directive.ofTokens inner = .error e) :
      Fault before (.directive inner) e
  | unmatchedEnd {i : Item} (hi : i.Reads (.directive .close)) (h : ends before = fors before) :
      Fault before i .unmatchedEnd

theorem Item.reads_or_invalid (i : Item) (before : List Item) :
    (∃ ev, i.Reads ev) ∨ ∃ e, i.Fault before e := by
  cases i with
  | text s => exact .inl ⟨_, .text s⟩
  | directive inner =>
    cases hof : Directive.ofTokens inner with
    | ok d => exact .inl ⟨_, .directive ((Directive.ofTokens_eq_ok_iff inner d).mp hof)⟩
    | error e => exact .inr ⟨e, .invalid hof⟩

theorem InOrder.fault_or_append {items : List Item} (h : InOrder items) (i : Item) :
    (∃ e, i.Fault items e) ∨ InOrder (items ++ [i]) := by
  rcases i.reads_or_invalid items with ⟨ev, hi⟩ | hfault
  · have hcount := h.prefixes items.length
    rw [List.take_length] at hcount
    have hends : ends (items ++ [i]) = ends items + ends [i] := List.countP_append
    have hfors : fors (items ++ [i]) = fors items + fors [i] := List.countP_append
    have hone : ends [i] = closes [ev] := ends_eq_closes (.cons hi .nil)
    by_cases hclose : ev = .directive .close ∧ ends items = fors items
    · obtain ⟨rfl, hlast⟩ := hclose
      exact .inl ⟨_, .unmatchedEnd hi hlast⟩
    · right
      apply h.append_singleton hi
      cases ev with
      | text s =>
        have hnone : closes [Event.text s] = 0 := rfl
        omega
      | directive d =>
        cases d with
        | close =>
          have hlt : ends items ≠ fors items := fun hlast => hclose ⟨rfl, hlast⟩
          have hcloses : closes [Event.directive .close] = 1 := rfl
          omega
        | _ =>
          have hnone : ends [i] = 0 := hone
          omega
  · exact .inl hfault

/-- Items are in order, or there is an earliest one at fault. -/
theorem inOrder_or_fault (items : List Item) :
    InOrder items ∨ ∃ before i after e,
      items = before ++ i :: after ∧ InOrder before ∧ i.Fault before e := by
  induction items using List.reverseRecOn with
  | nil => exact .inl inOrder_nil
  | append_singleton items i ih =>
    rcases ih with hitems | ⟨before, j, after, e, rfl, hbefore, hfault⟩
    · rcases hitems.fault_or_append i with ⟨e, hfault⟩ | hall
      · exact .inr ⟨items, i, [], e, rfl, hitems, hfault⟩
      · exact .inl hall
    · right
      refine ⟨before, j, after ++ [i], e, ?_, hbefore, hfault⟩
      rw [List.append_assoc, List.cons_append]

/-! ### Reading items -/

namespace Reader

theorem run_item {i : Item} {ev : Event} (hi : i.Reads ev) (hclosed : i.Closed) {r : Reader}
    (hr : r.directive = none) (rest : List Token) :
    r.run (i.tokens ++ rest) = match r.take ev with
      | .ok r' => r'.run rest
      | .error e => .error e := by
  cases hi with
  | text s => exact run_cons (step_outside hr)
  | directive h =>
    rw [Item.tokens, run_directive hclosed hr rest, Directive.ofTokens_of_reads h]
    rfl

theorem run_items {items : List Item} {w : List Event}
    (h : List.Forall₂ Item.Reads items w) (hclosed : ∀ i ∈ items, i.Closed) {r r' : Reader}
    (hr : r.directive = none) (hread : r.takeAll w = .ok r') (rest : List Token) :
    r.run (items.flatMap Item.tokens ++ rest) = r'.run rest := by
  induction h generalizing r with
  | nil =>
    obtain rfl := Except.ok.inj hread
    rfl
  | @cons i ev items w hi _ ih =>
    obtain ⟨hiclosed, hclosed⟩ := List.forall_mem_cons.mp hclosed
    rw [List.flatMap_cons, List.append_assoc, run_item hi hiclosed hr]
    rcases take_cases hr ev with ⟨r₁, htake, hr₁, -⟩ | ⟨-, -, htake⟩
    · rw [takeAll_cons htake] at hread
      rw [htake]
      exact ih hclosed hr₁ hread
    · rw [takeAll, htake] at hread
      cases hread

/-- The reader has read these items, from the start and with no mistake. -/
structure HasRead (r : Reader) (items : List Item) : Prop where
  reads : List.Forall₂ Item.Reads items r.events
  taken : start.takeAll r.events = .ok r
  run : ∀ rest, start.run (items.flatMap Item.tokens ++ rest) = r.run rest

theorem HasRead.directive {r : Reader} {items : List Item} (h : r.HasRead items) :
    r.directive = none :=
  (takeAll_ok rfl h.taken).1

theorem HasRead.loops {r : Reader} {items : List Item} (h : r.HasRead items) :
    r.loops.length + ends items = fors items := by
  have hloops := (takeAll_ok rfl h.taken).2.2
  rw [fors_eq_opens h.reads, ends_eq_closes h.reads, hloops]
  exact Nat.zero_add _

theorem exists_hasRead {items : List Item} (h : InOrder items)
    (hclosed : ∀ i ∈ items, i.Closed) : ∃ r : Reader, r.HasRead items := by
  obtain ⟨w, hw⟩ := h.exists_events
  have hprefix (k : Nat) : closes (w.take k) ≤ opens (w.take k) := by
    have htake := List.forall₂_take k hw
    rw [← ends_eq_closes htake, ← fors_eq_opens htake]
    exact h.prefixes k
  obtain ⟨r, hread⟩ := exists_takeAll hprefix
  have hevents : r.events = w := (takeAll_ok rfl hread).2.1
  refine ⟨r, ?_, ?_, ?_⟩
  · rwa [hevents]
  · rwa [hevents]
  · exact run_items hw hclosed rfl hread

/-- An item at fault is the mistake that the reader meets. -/
theorem HasRead.run_fault {r : Reader} {before : List Item} (h : r.HasRead before) {i : Item}
    (hclosed : i.Closed) {e : ParseError} (hfault : i.Fault before e) (rest : List Token) :
    r.run (i.tokens ++ rest) = .error e := by
  cases hfault with
  | invalid hof =>
    rw [Item.tokens, run_directive hclosed h.directive, hof]
  | unmatchedEnd hi hcount =>
    have hloops : r.loops = [] := by
      have htotal := h.loops
      exact List.length_eq_zero_iff.mp (by omega)
    have htake : r.take (.directive .close) = .error .unmatchedEnd := by
      rw [take, complete, hloops]
    rw [run_item hi hclosed h.directive, htake]

end Reader

end PageServer.Template
