import PageServer.Proofs.Template.Directives

/-!
# Documents as words of brackets

A document is written as a word: its texts and echoes in order, each loop as an
opening bracket, the word of its body and a closing one. A reader stands for
the word it has read, so that what it has built is the forest of that word.
-/

namespace PageServer.Template

/-- A text or a whole directive. The header of a loop opens a bracket, the end
of a loop closes one. -/
inductive Event where
  | text (s : String)
  | directive (d : Directive)

namespace Event

def isOpen : Event → Bool
  | directive (.loop _) => true
  | _ => false

def isClose : Event → Bool
  | directive .close => true
  | _ => false

end Event

namespace Node

mutual

def events : Node → List Event
  | text s => [.text s]
  | echo es => [.directive (.echo es)]
  | loop h ns => .directive (.loop h) :: (allEvents ns ++ [.directive .close])

def allEvents : List Node → List Event
  | [] => []
  | n :: ns => events n ++ allEvents ns

end

@[simp] theorem allEvents_append (ns ms : List Node) :
    allEvents (ns ++ ms) = allEvents ns ++ allEvents ms := by
  induction ns with
  | nil => rfl
  | cons n ns ih => rw [List.cons_append, allEvents, ih, allEvents, List.append_assoc]

@[simp] theorem allEvents_singleton (n : Node) : allEvents [n] = n.events := by
  rw [allEvents, allEvents, List.append_nil]

end Node

/-- The brackets that are open after a word. -/
def opens (w : List Event) : Nat :=
  w.countP Event.isOpen

def closes (w : List Event) : Nat :=
  w.countP Event.isClose

theorem opens_append (v w : List Event) : opens (v ++ w) = opens v + opens w :=
  List.countP_append

theorem closes_append (v w : List Event) : closes (v ++ w) = closes v + closes w :=
  List.countP_append

/-- The word read of a loop that is open. -/
def OpenLoop.events (l : OpenLoop) : List Event :=
  Node.allEvents l.before.reverse ++ [.directive (.loop l.header)]

namespace Reader

/-- The word that a reader has read. -/
def events (r : Reader) : List Event :=
  r.loops.reverse.flatMap OpenLoop.events ++ Node.allEvents r.nodes.reverse

def take (r : Reader) : Event → Except ParseError Reader
  | .text s => .ok (r.add (.text s))
  | .directive d => r.complete d

def takeAll (r : Reader) : List Event → Except ParseError Reader
  | [] => .ok r
  | ev :: w =>
    match r.take ev with
    | .ok r' => takeAll r' w
    | .error e => .error e

theorem takeAll_cons {r r' : Reader} {ev : Event} (h : r.take ev = .ok r') (w : List Event) :
    r.takeAll (ev :: w) = r'.takeAll w := by
  rw [takeAll, h]

theorem takeAll_append (r : Reader) (v w : List Event) :
    r.takeAll (v ++ w) = match r.takeAll v with
      | .ok r' => r'.takeAll w
      | .error e => .error e := by
  induction v generalizing r with
  | nil => rfl
  | cons ev v ih =>
    rw [List.cons_append, takeAll, takeAll]
    cases r.take ev with
    | ok r' => exact ih r'
    | error e => rfl

theorem takeAll_append_of_ok {r r' : Reader} {v : List Event} (h : r.takeAll v = .ok r')
    (w : List Event) : r.takeAll (v ++ w) = r'.takeAll w := by
  rw [takeAll_append, h]

/-- What one event does: it is read, and the brackets open are counted, or it
closes a bracket where none is open. -/
theorem take_cases {r : Reader} (hr : r.directive = none) (ev : Event) :
    (∃ r', r.take ev = .ok r' ∧ r'.directive = none ∧ r'.events = r.events ++ [ev] ∧
        r'.loops.length + closes [ev] = r.loops.length + opens [ev]) ∨
      ev = .directive .close ∧ r.loops = [] ∧ r.take ev = .error .unmatchedEnd := by
  obtain ⟨nodes, loops, directive⟩ := r
  obtain rfl : directive = none := hr
  cases ev with
  | text s =>
    left
    refine ⟨_, rfl, rfl, ?_, rfl⟩
    simp [events, add, Node.events]
  | directive d =>
    cases d with
    | echo es =>
      left
      refine ⟨_, rfl, rfl, ?_, rfl⟩
      simp [events, Node.events]
    | loop h =>
      left
      refine ⟨_, rfl, rfl, ?_, rfl⟩
      simp [events, OpenLoop.events, Node.allEvents]
    | close =>
      cases loops with
      | nil => exact .inr ⟨rfl, rfl, rfl⟩
      | cons l ls =>
        left
        refine ⟨_, rfl, rfl, ?_, rfl⟩
        simp [events, OpenLoop.events, Node.events]

/-- A run reads the whole word, and the brackets left open are the loops. -/
theorem takeAll_ok {r r' : Reader} (hr : r.directive = none) {w : List Event}
    (h : r.takeAll w = .ok r') :
    r'.directive = none ∧ r'.events = r.events ++ w ∧
      r'.loops.length + closes w = r.loops.length + opens w := by
  induction w generalizing r with
  | nil =>
    obtain rfl := Except.ok.inj h
    exact ⟨hr, by rw [List.append_nil], rfl⟩
  | cons ev w ih =>
    rcases take_cases hr ev with ⟨r₁, htake, hr₁, hevents, hcount⟩ | ⟨-, -, htake⟩
    · rw [takeAll_cons htake] at h
      obtain ⟨hnone, hword, hloops⟩ := ih hr₁ h
      refine ⟨hnone, ?_, ?_⟩
      · rw [hword, hevents, List.append_assoc]
        rfl
      · have hclose := closes_append [ev] w
        have hopen := opens_append [ev] w
        rw [List.singleton_append] at hclose hopen
        omega
    · rw [takeAll, htake] at h
      cases h

/-- A word is read if no bracket is closed before one is opened for it. -/
theorem exists_takeAll {w : List Event} (h : ∀ k, closes (w.take k) ≤ opens (w.take k)) :
    ∃ r, start.takeAll w = .ok r := by
  induction w using List.reverseRecOn with
  | nil => exact ⟨start, rfl⟩
  | append_singleton w ev ih =>
    have hprefix (k : Nat) : closes (w.take k) ≤ opens (w.take k) := by
      have hk := h (min k w.length)
      rwa [List.take_append_of_le_length (Nat.min_le_right _ _), ← List.take_eq_take_min] at hk
    obtain ⟨r, hread⟩ := ih hprefix
    obtain ⟨hnone, -, hloops⟩ := takeAll_ok rfl hread
    rw [takeAll_append_of_ok hread, takeAll]
    rcases take_cases hnone ev with ⟨r', htake, -⟩ | ⟨rfl, hempty, -⟩
    · rw [htake]
      exact ⟨r', rfl⟩
    · exfalso
      have hall := h (w ++ [Event.directive .close]).length
      rw [List.take_length] at hall
      rw [closes_append, opens_append] at hall
      have hclose : closes [Event.directive .close] = 1 := rfl
      have hopen : opens [Event.directive .close] = 0 := rfl
      have hstart : start.loops.length = 0 := rfl
      rw [hempty, List.length_nil] at hloops
      omega

/-- The reader with more loops open around those it has. -/
def above (r : Reader) (around : List OpenLoop) : Reader :=
  { r with loops := r.loops ++ around }

/-- What a reader does in its innermost loops does not depend on those around them. -/
theorem take_above {r r' : Reader} {ev : Event} (h : r.take ev = .ok r')
    (around : List OpenLoop) : (r.above around).take ev = .ok (r'.above around) := by
  cases ev with
  | text s =>
    obtain rfl := Except.ok.inj h
    rfl
  | directive d =>
    cases d with
    | echo es =>
      obtain rfl := Except.ok.inj h
      rfl
    | loop header =>
      obtain rfl := Except.ok.inj h
      rfl
    | close =>
      obtain ⟨nodes, loops, directive⟩ := r
      cases loops with
      | nil => cases h
      | cons l ls =>
        obtain rfl := Except.ok.inj h
        rfl

theorem takeAll_above {r r' : Reader} {w : List Event} (h : r.takeAll w = .ok r')
    (around : List OpenLoop) : (r.above around).takeAll w = .ok (r'.above around) := by
  induction w generalizing r with
  | nil =>
    obtain rfl := Except.ok.inj h
    rfl
  | cons ev w ih =>
    cases htake : r.take ev with
    | error e =>
      rw [takeAll, htake] at h
      cases h
    | ok r₁ =>
      rw [takeAll_cons htake] at h
      rw [takeAll_cons (take_above htake around)]
      exact ih h

/-! ### The word of a document -/

mutual

theorem takeAll_events (n : Node) (ns : List Node) (loops : List OpenLoop) :
    Reader.takeAll ⟨ns, loops, none⟩ n.events = .ok ⟨n :: ns, loops, none⟩ := by
  cases n with
  | text s => rfl
  | echo es => rfl
  | loop h body =>
    have hopen : Reader.take ⟨ns, loops, none⟩ (.directive (.loop h)) =
        .ok ⟨[], ⟨h, ns⟩ :: loops, none⟩ := rfl
    have hbody := takeAll_allEvents body [] (⟨h, ns⟩ :: loops)
    rw [Node.events, takeAll_cons hopen, takeAll_append_of_ok hbody, List.append_nil]
    simp [takeAll, take, complete]

theorem takeAll_allEvents (ms ns : List Node) (loops : List OpenLoop) :
    Reader.takeAll ⟨ns, loops, none⟩ (Node.allEvents ms) =
      .ok ⟨ms.reverse ++ ns, loops, none⟩ := by
  cases ms with
  | nil => rfl
  | cons m ms =>
    rw [Node.allEvents, takeAll_append_of_ok (takeAll_events m ns loops),
      takeAll_allEvents ms (m :: ns) loops]
    simp

end

end Reader

namespace Node

theorem allEvents_injective : Function.Injective allEvents := by
  intro ns ms h
  have hns := Reader.takeAll_allEvents ns [] []
  rw [h, Reader.takeAll_allEvents ms [] []] at hns
  simpa using (Reader.mk.inj (Except.ok.inj hns)).1.symm

theorem closes_take_le_opens (ns : List Node) (k : Nat) :
    closes ((allEvents ns).take k) ≤ opens ((allEvents ns).take k) := by
  have hread := Reader.takeAll_allEvents ns [] []
  rw [← List.take_append_drop k (allEvents ns), Reader.takeAll_append] at hread
  split at hread
  · next r hr =>
    have hloops := (Reader.takeAll_ok rfl hr).2.2
    simp only [List.length_nil, Nat.zero_add] at hloops
    omega
  · cases hread

theorem closes_eq_opens (ns : List Node) : closes (allEvents ns) = opens (allEvents ns) := by
  have hloops := (Reader.takeAll_ok rfl (Reader.takeAll_allEvents ns [] [])).2.2
  simpa using hloops

end Node

end PageServer.Template
