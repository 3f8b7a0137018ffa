import PageServer.Proofs.Session.Consistency

/-!
# Resolves with an old reading of the clock

A worker first reads the clock and asks the store later. Others may have asked in
between with a later reading, so a resolve may come with a time that is behind the
one that a session was answered with last. It then moves the deadline of that
session back.
-/

namespace PageServer

/-- A store, the clock, and what workers have read from it but not used yet. -/
structure Race where
  clock : UInt64
  readings : Nat → Option UInt64
  log : SessionStore.Log

namespace Race

open SessionStore

inductive Move where
  | tick (now : UInt64)
  | read (worker : Nat)
  | resolve (worker : Nat) (draws : List String) (presented : Option String)
  | sweep (worker : Nat)

def start (timeout clock : UInt64) : Race :=
  ⟨clock, fun _ => none, .start timeout⟩

def withReading (race : Race) (worker : Nat) (reading : Option UInt64) : Race :=
  { race with readings := fun w => if w = worker then reading else race.readings w }

/-- A worker asks the store with its reading and gives the reading up. -/
def ask (race : Race) (worker : Nat) (call : UInt64 → Call) : Option Race :=
  (race.readings worker).bind fun now =>
    (race.log.step (call now)).map fun log => { race.withReading worker none with log }

/-- The race after a move, unless the clock would go back, there is no reading to use
or the store has no answer. -/
def move (race : Race) : Move → Option Race
  | .tick now => if race.clock ≤ now then some { race with clock := now } else none
  | .read worker => some (race.withReading worker (some race.clock))
  | .resolve worker draws presented => race.ask worker (.resolve draws presented)
  | .sweep worker => race.ask worker .sweep

def run : Race → List Move → Option Race
  | race, [] => some race
  | race, m :: ms => (race.move m).bind fun race => race.run ms

theorem move_resolve {race next : Race} {worker : Nat} {draws : List String}
    {presented : Option String} (h : race.move (.resolve worker draws presented) = some next) :
    ∃ now r found, race.readings worker = some now ∧
      race.log.store.resolve draws presented now = some (r, found) ∧
      next = { race.withReading worker none with
        log := ⟨found, ⟨r, now⟩ :: race.log.answers⟩ } := by
  obtain ⟨now, hnow, hstep⟩ := Option.bind_eq_some_iff.mp h
  obtain ⟨log, hlog, rfl⟩ := Option.map_eq_some_iff.mp hstep
  obtain ⟨⟨r, found⟩, hresolve, rfl⟩ := Option.map_eq_some_iff.mp hlog
  exact ⟨now, r, found, hnow, hresolve, rfl⟩

/-- Each session stands as it was answered last, and no time that was read is still
to come. -/
structure Sound (timeout : UInt64) (race : Race) : Prop where
  reachable : Reachable timeout race.log.store
  stored : ∀ id e, race.log.store.sessions.get? id = some e →
    ∃ a, latest? race.log.answers id = some a ∧ e.validUntil.toNat = lapse timeout a.time
  answered : ∀ a ∈ race.log.answers, a.time ≤ race.clock
  read : ∀ worker now, race.readings worker = some now → now ≤ race.clock

namespace Sound

variable {timeout now : UInt64} {race race' : Race} {worker : Nat} {draws : List String}
  {presented : Option String}

theorem start (timeout clock : UInt64) : (Race.start timeout clock).Sound timeout where
  reachable := .start
  stored := nofun
  answered := nofun
  read := nofun

theorem tick (h : race.Sound timeout) (hclock : race.clock ≤ now) :
    Sound timeout { race with clock := now } where
  reachable := h.reachable
  stored := h.stored
  answered a ha := UInt64.le_trans (h.answered a ha) hclock
  read w t ht := UInt64.le_trans (h.read w t ht) hclock

theorem withReading (h : race.Sound timeout) {reading : Option UInt64}
    (hreading : ∀ t, reading = some t → t ≤ race.clock) :
    (race.withReading worker reading).Sound timeout where
  reachable := h.reachable
  stored := h.stored
  answered := h.answered
  read w t ht := by
    by_cases hw : w = worker
    · exact hreading t ((if_pos hw).symm.trans ht)
    · exact h.read w t ((if_neg hw).symm.trans ht)

theorem sweep (h : race.Sound timeout) (now : UInt64) :
    Sound timeout { race with log := ⟨(race.log.store.sweep now).2, race.log.answers⟩ } where
  reachable := h.reachable.sweep now
  stored id e he := h.stored id e (get?_of_sweep he)
  answered := h.answered
  read := h.read

theorem resolve (h : race.Sound timeout) {r : Resolved} {found : SessionStore}
    (hnow : now ≤ race.clock)
    (hresolve : race.log.store.resolve draws presented now = some (r, found)) :
    Sound timeout { race with log := ⟨found, ⟨r, now⟩ :: race.log.answers⟩ } where
  reachable := h.reachable.resolve hresolve
  stored id e he := by
    rw [get?_of_resolve h.reachable.consistent hresolve] at he
    rw [latest?_cons]
    by_cases hid : id = r.id
    · rw [if_pos hid] at he
      refine ⟨⟨r, now⟩, if_pos hid.symm, ?_⟩
      rw [← Option.some.inj he, toNat_deadline, h.reachable.timeout_eq]
    · rw [if_neg hid] at he
      rw [if_neg (Ne.symm hid)]
      exact h.stored id e (get?_of_remaining? he)
  answered a ha := by
    rcases List.mem_cons.mp ha with rfl | ha
    · exact hnow
    · exact h.answered a ha
  read := h.read

/-- The step: whoever moves next. -/
theorem move {m : Move} (h : race.Sound timeout) (hmove : race.move m = some race') :
    race'.Sound timeout := by
  have hgiven : ∀ w, (race.withReading w none).Sound timeout := fun w => h.withReading nofun
  cases m with
  | tick now =>
    obtain ⟨hclock, heq⟩ := Option.ite_none_right_eq_some.mp hmove
    rw [← Option.some.inj heq]
    exact h.tick hclock
  | read w =>
    rw [← Option.some.inj hmove]
    apply h.withReading
    rintro t ⟨⟩
    exact UInt64.le_refl _
  | resolve w draws presented =>
    obtain ⟨now, r, found, hnow, hresolve, rfl⟩ := move_resolve hmove
    exact (hgiven w).resolve (h.read w now hnow) hresolve
  | sweep w =>
    obtain ⟨now, -, hask⟩ := Option.bind_eq_some_iff.mp hmove
    rw [← Option.some.inj hask]
    exact (hgiven w).sweep now

theorem run {moves : List Move} (h : race.Sound timeout) (hrun : race.run moves = some race') :
    race'.Sound timeout := by
  induction moves generalizing race with
  | nil =>
    rw [← Option.some.inj hrun]
    exact h
  | cons m ms ih =>
    obtain ⟨next, hmove, hrest⟩ := Option.bind_eq_some_iff.mp hrun
    exact ih (h.move hmove) hrest

end Sound

/-- What a resolve at a time leaves of the deadline of a session that it finds. -/
theorem Sound.deadlines {timeout now : UInt64} {race : Race} {draws : List String}
    {presented : Option String} {r : Resolved} {found : SessionStore} (h : race.Sound timeout)
    (hresolve : race.log.store.resolve draws presented now = some (r, found))
    (hfound : r.isNew = false) :
    ∃ last before after, latest? race.log.answers r.id = some last ∧ last.time ≤ race.clock ∧
      race.log.store.validUntil? r.id = some before ∧ found.validUntil? r.id = some after ∧
      before.toNat = lapse timeout last.time ∧ after.toNat = lapse timeout now := by
  have hresolves := resolvesTo_of_resolve h.reachable.consistent hresolve
  obtain ⟨-, before, hbefore, -⟩ := hresolves.known hfound
  obtain ⟨after, hafter, -, -, hnew⟩ := hresolves.stored
  obtain ⟨last, hlast, hold⟩ := h.stored r.id before hbefore
  rw [h.reachable.timeout_eq] at hnew
  refine ⟨last, before.validUntil, after.validUntil, hlast, ?_, ?_, ?_, hold, hnew⟩
  · exact h.answered last (List.mem_of_find?_eq_some hlast)
  · rw [validUntil?, hbefore, Option.map_some]
  · rw [validUntil?, hafter, Option.map_some]

/-- In any run of workers that read a clock which never goes back, a session that is
found gets the deadline that belongs to the reading of the worker. That is before the
one it had if and only if a later reading was used for it and the new deadline is not
the last second there is. The session loses no more than the time that has passed
since the reading. -/
theorem deadline_of_late_resolve {timeout clock : UInt64} {moves : List Move}
    {race next : Race} {worker : Nat} {draws : List String} {presented : Option String}
    (hrun : (start timeout clock).run moves = some race)
    (hmove : race.move (.resolve worker draws presented) = some next) :
    ∃ now r, race.readings worker = some now ∧ now ≤ race.clock ∧
      next.log.answers = ⟨r, now⟩ :: race.log.answers ∧
      (r.isNew = false → ∃ last before after, latest? race.log.answers r.id = some last ∧
        race.log.store.validUntil? r.id = some before ∧
        next.log.store.validUntil? r.id = some after ∧
        before.toNat = min (last.time.toNat + timeout.toNat) (Nat.pow 2 64 - 1) ∧
        after.toNat = min (now.toNat + timeout.toNat) (Nat.pow 2 64 - 1) ∧
        (after < before ↔ now < last.time ∧ now.toNat + timeout.toNat < Nat.pow 2 64 - 1) ∧
        before.toNat ≤ after.toNat + (race.clock.toNat - now.toNat)) := by
  have hsound := (Sound.start timeout clock).run hrun
  obtain ⟨now, r, found, hreading, hresolve, rfl⟩ := move_resolve hmove
  have hnow := hsound.read worker now hreading
  refine ⟨now, r, hreading, hnow, rfl, ?_⟩
  intro hfound
  obtain ⟨last, before, after, hlast, hpast, hbefore, hafter, hold, hnew⟩ :=
    hsound.deadlines hresolve hfound
  refine ⟨last, before, after, hlast, hbefore, hafter, hold, hnew, ?_, ?_⟩
  · rw [UInt64.lt_iff_toNat_lt, UInt64.lt_iff_toNat_lt, hold, hnew, lapse, lapse]
    omega
  · rw [UInt64.le_iff_toNat_le] at hpast
    rw [hold, hnew, lapse, lapse]
    omega

/-- Two workers read the clock in one second. A third one reads it in the next and
finds the session before the second of them does. -/
theorem deadline_moves_back :
    let moves : List Move := [.read 0, .resolve 0 ["A"] none, .read 1, .tick 1001, .read 2,
      .resolve 2 [] (some "A")]
    ∃ race next, (start 60 1000).run moves = some race ∧
      race.move (.resolve 1 [] (some "A")) = some next ∧
      next.log.answers.head? = some ⟨⟨"A", 0, false⟩, 1000⟩ ∧
      race.log.store.validUntil? "A" = some 1061 ∧
      next.log.store.validUntil? "A" = some 1060 := by
  intro moves
  have hruns : (((start 60 1000).run moves).bind fun race =>
      (race.move (.resolve 1 [] (some "A"))).map fun next => (next.log.answers.head?,
        race.log.store.validUntil? "A", next.log.store.validUntil? "A")) =
      some (some ⟨⟨"A", 0, false⟩, 1000⟩, some 1061, some 1060) := by
    decide
  obtain ⟨race, hrun, hrest⟩ := Option.bind_eq_some_iff.mp hruns
  obtain ⟨next, hmove, hseen⟩ := Option.map_eq_some_iff.mp hrest
  simp only [Prod.mk.injEq] at hseen
  exact ⟨race, next, hrun, hmove, hseen⟩

/-- With a later reading the deadline does not move back. -/
theorem deadline_of_next_second :
    let moves : List Move := [.read 0, .resolve 0 ["A"] none, .tick 1001, .read 1]
    ∃ race next r before after, (start 60 1000).run moves = some race ∧
      race.move (.resolve 1 [] (some "A")) = some next ∧
      race.log.store.validUntil? "A" = some before ∧
      next.log.store.validUntil? "A" = some after ∧ ¬ after < before ∧
      next.log.answers = r :: race.log.answers := by
  intro moves
  have hruns : (((start 60 1000).run moves).bind fun race =>
      (race.move (.resolve 1 [] (some "A"))).map fun next => (race.readings 1,
        race.log.answers, next.log.answers.head?)) =
      some (some 1001, [⟨⟨"A", 0, true⟩, 1000⟩], some ⟨⟨"A", 0, false⟩, 1001⟩) := by
    decide
  obtain ⟨race, hrun, hrest⟩ := Option.bind_eq_some_iff.mp hruns
  obtain ⟨next, hmove, hseen⟩ := Option.map_eq_some_iff.mp hrest
  simp only [Prod.mk.injEq] at hseen
  obtain ⟨hread, hanswers, hfirst⟩ := hseen
  obtain ⟨now, r, hnow, -, hnext, hlaw⟩ := deadline_of_late_resolve hrun hmove
  rw [hnext, List.head?_cons] at hfirst
  obtain ⟨rfl, rfl⟩ := Answer.mk.inj (Option.some.inj hfirst)
  obtain ⟨last, before, after, hlast, hbefore, hafter, -, -, hback, -⟩ := hlaw rfl
  have htime : last.time = 1000 := by
    rw [hanswers] at hlast
    rw [← Option.some.inj hlast]
  refine ⟨race, next, _, before, after, hrun, hmove, hbefore, hafter, ?_, hnext⟩
  rw [hback, htime]
  decide

end Race

end PageServer
