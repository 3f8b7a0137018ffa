import PageServer.Proofs.Session.Answers
import PageServer.Proofs.Session.Resolving

/-!
# How long a session lives

If time never goes back and no name is drawn twice, what a store answers follows
from its earlier answers alone: a session is found until its deadline, counted
from when it was answered last, and never again. Sweeps leave no mark on the
answers.
-/

namespace PageServer.SessionStore

/-! ### What the store and the answers have in common -/

/-- The answers account for the store: each session stands as it was answered
last, and one that is missing had lapsed by the time on the clock. -/
structure Log.Accounts (timeout clock : UInt64) (drawn : List String) (l : Log) : Prop where
  timeout_eq : l.store.timeout = timeout
  drawn : ∀ a ∈ l.answers, a.resolved.id ∈ drawn
  minted : ∀ a ∈ l.answers,
    ∃ m ∈ l.answers, m.resolved.id = a.resolved.id ∧ m.resolved.isNew = true
  sameMap : ∀ a ∈ l.answers, ∀ b ∈ l.answers,
    a.resolved.id = b.resolved.id → a.resolved.params = b.resolved.params
  maps : l.store.maps.length = mints l.answers
  stored : ∀ id e, l.store.sessions.get? id = some e →
    ∃ a, latest? l.answers id = some a ∧ e = ⟨id, l.store.deadline a.time, a.resolved.params⟩
  missing : ∀ id a, latest? l.answers id = some a → l.store.sessions.get? id = none →
    lapse timeout a.time ≤ clock.toNat

theorem toNat_deadline (s : SessionStore) (time : UInt64) :
    (s.deadline time).toNat = lapse s.timeout time := by
  have hlt : min (time.toNat + s.timeout.toNat) (UInt64.size - 1) < UInt64.size :=
    Nat.lt_of_le_of_lt (Nat.min_le_right _ _) (by decide)
  rw [deadline, UInt64.toNat_ofNat_of_lt' hlt]
  rfl

theorem isExpired_deadline (s : SessionStore) (id : String) (time : UInt64) (params : Nat)
    (now : UInt64) :
    Session.isExpired ⟨id, s.deadline time, params⟩ now = true ↔
      lapse s.timeout time ≤ now.toNat := by
  rw [Session.isExpired, decide_eq_true_eq, UInt64.le_iff_toNat_le, toNat_deadline]

namespace Log.Accounts

variable {timeout clock : UInt64} {drawn : List String} {l : Log}

theorem start (timeout : UInt64) : (Log.start timeout).Accounts timeout 0 [] where
  timeout_eq := rfl
  drawn := by simp [Log.start]
  minted := by simp [Log.start]
  sameMap := by simp [Log.start]
  maps := rfl
  stored := by simp [Log.start, SessionStore.start]
  missing := by simp [Log.start, latest?]

theorem mem_drawn_of_latest? (h : l.Accounts timeout clock drawn) {id : String} {a : Answer}
    (ha : latest? l.answers id = some a) : id ∈ drawn := by
  have hdrawn := h.drawn a (List.mem_of_find?_eq_some ha)
  rwa [latest?_id ha] at hdrawn

theorem get?_of_not_drawn (h : l.Accounts timeout clock drawn) {id : String} (hid : id ∉ drawn) :
    l.store.sessions.get? id = none := by
  cases hget : l.store.sessions.get? id with
  | none => rfl
  | some e =>
    obtain ⟨a, ha, -⟩ := h.stored id e hget
    exact absurd (h.mem_drawn_of_latest? ha) hid

/-! #### One resolve -/

theorem fst_mint {s : SessionStore} {draws : List String} (now : UInt64)
    (h : ∀ id ∈ draws, s.sessions.get? id = none) :
    (s.mint draws now).map Prod.fst = draws.head?.map fun id => ⟨id, s.maps.length, true⟩ := by
  cases draws with
  | nil => rfl
  | cons d ds =>
    have hd := h d List.mem_cons_self
    simp [mint, freshId?, Table.contains, hd, openSession]

theorem fst_mint_of_fresh (h : l.Accounts timeout clock drawn) {draws : List String}
    (now : UInt64) (hfresh : ∀ id ∈ draws, id ∉ drawn) :
    (l.store.mint draws now).map Prod.fst =
      draws.head?.map fun id => ⟨id, mints l.answers, true⟩ := by
  rw [← h.maps]
  exact fst_mint now fun id hid => h.get?_of_not_drawn (hfresh id hid)

/-- What is answered follows from the earlier answers. -/
theorem fst_resolve (h : l.Accounts timeout clock drawn) {draws : List String}
    (presented : Option String) {now : UInt64} (hclock : clock ≤ now)
    (hfresh : ∀ id ∈ draws, id ∉ drawn) :
    (l.store.resolve draws presented now).map Prod.fst =
      replay timeout l.answers draws presented now := by
  have hmint := h.fst_mint_of_fresh now hfresh
  cases presented with
  | none => exact hmint
  | some id =>
    cases hget : l.store.sessions.get? id with
    | none =>
      -- what is missing had lapsed by the clock, which has not gone back since
      have hdead : alive? timeout l.answers (some id) now = none := by
        rw [Option.eq_none_iff_forall_ne_some]
        intro a ha
        obtain ⟨_, ⟨⟩, hlatest, hnow⟩ := alive?_eq_some_iff.mp ha
        have hlapsed := h.missing id a hlatest hget
        have := UInt64.le_iff_toNat_le.mp hclock
        omega
      simp only [resolve, hget, replay, hdead]
      exact hmint
    | some e =>
      obtain ⟨a, hlatest, rfl⟩ := h.stored id e hget
      have hexpired := isExpired_deadline l.store id a.time a.resolved.params now
      rw [h.timeout_eq] at hexpired
      by_cases hnow : now.toNat < lapse timeout a.time
      · have halive : alive? timeout l.answers (some id) now = some a :=
          alive?_eq_some_iff.mpr ⟨id, rfl, hlatest, hnow⟩
        have hlive := Bool.eq_false_iff.mpr (mt hexpired.mp (by omega))
        simp only [resolve, hget, hlive, replay, halive, latest?_id hlatest, Option.map_some,
          Bool.false_eq_true, if_false]
      · have hdead : alive? timeout l.answers (some id) now = none := by
          rw [Option.eq_none_iff_forall_ne_some]
          intro b hb
          obtain ⟨_, ⟨⟩, hb', hlater⟩ := alive?_eq_some_iff.mp hb
          rw [hlatest] at hb'
          cases hb'
          exact hnow hlater
        have hgone := hexpired.mpr (by omega)
        simp only [resolve, hget, hgone, replay, hdead, if_true]
        rw [fst_mint]
        · rw [← h.maps]
        · intro d hd
          rw [Table.get?_erase, h.get?_of_not_drawn (hfresh d hd), ite_self]

/-! #### Steps -/

/-- At a name the later store has what the earlier one had, or nothing any more
because that is expired. -/
def SameOrExpired (s t : SessionStore) (now : UInt64) (id : String) : Prop :=
  t.sessions.get? id = s.sessions.get? id ∨
    t.sessions.get? id = none ∧ ∀ e, s.sessions.get? id = some e → e.isExpired now = true

/-- A name without a session had lapsed, as it had before or by now. -/
theorem lapsed (h : l.Accounts timeout clock drawn) {t : SessionStore} {now : UInt64}
    (hclock : clock ≤ now) {id : String} (hsame : SameOrExpired l.store t now id) {a : Answer}
    (ha : latest? l.answers id = some a) (hget : t.sessions.get? id = none) :
    lapse timeout a.time ≤ now.toNat := by
  cases hbefore : l.store.sessions.get? id with
  | none => exact Nat.le_trans (h.missing id a ha hbefore) (UInt64.le_iff_toNat_le.mp hclock)
  | some e =>
    rcases hsame with hsame | ⟨-, hexpired⟩
    · rw [hsame, hbefore] at hget
      cases hget
    · obtain ⟨b, hb, rfl⟩ := h.stored id e hbefore
      cases ha.symm.trans hb
      rw [← h.timeout_eq]
      exact (isExpired_deadline ..).mp (hexpired _ hbefore)

theorem stored_of_same (h : l.Accounts timeout clock drawn) {t : SessionStore} {now : UInt64}
    (htimeout : t.timeout = l.store.timeout) {id : String}
    (hsame : SameOrExpired l.store t now id) {e : Session} (hget : t.sessions.get? id = some e) :
    ∃ a, latest? l.answers id = some a ∧ e = ⟨id, t.deadline a.time, a.resolved.params⟩ := by
  rcases hsame with hsame | ⟨hnone, -⟩
  · have hdeadline : t.deadline = l.store.deadline := by
      funext time
      rw [deadline, deadline, htimeout]
    rw [hdeadline]
    exact h.stored id e (hsame.symm.trans hget)
  · rw [hnone] at hget
    cases hget

theorem sweep (h : l.Accounts timeout clock drawn) {now : UInt64} (hclock : clock ≤ now) :
    Log.Accounts timeout now drawn ⟨(l.store.sweep now).2, l.answers⟩ := by
  have hsame : ∀ id, SameOrExpired l.store (l.store.sweep now).2 now id := by
    intro id
    rw [SameOrExpired, get?_sweep]
    cases l.store.sessions.get? id with
    | none => exact .inl rfl
    | some e => cases he : e.isExpired now <;> simp [he]
  have htimeout : (l.store.sweep now).2.timeout = l.store.timeout := rfl
  exact ⟨h.timeout_eq, h.drawn, h.minted, h.sameMap, h.maps,
    fun id _ => h.stored_of_same htimeout (hsame id), fun id _ => h.lapsed hclock (hsame id)⟩

/-- A resolve adds its answer, which either repeats an earlier one or has a name
and a map of its own. -/
theorem answer (h : l.Accounts timeout clock drawn) {r : Resolved} {now : UInt64}
    {found : SessionStore} {more : List String} (hclock : clock ≤ now)
    (htimeout : found.timeout = l.store.timeout) (hdrawn : r.id ∈ drawn ++ more)
    (horigin : (∃ a ∈ l.answers, a.resolved.id = r.id ∧ a.resolved.params = r.params) ∨
      r.isNew = true ∧ ∀ a ∈ l.answers, a.resolved.id ≠ r.id)
    (hmaps : found.maps.length = mints (⟨r, now⟩ :: l.answers))
    (hself : found.sessions.get? r.id = some ⟨r.id, l.store.deadline now, r.params⟩)
    (hsame : ∀ id, id ≠ r.id → SameOrExpired l.store found now id) :
    Log.Accounts timeout now (drawn ++ more) ⟨found, ⟨r, now⟩ :: l.answers⟩ := by
  have hminted : ∃ m ∈ (⟨r, now⟩ :: l.answers : List Answer),
      m.resolved.id = r.id ∧ m.resolved.isNew = true := by
    rcases horigin with ⟨a, ha, hid, -⟩ | ⟨hnew, -⟩
    · obtain ⟨m, hm, hmid, hmnew⟩ := h.minted a ha
      exact ⟨m, List.mem_cons_of_mem _ hm, hmid.trans hid, hmnew⟩
    · exact ⟨_, List.mem_cons_self, rfl, hnew⟩
  have hparams : ∀ b ∈ l.answers, b.resolved.id = r.id → b.resolved.params = r.params := by
    intro b hb hid
    rcases horigin with ⟨a, ha, haid, haparams⟩ | ⟨-, hfresh⟩
    · exact (h.sameMap b hb a ha (hid.trans haid.symm)).trans haparams
    · exact absurd hid (hfresh b hb)
  refine ⟨htimeout.trans h.timeout_eq, ?_, ?_, ?_, hmaps, ?_, ?_⟩
  · intro a ha
    rcases List.mem_cons.mp ha with rfl | ha
    · exact hdrawn
    · exact List.mem_append_left _ (h.drawn a ha)
  · intro a ha
    rcases List.mem_cons.mp ha with rfl | ha
    · exact hminted
    · obtain ⟨m, hm, hm'⟩ := h.minted a ha
      exact ⟨m, List.mem_cons_of_mem _ hm, hm'⟩
  · intro a ha b hb hid
    rcases List.mem_cons.mp ha with rfl | ha <;> rcases List.mem_cons.mp hb with rfl | hb
    · rfl
    · exact (hparams b hb hid.symm).symm
    · exact hparams a ha hid
    · exact h.sameMap a ha b hb hid
  · intro id e hget
    rw [latest?_cons]
    by_cases hid : r.id = id
    · subst hid
      rw [hself] at hget
      refine ⟨⟨r, now⟩, if_pos rfl, ?_⟩
      rw [← Option.some.inj hget, deadline, deadline, htimeout]
    · rw [if_neg hid]
      exact h.stored_of_same htimeout (hsame id (Ne.symm hid)) hget
  · intro id a ha hget
    rw [latest?_cons] at ha
    by_cases hid : r.id = id
    · subst hid
      rw [hself] at hget
      cases hget
    · rw [if_neg hid] at ha
      exact h.lapsed hclock (hsame id (Ne.symm hid)) ha hget

theorem resolve (h : l.Accounts timeout clock drawn) {draws : List String}
    {presented : Option String} {now : UInt64} {r : Resolved} {found : SessionStore}
    (hclock : clock ≤ now) (hfresh : ∀ id ∈ draws, id ∉ drawn)
    (hresolve : l.store.resolve draws presented now = some (r, found)) :
    Log.Accounts timeout now (drawn ++ draws) ⟨found, ⟨r, now⟩ :: l.answers⟩ := by
  rcases resolve_cases hresolve with ⟨id, e, hext⟩ | hmint
  · obtain ⟨a, ha, rfl⟩ := h.stored id e hext.get?
    obtain rfl := hext.resolved_eq
    refine h.answer hclock hext.timeout ?_ ?_ ?_ ?_ ?_
    · exact List.mem_append_left _ (h.mem_drawn_of_latest? ha)
    · exact .inl ⟨a, List.mem_of_find?_eq_some ha, latest?_id ha, rfl⟩
    · rw [hext.maps, h.maps]
      simp [mints]
    · rw [hext.sessions, if_pos rfl]
    · intro j hj
      exact .inl ((hext.sessions j).trans (if_neg hj))
  · obtain ⟨skipped, rest, hdraws, -⟩ := hmint.first
    have hdrawn : r.id ∈ draws := by simp [hdraws]
    refine h.answer hclock hmint.timeout (List.mem_append_right _ hdrawn) ?_ ?_ ?_ ?_
    · refine .inr ⟨hmint.isNew, fun a ha hid => ?_⟩
      exact hfresh r.id hdrawn (hid ▸ h.drawn a ha)
    · rw [hmint.maps, List.length_append, h.maps]
      simp [mints, hmint.isNew]
    · rw [hmint.sessions, if_pos rfl, hmint.params]
    · intro j hj
      rw [SameOrExpired, hmint.sessions, if_neg hj]
      by_cases hp : presented = some j
      · exact .inr ⟨if_pos hp, fun e he => hmint.dead j e hp he⟩
      · exact .inl (if_neg hp)

/-- The step: whatever is asked, the answers go on to account for the store. -/
theorem step (h : l.Accounts timeout clock drawn) {c : Call} {l' : Log}
    (hclock : clock ≤ c.time) (hfresh : ∀ id ∈ c.draws, id ∉ drawn)
    (hstep : l.step c = some l') : l'.Accounts timeout c.time (drawn ++ c.draws) := by
  cases c with
  | sweep now =>
    obtain rfl := Option.some.inj hstep
    rw [Call.draws, List.append_nil]
    exact h.sweep hclock
  | resolve draws presented now =>
    obtain ⟨⟨r, found⟩, hresolve, rfl⟩ := Option.map_eq_some_iff.mp hstep
    exact h.resolve hclock hfresh hresolve

/-! #### Runs -/

variable {l' : Log}

theorem run {before after : List Call} (h : l.Accounts timeout clock drawn)
    (hregular : RegularFrom clock drawn (before ++ after)) (hrun : l.run before = some l') :
    ∃ clock' drawn', l'.Accounts timeout clock' drawn' ∧ RegularFrom clock' drawn' after := by
  -- on the calls before; with each of them the clock and the names drawn move on
  induction before generalizing l clock drawn with
  | nil =>
    obtain rfl := Option.some.inj hrun
    exact ⟨clock, drawn, h, hregular⟩
  | cons c cs ih =>
    obtain ⟨m, hstep, hrest⟩ := Option.bind_eq_some_iff.mp hrun
    have hclock := hregular.clock c List.mem_cons_self
    exact ih (h.step hclock hregular.fresh hstep) hregular.tail hrest

theorem answers_run {calls : List Call} (h : l.Accounts timeout clock drawn)
    (hregular : RegularFrom clock drawn calls) :
    (l.run calls).map Log.answers = replayAll timeout l.answers calls := by
  induction calls generalizing l clock drawn with
  | nil => rfl
  | cons c cs ih =>
    have hclock := hregular.clock c List.mem_cons_self
    cases c with
    | sweep now =>
      have hdrawn : drawn ++ (Call.sweep now).draws = drawn := List.append_nil drawn
      exact ih (h.sweep hclock) (hdrawn ▸ hregular.tail)
    | resolve draws presented now =>
      have hfresh : ∀ id ∈ draws, id ∉ drawn := hregular.fresh
      have hreplay := h.fst_resolve presented hclock hfresh
      rw [Call.time] at hreplay
      rw [Log.run, Log.step, replayAll, ← hreplay]
      cases hresolve : l.store.resolve draws presented now with
      | none => rfl
      | some r => exact ih (h.resolve hclock hregular.fresh hresolve) hregular.tail

/-- A resolve answers with the session that was found alive or with a new one. -/
theorem resolved_cases {draws : List String} {presented : Option String} {now : UInt64}
    {r : Resolved} {found : SessionStore} (h : l.Accounts timeout clock drawn)
    (hclock : clock ≤ now) (hfresh : ∀ id ∈ draws, id ∉ drawn)
    (hresolve : l.store.resolve draws presented now = some (r, found)) :
    (∃ a, alive? timeout l.answers presented now = some a ∧
      r = ⟨a.resolved.id, a.resolved.params, false⟩) ∨
    (alive? timeout l.answers presented now = none ∧ r.isNew = true ∧ r.id ∈ draws) := by
  have hreplay := h.fst_resolve presented hclock hfresh
  rw [hresolve, Option.map_some, replay] at hreplay
  split at hreplay
  · next a halive => exact .inl ⟨a, halive, Option.some.inj hreplay⟩
  · next halive =>
    obtain ⟨d, hd, rfl⟩ := Option.map_eq_some_iff.mp hreplay.symm
    exact .inr ⟨halive, rfl, List.mem_of_head? hd⟩

theorem found_iff {draws : List String} {presented : Option String} {now : UInt64} {r : Resolved}
    {found : SessionStore} (h : l.Accounts timeout clock drawn) (hclock : clock ≤ now)
    (hfresh : ∀ id ∈ draws, id ∉ drawn)
    (hresolve : l.store.resolve draws presented now = some (r, found)) :
    r.isNew = false ↔ ∃ id, presented = some id ∧
      (∃ m ∈ l.answers, m.resolved.id = id ∧ m.resolved.isNew = true) ∧
        ∃ a, latest? l.answers id = some a ∧ now.toNat < lapse timeout a.time := by
  rcases h.resolved_cases hclock hfresh hresolve with ⟨a, halive, rfl⟩ | ⟨hdead, hnew, -⟩
  · refine ⟨fun _ => ?_, fun _ => rfl⟩
    obtain ⟨id, hid, ha, hnow⟩ := alive?_eq_some_iff.mp halive
    obtain ⟨m, hm, hmid, hmnew⟩ := h.minted a (List.mem_of_find?_eq_some ha)
    exact ⟨id, hid, ⟨m, hm, hmid.trans (latest?_id ha), hmnew⟩, a, ha, hnow⟩
  · rw [hnew]
    refine ⟨nofun, ?_⟩
    rintro ⟨id, hid, -, a, ha, hnow⟩
    rw [alive?_eq_some_iff.mpr ⟨id, hid, ha, hnow⟩] at hdead
    cases hdead

theorem eq_of_found {draws : List String} {presented : Option String} {now : UInt64}
    {r : Resolved} {found : SessionStore} (h : l.Accounts timeout clock drawn)
    (hclock : clock ≤ now) (hfresh : ∀ id ∈ draws, id ∉ drawn)
    (hresolve : l.store.resolve draws presented now = some (r, found)) (hfound : r.isNew = false) :
    presented = some r.id ∧
      ∀ a ∈ l.answers, a.resolved.id = r.id → a.resolved.params = r.params := by
  rcases h.resolved_cases hclock hfresh hresolve with ⟨a, halive, rfl⟩ | ⟨-, hnew, -⟩
  · obtain ⟨id, hid, ha, -⟩ := alive?_eq_some_iff.mp halive
    have hmem := List.mem_of_find?_eq_some ha
    exact ⟨hid.trans (congrArg some (latest?_id ha).symm), fun b hb => h.sameMap b hb a hmem⟩
  · rw [hnew] at hfound
    cases hfound

theorem id_ne_of_lapsed {draws : List String} {presented : Option String} {now : UInt64}
    {r : Resolved} {found : SessionStore} {id : String} {a : Answer}
    (h : l.Accounts timeout clock drawn) (hclock : clock ≤ now) (hfresh : ∀ id ∈ draws, id ∉ drawn)
    (hresolve : l.store.resolve draws presented now = some (r, found))
    (ha : latest? l.answers id = some a) (hlapsed : lapse timeout a.time ≤ now.toNat) :
    r.id ≠ id := by
  rintro rfl
  rcases h.resolved_cases hclock hfresh hresolve with ⟨b, halive, rfl⟩ | ⟨-, -, hdraw⟩
  · obtain ⟨j, -, hj, hnow⟩ := alive?_eq_some_iff.mp halive
    rw [latest?_id hj, hj] at ha
    obtain rfl := Option.some.inj ha
    omega
  · exact hfresh _ hdraw (h.mem_drawn_of_latest? ha)

/-- Once a session has lapsed, nothing is answered in its name any more. -/
theorem answers_of_lapsed {calls : List Call} {id : String} {a : Answer}
    (h : l.Accounts timeout clock drawn) (hregular : RegularFrom clock drawn calls)
    (ha : latest? l.answers id = some a)
    (hlapsed : ∀ c ∈ calls, lapse timeout a.time ≤ c.time.toNat) (hrun : l.run calls = some l') :
    ∃ later, l'.answers = later ++ l.answers ∧ ∀ b ∈ later, b.resolved.id ≠ id := by
  -- on the calls; none is answered in that name, so the latest answer stays the same
  induction calls generalizing l clock drawn with
  | nil =>
    obtain rfl := Option.some.inj hrun
    exact ⟨[], rfl, by simp⟩
  | cons c cs ih =>
    obtain ⟨m, hstep, hrest⟩ := Option.bind_eq_some_iff.mp hrun
    have hclock := hregular.clock c List.mem_cons_self
    have hlater : ∀ c ∈ cs, lapse timeout a.time ≤ c.time.toNat :=
      fun c hc => hlapsed c (List.mem_cons_of_mem _ hc)
    have hm := h.step hclock hregular.fresh hstep
    cases c with
    | sweep now =>
      have hanswers : m.answers = l.answers := by
        rw [← Option.some.inj hstep]
      rw [← hanswers] at ha ⊢
      exact ih hm hregular.tail ha hlater hrest
    | resolve draws presented now =>
      obtain ⟨⟨r, found⟩, hresolve, rfl⟩ := Option.map_eq_some_iff.mp hstep
      have hother : r.id ≠ id := h.id_ne_of_lapsed hclock hregular.fresh hresolve ha
        (hlapsed _ List.mem_cons_self)
      have hstill : latest? (⟨r, now⟩ :: l.answers) id = some a := by
        rw [latest?_cons, if_neg hother, ha]
      obtain ⟨later, hanswers, hnever⟩ := ih hm hregular.tail hstill hlater hrest
      refine ⟨later ++ [⟨r, now⟩], ?_, ?_⟩
      · rw [hanswers, List.append_assoc]
        rfl
      · intro b hb
        rcases List.mem_append.mp hb with hb | hb
        · exact hnever b hb
        · rw [List.mem_singleton.mp hb]
          exact hother

end Log.Accounts

/-! ### The law -/

/-- In any run of calls a resolve finds a session exactly if it was minted before
and its deadline, counted from when it was answered last, is still to come; it
then answers with the map of that session. A run has an answer to every resolve
that draws a name. The answers are those of any other run with the same resolves,
however often either sweeps, and no answer is a session that had lapsed before. -/
theorem resolve_found_iff_before_deadline (timeout : UInt64) (calls : List Call)
    (hregular : Regular calls) :
    let opened := Log.start timeout
    ((∀ c ∈ calls, c.isResolve = true → c.draws ≠ []) → (opened.run calls).isSome) ∧
      (∀ before draws presented now after log r found,
        calls = before ++ .resolve draws presented now :: after →
        opened.run before = some log →
        log.store.resolve draws presented now = some (r, found) →
          (r.isNew = false ↔ ∃ id, presented = some id ∧
            (∃ m ∈ log.answers, m.resolved.id = id ∧ m.resolved.isNew = true) ∧
              ∃ a, latest? log.answers id = some a ∧
                now.toNat < min (a.time.toNat + timeout.toNat) (Nat.pow 2 64 - 1)) ∧
          (r.isNew = false → presented = some r.id ∧
            ∀ a ∈ log.answers, a.resolved.id = r.id → a.resolved.params = r.params)) ∧
      (∀ others, Regular others →
        others.filter Call.isResolve = calls.filter Call.isResolve →
          (opened.run others).map Log.answers = (opened.run calls).map Log.answers) ∧
      ∀ before after log last id a,
        calls = before ++ after → opened.run before = some log → opened.run calls = some last →
        latest? log.answers id = some a →
        (∀ c ∈ after, min (a.time.toNat + timeout.toNat) (Nat.pow 2 64 - 1) ≤ c.time.toNat) →
          ∃ later, last.answers = later ++ log.answers ∧ ∀ b ∈ later, b.resolved.id ≠ id := by
  intro opened
  have hopened := Log.Accounts.start timeout
  refine ⟨fun hdraws => ?_, ?_, ?_, ?_⟩
  · have hsome := replayAll_isSome timeout [] hdraws
    have hanswers : (opened.run calls).map Log.answers = replayAll timeout [] calls :=
      hopened.answers_run hregular.from_start
    rwa [← hanswers, Option.isSome_map] at hsome
  · rintro before draws presented now after log r found rfl hrun hresolve
    obtain ⟨clock, drawn, hlog, hrest⟩ := hopened.run hregular.from_start hrun
    have hfresh : ∀ id ∈ draws, id ∉ drawn := hrest.fresh
    have hnow : clock ≤ now := hrest.clock _ List.mem_cons_self
    exact ⟨hlog.found_iff hnow hfresh hresolve, hlog.eq_of_found hnow hfresh hresolve⟩
  · intro others hothers hsame
    have hcalls : (opened.run calls).map Log.answers = replayAll timeout [] calls :=
      hopened.answers_run hregular.from_start
    rw [hcalls, hopened.answers_run hothers.from_start, ← replayAll_filter, hsame,
      replayAll_filter]
    rfl
  · rintro before after log last id a rfl hrun hlast ha hlapsed
    obtain ⟨clock, drawn, hlog, hrest⟩ := hopened.run hregular.from_start hrun
    rw [Log.run_append, hrun] at hlast
    exact hlog.answers_of_lapsed hrest ha hlapsed hlast

/-- In its last second a session is found, also right after a sweep. -/
theorem resolve_found_in_last_second :
    let before : List Call := [.resolve ["A"] none 1000, .sweep 1059]
    let calls := before ++ [.resolve ["B"] (some "A") 1059]
    Regular calls ∧ ∃ log r found, (Log.start 60).run before = some log ∧
      log.store.resolve ["B"] (some "A") 1059 = some (r, found) ∧
        r.isNew = false ∧ r.id = "A" := by
  intro before calls
  have hregular : Regular calls := ⟨by decide, by decide⟩
  obtain ⟨hanswered, hfound, -, -⟩ := resolve_found_iff_before_deadline 60 calls hregular
  have hanswers : ((Log.start 60).run before).map Log.answers =
      some [⟨⟨"A", 0, true⟩, 1000⟩] := by decide
  obtain ⟨log, hlog, hlatest⟩ := Option.map_eq_some_iff.mp hanswers
  obtain ⟨last, hlast⟩ := Option.isSome_iff_exists.mp (hanswered (by decide))
  rw [Log.run_append, hlog, Option.bind_some] at hlast
  obtain ⟨l, hstep, -⟩ := Option.bind_eq_some_iff.mp hlast
  obtain ⟨⟨r, found⟩, hresolve, -⟩ := Option.map_eq_some_iff.mp hstep
  obtain ⟨hiff, hsame⟩ := hfound before _ _ _ [] log r found rfl hlog hresolve
  have hold : r.isNew = false := hiff.mpr ⟨"A", rfl, by rw [hlatest]; decide⟩
  exact ⟨hregular, log, r, found, hlog, hresolve, hold, (Option.some.inj (hsame hold).1).symm⟩

end PageServer.SessionStore
