import PageServer.Proofs.Session.Lifetime

/-!
# What one call does to a store

Whatever a store was asked before and at whatever times, each session stands under
its own name and has a map that no other one has. A sweep then drops the dead
sessions and nothing else, and a resolve touches only the session that is presented
and the one that it answers with.
-/

namespace PageServer.SessionStore

/-- The stores that calls at any times lead to. Whoever holds a map may write to it
in between. -/
inductive Reachable (timeout : UInt64) : SessionStore → Prop
  | start : Reachable timeout (.start timeout)
  | resolve {s found : SessionStore} {draws : List String} {presented : Option String}
      {now : UInt64} {r : Resolved} (h : Reachable timeout s)
      (hresolve : s.resolve draws presented now = some (r, found)) : Reachable timeout found
  | sweep {s : SessionStore} (now : UInt64) (h : Reachable timeout s) :
      Reachable timeout (s.sweep now).2
  | write {s : SessionStore} (map : Nat) (params : Params) (h : Reachable timeout s) :
      Reachable timeout (s.setParams map params)

/-- Each session stands under its own name and has a map of its own. -/
structure Consistent (s : SessionStore) : Prop where
  named : ∀ id e, s.sessions.get? id = some e → e.id = id
  mapped : ∀ id e, s.sessions.get? id = some e → e.params < s.maps.length
  apart : ∀ i j d e, s.sessions.get? i = some d → s.sessions.get? j = some e →
    d.params = e.params → i = j

/-- What stands under a name once a session that is presented was dropped if it is
dead by now. -/
def remaining? (s : SessionStore) (presented : Option String) (now : UInt64) (id : String) :
    Option Session :=
  if presented = some id then (s.sessions.get? id).filter fun e => now < e.validUntil
  else s.sessions.get? id

/-- A live session is presented. -/
def IsPresented (s : SessionStore) (presented : Option String) (now : UInt64) : Prop :=
  ∃ id, presented = some id ∧ (s.remaining? presented now id).isSome

/-- A sweep drops the sessions that are dead by now, says how many they were and
leaves all else. -/
structure SweepsTo (s : SessionStore) (now : UInt64) (count : Nat) (swept : SessionStore) :
    Prop where
  sessions : ∀ id, swept.sessions.get? id = (s.sessions.get? id).filter fun e => now < e.validUntil
  count : count = s.sessions.entries.countP fun e => e.2.validUntil ≤ now
  timeout : swept.timeout = s.timeout
  maps : swept.maps = s.maps

/-- A resolve first drops the session that is presented if it is dead. The answer
is then the one that is presented or a new one, and lives from now on. -/
structure ResolvesTo (s : SessionStore) (draws : List String) (presented : Option String)
    (now : UInt64) (r : Resolved) (found : SessionStore) : Prop where
  stored : ∃ e, found.sessions.get? r.id = some e ∧ e.id = r.id ∧ e.params = r.params ∧
    e.validUntil.toNat = min (now.toNat + s.timeout.toNat) (Nat.pow 2 64 - 1)
  isNew_iff : r.isNew = true ↔ ¬ s.IsPresented presented now
  known : r.isNew = false → presented = some r.id ∧
    ∃ e, s.sessions.get? r.id = some e ∧ e.params = r.params
  /-- No session stands under the name of a new one by then. -/
  fresh : r.isNew = true → r.id ∈ draws ∧ s.remaining? presented now r.id = none
  empty : r.isNew = true → found.params r.params = .empty
  unshared : ∀ id e, id ≠ r.id → found.sessions.get? id = some e → e.params ≠ r.params
  others : ∀ id, id ≠ r.id → found.sessions.get? id = s.remaining? presented now id
  timeout : found.timeout = s.timeout
  maps : ∀ map < s.maps.length, found.params map = s.params map

/-! ### Sweeps -/

theorem not_isExpired (e : Session) (now : UInt64) :
    (!e.isExpired now) = decide (now < e.validUntil) := by
  simp only [Session.isExpired, ← decide_not, UInt64.not_le]

theorem sweepsTo_sweep (s : SessionStore) (now : UInt64) :
    s.SweepsTo now (s.sweep now).1 (s.sweep now).2 where
  sessions := by
    intro id
    rw [get?_sweep]
    simp only [not_isExpired]
  count := by
    have hall := List.length_eq_countP_add_countP (fun e : String × Session => e.2.isExpired now)
      (l := s.sessions.entries)
    have hkept : (s.sessions.keep fun e => !e.isExpired now).size =
        s.sessions.entries.countP fun e => !e.2.isExpired now :=
      List.countP_eq_length_filter.symm
    have hcount : (s.sweep now).1 =
        s.sessions.size - (s.sessions.keep fun e => !e.isExpired now).size := rfl
    have hsize : s.sessions.size = s.sessions.entries.length := rfl
    simp only [Bool.not_eq_true, Bool.decide_eq_false] at hall
    simp only [Session.isExpired] at hall hkept hcount
    omega
  timeout := rfl
  maps := rfl

/-! ### Consistency -/

namespace Consistent

variable {s found : SessionStore}

theorem start (timeout : UInt64) : (SessionStore.start timeout).Consistent where
  named := nofun
  mapped := nofun
  apart := nofun

/-- Sessions that stay as they were, beside maps of which none was lost. -/
theorem of_kept (h : s.Consistent) (hmaps : s.maps.length ≤ found.maps.length)
    (hkept : ∀ id e, found.sessions.get? id = some e → s.sessions.get? id = some e) :
    found.Consistent where
  named id e he := h.named id e (hkept id e he)
  mapped id e he := Nat.lt_of_lt_of_le (h.mapped id e (hkept id e he)) hmaps
  apart i j d e hd he := h.apart i j d e (hkept i d hd) (hkept j e he)

theorem sweep (h : s.Consistent) (now : UInt64) : (s.sweep now).2.Consistent := by
  have hmaps : (s.sweep now).2.maps = s.maps := rfl
  apply h.of_kept
  · exact Nat.le_of_eq (congrArg List.length hmaps.symm)
  · exact fun _ _ => get?_of_sweep

theorem setParams (h : s.Consistent) (map : Nat) (params : Params) :
    (s.setParams map params).Consistent := by
  apply h.of_kept
  · exact Nat.le_of_eq List.length_set.symm
  · exact fun _ _ he => he

/-- One session is put under its name with a map that is that session's already or
that none of the others has. -/
theorem put (h : s.Consistent) {e : Session} (hmaps : s.maps.length ≤ found.maps.length)
    (hmapped : e.params < found.maps.length) (hself : found.sessions.get? e.id = some e)
    (hothers : ∀ id d, id ≠ e.id → found.sessions.get? id = some d →
      s.sessions.get? id = some d ∧ d.params ≠ e.params) : found.Consistent := by
  have hcases : ∀ id d, found.sessions.get? id = some d →
      (id = e.id ∧ d = e) ∨ (id ≠ e.id ∧ s.sessions.get? id = some d ∧ d.params ≠ e.params) := by
    intro id d hd
    by_cases hid : id = e.id
    · subst hid
      rw [hself] at hd
      exact .inl ⟨rfl, (Option.some.inj hd).symm⟩
    · exact .inr ⟨hid, hothers id d hid hd⟩
  refine ⟨?_, ?_, ?_⟩
  · intro id d hd
    rcases hcases id d hd with ⟨rfl, rfl⟩ | ⟨-, hkept, -⟩
    · rfl
    · exact h.named id d hkept
  · intro id d hd
    rcases hcases id d hd with ⟨-, rfl⟩ | ⟨-, hkept, -⟩
    · exact hmapped
    · exact Nat.lt_of_lt_of_le (h.mapped id d hkept) hmaps
  · intro i j d d' hd hd' hsame
    rcases hcases i d hd with ⟨rfl, rfl⟩ | ⟨-, hkept, hne⟩ <;>
      rcases hcases j d' hd' with ⟨rfl, rfl⟩ | ⟨-, hkept', hne'⟩
    · rfl
    · exact absurd hsame.symm hne'
    · exact absurd hsame hne
    · exact h.apart i j d d' hkept hkept' hsame

end Consistent

/-! ### Resolves -/

section Resolve

variable {timeout now : UInt64} {s found : SessionStore} {draws : List String}
  {presented : Option String} {r : Resolved}

theorem remaining?_none (s : SessionStore) (now : UInt64) (id : String) :
    s.remaining? none now id = s.sessions.get? id :=
  if_neg nofun

theorem get?_of_remaining? {id : String} {e : Session}
    (h : s.remaining? presented now id = some e) : s.sessions.get? id = some e := by
  rw [remaining?] at h
  split at h
  · exact (Option.filter_eq_some_iff.mp h).1
  · exact h

theorem remaining?_of_absent {key : String} (hget : s.sessions.get? key = none) (now : UInt64)
    (id : String) : s.remaining? (some key) now id = s.sessions.get? id := by
  rw [remaining?]
  split
  · next hkey => rw [← Option.some.inj hkey, hget, Option.filter_none]
  · rfl

theorem remaining?_of_expired {key : String} {e : Session} (hget : s.sessions.get? key = some e)
    (hexpired : e.isExpired now = true) (id : String) :
    s.remaining? (some key) now id = (s.sessions.erase key).get? id := by
  have hdead : decide (now < e.validUntil) = false := by
    rw [← not_isExpired, hexpired, Bool.not_true]
  rw [remaining?, Table.get?_erase]
  by_cases hkey : id = key
  · rw [if_pos hkey, hkey, if_pos rfl, hget, Option.filter_some, hdead]
    exact if_neg Bool.false_ne_true
  · rw [if_neg hkey, if_neg fun h => hkey (Option.some.inj h).symm]

theorem isPresented_of_live {key : String} {e : Session} (hp : presented = some key)
    (hget : s.sessions.get? key = some e) (hexpired : e.isExpired now = false) :
    s.IsPresented presented now := by
  refine ⟨key, hp, ?_⟩
  have hlive : decide (now < e.validUntil) = true := by
    rw [← not_isExpired, hexpired, Bool.not_false]
  rw [remaining?, if_pos hp, hget, Option.filter_some, if_pos hlive]
  exact Option.isSome_some

/-- Unless a live session is presented, a name is drawn for the store that is left. -/
theorem exists_mint_of_not_presented (hpresented : ¬ s.IsPresented presented now) :
    ∃ left : SessionStore, (∀ id, left.sessions.get? id = s.remaining? presented now id) ∧
      s.resolve draws presented now = left.mint draws now := by
  cases presented with
  | none => exact ⟨s, fun id => (s.remaining?_none now id).symm, rfl⟩
  | some key =>
    cases hget : s.sessions.get? key with
    | none =>
      refine ⟨s, fun id => (remaining?_of_absent hget now id).symm, ?_⟩
      simp only [resolve, hget]
    | some e =>
      cases hexpired : e.isExpired now with
      | true =>
        refine ⟨{ s with sessions := s.sessions.erase key },
          fun id => (remaining?_of_expired hget hexpired id).symm, ?_⟩
        simp only [resolve, hget, hexpired, if_true]
      | false =>
        exact absurd (isPresented_of_live rfl hget hexpired) hpresented

theorem isSome_of_presented (h : s.IsPresented presented now) :
    (s.resolve draws presented now).isSome := by
  obtain ⟨key, rfl, hkey⟩ := h
  obtain ⟨e, he⟩ := Option.isSome_iff_exists.mp hkey
  rw [remaining?, if_pos rfl] at he
  obtain ⟨hget, hlive⟩ := Option.filter_eq_some_iff.mp he
  have hexpired : e.isExpired now = false := by
    rwa [← not_isExpired, Bool.not_eq_true'] at hlive
  simp only [resolve, hget, hexpired, Bool.false_eq_true, if_false, Option.isSome_some]

/-- There is an answer if a live session is presented or an unused name is drawn. -/
theorem resolve_isSome_iff : (s.resolve draws presented now).isSome ↔
    s.IsPresented presented now ∨ ∃ id ∈ draws, s.remaining? presented now id = none := by
  by_cases hpresented : s.IsPresented presented now
  · exact iff_of_true (isSome_of_presented hpresented) (.inl hpresented)
  · obtain ⟨left, hleft, hmint⟩ : ∃ left : SessionStore,
        (∀ id, left.sessions.get? id = s.remaining? presented now id) ∧
          s.resolve draws presented now = left.mint draws now :=
      exists_mint_of_not_presented hpresented
    rw [hmint, mint_isSome_iff, HasFree, or_iff_right hpresented]
    simp only [Table.contains, Option.isSome_eq_false_iff, Option.isNone_iff_eq_none, hleft]

/-- What is presented is dead when a session is minted. -/
theorem remaining?_of_mints (hmint : s.Mints draws presented now r found) (id : String) :
    s.remaining? presented now id = if presented = some id then none else s.sessions.get? id := by
  rw [remaining?]
  split
  · next hp =>
    rw [Option.filter_eq_none_iff]
    intro e he
    have hdead := hmint.dead id e hp he
    rwa [← not_isExpired, Bool.not_eq_true', Bool.not_eq_false]
  · rfl

/-- Whatever is answered, this is what the store has under each name. -/
theorem get?_of_resolve (h : s.Consistent)
    (hresolve : s.resolve draws presented now = some (r, found)) (id : String) :
    found.sessions.get? id =
      if id = r.id then some ⟨r.id, s.deadline now, r.params⟩
      else s.remaining? presented now id := by
  rcases resolve_cases hresolve with ⟨key, e, hext⟩ | hmint
  · obtain rfl := hext.resolved_eq
    obtain rfl := h.named key e hext.get?
    rw [hext.sessions, remaining?, hext.presented_eq]
    by_cases hid : id = e.id
    · rw [if_pos hid, if_pos hid]
    · have hother : some e.id ≠ some id := fun hkey => hid (Option.some.inj hkey).symm
      rw [if_neg hid, if_neg hid, if_neg hother]
  · rw [hmint.sessions, hmint.params, remaining?_of_mints hmint]

/-- The map that is answered was there already or is one more. -/
theorem maps_of_resolve (h : s.Consistent)
    (hresolve : s.resolve draws presented now = some (r, found)) :
    ∃ more, found.maps = s.maps ++ more ∧ r.params < found.maps.length := by
  rcases resolve_cases hresolve with ⟨key, e, hext⟩ | hmint
  · refine ⟨[], by rw [hext.maps, List.append_nil], ?_⟩
    rw [hext.maps, hext.resolved_eq]
    exact h.mapped key e hext.get?
  · refine ⟨[.empty], hmint.maps, ?_⟩
    rw [hmint.maps, hmint.params, List.length_append]
    exact Nat.lt_succ_self _

theorem params_ne_of_resolve (h : s.Consistent)
    (hresolve : s.resolve draws presented now = some (r, found)) {id : String} {d : Session}
    (hid : id ≠ r.id) (hd : s.sessions.get? id = some d) : d.params ≠ r.params := by
  rcases resolve_cases hresolve with ⟨key, e, hext⟩ | hmint
  · obtain rfl := hext.resolved_eq
    intro hsame
    have hkey := h.apart id key d e hd hext.get? hsame
    exact hid (hkey.trans (h.named key e hext.get?).symm)
  · rw [hmint.params]
    exact Nat.ne_of_lt (h.mapped id d hd)

theorem Consistent.resolve (h : s.Consistent)
    (hresolve : s.resolve draws presented now = some (r, found)) : found.Consistent := by
  obtain ⟨more, hmaps, hmapped⟩ := maps_of_resolve h hresolve
  have hself := get?_of_resolve h hresolve r.id
  rw [if_pos rfl] at hself
  have hlength : s.maps.length ≤ found.maps.length := by
    rw [hmaps, List.length_append]
    exact Nat.le_add_right _ _
  refine h.put (e := ⟨r.id, s.deadline now, r.params⟩) hlength hmapped hself ?_
  intro id d hid hd
  rw [get?_of_resolve h hresolve, if_neg hid] at hd
  have hkept := get?_of_remaining? hd
  exact ⟨hkept, params_ne_of_resolve h hresolve hid hkept⟩

theorem timeout_of_resolve (hresolve : s.resolve draws presented now = some (r, found)) :
    found.timeout = s.timeout := by
  rcases resolve_cases hresolve with ⟨_, _, hext⟩ | hmint
  · exact hext.timeout
  · exact hmint.timeout

theorem isNew_iff_of_resolve (hresolve : s.resolve draws presented now = some (r, found)) :
    r.isNew = true ↔ ¬ s.IsPresented presented now := by
  rcases resolve_cases hresolve with ⟨key, e, hext⟩ | hmint
  · rw [hext.resolved_eq]
    apply iff_of_false nofun
    exact not_not_intro (isPresented_of_live hext.presented_eq hext.get? hext.live)
  · refine iff_of_true hmint.isNew ?_
    rintro ⟨key, hkey, hlive⟩
    rw [remaining?_of_mints hmint, if_pos hkey] at hlive
    cases hlive

theorem extends_of_resolve (hresolve : s.resolve draws presented now = some (r, found))
    (hfound : r.isNew = false) : ∃ key e, s.Extends presented now r found key e := by
  rcases resolve_cases hresolve with hext | hmint
  · exact hext
  · rw [hmint.isNew] at hfound
    cases hfound

theorem mints_of_resolve (hresolve : s.resolve draws presented now = some (r, found))
    (hnew : r.isNew = true) : s.Mints draws presented now r found := by
  rcases resolve_cases hresolve with ⟨key, e, hext⟩ | hmint
  · rw [hext.resolved_eq] at hnew
    cases hnew
  · exact hmint

theorem resolvesTo_of_resolve (h : s.Consistent)
    (hresolve : s.resolve draws presented now = some (r, found)) :
    s.ResolvesTo draws presented now r found where
  stored := by
    have hself := get?_of_resolve h hresolve r.id
    rw [if_pos rfl] at hself
    exact ⟨_, hself, rfl, rfl, toNat_deadline s now⟩
  isNew_iff := isNew_iff_of_resolve hresolve
  known hfound := by
    obtain ⟨key, e, hext⟩ := extends_of_resolve hresolve hfound
    obtain rfl := hext.resolved_eq
    obtain rfl := h.named key e hext.get?
    exact ⟨hext.presented_eq, e, hext.get?, rfl⟩
  fresh hnew := by
    have hmint := mints_of_resolve hresolve hnew
    refine ⟨(mem_of_resolve hresolve hnew).1, ?_⟩
    rw [remaining?_of_mints hmint]
    split
    · rfl
    · next hp => exact hmint.free hp
  empty hnew := by
    have hmint := mints_of_resolve hresolve hnew
    rw [SessionStore.params, hmint.maps, hmint.params, List.getD_eq_getElem?_getD,
      List.getElem?_concat_length, Option.getD_some]
  unshared id e hid he := by
    rw [get?_of_resolve h hresolve, if_neg hid] at he
    exact params_ne_of_resolve h hresolve hid (get?_of_remaining? he)
  others id hid := by rw [get?_of_resolve h hresolve, if_neg hid]
  timeout := timeout_of_resolve hresolve
  maps map hmap := by
    obtain ⟨more, hmaps, -⟩ := maps_of_resolve h hresolve
    exact params_of_append hmaps hmap

end Resolve

/-! ### Runs -/

namespace Reachable

variable {timeout : UInt64} {s : SessionStore}

theorem timeout_eq (h : Reachable timeout s) : s.timeout = timeout := by
  induction h with
  | start => rfl
  | resolve _ hresolve ih => exact (timeout_of_resolve hresolve).trans ih
  | sweep _ _ ih => exact ih
  | write _ _ _ ih => exact ih

theorem consistent (h : Reachable timeout s) : s.Consistent := by
  induction h with
  | start => exact .start timeout
  | resolve _ hresolve ih => exact ih.resolve hresolve
  | sweep now _ ih => exact ih.sweep now
  | write map params _ ih => exact ih.setParams map params

end Reachable

/-! ### The law -/

/-- In every store that calls at any times lead to, each session stands under its own
name and has a map of its own. There a sweep does to the sessions what `SweepsTo`
says and a resolve what `ResolvesTo` says, and a resolve has an answer if and only if
a live session is presented or a name is drawn that no session has by then. -/
theorem calls_local_of_reachable {timeout : UInt64} {s : SessionStore}
    (h : Reachable timeout s) :
    s.Consistent ∧ s.timeout = timeout ∧
      (∀ now, s.SweepsTo now (s.sweep now).1 (s.sweep now).2) ∧
      ∀ draws presented now,
        ((s.resolve draws presented now).isSome ↔ s.IsPresented presented now ∨
          ∃ id ∈ draws, s.remaining? presented now id = none) ∧
        ∀ r found, s.resolve draws presented now = some (r, found) →
          s.ResolvesTo draws presented now r found := by
  refine ⟨h.consistent, h.timeout_eq, s.sweepsTo_sweep, ?_⟩
  intro draws presented now
  refine ⟨resolve_isSome_iff, ?_⟩
  intro r found hresolve
  exact resolvesTo_of_resolve h.consistent hresolve

/-- A dead session makes room for a new one, even under its own name. -/
theorem calls_local_of_reused_name :
    ∃ s r found, Reachable 60 s ∧ s.resolve ["A"] (some "A") 1060 = some (r, found) ∧
      s.ResolvesTo ["A"] (some "A") 1060 r found ∧ r = ⟨"A", 1, true⟩ := by
  have hanswers : (((SessionStore.start 60).resolve ["A"] none 1000).bind fun first =>
      (first.2.resolve ["A"] (some "A") 1060).map Prod.fst) = some ⟨"A", 1, true⟩ := by
    decide
  obtain ⟨⟨first, s⟩, hfirst, hrest⟩ := Option.bind_eq_some_iff.mp hanswers
  obtain ⟨⟨r, found⟩, hsecond, hr⟩ := Option.map_eq_some_iff.mp hrest
  have hreachable : Reachable 60 s := Reachable.start.resolve hfirst
  obtain ⟨-, -, -, hlocal⟩ := calls_local_of_reachable hreachable
  have hresolves := (hlocal ["A"] (some "A") 1060).2 r found hsecond
  exact ⟨s, r, found, hreachable, hsecond, hresolves, hr⟩

end PageServer.SessionStore
