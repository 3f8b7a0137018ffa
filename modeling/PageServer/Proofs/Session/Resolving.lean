import PageServer.Session.Store

/-!
# Resolving a session

A session is found if a request names a live one, and minted otherwise, so there
is one for every request as long as some name that is drawn is free. What a
resolve does to a store is said once, by what it leaves at each name.
-/

namespace PageServer.SessionStore

/-- Some of the names is that of no session. -/
def HasFree (s : SessionStore) (draws : List String) : Prop :=
  ∃ id ∈ draws, s.sessions.contains id = false

theorem HasFree.erase {s : SessionStore} {draws : List String} (h : s.HasFree draws)
    (key : String) : HasFree { s with sessions := s.sessions.erase key } draws := by
  obtain ⟨id, hid, hfree⟩ := h
  refine ⟨id, hid, ?_⟩
  have hnone : s.sessions.get? id = none := by
    simpa [Table.contains] using hfree
  simp [Table.contains, Table.get?_erase, hnone]

theorem mint_isSome_iff {s : SessionStore} {draws : List String} {now : UInt64} :
    (s.mint draws now).isSome ↔ s.HasFree draws := by
  rw [mint, Option.isSome_map, freshId?, List.find?_isSome]
  simp only [HasFree, Bool.not_eq_true']

theorem resolve_isSome {s : SessionStore} {draws : List String} (h : s.HasFree draws)
    (presented : Option String) (now : UInt64) : (s.resolve draws presented now).isSome := by
  cases presented with
  | none => exact mint_isSome_iff.mpr h
  | some id =>
    cases hget : s.sessions.get? id with
    | none =>
      simp only [resolve, hget]
      exact mint_isSome_iff.mpr h
    | some e =>
      cases hexpired : e.isExpired now with
      | true =>
        simp only [resolve, hget, hexpired, if_true]
        exact mint_isSome_iff.mpr (h.erase id)
      | false =>
        simp only [resolve, hget, hexpired, Bool.false_eq_true, if_false]
        rfl

/-- A new session is named by one of the draws and is in the store. -/
theorem mem_of_mint {s found : SessionStore} {draws : List String} {now : UInt64}
    {resolved : Resolved} (h : s.mint draws now = some (resolved, found)) :
    resolved.id ∈ draws ∧ found.sessions.contains resolved.id = true := by
  obtain ⟨id, hfresh, hopened⟩ := Option.map_eq_some_iff.mp h
  obtain ⟨rfl, rfl⟩ := Prod.mk.inj hopened
  refine ⟨List.mem_of_find?_eq_some hfresh, ?_⟩
  simp [Table.contains]

theorem mem_of_resolve {s found : SessionStore} {draws : List String} {presented : Option String}
    {now : UInt64} {resolved : Resolved}
    (h : s.resolve draws presented now = some (resolved, found)) (hnew : resolved.isNew = true) :
    resolved.id ∈ draws ∧ found.sessions.contains resolved.id = true := by
  cases presented with
  | none => exact mem_of_mint h
  | some id =>
    cases hget : s.sessions.get? id with
    | none =>
      simp only [resolve, hget] at h
      exact mem_of_mint h
    | some e =>
      cases hexpired : e.isExpired now with
      | true =>
        simp only [resolve, hget, hexpired, if_true] at h
        exact mem_of_mint h
      | false =>
        simp only [resolve, hget, hexpired, Bool.false_eq_true, if_false] at h
        obtain ⟨rfl, -⟩ := Prod.mk.inj (Option.some.inj h)
        cases hnew

/-! ### What a resolve does -/

/-- A live session was presented and is the answer; its deadline moves on. -/
structure Extends (s : SessionStore) (presented : Option String) (now : UInt64)
    (resolved : Resolved) (found : SessionStore) (id : String) (e : Session) : Prop where
  presented_eq : presented = some id
  get? : s.sessions.get? id = some e
  live : e.isExpired now = false
  resolved_eq : resolved = ⟨e.id, e.params, false⟩
  timeout : found.timeout = s.timeout
  maps : found.maps = s.maps
  sessions : ∀ j, found.sessions.get? j =
    if j = id then some { e with validUntil := s.deadline now } else s.sessions.get? j

/-- No live session was presented. An expired one is gone, and there is a new one
with an empty map under the first name drawn that none has then. -/
structure Mints (s : SessionStore) (draws : List String) (presented : Option String)
    (now : UInt64) (resolved : Resolved) (found : SessionStore) : Prop where
  dead : ∀ id e, presented = some id → s.sessions.get? id = some e → e.isExpired now = true
  first : ∃ skipped rest, draws = skipped ++ resolved.id :: rest ∧
    ∀ id ∈ skipped, presented ≠ some id ∧ s.sessions.contains id = true
  free : presented ≠ some resolved.id → s.sessions.get? resolved.id = none
  isNew : resolved.isNew = true
  params : resolved.params = s.maps.length
  timeout : found.timeout = s.timeout
  maps : found.maps = s.maps ++ [.empty]
  sessions : ∀ j, found.sessions.get? j =
    if j = resolved.id then some ⟨resolved.id, s.deadline now, s.maps.length⟩
    else if presented = some j then none
    else s.sessions.get? j

/-- A store without the session that is presented, which is not live. -/
structure IsWithout (s : SessionStore) (presented : Option String) (t : SessionStore) : Prop where
  timeout : t.timeout = s.timeout
  maps : t.maps = s.maps
  sessions : ∀ j, t.sessions.get? j = if presented = some j then none else s.sessions.get? j

theorem mints_of_mint {s t found : SessionStore} {draws : List String}
    {presented : Option String} {now : UInt64} {resolved : Resolved}
    (ht : s.IsWithout presented t)
    (hdead : ∀ id e, presented = some id → s.sessions.get? id = some e → e.isExpired now = true)
    (h : t.mint draws now = some (resolved, found)) :
    s.Mints draws presented now resolved found := by
  obtain ⟨id, hfresh, hopened⟩ := Option.map_eq_some_iff.mp h
  obtain ⟨rfl, rfl⟩ := Prod.mk.inj hopened
  obtain ⟨hfree, skipped, rest, hdraws, hskipped⟩ := List.find?_eq_some_iff_append.mp hfresh
  have hdeadline : t.deadline now = s.deadline now := by
    rw [deadline, deadline, ht.timeout]
  refine ⟨hdead, ⟨skipped, rest, hdraws, ?_⟩, ?_, rfl, congrArg List.length ht.maps, ht.timeout,
    congrArg (· ++ [.empty]) ht.maps, ?_⟩
  · intro d hd
    have htaken : t.sessions.contains d = true := by simpa using hskipped d hd
    rw [Table.contains, ht.sessions] at htaken
    by_cases hp : presented = some d
    · simp [hp] at htaken
    · rw [if_neg hp] at htaken
      exact ⟨hp, htaken⟩
  · intro hp
    have hnone : t.sessions.get? id = none := by simpa [Table.contains] using hfree
    rw [ht.sessions, if_neg hp] at hnone
    exact hnone
  · intro j
    rw [← ht.sessions j, ← hdeadline, ← ht.maps]
    exact Table.get?_insert _ _ _ _

/-- Every resolve that has an answer does one or the other. -/
theorem resolve_cases {s found : SessionStore} {draws : List String} {presented : Option String}
    {now : UInt64} {resolved : Resolved}
    (h : s.resolve draws presented now = some (resolved, found)) :
    (∃ id e, s.Extends presented now resolved found id e) ∨
      s.Mints draws presented now resolved found := by
  cases presented with
  | none => exact .inr (mints_of_mint ⟨rfl, rfl, fun _ => by simp⟩ (by simp) h)
  | some id =>
    cases hget : s.sessions.get? id with
    | none =>
      simp only [resolve, hget] at h
      refine .inr (mints_of_mint ⟨rfl, rfl, fun j => ?_⟩ ?_ h)
      · by_cases hj : id = j
        · simp [← hj, hget]
        · simp [hj]
      · rintro _ e ⟨⟩ he
        rw [hget] at he
        cases he
    | some e =>
      cases hexpired : e.isExpired now with
      | true =>
        simp only [resolve, hget, hexpired, if_true] at h
        have hwithout :
            s.IsWithout (some id) { s with sessions := s.sessions.erase id } := by
          refine ⟨rfl, rfl, fun j => ?_⟩
          rw [Table.get?_erase]
          simp [eq_comm]
        refine .inr (mints_of_mint hwithout ?_ h)
        rintro _ e' ⟨⟩ he
        rw [hget] at he
        exact Option.some.inj he ▸ hexpired
      | false =>
        simp only [resolve, hget, hexpired, Bool.false_eq_true, if_false] at h
        obtain ⟨rfl, rfl⟩ := Prod.mk.inj (Option.some.inj h)
        exact .inl ⟨id, e, rfl, hget, hexpired, rfl, rfl, rfl, fun j => Table.get?_insert _ _ j _⟩

/-! ### Sweeps -/

theorem get?_sweep (s : SessionStore) (now : UInt64) (id : String) :
    (s.sweep now).2.sessions.get? id =
      (s.sessions.get? id).filter fun e => !e.isExpired now :=
  Table.get?_keep _ _ _

theorem get?_of_sweep {s : SessionStore} {now : UInt64} {id : String} {e : Session}
    (h : (s.sweep now).2.sessions.get? id = some e) : s.sessions.get? id = some e := by
  rw [get?_sweep] at h
  exact (Option.filter_eq_some_iff.mp h).1

/-! ### Maps -/

theorem params_setParams_self {s : SessionStore} {map : Nat} (h : map < s.maps.length)
    (params : Params) : (s.setParams map params).params map = params := by
  rw [SessionStore.params, setParams, List.getD_eq_getElem?_getD, List.getElem?_set_self h]
  rfl

theorem params_setParams_ne {s : SessionStore} {map other : Nat} (h : map ≠ other)
    (params : Params) : (s.setParams map params).params other = s.params other := by
  rw [SessionStore.params, setParams, List.getD_eq_getElem?_getD, List.getElem?_set_ne h,
    SessionStore.params, List.getD_eq_getElem?_getD]

theorem params_of_append {s found : SessionStore} {more : List Params} {map : Nat}
    (hmaps : found.maps = s.maps ++ more) (h : map < s.maps.length) :
    found.params map = s.params map := by
  rw [SessionStore.params, hmaps, List.getD_eq_getElem?_getD, List.getElem?_append_left h,
    SessionStore.params, List.getD_eq_getElem?_getD]

end PageServer.SessionStore
