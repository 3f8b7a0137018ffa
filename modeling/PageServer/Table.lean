/-!
# Tables keyed by text

A table holds one value for each of finitely many keys. Its entries stand in
strictly increasing key order, so a table is determined by its lookups
(`Table.ext_get?`) and listing it needs no further sorting.
-/

namespace PageServer

/-- A finite map from text, listed by increasing key. -/
structure Table (α : Type) where
  entries : List (String × α)
  increasing : entries.Pairwise fun a b => a.1 < b.1

namespace Table

variable {α β : Type}

def empty : Table α := ⟨[], .nil⟩

instance : EmptyCollection (Table α) := ⟨empty⟩

instance : Inhabited (Table α) := ⟨empty⟩

def find : List (String × α) → String → Option α
  | [], _ => none
  | (j, v) :: rest, k => if k = j then some v else find rest k

def get? (t : Table α) (k : String) : Option α :=
  find t.entries k

def contains (t : Table α) (k : String) : Bool :=
  (t.get? k).isSome

def keys (t : Table α) : List String :=
  t.entries.map Prod.fst

def size (t : Table α) : Nat :=
  t.entries.length

/-- Puts an entry at its place, in the stead of one with the same key. -/
def place (k : String) (v : α) : List (String × α) → List (String × α)
  | [] => [(k, v)]
  | (j, w) :: rest =>
    if k < j then (k, v) :: (j, w) :: rest
    else if k = j then (k, v) :: rest
    else (j, w) :: place k v rest

theorem mem_place {k : String} {v : α} {e : String × α} {es : List (String × α)}
    (h : e ∈ place k v es) : e = (k, v) ∨ e ∈ es := by
  induction es with
  | nil => simpa [place] using h
  | cons x rest ih =>
    obtain ⟨j, w⟩ := x
    rw [place] at h
    split at h
    · simpa using h
    · split at h
      · rcases List.mem_cons.1 h with h | h
        · exact .inl h
        · exact .inr (List.mem_cons_of_mem _ h)
      · rcases List.mem_cons.1 h with h | h
        · exact .inr (h ▸ List.mem_cons_self)
        · exact (ih h).imp id (List.mem_cons_of_mem _)

theorem key_lt_of_not_lt {j k : String} (h : ¬ k < j) (hne : k ≠ j) : j < k := by
  rw [String.not_lt] at h
  apply Decidable.byContradiction
  intro hk
  rw [String.not_lt] at hk
  exact hne (String.le_antisymm hk h)

theorem increasing_place (k : String) (v : α) {es : List (String × α)}
    (h : es.Pairwise fun a b => a.1 < b.1) :
    (place k v es).Pairwise fun a b => a.1 < b.1 := by
  induction es with
  | nil => simp [place]
  | cons x rest ih =>
    obtain ⟨j, w⟩ := x
    obtain ⟨hj, hrest⟩ := List.pairwise_cons.1 h
    rw [place]
    split
    · next hk =>
      refine List.pairwise_cons.2 ⟨fun e he => ?_, h⟩
      rcases List.mem_cons.1 he with rfl | he
      · exact hk
      · exact String.lt_trans hk (hj e he)
    · split
      · next hk => exact List.pairwise_cons.2 ⟨fun e he => hk ▸ hj e he, hrest⟩
      · next hk hne =>
        refine List.pairwise_cons.2 ⟨fun e he => ?_, ih hrest⟩
        rcases mem_place he with rfl | he
        · exact key_lt_of_not_lt hk hne
        · exact hj e he

def insert (t : Table α) (k : String) (v : α) : Table α :=
  ⟨place k v t.entries, increasing_place k v t.increasing⟩

def erase (t : Table α) (k : String) : Table α :=
  ⟨t.entries.filter fun e => e.1 != k, t.increasing.filter _⟩

def keep (t : Table α) (p : α → Bool) : Table α :=
  ⟨t.entries.filter fun e => p e.2, t.increasing.filter _⟩

/-- The table of a list of entries; of several with one key the last counts. -/
def ofList (es : List (String × α)) : Table α :=
  es.foldl (fun t e => t.insert e.1 e.2) empty

def map (f : α → β) (t : Table α) : Table β :=
  ⟨t.entries.map fun e => (e.1, f e.2), List.pairwise_map.2 t.increasing⟩

@[simp] theorem get?_empty (k : String) : (empty : Table α).get? k = none := rfl

theorem find_place (k j : String) (v : α) (es : List (String × α)) :
    find (place k v es) j = if j = k then some v else find es j := by
  induction es with
  | nil => rfl
  | cons x rest ih => grind [place, find]

theorem get?_insert (t : Table α) (k j : String) (v : α) :
    (t.insert k v).get? j = if j = k then some v else t.get? j :=
  find_place k j v t.entries

@[simp] theorem get?_insert_self (t : Table α) (k : String) (v : α) :
    (t.insert k v).get? k = some v := by
  simp [get?_insert]

theorem find_filter_ne (es : List (String × α)) (k j : String) :
    find (es.filter fun e => e.1 != k) j = if j = k then none else find es j := by
  induction es with
  | nil => simp [find]
  | cons x rest ih => grind [find]

theorem get?_erase (t : Table α) (k j : String) :
    (t.erase k).get? j = if j = k then none else t.get? j :=
  find_filter_ne t.entries k j

theorem find_eq_none {es : List (String × α)} {k : String} (h : ∀ e ∈ es, k < e.1) :
    find es k = none := by
  induction es with
  | nil => rfl
  | cons x rest ih =>
    have hne : k ≠ x.1 := fun hk => String.lt_irrefl k (hk ▸ h x List.mem_cons_self)
    rw [find, if_neg hne]
    exact ih fun e he => h e (List.mem_cons_of_mem _ he)

theorem find_filter_value (p : α → Bool) {es : List (String × α)}
    (hs : es.Pairwise fun a b => a.1 < b.1) (k : String) :
    find (es.filter fun e => p e.2) k = (find es k).filter p := by
  induction es with
  | nil => rfl
  | cons x rest ih =>
    obtain ⟨j, w⟩ := x
    obtain ⟨hx, hrest⟩ := List.pairwise_cons.1 hs
    have hlater : k = j → find (rest.filter fun e => p e.2) k = none := by
      rintro rfl
      exact find_eq_none fun e he => hx e (List.mem_filter.1 he).1
    grind [find]

theorem get?_keep (t : Table α) (p : α → Bool) (k : String) :
    (t.keep p).get? k = (t.get? k).filter p :=
  find_filter_value p t.increasing k

theorem mem_of_find {es : List (String × α)} {k : String} {v : α} (h : find es k = some v) :
    (k, v) ∈ es := by
  induction es with
  | nil => simp [find] at h
  | cons x rest ih => grind [find]

theorem find_of_mem {es : List (String × α)} {k : String} {v : α}
    (hs : es.Pairwise fun a b => a.1 < b.1) (h : (k, v) ∈ es) : find es k = some v := by
  induction es with
  | nil => simp at h
  | cons x rest ih =>
    obtain ⟨hx, hrest⟩ := List.pairwise_cons.1 hs
    obtain ⟨j, w⟩ := x
    rcases List.mem_cons.1 h with h | h
    · simp only [Prod.mk.injEq] at h
      simp [find, h]
    · have hne : k ≠ j := fun hk => String.lt_irrefl j (hk ▸ hx _ h)
      rw [find, if_neg hne, ih hrest h]

theorem get?_eq_some_iff {t : Table α} {k : String} {v : α} :
    t.get? k = some v ↔ (k, v) ∈ t.entries :=
  ⟨mem_of_find, find_of_mem t.increasing⟩

theorem eq_of_find_eq {es fs : List (String × α)}
    (hes : es.Pairwise fun a b => a.1 < b.1) (hfs : fs.Pairwise fun a b => a.1 < b.1)
    (h : ∀ k, find es k = find fs k) : es = fs := by
  induction es generalizing fs with
  | nil =>
    cases fs with
    | nil => rfl
    | cons y fs => simpa [find] using h y.1
  | cons x es ih =>
    cases fs with
    | nil => simpa [find] using h x.1
    | cons y fs =>
      obtain ⟨hx, hes'⟩ := List.pairwise_cons.1 hes
      obtain ⟨hy, hfs'⟩ := List.pairwise_cons.1 hfs
      have hxm : x ∈ y :: fs :=
        mem_of_find ((h x.1).symm.trans (find_of_mem hes List.mem_cons_self))
      have hym : y ∈ x :: es := mem_of_find ((h y.1).trans (find_of_mem hfs List.mem_cons_self))
      have hxy : x = y := by
        rcases List.mem_cons.1 hxm with h | hxm
        · exact h
        · rcases List.mem_cons.1 hym with h | hym
          · exact h.symm
          · exact absurd (hx y hym) (String.lt_asymm (hy x hxm))
      subst hxy
      refine congrArg (x :: ·) (ih hes' hfs' fun k => ?_)
      by_cases hk : k = x.1
      · rw [hk, find_eq_none hx, find_eq_none hy]
      · simpa [find, hk] using h k

/-- A table is determined by its lookups. -/
theorem ext_get? {t u : Table α} (h : ∀ k, t.get? k = u.get? k) : t = u := by
  obtain ⟨es, hes⟩ := t
  obtain ⟨fs, hfs⟩ := u
  obtain rfl : es = fs := eq_of_find_eq hes hfs h
  rfl

/-! ### Tables of lists -/

theorem get?_foldl_insert (es : List (String × α)) (t : Table α) (k : String) :
    (es.foldl (fun t e => t.insert e.1 e.2) t).get? k = (es.reverse.lookup k).or (t.get? k) := by
  induction es generalizing t with
  | nil => rfl
  | cons e es ih =>
    obtain ⟨j, v⟩ := e
    rw [List.foldl_cons, ih, get?_insert, List.reverse_cons, List.lookup_append, Option.or_assoc,
      List.lookup_cons, List.lookup_nil]
    by_cases hk : k = j
    · simp [hk]
    · simp [hk, beq_false_of_ne hk]

/-- The last entry with a key is the one found. -/
theorem get?_ofList (es : List (String × α)) (k : String) :
    (ofList es).get? k = es.reverse.lookup k := by
  rw [ofList, get?_foldl_insert, get?_empty, Option.or_none]

theorem mem_of_get?_ofList {es : List (String × α)} {k : String} {v : α}
    (h : (ofList es).get? k = some v) : (k, v) ∈ es := by
  rw [get?_ofList] at h
  obtain ⟨after, before, hes, -⟩ := List.lookup_eq_some_iff.mp h
  have hmem : (k, v) ∈ es.reverse := hes ▸ List.mem_append_right after List.mem_cons_self
  exact List.mem_reverse.mp hmem

/-- If no key comes twice, every entry of the list is found. -/
theorem get?_ofList_of_mem {es : List (String × α)} (hkeys : (es.map Prod.fst).Nodup)
    {k : String} {v : α} (h : (k, v) ∈ es) : (ofList es).get? k = some v := by
  obtain ⟨before, after, rfl⟩ := List.append_of_mem h
  have hlast : k ∉ after.map Prod.fst := by
    rw [List.map_append, List.map_cons] at hkeys
    exact (List.nodup_cons.mp (List.nodup_append.mp hkeys).2.1).1
  rw [get?_ofList]
  apply List.lookup_eq_some_iff.mpr
  refine ⟨after.reverse, before.reverse, by simp, ?_⟩
  intro e he
  apply bne_iff_ne.mpr
  rintro rfl
  exact hlast (List.mem_map_of_mem (List.mem_reverse.mp he))

/-- If entries with one key agree, the table has all of them. -/
theorem get?_ofList_eq_some_iff {es : List (String × α)}
    (hagree : ∀ e ∈ es, ∀ f ∈ es, e.1 = f.1 → e.2 = f.2) {k : String} {v : α} :
    (ofList es).get? k = some v ↔ (k, v) ∈ es := by
  constructor
  · exact mem_of_get?_ofList
  · intro h
    cases hk : (ofList es).get? k with
    | none =>
      rw [get?_ofList, List.lookup_eq_none_iff] at hk
      simpa using hk (k, v) (List.mem_reverse.mpr h)
    | some w => exact congrArg some (hagree (k, w) (mem_of_get?_ofList hk) (k, v) h rfl)

/-- Entries that agree come to the same table in any order. -/
theorem ofList_perm {es es' : List (String × α)}
    (hagree : ∀ e ∈ es, ∀ f ∈ es, e.1 = f.1 → e.2 = f.2) (h : es'.Perm es) :
    ofList es' = ofList es := by
  have hagree' : ∀ e ∈ es', ∀ f ∈ es', e.1 = f.1 → e.2 = f.2 :=
    fun e he f hf => hagree e (h.mem_iff.mp he) f (h.mem_iff.mp hf)
  apply ext_get?
  intro k
  apply Option.ext
  intro v
  rw [get?_ofList_eq_some_iff hagree', get?_ofList_eq_some_iff hagree, h.mem_iff]

theorem entries_agree (t : Table α) :
    ∀ e ∈ t.entries, ∀ f ∈ t.entries, e.1 = f.1 → e.2 = f.2 := by
  intro e he f hf hkey
  have hfound : t.get? e.1 = some e.2 := get?_eq_some_iff.mpr he
  rw [hkey, get?_eq_some_iff.mpr hf] at hfound
  exact (Option.some.inj hfound).symm

/-- The entries of a table are those of the same table in any order. -/
theorem ofList_eq_of_perm {t : Table α} {es : List (String × α)} (h : es.Perm t.entries) :
    ofList es = t := by
  rw [ofList_perm t.entries_agree h]
  apply ext_get?
  intro k
  apply Option.ext
  intro v
  rw [get?_ofList_eq_some_iff t.entries_agree, get?_eq_some_iff]

end Table

end PageServer
