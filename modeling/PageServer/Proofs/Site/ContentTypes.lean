import PageServer.Site.MimeTable

/-!
# One table of content types, many orders

A table of content types is built from entries one after another. Extensions that are
told apart where they come from may be stored under one key, and then it is the order of
the entries that says what a file is sent as. All orders come to the same table just if
no such entries disagree.
-/

namespace PageServer.Site.MimeTable

variable {es es' : List (String × String)}

/-- The entry that comes last is the one found. -/
theorem get?_of_last (es : List (String × String)) (e : String × String) :
    (ofEntries (es ++ [e])).types.get? (key e.1) = some e.2 := by
  rw [ofEntries, Table.get?_ofList, List.map_append, List.reverse_append]
  exact List.lookup_cons_self

theorem get_of_get? {t : MimeTable} {ext type : String}
    (h : t.types.get? (Text.lower ext) = some type) : t.get ext = type := by
  rw [get, h, Option.getD_some]

/-- Entries that are stored under one key say the same. -/
def Agree (es : List (String × String)) : Prop :=
  ∀ e ∈ es, ∀ f ∈ es, key e.1 = key f.1 → e.2 = f.2

theorem ofEntries_eq_of_agree (hagree : Agree es) (h : es'.Perm es) :
    ofEntries es' = ofEntries es := by
  have hstored : ∀ e ∈ es.map fun e => (key e.1, e.2), ∀ f ∈ es.map fun e => (key e.1, e.2),
      e.1 = f.1 → e.2 = f.2 := by
    intro e' he' f' hf' hkey
    obtain ⟨e, he, rfl⟩ := List.mem_map.mp he'
    obtain ⟨f, hf, rfl⟩ := List.mem_map.mp hf'
    exact hagree e he f hf hkey
  exact congrArg MimeTable.mk (Table.ofList_perm hstored (h.map _))

/-- Of every entry there is an order in which it comes last. -/
theorem exists_perm_last {e : String × String} (he : e ∈ es) :
    ∃ before, (before ++ [e]).Perm es := by
  obtain ⟨before, after, rfl⟩ := List.append_of_mem he
  refine ⟨before ++ after, ?_⟩
  exact (List.perm_append_singleton e _).trans List.perm_middle.symm

theorem exists_get_of_mem {e : String × String} (he : e ∈ es) :
    ∃ order, order.Perm es ∧ ∀ ext, Text.lower ext = key e.1 → (ofEntries order).get ext = e.2 := by
  obtain ⟨before, hperm⟩ := exists_perm_last he
  refine ⟨before ++ [e], hperm, ?_⟩
  intro ext hext
  apply get_of_get?
  rw [hext]
  exact get?_of_last before e

/-- What a table of content types means does not depend on the order in which its entries
are listed if and only if no two extensions that are stored under one key have different
types. Otherwise there are two orders in which the same extension has different types. -/
theorem order_irrelevant_iff (table : Table String) :
    (∀ order order' : List (String × String),
      order.Perm table.entries → order'.Perm table.entries →
      (∀ ext, (ofEntries order).get ext = (ofEntries order').get ext) ∧
      ∀ path, (ofEntries order).forPath path = (ofEntries order').forPath path) ↔
    ∀ e ∈ table.entries, ∀ f ∈ table.entries, key e.1 = key f.1 → e.2 = f.2 := by
  constructor
  · intro hsame e he f hf hkey
    obtain ⟨order, hperm, hget⟩ := exists_get_of_mem he
    obtain ⟨order', hperm', hget'⟩ := exists_get_of_mem hf
    let ext := String.ofList (e.1.toList.dropWhile (· == '.'))
    have hext : Text.lower ext = key e.1 := rfl
    rw [← hget ext hext, ← hget' ext (hext.trans hkey)]
    exact (hsame order order' hperm hperm').1 ext
  · intro hagree order order' hperm hperm'
    rw [ofEntries_eq_of_agree hagree hperm, ofEntries_eq_of_agree hagree hperm']
    exact ⟨fun _ => rfl, fun _ => rfl⟩

/-- With and without a point before it an extension is the same, and here the types are not. -/
theorem two_orders_two_types :
    let table : Table String := .ofList [(".txt", "text/plain"), ("txt", "text/html")]
    let order : List (String × String) := [(".txt", "text/plain"), ("txt", "text/html")]
    let order' : List (String × String) := [("txt", "text/html"), (".txt", "text/plain")]
    order.Perm table.entries ∧ order'.Perm table.entries ∧
      (ofEntries order).get "txt" = "text/html" ∧ (ofEntries order').get "txt" = "text/plain" ∧
      (ofEntries order).forPath "/a.txt" = "text/html" ∧
      (ofEntries order').forPath "/a.txt" = "text/plain" := by
  decide +kernel

end PageServer.Site.MimeTable
