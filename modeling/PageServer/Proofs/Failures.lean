/-!
# What a computation fails with

A computation made of steps returns a value if each step does, and fails with
nothing but what its steps fail with.
-/

namespace PageServer

variable {ε δ α β : Type}

theorem bind_eq_ok_iff {r : Except ε α} {f : α → Except ε β} {b : β} :
    r >>= f = .ok b ↔ ∃ a, r = .ok a ∧ f a = .ok b := by
  cases r with
  | error e =>
    constructor
    · intro h
      cases h
    · rintro ⟨a, ha, -⟩
      cases ha
  | ok a =>
    constructor
    · intro h
      exact ⟨a, rfl, h⟩
    · rintro ⟨a', ha, h⟩
      obtain rfl := Except.ok.inj ha
      exact h

theorem exists_error_iff {r : Except ε α} : (∃ e, r = .error e) ↔ ∀ a, r ≠ .ok a := by
  cases r with
  | error e => simp
  | ok a => simp

theorem map_exists_error_iff {r : Except ε α} {f : α → β} :
    (∃ e, r.map f = .error e) ↔ ∃ e, r = .error e := by
  cases r with
  | error e => simp [Except.map]
  | ok a => simp [Except.map]

theorem bind_exists_error_iff {r : Except ε α} {f : α → Except ε β} :
    (∃ e, r >>= f = .error e) ↔ (∃ e, r = .error e) ∨ ∃ a, r = .ok a ∧ ∃ e, f a = .error e := by
  cases r with
  | error e => simp [bind, Except.bind]
  | ok a => simp [bind, Except.bind]

section Sequence

variable {γ : Type} {f : α → Except ε β} {a : α} (as : List α) (g : List β → Except ε γ)

theorem mapM_cons_of_ok {b : β} (h : f a = .ok b) :
    (a :: as).mapM f >>= g = as.mapM f >>= fun bs => g (b :: bs) := by
  rw [List.mapM_cons, h]
  cases as.mapM f <;> rfl

theorem mapM_cons_of_error {e : ε} (h : f a = .error e) :
    (a :: as).mapM f >>= g = .error e := by
  rw [List.mapM_cons, h]
  rfl

end Sequence

/-- Steps in a row fail if one of them fails. -/
theorem mapM_exists_error_iff {f : α → Except ε β} {as : List α} :
    (∃ e, as.mapM f = .error e) ↔ ∃ a ∈ as, ∃ e, f a = .error e := by
  induction as with
  | nil => simp [pure, Except.pure]
  | cons a as ih =>
    have hmem : (∃ x ∈ a :: as, ∃ e, f x = .error e) ↔
        (∃ e, f a = .error e) ∨ ∃ x ∈ as, ∃ e, f x = .error e := by
      simp
    rw [hmem, List.mapM_cons]
    cases hfirst : f a with
    | error e =>
      constructor
      · intro _
        exact .inl ⟨e, rfl⟩
      · intro _
        exact ⟨e, rfl⟩
    | ok b =>
      have hrest : (do let bs ← as.mapM f; pure (b :: bs)) = (as.mapM f).map (b :: ·) := by
        cases as.mapM f <;> rfl
      calc
        (∃ e, (do let bs ← as.mapM f; pure (b :: bs)) = .error e) ↔
            ∃ e, as.mapM f = .error e := by rw [hrest, map_exists_error_iff]
        _ ↔ _ := by simp [ih]

/-- If the result is an error, it is of this kind. -/
def FailsOnly (P : ε → Prop) (r : Except ε α) : Prop :=
  ∀ e, r = .error e → P e

namespace FailsOnly

variable {P : ε → Prop}

theorem ok (a : α) : FailsOnly P (.ok a : Except ε α) :=
  nofun

theorem error {e : ε} (h : P e) : FailsOnly P (.error e : Except ε α) := by
  intro e' he
  obtain rfl := Except.error.inj he
  exact h

theorem bind {r : Except ε α} {f : α → Except ε β} (hr : FailsOnly P r)
    (hf : ∀ a, FailsOnly P (f a)) : FailsOnly P (r >>= f) := by
  cases r with
  | error e => exact error (hr e rfl)
  | ok a => exact hf a

theorem map {r : Except ε α} (hr : FailsOnly P r) (f : α → β) : FailsOnly P (r.map f) := by
  cases r with
  | error e => exact error (hr e rfl)
  | ok a => exact ok (f a)

theorem mapError {f : δ → ε} (hf : ∀ d, P (f d)) (r : Except δ α) :
    FailsOnly P (r.mapError f) := by
  cases r with
  | error d => exact error (hf d)
  | ok a => exact ok a

theorem mapM {f : α → Except ε β} (hf : ∀ a, FailsOnly P (f a)) (as : List α) :
    FailsOnly P (as.mapM f) := by
  induction as with
  | nil => exact ok []
  | cons a as ih =>
    rw [List.mapM_cons]
    exact (hf a).bind fun b => ih.bind fun bs => ok (b :: bs)

end FailsOnly

end PageServer
