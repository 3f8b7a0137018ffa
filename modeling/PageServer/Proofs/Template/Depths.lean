import PageServer.Proofs.Exchange.Commuting
import PageServer.Proofs.Template.FiniteValues

/-!
# The depth of the stack

A function takes a fixed number of values from the stack and leaves a fixed
number there, or fails for a reason that is not the stack's. What is further down
it neither sees nor moves. Where values are missing it fails for want of them.
-/

namespace PageServer.Template

open Exchange (SameOutput)

/-- The state with more values below those on its stack. -/
def EchoState.onto (below : List Value) (s : EchoState) : EchoState :=
  { s with stack := s.stack ++ below }

theorem EchoState.exists_onto {n k : Nat} {s : EchoState} (h : s.stack.length = n + k) :
    ∃ (top : EchoState) (below : List Value),
      s = top.onto below ∧ top.stack.length = n ∧ below.length = k := by
  refine ⟨⟨s.stack.take n, s.exchange⟩, s.stack.drop n, ?_, ?_, ?_⟩
  · rw [onto, List.take_append_drop]
  · rw [List.length_take]
    omega
  · rw [List.length_drop]
    omega

/-! ### Actions of a known depth -/

section Depth

variable {α β : Type} {n m k : Nat}

/-- An action that trades a stack of `n` values for one of `m`, or fails for a
reason that is not the stack's. It sends nothing, and more values below come to
nothing but their being there. -/
structure Trades (n m : Nat) (act : EchoM α) : Prop where
  leaves : ∀ s a s', s.stack.length = n → act s = .ok a s' → s'.stack.length = m
  fails : ∀ s e s', s.stack.length = n → act s = .error e s' → e.isOfStack = false
  output : ∀ s, s.stack.length = n → SameOutput s.exchange (endState (act s)).exchange
  frame : ∀ s below, s.stack.length = n →
    act (s.onto below) = mapState (EchoState.onto below) (act s)

namespace Trades

theorem push (v : Value) : Trades n (n + 1) (EchoM.push v) where
  leaves s a s' hs h := by
    cases h
    exact congrArg (· + 1) hs
  fails s e s' _ h := nomatch h
  output s _ := .refl s.exchange
  frame s below _ := rfl

theorem pop (needing : String) : Trades (n + 1) n (EchoM.pop needing) where
  leaves := by
    rintro ⟨_ | ⟨v, stack⟩, ex⟩ a s' hs h
    · cases hs
    · cases h
      exact Nat.succ.inj hs
  fails := by
    rintro ⟨_ | ⟨v, stack⟩, ex⟩ e s' hs h
    · cases hs
    · cases h
  output := by
    rintro ⟨_ | ⟨v, stack⟩, ex⟩ hs
    · cases hs
    · exact .refl ex
  frame := by
    rintro ⟨_ | ⟨v, stack⟩, ex⟩ below hs
    · cases hs
    · rfl

theorem throw {e : RenderError} (h : e.isOfStack = false) :
    Trades n m (MonadExcept.throw e : EchoM α) where
  leaves s a s' _ hact := nomatch hact
  fails s e' s' _ hact := by
    cases hact
    exact h
  output s _ := .refl s.exchange
  frame s below _ := rfl

theorem pure (a : α) : Trades n n (Pure.pure a : EchoM α) where
  leaves s b s' hs h := by
    cases h
    exact hs
  fails s e s' _ h := nomatch h
  output s _ := .refl s.exchange
  frame s below _ := rfl

theorem getExchange : Trades n n EchoM.getExchange where
  leaves s ex s' hs h := by
    cases h
    exact hs
  fails s e s' _ h := nomatch h
  output s _ := .refl s.exchange
  frame s below _ := rfl

theorem ofValue (r : Except ValueError α) : Trades n n (EchoM.ofValue r) := by
  cases r with
  | ok a => exact pure a
  | error e => exact throw rfl

theorem ofExcept {r : Except RenderError α} (h : OffStack r) : Trades n n (EchoM.ofExcept r) := by
  cases r with
  | ok a => exact pure a
  | error e => exact throw (h e rfl)

/-- A call that sends nothing does not touch the stack. -/
theorem onExchange {act : Exchange.Action Response.Error α}
    (h : ∀ ex, SameOutput ex (endState (act ex))) : Trades n n (EchoM.onExchange act) where
  leaves := by
    rintro ⟨stack, ex⟩ a s' hs hact
    rw [EchoM.onExchange] at hact
    split at hact <;> cases hact
    exact hs
  fails := by
    rintro ⟨stack, ex⟩ e s' - hact
    rw [EchoM.onExchange] at hact
    split at hact <;> cases hact
    rfl
  output := by
    rintro ⟨stack, ex⟩ -
    have hact := h ex
    rw [EchoM.onExchange]
    split <;> simp_all
  frame := by
    rintro ⟨stack, ex⟩ below -
    simp only [EchoState.onto, EchoM.onExchange]
    cases act ex <;> rfl

theorem bind {act : EchoM α} {next : α → EchoM β} (h : Trades n m act)
    (hnext : ∀ a, Trades m k (next a)) : Trades n k (act >>= next) where
  leaves s b s' hs hrun := by
    rw [bind_apply] at hrun
    cases hact : act s with
    | ok a mid =>
      rw [hact] at hrun
      exact (hnext a).leaves mid b s' (h.leaves s a mid hs hact) hrun
    | error e mid =>
      rw [hact] at hrun
      cases hrun
  fails s e s' hs hrun := by
    rw [bind_apply] at hrun
    cases hact : act s with
    | ok a mid =>
      rw [hact] at hrun
      exact (hnext a).fails mid e s' (h.leaves s a mid hs hact) hrun
    | error e mid =>
      rw [hact] at hrun
      cases hrun
      exact h.fails s _ _ hs hact
  output s hs := by
    have hfirst := h.output s hs
    rw [bind_apply]
    cases hact : act s with
    | ok a mid =>
      rw [hact] at hfirst
      exact hfirst.trans ((hnext a).output mid (h.leaves s a mid hs hact))
    | error e mid =>
      rw [hact] at hfirst
      exact hfirst
  frame s below hs := by
    rw [bind_apply, bind_apply, h.frame s below hs]
    cases hact : act s with
    | ok a mid => exact (hnext a).frame mid below (h.leaves s a mid hs hact)
    | error e mid => rfl

/-- The same above more values. -/
theorem above {act : EchoM α} (h : Trades n m act) : Trades (n + k) (m + k) act where
  leaves s a s' hs hact := by
    obtain ⟨top, below, rfl, htop, hbelow⟩ := EchoState.exists_onto hs
    rw [h.frame top below htop] at hact
    cases hrun : act top with
    | ok a' top' =>
      rw [hrun] at hact
      cases hact
      rw [EchoState.onto, List.length_append, h.leaves top _ top' htop hrun, hbelow]
    | error e top' =>
      rw [hrun] at hact
      cases hact
  fails s e s' hs hact := by
    obtain ⟨top, below, rfl, htop, -⟩ := EchoState.exists_onto hs
    rw [h.frame top below htop] at hact
    cases hrun : act top with
    | ok a top' =>
      rw [hrun] at hact
      cases hact
    | error e' top' =>
      rw [hrun] at hact
      cases hact
      exact h.fails top _ top' htop hrun
  output s hs := by
    obtain ⟨top, below, rfl, htop, -⟩ := EchoState.exists_onto hs
    rw [h.frame top below htop, endState_mapState]
    exact h.output top htop
  frame s below hs := by
    obtain ⟨top, middle, rfl, htop, -⟩ := EchoState.exists_onto hs
    have honto : (top.onto middle).onto below = top.onto (middle ++ below) := by
      simp [EchoState.onto]
    rw [honto, h.frame top _ htop, h.frame top middle htop]
    cases act top <;> simp [mapState, EchoState.onto]

end Trades

/-! ### Missing values -/

/-- With fewer than `n` values an action takes them all and fails, in the name of
what needs them. -/
def Needs (n : Nat) (label : String) (act : EchoM α) : Prop :=
  ∀ s, s.stack.length < n → act s = .error (.stackUnderflow label) ⟨[], s.exchange⟩

namespace Needs

variable {label : String}

theorem none (act : EchoM α) : Needs 0 label act :=
  fun _ hs => absurd hs (Nat.not_lt_zero _)

theorem pop {next : Value → EchoM α} (h : ∀ v, Needs n label (next v)) :
    Needs (n + 1) label (EchoM.pop label >>= next) := by
  rintro ⟨_ | ⟨v, stack⟩, ex⟩ hs
  · rfl
  · exact h v ⟨stack, ex⟩ (Nat.lt_of_succ_lt_succ hs)

theorem one {next : Value → EchoM α} : Needs 1 label (EchoM.pop label >>= next) :=
  .pop fun _ => .none _

theorem two {next : Value → Value → EchoM α} :
    Needs 2 label (do
      let a ← EchoM.pop label
      let b ← EchoM.pop label
      next a b) :=
  .pop fun _ => .one

end Needs

end Depth

/-! ### Functions -/

/-- How many values something needs on the stack, and how many stand in their place
afterwards. -/
structure Arity where
  needs : Nat
  leaves : Nat
  deriving DecidableEq, Repr

namespace Builtin

def arity : Builtin → Arity
  | sin => ⟨1, 1⟩
  | decfmt | paramGet | pparamGet | tparamGet => ⟨2, 1⟩
  | dup => ⟨1, 2⟩
  | swap => ⟨2, 2⟩
  | setMimeType | pparamDel | tparamDel => ⟨1, 0⟩
  | pparamSet | tparamSet => ⟨2, 0⟩

theorem trades_getParameter (b : Builtin) (params : Exchange → Params) :
    Trades 2 1 (b.getParameter params) :=
  .bind (.pop _) fun _ => .bind (.pop _) fun _ => .bind .getExchange fun ex => by
    split
    · exact .push _
    · exact .push _

theorem sameOutput_setMimeType (mime : String) (ex : Exchange) :
    SameOutput ex (endState (Exchange.setMimeType mime ex)) := by
  rw [← Exchange.after_eq_endState]
  exact Exchange.sameOutput_change _ _ _ ex

theorem trades_setParameter (b : Builtin) {set : String → String → Exchange → Exchange}
    (h : ∀ key value ex, SameOutput ex (set key value ex)) : Trades 2 0 (b.setParameter set) :=
  .bind (.pop _) fun _ => .bind (.pop _) fun _ => .onExchange (h _ _)

theorem trades_eraseParameter (b : Builtin) {erase : String → Exchange → Exchange}
    (h : ∀ key ex, SameOutput ex (erase key ex)) : Trades 1 0 (b.eraseParameter erase) :=
  .bind (.pop _) fun _ => .onExchange (h _)

theorem trades_run (b : Builtin) : Trades b.arity.needs b.arity.leaves b.run := by
  cases b with
  | sin => exact .bind (.pop _) fun _ => .bind (.ofValue _) fun _ => .push _
  | decfmt =>
    exact .bind (.pop _) fun _ => .bind (.pop _) fun _ => .bind (.ofValue _) fun _ => .push _
  | dup => exact .bind (.pop _) fun _ => .bind (.push _) fun _ => .push _
  | swap =>
    exact .bind (.pop _) fun _ => .bind (.pop _) fun _ => .bind (.push _) fun _ => .push _
  | setMimeType => exact .bind (.pop _) fun mime => .onExchange (sameOutput_setMimeType mime.text)
  | paramGet => exact trades_getParameter _ _
  | pparamGet => exact trades_getParameter _ _
  | tparamGet => exact trades_getParameter _ _
  | pparamSet => exact trades_setParameter _ fun _ _ _ => ⟨rfl, rfl, fun _ => rfl⟩
  | tparamSet => exact trades_setParameter _ fun _ _ _ => ⟨rfl, rfl, fun _ => rfl⟩
  | pparamDel => exact trades_eraseParameter _ fun _ _ => ⟨rfl, rfl, fun _ => rfl⟩
  | tparamDel => exact trades_eraseParameter _ fun _ _ => ⟨rfl, rfl, fun _ => rfl⟩

theorem needs_run (b : Builtin) : Needs b.arity.needs b.name b.run := by
  cases b with
  | sin => exact .one
  | decfmt => exact .two
  | dup => exact .one
  | swap => exact .two
  | setMimeType => exact .one
  | paramGet => exact .two
  | pparamGet => exact .two
  | tparamGet => exact .two
  | pparamSet => exact .two
  | tparamSet => exact .two
  | pparamDel => exact .one
  | tparamDel => exact .one

end Builtin

end PageServer.Template
