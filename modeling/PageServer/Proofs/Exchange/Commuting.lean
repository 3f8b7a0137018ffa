import PageServer.Proofs.Exchange.Calls

/-!
# Actions that do not look at the site

An action commutes with a change of its state if it does the same before and
after the change. Setting the head, writing and changing parameters commute with
putting an exchange into another site.
-/

namespace PageServer

def mapState {ε σ α : Type} (f : σ → σ) : EStateM.Result ε σ α → EStateM.Result ε σ α
  | .ok a s => .ok a (f s)
  | .error e s => .error e (f s)

theorem endResult_mapState {ε σ α : Type} (f : σ → σ) (r : EStateM.Result ε σ α) :
    endResult (mapState f r) = endResult r := by
  cases r <;> rfl

theorem endState_mapState {ε σ α : Type} (f : σ → σ) (r : EStateM.Result ε σ α) :
    endState (mapState f r) = f (endState r) := by
  cases r <;> rfl

/-- An action that a change of its state goes through unseen. -/
def Commutes {ε σ α : Type} (f : σ → σ) (act : EStateM ε σ α) : Prop :=
  ∀ s, act (f s) = mapState f (act s)

namespace Commutes

variable {ε σ α β : Type} {f : σ → σ}

theorem pure (a : α) : Commutes f (Pure.pure a : EStateM ε σ α) :=
  fun _ => rfl

theorem throw (e : ε) : Commutes f (MonadExcept.throw e : EStateM ε σ α) :=
  fun _ => rfl

theorem bind {act : EStateM ε σ α} {next : α → EStateM ε σ β} (h : Commutes f act)
    (hnext : ∀ a, Commutes f (next a)) : Commutes f (act >>= next) := by
  intro s
  rw [bind_apply, bind_apply, h s]
  cases act s with
  | ok a s' => exact hnext a s'
  | error e s' => rfl

theorem sequential : Sequential fun {α : Type} (act : EStateM ε σ α) => Commutes f act :=
  ⟨pure, throw, bind⟩

theorem adaptExcept {δ : Type} (g : ε → δ) {act : EStateM ε σ α} (h : Commutes f act) :
    Commutes f (EStateM.adaptExcept g act) := by
  intro s
  rw [EStateM.adaptExcept, EStateM.adaptExcept, h s]
  cases act s <;> rfl

end Commutes

namespace Exchange

/-- The exchange put into another site, or none. -/
def attach (site : Option Site) (ex : Exchange) : Exchange :=
  { ex with site := site }

/-- An action that does not look at the site of its exchange. -/
abbrev SiteBlind {ε α : Type} (act : Action ε α) : Prop :=
  ∀ site, Commutes (attach site) act

theorem siteBlind_change (field : Response.HeadField) (fault : Option Response.Error)
    (f : Response.Head → Response.Head) : SiteBlind (change field fault f) := by
  rintro site ⟨head, committed, sink, query, persistent, temporary, _⟩
  cases committed with
  | true => rfl
  | false => cases fault <;> rfl

theorem siteBlind_send (data : Bytes) : SiteBlind (send data) := by
  intro site ex
  have hsink : (ex.attach site).sink = ex.sink := rfl
  rw [send, send, hsink]
  cases ex.sink.takes data <;> rfl

theorem siteBlind_commit : SiteBlind commit := by
  intro site ex
  have hsend := siteBlind_send ex.head.bytes site ex
  simp only [commit]
  cases hcommitted : ex.committed with
  | true => simp [attach, hcommitted, mapState]
  | false =>
    have hopen : (ex.attach site).committed = false := hcommitted
    have hhead : (ex.attach site).head = ex.head := rfl
    rw [hopen, hhead, hsend]
    cases send ex.head.bytes ex <;> rfl

theorem siteBlind_write (data : Bytes) : SiteBlind (write data) :=
  fun site => .bind (siteBlind_commit site) fun _ => siteBlind_send data site

theorem siteBlind_writeText (text : String) : SiteBlind (writeText text) :=
  fun site ex => siteBlind_write (ex.head.encoding.encode text) site ex

theorem siteBlind_setMimeType (mime : String) : SiteBlind (setMimeType mime) :=
  siteBlind_change _ _ _

theorem siteBlind_setContentLength (n : UInt64) : SiteBlind (setContentLength n) :=
  siteBlind_change _ _ _

theorem siteBlind_modifying {ε : Type} {f : Exchange → Exchange}
    (h : ∀ site ex, f (ex.attach site) = (f ex).attach site) :
    SiteBlind (modifying (ε := ε) f) :=
  fun site ex => congrArg (EStateM.Result.ok ()) (h site ex)

end Exchange

end PageServer
