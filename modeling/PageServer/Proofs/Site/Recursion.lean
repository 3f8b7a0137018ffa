import PageServer.Proofs.Site.Mounting
import PageServer.Proofs.Site.TemplateSources

/-!
# Pages that lead back

Nothing counts how many pages have led to one another. Handlers lead to two pages
only, and without handlers mounted there a run ends with them. If handlers are
mounted on these pages so that one leads to itself, or each to the other, a run
that gets there has no end; else there are at most two nested visits.
-/

namespace PageServer.Site

open Exchange (Action)

namespace Handler

/-- The sum of the operands in these parameters, unless it overflows. -/
def total? (query : Params) : Option Int64 :=
  Decimal.Int64Arith.add? (Page.operand query "a" 1) (Page.operand query "b" 2)

def Adds (query : Params) : Prop :=
  (total? query).isSome

/-- The page that a handler leads to. -/
def leadsTo? (query : Params) : Handler → Option String
  | home => some homePage
  | sum => (total? query).map fun _ => sumPage
  | hello | echoParams | bgColor => none

variable {query : Params} {h : Handler} {page : String}

theorem homePage_ne_sumPage : homePage ≠ sumPage := by
  decide

theorem leadsTo?_eq_homePage_iff : h.leadsTo? query = some homePage ↔ h = home := by
  cases h with
  | sum =>
    refine iff_of_false ?_ nofun
    intro hsum
    obtain ⟨_, -, hpage⟩ := Option.map_eq_some_iff.mp hsum
    exact homePage_ne_sumPage hpage.symm
  | home => simp [leadsTo?]
  | _ => simp [leadsTo?]

theorem leadsTo?_eq_sumPage_iff : h.leadsTo? query = some sumPage ↔ h = sum ∧ Adds query := by
  cases h with
  | sum => simp [leadsTo?, Adds, Option.isSome_iff_exists]
  | home => simp [leadsTo?, homePage_ne_sumPage]
  | _ => simp [leadsTo?]

/-- Handlers lead to two pages. -/
theorem eq_of_leadsTo? (hpage : h.leadsTo? query = some page) :
    page = homePage ∨ page = sumPage := by
  cases h with
  | home => exact .inl (Option.some.inj hpage).symm
  | sum =>
    obtain ⟨_, -, rfl⟩ := Option.map_eq_some_iff.mp hpage
    exact .inr rfl
  | _ => cases hpage

theorem answering_ne_forward (act : Action Response.Error Unit) (ex ex' : Exchange) :
    answering act ex ≠ .ok (.forward page) ex' := by
  rw [answering, bind_apply]
  split <;> rintro ⟨⟩

theorem run_sum (ex : Exchange) :
    sum.run ex =
      let a := Page.operand ex.query "a" 1
      let b := Page.operand ex.query "b" 2
      match total? ex.query with
      | none => .error (.sumOverflow a b) ex
      | some s => .ok (.forward sumPage) (rememberSum a b s ex) := by
  have hget : (MonadState.get : Action HandlerError Exchange) ex = .ok ex ex := rfl
  rw [run, bind_apply, hget, total?]
  dsimp only
  cases Decimal.Int64Arith.add? _ _ <;> rfl

/-- Whether a handler leads on is seen from the request. -/
theorem exists_run_eq_forward_iff (h : Handler) (ex : Exchange) :
    (∃ ex', h.run ex = .ok (.forward page) ex') ↔ h.leadsTo? ex.query = some page := by
  cases h with
  | home =>
    constructor
    · rintro ⟨ex', hrun⟩
      cases hrun
      rfl
    · intro hpage
      obtain rfl := Option.some.inj hpage
      exact ⟨_, rfl⟩
  | sum =>
    rw [run_sum, leadsTo?]
    dsimp only
    cases total? ex.query with
    | none => exact iff_of_false (by rintro ⟨ex', ⟨⟩⟩) nofun
    | some s => simp
  | _ =>
    refine iff_of_false ?_ nofun
    rintro ⟨ex', hrun⟩
    exact answering_ne_forward _ _ _ hrun

end Handler

/-! ### Following pages -/

/-- The page that a page leads to, if a handler is mounted on it. -/
def follow? (s : Site) (query : Params) (page : String) : Option String :=
  (s.workers.get? page).bind (Handler.leadsTo? query)

/-- Two pages lead to each other, or a page leads to itself. -/
def LeadsBack (s : Site) (query : Params) : Prop :=
  ∃ p q, s.follow? query p = some q ∧ s.follow? query q = some p

def innerPages : List String := [Handler.homePage, Handler.sumPage]

section Following

variable {s : Site} {query : Params} {p q : String}

theorem follow?_eq_homePage_iff :
    s.follow? query p = some Handler.homePage ↔ s.workers.get? p = some .home := by
  simp [follow?, Option.bind_eq_some_iff, Handler.leadsTo?_eq_homePage_iff]

theorem follow?_eq_sumPage_iff :
    s.follow? query p = some Handler.sumPage ↔
      s.workers.get? p = some .sum ∧ Handler.Adds query := by
  simp only [follow?, Option.bind_eq_some_iff, Handler.leadsTo?_eq_sumPage_iff]
  constructor
  · rintro ⟨h, hworker, rfl, hadds⟩
    exact ⟨hworker, hadds⟩
  · rintro ⟨hworker, hadds⟩
    exact ⟨.sum, hworker, rfl, hadds⟩

theorem mem_innerPages_of_follow? (h : s.follow? query p = some q) : q ∈ innerPages := by
  obtain ⟨handler, -, hpage⟩ := Option.bind_eq_some_iff.mp h
  rcases Handler.eq_of_leadsTo? hpage with rfl | rfl <;> decide

theorem leadsBack_iff :
    s.LeadsBack query ↔ s.workers.get? Handler.homePage = some .home ∨
      Handler.Adds query ∧ (s.workers.get? Handler.sumPage = some .sum ∨
        s.workers.get? Handler.homePage = some .sum ∧
          s.workers.get? Handler.sumPage = some .home) := by
  constructor
  · rintro ⟨p, q, hp, hq⟩
    have hpin := mem_innerPages_of_follow? hq
    have hqin := mem_innerPages_of_follow? hp
    simp only [innerPages, List.mem_cons, List.not_mem_nil, or_false] at hpin hqin
    rcases hpin with rfl | rfl <;> rcases hqin with rfl | rfl <;>
      simp only [follow?_eq_homePage_iff, follow?_eq_sumPage_iff] at hp hq
    · exact .inl hp
    · exact .inr ⟨hp.2, .inr ⟨hp.1, hq⟩⟩
    · exact .inr ⟨hq.2, .inr ⟨hq.1, hp⟩⟩
    · exact .inr ⟨hp.2, .inl hp.1⟩
  · rintro (hhome | ⟨hadds, hsum | ⟨hhome, hsum⟩⟩)
    · have hself : s.follow? query _ = _ := follow?_eq_homePage_iff.mpr hhome
      exact ⟨_, _, hself, hself⟩
    · have hself := follow?_eq_sumPage_iff.mpr ⟨hsum, hadds⟩
      exact ⟨_, _, hself, hself⟩
    · exact ⟨_, _, follow?_eq_sumPage_iff.mpr ⟨hhome, hadds⟩, follow?_eq_homePage_iff.mpr hsum⟩

end Following

/-! ### Visits of inner pages -/

theorem exists_serve_eq_forward_iff {s : Site} {iterations : Nat} {t : Target} {page : String}
    {ex : Exchange} :
    (∃ ex', s.serve iterations t ex = .ok (.forward page) ex') ↔
      ∃ h label, t = .handler h label ∧ h.leadsTo? ex.query = some page := by
  cases t with
  | handler h label =>
    have honly : (∃ h' label', Target.handler h label = .handler h' label' ∧
        h'.leadsTo? ex.query = some page) ↔ h.leadsTo? ex.query = some page := by
      constructor
      · rintro ⟨h', label', ⟨⟩, hpage⟩
        exact hpage
      · exact fun hpage => ⟨h, label, rfl, hpage⟩
    rw [honly, ← Handler.exists_run_eq_forward_iff]
    simp only [serve, EStateM.adaptExcept]
    cases h.run ex <;> simp
  | template names shown =>
    refine iff_of_false ?_ (by rintro ⟨h, label, ⟨⟩, -⟩)
    rintro ⟨ex', hserve⟩
    exact (Target.IsFile.template shown).ne_forward s iterations page ex ex' hserve
  | staticFile names shown =>
    refine iff_of_false ?_ (by rintro ⟨h, label, ⟨⟩, -⟩)
    rintro ⟨ex', hserve⟩
    exact (Target.IsFile.staticFile shown).ne_forward s iterations page ex ex' hserve

theorem exists_visit_eq_forward_iff {s : Site} {iterations : Nat} {path page : String}
    {direct : Bool} {ex : Exchange} :
    (∃ ex', s.visit iterations path direct ex = .ok (.forward page) ex') ↔
      ∃ h label, s.route path direct = .ok (.handler h label) ∧
        h.leadsTo? ex.query = some page := by
  rw [visit]
  cases s.route path direct with
  | error e => exact iff_of_false (by rintro ⟨ex', ⟨⟩⟩) (by rintro ⟨h, label, ⟨⟩, -⟩)
  | ok t =>
    simp only [Except.ok.injEq]
    exact exists_serve_eq_forward_iff

/-- An inner page leads to the handler mounted on it, or to a template. -/
theorem route_innerPage {s : Site} {page : String} (hpage : page ∈ innerPages) {h : Handler}
    {label : String} :
    s.route page false = .ok (.handler h label) ↔ s.workers.get? page = some h ∧ label = page := by
  have hpoint : IsMountPoint page := by
    revert page
    decide
  cases hworker : s.workers.get? page with
  | some h' =>
    rw [route_mounted hpoint hworker]
    simp [eq_comm]
  | none =>
    have htemplate : IsTemplateFile (segments page) := by
      clear hworker
      revert page
      decide
    rcases route_of_isTemplateFile htemplate (hpoint.absolute_segments.symm ▸ hworker) false
      with
      ⟨p, hroute⟩ | hroute <;> simp [hroute]

/-- A nested visit in the site of its exchange. -/
structure Visit.IsInner (s : Site) (query : Params) (v : Visit) : Prop where
  site : v.site = s
  attached : v.exchange.site = some s
  query : v.exchange.query = query
  direct : v.direct = false
  path : v.path ∈ innerPages

namespace Visit

variable {iterations : Nat} {s : Site} {query : Params} {v w : Visit}

theorem exchange_of_next? (h : v.next? iterations = some w) :
    v.exchange.SameButTemporary w.exchange :=
  leadsOnClean_visit _ _ _ _ _ _ _ (next?_eq_some_iff.mp h).1

/-- Whatever leads on leads to an inner page. -/
theorem isInner_of_next? (h : v.next? iterations = some w) :
    w.IsInner w.site v.exchange.query := by
  obtain ⟨hvisit, hsite, hdirect⟩ := next?_eq_some_iff.mp h
  obtain ⟨handler, label, -, hpage⟩ := exists_visit_eq_forward_iff.mp ⟨_, hvisit⟩
  refine ⟨rfl, hsite, ?_, hdirect, ?_⟩
  · rw [exchange_of_next? h]
  · rcases Handler.eq_of_leadsTo? hpage with hpath | hpath <;> rw [hpath] <;> decide

namespace IsInner

theorem exists_visit_eq_forward_iff (h : v.IsInner s query) {page : String} :
    (∃ ex, v.site.visit iterations v.path v.direct v.exchange = .ok (.forward page) ex) ↔
      s.follow? query v.path = some page := by
  rw [Site.exists_visit_eq_forward_iff, h.direct, h.site, h.query, follow?,
    Option.bind_eq_some_iff]
  simp only [route_innerPage h.path]
  constructor
  · rintro ⟨handler, label, ⟨hworker, -⟩, hpage⟩
    exact ⟨handler, hworker, hpage⟩
  · rintro ⟨handler, hworker, hpage⟩
    exact ⟨handler, v.path, ⟨hworker, rfl⟩, hpage⟩

/-- A visit of an inner page leads to what the page does, in the same site and with
the same request. -/
theorem next? (h : v.IsInner s query) (hnext : v.next? iterations = some w) :
    w.IsInner s query ∧ s.follow? query v.path = some w.path := by
  obtain ⟨hvisit, hsite, -⟩ := next?_eq_some_iff.mp hnext
  have hinner := isInner_of_next? hnext
  have hsame : w.site = s := by
    rw [exchange_of_next? hnext] at hsite
    exact Option.some.inj (hsite.symm.trans h.attached)
  rw [hsame, h.query] at hinner
  exact ⟨hinner, h.exists_visit_eq_forward_iff.mp ⟨_, hvisit⟩⟩

theorem exists_next? (h : v.IsInner s query) {q : String}
    (hfollow : s.follow? query v.path = some q) (iterations : Nat) :
    ∃ w, v.next? iterations = some w ∧ w.IsInner s query ∧ w.path = q := by
  obtain ⟨ex, hvisit⟩ := h.exists_visit_eq_forward_iff.mpr hfollow
  have hsite : ex.site = some s := by
    rw [leadsOnClean_visit _ _ _ _ _ _ _ hvisit]
    exact h.attached
  have hnext : v.next? iterations = some ⟨s, q, false, ex⟩ :=
    next?_eq_some_iff.mpr ⟨hvisit, hsite, rfl⟩
  exact ⟨_, hnext, (h.next? hnext).1, rfl⟩

/-- Two pages that lead to each other are visited in turn. -/
theorem endless (h : v.IsInner s query) {q : String} (hq : s.follow? query v.path = some q)
    (hback : s.follow? query q = some v.path) (iterations : Nat) : v.Endless iterations := by
  have hstep : ∀ u : Visit, u.IsInner s query ∧ (u.path = v.path ∨ u.path = q) →
      ∃ w, u.next? iterations = some w ∧ w.IsInner s query ∧ (w.path = v.path ∨ w.path = q) := by
    rintro u ⟨hu, hpath | hpath⟩
    · obtain ⟨w, hnext, hw, hwq⟩ := hu.exists_next? (hpath.symm ▸ hq) iterations
      exact ⟨w, hnext, hw, .inr hwq⟩
    · obtain ⟨w, hnext, hw, hwp⟩ := hu.exists_next? (hpath.symm ▸ hback) iterations
      exact ⟨w, hnext, hw, .inl hwp⟩
  exact endless_of_closed hstep ⟨h, .inl rfl⟩

end IsInner

/-- Of three nested visits two are of one page, so the run comes back to it. -/
theorem endless_of_nth?_three (h : nth? iterations 3 v = some w) :
    v.Endless iterations ∧
      ∃ s, v.exchange.site = some s ∧ s.LeadsBack v.exchange.query := by
  obtain ⟨v₁, h₁, hrest⟩ := Option.bind_eq_some_iff.mp h
  obtain ⟨v₂, h₂, hrest⟩ := Option.bind_eq_some_iff.mp hrest
  obtain ⟨v₃, h₃, -⟩ := Option.bind_eq_some_iff.mp hrest
  have hinner₁ := isInner_of_next? h₁
  obtain ⟨hinner₂, hfollow₁⟩ := hinner₁.next? h₂
  obtain ⟨hinner₃, hfollow₂⟩ := hinner₂.next? h₃
  have hpages : v₁.path = v₂.path ∨ v₂.path = v₃.path ∨ v₃.path = v₁.path := by
    have hpath₁ := hinner₁.path
    have hpath₂ := hinner₂.path
    have hpath₃ := hinner₃.path
    simp only [innerPages, List.mem_cons, List.not_mem_nil, or_false] at hpath₁ hpath₂ hpath₃
    grind
  -- the second page leads to one that leads back to it
  obtain ⟨q, hq, hback⟩ : ∃ q, v₁.site.follow? v.exchange.query v₂.path = some q ∧
      v₁.site.follow? v.exchange.query q = some v₂.path := by
    rcases hpages with heq | heq | heq
    · rw [heq] at hfollow₁
      exact ⟨_, hfollow₁, hfollow₁⟩
    · rw [← heq] at hfollow₂
      exact ⟨_, hfollow₂, hfollow₂⟩
    · rw [← heq] at hfollow₁
      exact ⟨_, hfollow₂, hfollow₁⟩
  have htwo : nth? iterations 2 v = some v₂ := by
    simp only [nth?, h₁, h₂, Option.bind_some]
  have hsite : v.exchange.site = some v₁.site := by
    have hattached := hinner₁.attached
    rw [exchange_of_next? h₁] at hattached
    exact hattached
  exact ⟨.of_nth? htwo (hinner₂.endless hq hback iterations), v₁.site, hsite, v₂.path, q, hq, hback⟩

end Visit

/-- Handlers lead back to a page they are mounted on only if `Home` is mounted on its
own page, or the sum's operands have a sum and `SumWorker` is mounted on its own page
or each of the two on the page of the other. Unless they do, a dispatch makes at most
two nested calls, whatever it begins with, and needs no larger bound. If they do, one
of the two pages is answered without end. No dispatch that ends makes more than two
nested calls. -/
theorem nested_calls_bounded_unless_leads_back (iterations : Nat) :
    (∀ (s : Site) (query : Params), s.LeadsBack query ↔
      s.workers.get? Handler.homePage = some .home ∨
        Handler.Adds query ∧ (s.workers.get? Handler.sumPage = some .sum ∨
          s.workers.get? Handler.homePage = some .sum ∧
            s.workers.get? Handler.sumPage = some .home)) ∧
    (∀ v : Visit, (∀ s, v.exchange.site = some s → ¬ s.LeadsBack v.exchange.query) →
      v.nth? iterations 3 = none ∧
        ∀ pages, v.answer iterations (3 + pages) = v.answer iterations 3) ∧
    (∀ (s : Site) (ex : Exchange), s.LeadsBack ex.query → ∃ page ∈ innerPages,
      Visit.Endless iterations ⟨s, page, false, ex.attach (some s)⟩) ∧
    (∀ v : Visit, v.nth? iterations 3 = none ∨ v.Endless iterations ∧
      ∀ pages, endResult (v.answer iterations pages) = .error .cutOff) := by
  refine ⟨fun s query => leadsBack_iff, ?_, ?_, ?_⟩
  · intro v hforth
    have hnone : v.nth? iterations 3 = none := by
      cases hthree : v.nth? iterations 3 with
      | none => rfl
      | some w =>
        obtain ⟨-, s, hsite, hback⟩ := Visit.endless_of_nth?_three hthree
        exact absurd hback (hforth s hsite)
    exact ⟨hnone, Visit.answer_of_nth?_none hnone⟩
  · rintro s ex ⟨p, q, hp, hq⟩
    have hpage := mem_innerPages_of_follow? hq
    have hinner : Visit.IsInner s ex.query ⟨s, p, false, ex.attach (some s)⟩ :=
      ⟨rfl, rfl, rfl, rfl, hpage⟩
    exact ⟨p, hpage, hinner.endless hp hq iterations⟩
  · intro v
    cases hthree : v.nth? iterations 3 with
    | none => exact .inl rfl
    | some w =>
      have hend := (Visit.endless_of_nth?_three hthree).1
      exact .inr ⟨hend, hend.cutOff⟩

/-- A handler that is mounted on a path of its own leads no further than its page. -/
theorem calc_leads_no_further :
    let v : Visit := ⟨slashSite, "/calc", true, slashExchange⟩
    ¬ slashSite.LeadsBack slashExchange.query ∧ v.nth? 0 3 = none ∧
      ∀ pages, v.answer 0 (3 + pages) = v.answer 0 3 := by
  intro v
  have hforth : ¬ slashSite.LeadsBack slashExchange.query := by
    rw [leadsBack_iff]
    rintro (hhome | ⟨-, hsum | ⟨hhome, -⟩⟩)
    · exact absurd hhome (by decide)
    · exact absurd hsum (by decide)
    · exact absurd hhome (by decide)
  obtain ⟨-, hbounded, -⟩ := nested_calls_bounded_unless_leads_back 0
  refine ⟨hforth, hbounded v ?_⟩
  intro s hsite
  cases hsite
  exact hforth

/-- A table that mounts `Home` on the page it leads to. -/
def loopTable : Table String :=
  .ofList [(Handler.homePage, "Home")]

def loopSite : Site :=
  { ofFiles "" .empty ⟨.empty⟩ defaultInternalPrefix with
    workers := .ofList [(Handler.homePage, .home)] }

/-- The table is accepted, and a client's request is answered without end. -/
theorem home_leads_to_itself :
    let ex : Exchange := .start .unlimited .empty .empty [] (some loopSite)
    (ofFiles "" .empty ⟨.empty⟩ defaultInternalPrefix).mount loopTable = .ok loopSite ∧
      (∀ n, (Visit.nth? 0 n ⟨loopSite, "/ext/Home", true, ex⟩).isSome) ∧
      ∀ pages, endResult (loopSite.dispatch ⟨0, pages⟩ "/ext/Home" true ex) =
        .error .cutOff := by
  intro ex
  let inner := ex.setTemporary "background" Handler.defaultColor
  have hroute : loopSite.route "/ext/Home" true = .ok (.handler .home "Home") := by decide
  have hone : Visit.nth? 0 1 ⟨loopSite, "/ext/Home", true, ex⟩ =
      some ⟨loopSite, Handler.homePage, false, inner⟩ := by
    rw [Visit.nth?, Visit.next?, visit, hroute]
    rfl
  have hself : loopSite.follow? .empty Handler.homePage = some Handler.homePage :=
    follow?_eq_homePage_iff.mpr (by decide)
  have hinner : Visit.IsInner loopSite .empty ⟨loopSite, Handler.homePage, false, inner⟩ :=
    ⟨rfl, rfl, rfl, rfl, by decide⟩
  have hend := Visit.Endless.of_nth? hone (hinner.endless hself hself 0)
  exact ⟨rfl, hend, hend.cutOff⟩

end PageServer.Site
