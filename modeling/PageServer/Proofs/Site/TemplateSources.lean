import PageServer.Proofs.Site.NestedCalls
import PageServer.Proofs.Site.PrivateFiles

/-!
# Sources of templates

Whether a path stands for a template is seen from its canonical form, which ends
as its last segment does. So the file of a template is never sent as it is, in
whatever way its path is written and whoever leads to it.
-/

namespace PageServer.Site

/-- The file at the end of these names is named as templates are. -/
def IsTemplateFile (names : List String) : Prop :=
  ∃ t ∈ names.getLast?, templateEnding.toList <:+ t.toList

instance : DecidablePred IsTemplateFile :=
  fun names => inferInstanceAs (Decidable (∃ t ∈ names.getLast?, templateEnding.toList <:+ t.toList))

/-! ### Endings -/

theorem endsIn_iff (ending s : String) : endsIn ending s = true ↔ ending.toList <:+ s.toList := by
  rw [endsIn, Text.isSome_strip?_iff, List.reverse_prefix]

theorem suffix_append_cons_iff {e a l : List Char} {c : Char} (hc : c ∉ e) :
    e <:+ a ++ c :: l ↔ e <:+ l := by
  constructor
  · intro h
    rcases List.suffix_or_suffix_of_suffix h (List.suffix_append a (c :: l)) with h | h
    · rcases List.suffix_cons_iff.mp h with rfl | h
      · exact absurd List.mem_cons_self hc
      · exact h
    · exact absurd (h.subset List.mem_cons_self) hc
  · intro h
    exact (h.trans (List.suffix_cons c l)).trans (List.suffix_append a (c :: l))

/-- A canonical path ends in what its last segment ends in. -/
theorem endsIn_absolute_iff (names : List String) :
    endsIn templateEnding (absolute names) = true ↔ IsTemplateFile names := by
  rw [endsIn_iff, IsTemplateFile]
  rcases List.eq_nil_or_concat names with rfl | ⟨front, t, rfl⟩
  · decide
  have hslash : '/' ∉ templateEnding.toList := by decide
  have hchars : (absolute (front ++ [t])).toList = spelled front ++ '/' :: t.toList := by
    rw [toList_absolute (List.concat_ne_nil t front)]
    simp [spelled]
  rw [List.concat_eq_append, hchars, suffix_append_cons_iff hslash]
  simp

/-! ### Where paths lead -/

theorem lead_eq_staticFile {s : Site} {names names' : List String} {shown : String}
    (h : s.lead names = .ok (.staticFile names' shown)) :
    names' = names ∧ ¬ IsTemplateFile names' := by
  rw [lead] at h
  split at h
  · cases h
  split at h
  · cases h
  · next hending =>
    split at h
    · rw [namedHandler] at h
      split at h
      · split at h <;> cases h
      · cases h
    · cases h
      exact ⟨rfl, mt (endsIn_absolute_iff names).mpr hending⟩

theorem lead_of_isTemplateFile {s : Site} {names : List String} (h : IsTemplateFile names)
    (hworker : s.workers.get? (absolute names) = none) :
    s.lead names = .ok (.template names (absolute names)) := by
  simp only [lead, hworker, (endsIn_absolute_iff names).mpr h, if_true]

/-- The site with nothing where a template could be. -/
def withoutTemplates (s : Site) : Site :=
  { s with files := ⟨fun names => if IsTemplateFile names then none else s.files.entry? names⟩ }

theorem file?_withoutTemplates {s : Site} {names : List String} (h : ¬ IsTemplateFile names) :
    s.withoutTemplates.files.file? names = s.files.file? names := by
  simp only [FileTree.file?, withoutTemplates, if_neg h]

/-- The errors of a template that is missing or cannot be read. -/
inductive IsSourceError (shown : String) : DispatchError → Prop
  | notFound : IsSourceError shown (.notFound shown)
  | unreadable (e : ReadError) : IsSourceError shown (.unreadable shown e)
  | malformed (e : Template.ParseError) : IsSourceError shown (.malformedTemplate shown e)

theorem isSourceError_of_readTemplate {s : Site} {names : List String} {shown : String}
    {e : DispatchError} (h : s.readTemplate names shown = .error e) : IsSourceError shown e := by
  rw [readTemplate] at h
  split at h
  · cases h
    exact .notFound
  split at h
  · cases h
    exact .unreadable _
  · next source _ =>
    cases hparse : Template.parse source with
    | error f =>
      rw [hparse] at h
      cases h
      exact .malformed f
    | ok d =>
      rw [hparse] at h
      cases h

/-- What comes of a template: its source is missing or cannot be read, or it is run. -/
inductive RunsTemplate (s : Site) (iterations : Nat) (names : List String) (ex : Exchange) :
    EStateM.Result (Stop DispatchError) Exchange Unit → Prop
  | lacks {e : DispatchError} (hread : s.readTemplate names (absolute names) = .error e)
      (he : IsSourceError (absolute names) e) :
      RunsTemplate s iterations names ex (.error (.failed e) ex)
  | runs {d : Template.Document} (hread : s.readTemplate names (absolute names) = .ok d) :
      RunsTemplate s iterations names ex
        (EStateM.adaptExcept (Stop.map (.templateFailed (absolute names))) (d.render iterations) ex)

theorem dispatch_of_route_template {s : Site} {path : String} {direct : Bool}
    {names : List String} (hroute : s.route path direct = .ok (.template names (absolute names)))
    (iterations pages : Nat) (ex : Exchange) :
    RunsTemplate s iterations names ex (s.dispatch ⟨iterations, pages + 1⟩ path direct ex) := by
  rw [dispatch, dispatchWithin_succ, visit, hroute]
  simp only [serve]
  cases hread : s.readTemplate names (absolute names) with
  | error e => exact .lacks hread (isSourceError_of_readTemplate hread)
  | ok d =>
    have hruns (r : EStateM.Result (Stop DispatchError) Exchange Unit)
        (hr : EStateM.adaptExcept (Stop.map (DispatchError.templateFailed (absolute names)))
          (d.render iterations) ex = r) : RunsTemplate s iterations names ex r :=
      hr ▸ .runs hread
    simp only [bind_apply]
    cases hrun : EStateM.adaptExcept (Stop.map (DispatchError.templateFailed (absolute names)))
      (d.render iterations) ex <;> exact hruns _ hrun

theorem route_of_isTemplateFile {s : Site} {path : String} (h : IsTemplateFile (segments path))
    (hworker : s.workers.get? (absolute (segments path)) = none) (direct : Bool) :
    (∃ p, s.route path direct = .error (.forbidden p)) ∨
      s.route path direct = .ok (.template (segments path) (absolute (segments path))) := by
  have hne : segments path ≠ [] := by
    intro hnil
    rw [hnil] at h
    exact absurd h (by decide)
  have hrequested : requested path = segments path := if_neg hne
  rw [route_eq, hrequested]
  by_cases hup : ".." ∈ segments path
  · rw [if_pos hup]
    exact .inl ⟨_, rfl⟩
  rw [if_neg hup]
  split
  · exact .inl ⟨_, rfl⟩
  · exact .inr (lead_of_isTemplateFile h hworker)

theorem route_eq_staticFile {s : Site} {path : String} {direct : Bool} {names : List String}
    {shown : String} (h : s.route path direct = .ok (.staticFile names shown)) :
    names = requested path ∧ ¬ IsTemplateFile names := by
  rw [route_eq] at h
  split at h
  · cases h
  split at h
  · cases h
  exact lead_eq_staticFile h

/-- A path that does not lead to a template is answered as if there were none. -/
theorem visit_withoutTemplates {s : Site} {path : String} {direct : Bool}
    (h : ∀ names shown, s.route path direct ≠ .ok (.template names shown)) (iterations : Nat) :
    s.visit iterations path direct = s.withoutTemplates.visit iterations path direct := by
  rw [visit, visit, route_congr s.withoutTemplates s rfl rfl]
  cases hroute : s.route path direct with
  | error e => rfl
  | ok t =>
    cases t with
    | handler handler label => rfl
    | template names shown => exact absurd hroute (h names shown)
    | staticFile names shown =>
      have hfile := file?_withoutTemplates (s := s) (route_eq_staticFile hroute).2
      exact (Target.IsFile.staticFile shown).serve_eq hfile.symm rfl iterations

/-- Wherever a dispatch gets, to its own page or to one that handlers lead to, a file
named as a template is not sent as it is, and no such file matters to a page that is
no template. A path whose last segment is named so, however it is written, is
forbidden, or leads to a mounted handler, or the template is run, unless it is missing
or cannot be read. -/
theorem template_sources_kept {iterations n : Nat} {v w : Visit}
    (hrun : v.nth? iterations n = some w) :
    (∀ pages, v.answer iterations (n + pages) = w.answer iterations pages) ∧
    (∀ names shown, w.site.route w.path w.direct = .ok (.staticFile names shown) →
      names = requested w.path ∧ ¬ IsTemplateFile names) ∧
    ((∀ names shown, w.site.route w.path w.direct ≠ .ok (.template names shown)) →
      w.site.visit iterations w.path w.direct =
        w.site.withoutTemplates.visit iterations w.path w.direct) ∧
    (IsTemplateFile (segments w.path) →
      w.site.workers.get? (absolute (segments w.path)) = none →
      (∃ p, w.site.route w.path w.direct = .error (.forbidden p) ∧
        ∀ pages, w.answer iterations (pages + 1) =
          .error (.failed (.forbidden p)) w.exchange) ∨
      ∀ pages, RunsTemplate w.site iterations (segments w.path) w.exchange
        (w.answer iterations (pages + 1))) := by
  refine ⟨Visit.answer_of_nth?_some hrun, fun names shown => route_eq_staticFile,
    fun h => visit_withoutTemplates h iterations, ?_⟩
  intro hname hworker
  rcases route_of_isTemplateFile hname hworker w.direct with ⟨p, hroute⟩ | hroute
  · left
    exact ⟨p, hroute, fun pages => dispatch_of_route_error hroute (Nat.succ_ne_zero pages) _⟩
  · right
    exact fun pages => dispatch_of_route_template hroute iterations pages w.exchange

def homeSite : Site :=
  ofFiles "" homeTree ⟨.empty⟩ defaultInternalPrefix

def homeExchange : Exchange :=
  .start .unlimited .empty .empty [] (some homeSite)

/-- The page of a handler, which clients may not ask for, is run for the handler. -/
theorem home_page_run :
    let inner := homeExchange.setTemporary "background" Handler.defaultColor
    homeSite.route Handler.homePage true = .error (.forbidden Handler.homePage) ∧
      Visit.nth? 0 1 ⟨homeSite, "//ext/Home/.", true, homeExchange⟩ =
        some ⟨homeSite, Handler.homePage, false, inner⟩ ∧
      RunsTemplate homeSite 0 (segments Handler.homePage) inner
        (homeSite.dispatch ⟨0, 2⟩ "//ext/Home/." true homeExchange) := by
  intro inner
  have hforbidden : homeSite.route Handler.homePage true = .error (.forbidden Handler.homePage) := by
    decide
  have hhandler : homeSite.route "//ext/Home/." true = .ok (.handler .home "Home") := by decide
  have hpage : homeSite.route Handler.homePage false =
      .ok (.template homeNames Handler.homePage) := by decide
  have hrun : Visit.nth? 0 1 ⟨homeSite, "//ext/Home/.", true, homeExchange⟩ =
      some ⟨homeSite, Handler.homePage, false, inner⟩ := by
    rw [Visit.nth?, Visit.next?, visit, hhandler]
    rfl
  obtain ⟨hanswer, -, -, htemplate⟩ := template_sources_kept hrun
  refine ⟨hforbidden, hrun, ?_⟩
  rcases htemplate (by decide) rfl with ⟨p, hroute, -⟩ | hruns
  · rw [hpage] at hroute
    cases hroute
  · have hinner := hruns 0
    rw [← hanswer 1] at hinner
    exact hinner

end PageServer.Site
