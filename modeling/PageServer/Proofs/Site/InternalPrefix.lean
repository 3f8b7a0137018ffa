import PageServer.Config.Server
import PageServer.Proofs.Site.CleanFailures
import PageServer.Proofs.Site.Segments

/-!
# The internal prefix

Paths are compared with the internal prefix in canonical form, while the prefix
itself is taken as it is configured but for slashes at its end. So a prefix that
is written in canonical form keeps clients from all paths that begin with its
segments, and one that is written in any other way keeps them from none.
-/

namespace PageServer.Site

open Exchange (Action)

/-- The names that a path without `..` asks for. -/
def requested (path : String) : List String :=
  if segments path = [] then indexNames else segments path

theorem requested_ne_nil (path : String) : requested path ≠ [] := by
  rw [requested]
  split
  · decide
  · assumption

theorem isSegment_of_mem_requested {path s : String} (h : s ∈ requested path) : IsSegment s := by
  rw [requested] at h
  split at h
  · rw [List.mem_singleton.mp h]
    decide
  · exact isSegment_of_mem h

/-- Where the names that a path asks for lead, if clients may ask for them. -/
def lead (s : Site) (names : List String) : Except DispatchError Target :=
  let path := absolute names
  match s.workers.get? path with
  | some h => .ok (.handler h path)
  | none =>
    if endsIn templateEnding path then .ok (.template names path)
    else
      match Text.strip? handlerPrefix.toList path.toList with
      | some name => namedHandler (String.ofList name)
      | none => .ok (.staticFile names path)

theorem route_eq (s : Site) (path : String) (direct : Bool) :
    s.route path direct =
      if ".." ∈ segments path then .error (.forbidden path)
      else if direct && s.isInternal (absolute (requested path)) then
        .error (.forbidden (absolute (requested path)))
      else s.lead (requested path) := by
  rw [route, names?_components]
  by_cases hup : ".." ∈ segments path
  · simp only [hup, if_true]
  · simp only [hup, if_false, requested, List.isEmpty_iff]
    rfl

theorem dispatch_of_route_error {s : Site} {path : String} {direct : Bool} {e : DispatchError}
    (h : s.route path direct = .error e) {bounds : Bounds} (hpages : bounds.pages ≠ 0)
    (ex : Exchange) : s.dispatch bounds path direct ex = .error (.failed e) ex := by
  obtain ⟨pages, hsucc⟩ := Nat.exists_eq_succ_of_ne_zero hpages
  rw [dispatch, hsucc, dispatchWithin_succ, visit, h]
  rfl

/-! ### Internal paths -/

theorem isInternal_iff {s : Site} {path : String} :
    s.isInternal path = true ↔ s.internalPrefix ≠ "" ∧
      ∃ rest, path.toList = s.internalPrefix.toList ++ rest ∧ AtBoundary rest := by
  rw [isInternal, Bool.and_eq_true, Bool.not_eq_true', String.isEmpty_eq_false_iff]
  refine and_congr_right fun _ => ?_
  cases hstrip : Text.strip? s.internalPrefix.toList path.toList with
  | none =>
    refine iff_of_false Bool.false_ne_true ?_
    rintro ⟨rest, hrest, -⟩
    rw [Text.strip?_eq_some_iff.mpr hrest] at hstrip
    cases hstrip
  | some rest =>
    have hpath := Text.strip?_eq_some_iff.mp hstrip
    have honly : (∃ rest', path.toList = s.internalPrefix.toList ++ rest' ∧ AtBoundary rest') ↔
        AtBoundary rest := by
      rw [hpath]
      simp
    rw [honly]
    cases rest <;> simp [AtBoundary]

/-- A path is internal exactly if the prefix is the canonical form of its first
segments. -/
theorem isInternal_absolute_iff {s : Site} {names : List String}
    (h : ∀ t ∈ names, IsSegment t) (hne : names ≠ []) :
    s.isInternal (absolute names) = true ↔
      ∃ front, front ≠ [] ∧ front <+: names ∧ s.internalPrefix = absolute front := by
  rw [isInternal_iff, toList_absolute hne]
  simp only [spelled_eq_append_iff h]
  constructor
  · rintro ⟨hinternal, rest, front, back, rfl, hfront, -⟩
    have hfront' : front ≠ [] := by
      rintro rfl
      exact hinternal (String.toList_eq_nil_iff.mp hfront)
    refine ⟨front, hfront', List.prefix_append _ _, ?_⟩
    rw [← String.toList_inj, hfront, toList_absolute hfront']
  · rintro ⟨front, hfront, ⟨back, rfl⟩, hinternal⟩
    have hchars := toList_absolute hfront
    rw [hinternal, hchars]
    refine ⟨?_, _, front, back, rfl, rfl, rfl⟩
    intro hempty
    rw [hempty] at hchars
    cases front with
    | nil => exact hfront rfl
    | cons t front => cases hchars

/-- A configured prefix is in canonical form, but for slashes at its end. -/
structure IsCanonical (configured : String) : Prop where
  ne_nil : segments configured ≠ []
  trim_eq : trimPrefix configured = absolute (segments configured)

theorem segments_of_trimPrefix {configured : String} {front : List String}
    (h : trimPrefix configured = absolute front) (hfront : ∀ t ∈ front, IsSegment t) :
    segments configured = front := by
  rw [← segments_trimPrefix, h, segments_absolute hfront]

theorem IsCanonical.isInternal_iff {configured : String} (h : IsCanonical configured) {s : Site}
    (hs : s.internalPrefix = trimPrefix configured) {names : List String}
    (hnames : ∀ t ∈ names, IsSegment t) (hne : names ≠ []) :
    s.isInternal (absolute names) = true ↔ segments configured <+: names := by
  rw [isInternal_absolute_iff hnames hne]
  constructor
  · rintro ⟨front, -, hfront, hinternal⟩
    rwa [segments_of_trimPrefix (hs.symm.trans hinternal) fun t ht => hnames t (hfront.subset ht)]
  · intro hfront
    exact ⟨_, h.ne_nil, hfront, hs.trans h.trim_eq⟩

theorem isInternal_of_not_canonical {configured : String} (h : ¬ IsCanonical configured) {s : Site}
    (hs : s.internalPrefix = trimPrefix configured) {names : List String}
    (hnames : ∀ t ∈ names, IsSegment t) (hne : names ≠ []) :
    s.isInternal (absolute names) = false := by
  rw [Bool.eq_false_iff, ne_eq, isInternal_absolute_iff hnames hne]
  rintro ⟨front, hfront, hbegins, hinternal⟩
  have hsegments : segments configured = front :=
    segments_of_trimPrefix (hs.symm.trans hinternal) fun t ht => hnames t (hbegins.subset ht)
  exact h ⟨hsegments ▸ hfront, hsegments ▸ hs.symm.trans hinternal⟩

/-! ### Refusals -/

/-- A client's request is refused, and nothing happens to its exchange. -/
def Refuses (s : Site) (path : String) : Prop :=
  ∀ (bounds : Bounds) (ex : Exchange), bounds.pages ≠ 0 →
    s.dispatch bounds path true ex =
      .error (.failed (.forbidden (absolute (requested path)))) ex

theorem lead_ne_forbidden (s : Site) (names : List String) (p : String) :
    s.lead names ≠ .error (.forbidden p) := by
  rw [lead]
  split
  · rintro ⟨⟩
  split
  · rintro ⟨⟩
  split
  · rw [namedHandler]
    split
    · split <;> rintro ⟨⟩
    · rintro ⟨⟩
  · rintro ⟨⟩

theorem readTemplate_ne_forbidden (s : Site) (names : List String) (path p : String) :
    s.readTemplate names path ≠ .error (.forbidden p) := by
  rw [readTemplate]
  split
  · rintro ⟨⟩
  split
  · rintro ⟨⟩
  · next source _ =>
    cases Template.parse source <;> rintro ⟨⟩

theorem serve_ne_forbidden (s : Site) (iterations : Nat) (t : Target) (ex ex' : Exchange)
    (p : String) : s.serve iterations t ex ≠ .error (.failed (.forbidden p)) ex' := by
  intro hserve
  obtain ⟨hlacks, -⟩ := lacks_of_serve hserve rfl
  cases hlacks with
  | template hread => exact readTemplate_ne_forbidden s _ _ p hread

/-- Clients are refused exactly the internal paths. -/
theorem refuses_iff {s : Site} {path : String} (hup : ".." ∉ segments path) :
    s.Refuses path ↔ s.isInternal (absolute (requested path)) = true := by
  have hroute := route_eq s path true
  rw [if_neg hup, Bool.true_and] at hroute
  constructor
  · intro hrefuses
    -- with room for one page only there is none that could be refused after it
    have hone := hrefuses ⟨0, 1⟩ (.start .unlimited .empty .empty [] none) nofun
    by_contra hopen
    rw [if_neg hopen] at hroute
    rw [dispatch, dispatchWithin_succ, visit, hroute] at hone
    cases hlead : s.lead (requested path) with
    | error e =>
      rw [hlead] at hone
      cases hone
      exact lead_ne_forbidden s _ _ hlead
    | ok t =>
      rw [hlead] at hone
      dsimp only at hone
      split at hone
      · next hserve =>
        cases hone
        exact serve_ne_forbidden s _ t _ _ _ hserve
      · cases hone
      · split at hone <;> cases hone
  · intro hinternal bounds ex hpages
    rw [if_pos hinternal] at hroute
    exact dispatch_of_route_error hroute hpages ex

/-- Whether all paths below a configured prefix are refused depends on how it is
written: they are if it is canonical, whatever the spelling of the path, or if
no path can be below it. If it is not canonical, no path is refused at all. -/
theorem refuses_below_prefix_iff (s : Site) (configured : String) :
    let guarded := { s with internalPrefix := trimPrefix configured }
    ((∀ path, ".." ∉ segments path → segments configured <+: requested path →
        guarded.Refuses path) ↔
      ".." ∈ segments configured ∨ IsCanonical configured) ∧
    (¬ IsCanonical configured → ∀ path, ".." ∉ segments path → ¬ guarded.Refuses path) := by
  intro guarded
  have hnone : ¬ IsCanonical configured → ∀ path, ".." ∉ segments path →
      ¬ guarded.Refuses path := by
    intro hcanonical path hup
    rw [refuses_iff hup, isInternal_of_not_canonical hcanonical rfl
      (fun _ => isSegment_of_mem_requested) (requested_ne_nil path)]
    exact Bool.false_ne_true
  refine ⟨⟨fun hall => ?_, ?_⟩, hnone⟩
  · by_contra hneither
    obtain ⟨hup, hcanonical⟩ := not_or.mp hneither
    have hsegments : segments (absolute (segments configured)) = segments configured :=
      segments_absolute fun _ => isSegment_of_mem
    have hbelow : segments configured <+: requested (absolute (segments configured)) := by
      rw [requested, hsegments]
      split
      · next hnil => simp [hnil]
      · exact List.prefix_rfl
    rw [← hsegments] at hup
    exact hnone hcanonical _ hup (hall _ hup hbelow)
  · rintro hconfigured path hup hbelow
    rcases hconfigured with hconfigured | hcanonical
    · -- a path with the segments of such a prefix would have `..` in it
      have hmem := hbelow.subset hconfigured
      rw [requested] at hmem
      split at hmem
      · exact absurd hmem (by decide)
      · exact absurd hmem hup
    · rw [refuses_iff hup, hcanonical.isInternal_iff rfl
        (fun _ => isSegment_of_mem_requested) (requested_ne_nil path)]
      exact hbelow

/-- A prefix with a slash too many is valid, but what is below it is sent. -/
theorem sent_below_doubled_slash :
    let config := { ServerConfig.standard with internalPrefix := "//private" }
    let files := FileTree.ofList [(["private", "secret.txt"], .file [115])]
    let site := Site.ofFiles "" files ⟨.empty⟩ config.internalPrefix
    let path := "/private/secret.txt"
    config.fault? = none ∧ config.internalPrefix ≠ "" ∧ ".." ∉ segments path ∧
      segments config.internalPrefix <+: requested path ∧ ¬ site.Refuses path ∧
      endResult (site.dispatch ⟨0, 1⟩ path true (.start .unlimited .empty .empty [] none)) =
        .ok () := by
  intro config files site path
  have hsent : endResult
      (site.dispatch ⟨0, 1⟩ path true (.start .unlimited .empty .empty [] none)) = .ok () := by
    have hroute : site.route path true = .ok (.staticFile ["private", "secret.txt"] path) := by
      decide
    have hpieces : pieces pieceSize [115] = [[115]] := by
      simp [pieces, pieceSize]
    have hfile : site.staticFile ["private", "secret.txt"] =
        .ok ⟨["private", "secret.txt"], MimeTable.fallback, [115]⟩ := by
      rfl
    rw [dispatch, dispatchWithin_succ, visit, hroute]
    simp only [serve, hfile, Exchange.sendFile, hpieces]
    rfl
  refine ⟨by decide, by decide, by decide, by decide, ?_, hsent⟩
  intro hrefuses
  rw [hrefuses ⟨0, 1⟩ _ Nat.one_ne_zero] at hsent
  cases hsent

end PageServer.Site
