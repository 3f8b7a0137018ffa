import PageServer.Proofs.Site.Calls
import PageServer.Proofs.Site.Containment
import PageServer.Proofs.Template.Draining
import PageServer.Proofs.Template.SiteBlind

/-!
# Private files do not leak

A client that asks for a template or a static file is answered alike on any two
file trees that differ only where the internal prefix is. Only handlers lead to
pages below it.
-/

namespace PageServer.Site

open Exchange (Action SiteBlind)

/-! ### Files as targets -/

inductive Target.IsFile (names : List String) : Target → Prop
  | template (path : String) : IsFile names (.template names path)
  | staticFile (path : String) : IsFile names (.staticFile names path)

theorem isFile_of_lead {s : Site} {names : List String} {t : Target}
    (hworker : s.workers.get? (absolute names) = none)
    (hnamed : Text.strip? handlerPrefix.toList (absolute names).toList = none)
    (h : s.lead names = .ok t) : t.IsFile names := by
  simp only [lead, hworker, hnamed] at h
  split at h
  · cases h
    exact .template _
  · cases h
    exact .staticFile _

theorem siteBlind_sendFile (f : StaticFile) : SiteBlind (Exchange.sendFile f) :=
  fun site => sendFile_of_sequential Commutes.sequential
    (fun mime => Exchange.siteBlind_setMimeType mime site)
    (fun n => Exchange.siteBlind_setContentLength n site)
    (fun data => Exchange.siteBlind_write data site) f

namespace Target.IsFile

variable {names : List String} {t : Target}

theorem siteBlind_serve (h : t.IsFile names) (s : Site) (iterations : Nat) :
    SiteBlind (s.serve iterations t) := by
  intro site
  cases h with
  | template path =>
    rw [serve]
    split
    · exact .throw _
    · next d _ =>
      exact .bind (.adaptExcept _ (Template.siteBlind_render d iterations site)) fun _ => .pure _
  | staticFile path =>
    rw [serve]
    split
    · exact .throw _
    · next f _ => exact .bind (.adaptExcept _ (siteBlind_sendFile f site)) fun _ => .pure _

theorem ne_forward (h : t.IsFile names) (s : Site) (iterations : Nat) (path : String)
    (ex ex' : Exchange) : s.serve iterations t ex ≠ .ok (.forward path) ex' := by
  cases h with
  | template path =>
    rw [serve]
    cases s.readTemplate names path with
    | error e => rintro ⟨⟩
    | ok d =>
      dsimp only
      rw [bind_apply]
      split <;> rintro ⟨⟩
  | staticFile path =>
    rw [serve]
    cases s.staticFile names with
    | error e => rintro ⟨⟩
    | ok f =>
      dsimp only
      rw [bind_apply]
      split <;> rintro ⟨⟩

/-- Of a site only the file itself and the types of files count. -/
theorem serve_eq (h : t.IsFile names) {s s' : Site}
    (hfile : s.files.file? names = s'.files.file? names) (htypes : s.mimeTypes = s'.mimeTypes)
    (iterations : Nat) : s.serve iterations t = s'.serve iterations t := by
  cases h with
  | template path => simp only [serve, readTemplate, hfile]
  | staticFile path => simp only [serve, Site.staticFile, hfile, htypes]

end Target.IsFile

/-- Where nothing follows a page, answering its path is showing it. -/
theorem dispatchWithin_eq_visit {s : Site} {iterations : Nat} {path : String} {direct : Bool}
    (h : ∀ ex next ex', s.visit iterations path direct ex ≠ .ok (.forward next) ex')
    (pages : Nat) :
    dispatchWithin iterations (pages + 1) s path direct =
      s.visit iterations path direct >>= fun _ => pure () := by
  funext ex
  rw [dispatchWithin_succ, bind_apply]
  split
  · next hvisit => rw [hvisit]
  · next hvisit =>
    rw [hvisit]
    rfl
  · next hvisit => exact absurd hvisit (h _ _ _)

/-! ### Two trees -/

/-- The trees have the same at all names that do not begin with these. -/
def AgreeOutside (names : List String) (files others : FileTree) : Prop :=
  ∀ path, ¬ names <+: path → files.entry? path = others.entry? path

theorem AgreeOutside.file?_eq {names : List String} {files others : FileTree}
    (h : AgreeOutside names files others) {path : List String} (hpath : ¬ names <+: path) :
    files.file? path = others.file? path := by
  rw [FileTree.file?, FileTree.file?, h path hpath]

theorem FileTree.ofList_nil : FileTree.ofList [] = .empty := by
  simp [FileTree.ofList, FileTree.empty]

/-- What is in one directory of the root makes no difference outside of it. -/
theorem agreeOutside_append {name : String} {entries : List (List String × Entry)}
    (h : ∀ e ∈ entries, [name] <+: e.1) (shared : List (List String × Entry)) :
    AgreeOutside [name] (.ofList (entries ++ shared)) (.ofList shared) := by
  intro path hpath
  have hmissed : entries.lookup path = none := by
    refine List.lookup_eq_none_iff.mpr fun e he => ?_
    rw [bne_iff_ne]
    rintro rfl
    exact hpath (h e he)
  obtain rfl | hne := eq_or_ne path []
  · simp [FileTree.ofList, List.lookup_append, hmissed]
  · have hbeside : entries.any (fun e => path.isPrefixOf e.1) = false := by
      rw [List.any_eq_false]
      intro e he habove
      obtain ⟨rest, hrest⟩ := h e he
      obtain ⟨first, names, rfl⟩ := List.exists_cons_of_ne_nil hne
      rw [← hrest, List.isPrefixOf_iff_prefix, List.singleton_append] at habove
      obtain ⟨rfl, -⟩ := List.cons_prefix_cons.mp habove
      exact hpath ⟨names, rfl⟩
    simp only [FileTree.ofList, List.lookup_append, hmissed, List.any_append, hbeside,
      Option.none_or, Bool.false_or]

/-- The site over some files with an internal prefix of these names. -/
def protecting (s : Site) (names : List String) (files : FileTree) : Site :=
  { s with files := files, internalPrefix := trimPrefix (absolute names) }

theorem route_congr (s s' : Site) (hinternal : s.internalPrefix = s'.internalPrefix)
    (hworkers : s.workers = s'.workers) (path : String) (direct : Bool) :
    s.route path direct = s'.route path direct := by
  have hsame (p : String) : s.isInternal p = s'.isInternal p := by
    rw [isInternal, isInternal, hinternal]
  simp only [route, hsame, hworkers]

theorem isCanonical_absolute {names : List String} (h : ∀ t ∈ names, IsSegment t)
    (hne : names ≠ []) : IsCanonical (absolute names) := by
  have hsegments := segments_absolute h
  refine ⟨hsegments.symm ▸ hne, ?_⟩
  rw [hsegments]
  exact trimPrefix_absolute h hne

/-- A path that leads to no handler. -/
structure AvoidsHandlers (s : Site) (path : String) : Prop where
  worker : ∀ p, normalize? path = some p →
    s.workers.get? (if p = "/" then "/index.html" else p) = none
  named : ∀ p, normalize? path = some p → Text.strip? handlerPrefix.toList p.toList = none

theorem AvoidsHandlers.isFile {s : Site} {path : String} (h : s.AvoidsHandlers path)
    (hup : ".." ∉ segments path) {t : Target} (hlead : s.lead (requested path) = .ok t) :
    t.IsFile (requested path) := by
  have hnormal : normalize? path = some (absolute (segments path)) := by
    rw [normalize?_eq, if_neg hup]
  refine isFile_of_lead ?_ ?_ hlead
  · rw [absolute_requested]
    exact h.worker _ hnormal
  · rw [absolute_requested]
    split
    · decide
    · exact h.named _ hnormal

/-- Showing what a client asks for comes to the same over both trees, whatever
site the exchange is in, and no page follows. -/
theorem visit_protecting {s : Site} {names : List String} {files others : FileTree} {path : String}
    (hnames : ∀ t ∈ names, IsSegment t) (hne : names ≠ [])
    (hagree : AgreeOutside names files others) (havoids : s.AvoidsHandlers path)
    (iterations : Nat) :
    let shown := (s.protecting names files).visit iterations path true
    shown = (s.protecting names others).visit iterations path true ∧ SiteBlind shown ∧
      ∀ ex next ex', shown ex ≠ .ok (.forward next) ex' := by
  intro shown
  have hroute : (s.protecting names files).route path true =
      (s.protecting names others).route path true :=
    route_congr (s.protecting names files) (s.protecting names others) rfl rfl path true
  have hshown : shown = (s.protecting names files).visit iterations path true := rfl
  rw [hshown, visit, visit, ← hroute]
  cases htarget : (s.protecting names files).route path true with
  | error e => exact ⟨rfl, fun _ => .throw _, by rintro _ _ _ ⟨⟩⟩
  | ok t =>
    rw [route_eq] at htarget
    by_cases hup : ".." ∈ segments path
    · rw [if_pos hup] at htarget
      cases htarget
    rw [if_neg hup, Bool.true_and] at htarget
    split at htarget
    · cases htarget
    · next hopen =>
      -- the path is open, so the trees have the same there
      have houtside : ¬ names <+: requested path := by
        have hcanonical := isCanonical_absolute hnames hne
        rwa [hcanonical.isInternal_iff rfl (fun _ => isSegment_of_mem_requested)
          (requested_ne_nil path), segments_absolute hnames] at hopen
      have hfile : t.IsFile (requested path) := havoids.isFile hup htarget
      have hcontent : (s.protecting names files).files.file? (requested path) =
          (s.protecting names others).files.file? (requested path) := hagree.file?_eq houtside
      have hsame : (s.protecting names files).serve iterations t =
          (s.protecting names others).serve iterations t := hfile.serve_eq hcontent rfl iterations
      exact ⟨hsame, hfile.siteBlind_serve _ _,
        fun ex next ex' => hfile.ne_forward _ _ next ex ex'⟩

/-- Whatever stands at or below a canonical internal prefix, a client that asks
for a path of no handler has the same result and is left with the same exchange,
of which the site is the only part that may differ. -/
theorem dispatch_blind_to_private_files (s : Site) (names : List String)
    (files others : FileTree) (path : String) (bounds : Bounds) (ex : Exchange)
    (here there : Option Site) (hnames : ∀ t ∈ names, IsSegment t) (hne : names ≠ [])
    (hagree : AgreeOutside names files others) (havoids : s.AvoidsHandlers path) :
    let first := (s.protecting names files).dispatch bounds path true (ex.attach here)
    let second := (s.protecting names others).dispatch bounds path true (ex.attach there)
    endResult second = endResult first ∧ endState second = (endState first).attach there := by
  intro first second
  have hsecond : second = mapState (Exchange.attach there) first := by
    cases hpages : bounds.pages with
    | zero => simp only [first, second, dispatch, hpages]; rfl
    | succ pages =>
      obtain ⟨hsame, hblind, hlast⟩ :=
        visit_protecting hnames hne hagree havoids bounds.iterations
      have hlast' := hlast
      rw [hsame] at hlast'
      simp only [first, second, dispatch, hpages, dispatchWithin_eq_visit hlast,
        dispatchWithin_eq_visit hlast', ← hsame]
      have hanswer := Commutes.bind (hblind there) fun _ => .pure ()
      exact hanswer (ex.attach here)
  rw [hsecond]
  exact ⟨endResult_mapState _ _, endState_mapState _ _⟩

/-- A file in the root is sent beside private files of which some differ and some are
in one of the trees only. -/
theorem dispatch_public_file_beside_private :
    let notes : Bytes := [104, 105, 10, 0, 255]
    let shared : List (List String × Entry) := [(["notes.txt"], .file notes)]
    let secret (content : Bytes) := (["private", "secret.txt"], Entry.file content)
    let key := (["private", "keys", "a.pem"], Entry.file notes)
    let files : FileTree := .ofList (secret [1] :: shared)
    let others : FileTree := .ofList (secret [2, 3] :: key :: shared)
    let site : Site := { ofFiles "" .empty .standard "" with
      workers := .ofList [("/index.html", .home)] }
    let ex : Exchange := .start .unlimited .empty .empty [] none
    let path := "/./notes.txt"
    let head := "HTTP/1.1 200 OK\r\nContent-Type: text/plain; charset=UTF-8\r\n" ++
      "Content-Length: 5\r\n\r\n"
    let first := (site.protecting ["private"] files).dispatch ⟨0, 1⟩ path true (ex.attach none)
    let second := (site.protecting ["private"] others).dispatch ⟨0, 1⟩ path true (ex.attach site)
    AgreeOutside ["private"] files others ∧
      files.file? ["private", "secret.txt"] ≠ others.file? ["private", "secret.txt"] ∧
      endResult first = .ok () ∧
      (endState (Exchange.finish (endState first))).sink.received =
        Text.utf8Bytes head ++ notes ∧
      endResult second = endResult first ∧ endState second = (endState first).attach site := by
  intro notes shared secret key files others site ex path head first second
  have hagree : AgreeOutside ["private"] files others := by
    have hfiles : ∀ e ∈ [secret [1]], ["private"] <+: e.1 := by decide
    have hothers : ∀ e ∈ [secret [2, 3], key], ["private"] <+: e.1 := by decide
    intro path hpath
    exact (agreeOutside_append hfiles shared path hpath).trans
      (agreeOutside_append hothers shared path hpath).symm
  have havoids : site.AvoidsHandlers path := by
    have hnormal : normalize? path = some "/notes.txt" := by decide
    constructor <;>
    · intro p hp
      rw [hnormal] at hp
      cases hp
      decide
  have hdiffer : files.file? ["private", "secret.txt"] ≠
      others.file? ["private", "secret.txt"] := by decide
  have hserved : endResult first = .ok () := by decide +kernel
  have hreceived : (endState (Exchange.finish (endState first))).sink.received =
      Text.utf8Bytes head ++ notes := by decide +kernel
  exact ⟨hagree, hdiffer, hserved, hreceived,
    dispatch_blind_to_private_files site ["private"] files others path ⟨0, 1⟩ ex none site
      (by decide) (by decide) hagree havoids⟩

/-! ### The page of a handler -/

def homeNames : List String := ["private", "pages", "home.smscr"]

/-- The tree of an empty page that a handler leads to. -/
def homeTree : FileTree := .ofList [(homeNames, .file [])]

theorem agreeOutside_homeTree : AgreeOutside ["private"] homeTree .empty := by
  have hprivate : ∀ e ∈ [(homeNames, Entry.file [])], ["private"] <+: e.1 := by decide
  rw [← FileTree.ofList_nil]
  exact agreeOutside_append hprivate []

theorem readTemplate_homeTree (s : Site) (path : String) :
    (s.protecting ["private"] homeTree).readTemplate homeNames path = .ok ⟨[]⟩ := by
  have hcontent : homeTree.file? homeNames = some [] := by decide
  have htext : Text.ofUtf8? [] = some "" := by decide
  have hparse : Template.parse "" = .ok ⟨[]⟩ := by
    have hend : (Template.Scanner.ofChars "".toList).drain = ⟨[.endOfInput], none⟩ :=
      Template.Scanner.drain_of_end rfl rfl
    rw [Template.parse, Template.tokens, hend]
    rfl
  simp only [readTemplate, protecting, hcontent, htext, hparse]
  rfl

/-- The path of a slash is its own canonical form and stands for the index, where
a handler may be that leads to a private page. -/
theorem index_handler_shows_private_page :
    let site : Site := ⟨"", .empty, ⟨.empty⟩, .ofList [("/index.html", .home)], ""⟩
    let ex : Exchange := .start .unlimited .empty .empty [] none
    let answer (files : FileTree) :=
      let site := site.protecting ["private"] files
      site.dispatch ⟨0, 2⟩ "/" true (ex.attach site)
    AgreeOutside ["private"] homeTree .empty ∧
      normalize? "/" = some "/" ∧ site.workers.get? "/" = none ∧
      Text.strip? handlerPrefix.toList "/".toList = none ∧
      endResult (answer homeTree) = .ok () ∧
      endResult (answer .empty) = .error (.failed (.notFound "/private/pages/home.smscr")) := by
  intro site ex answer
  have hsame (files : FileTree) (path : String) (direct : Bool) :
      (site.protecting ["private"] files).route path direct =
        (site.protecting ["private"] .empty).route path direct :=
    route_congr (site.protecting ["private"] files) (site.protecting ["private"] .empty) rfl rfl
      path direct
  have hindex (files : FileTree) :
      (site.protecting ["private"] files).route "/" true = .ok (.handler .home "/index.html") :=
    (hsame files "/" true).trans (by decide)
  have hhome (files : FileTree) :
      (site.protecting ["private"] files).route Handler.homePage false =
        .ok (.template homeNames Handler.homePage) :=
    (hsame files Handler.homePage false).trans (by decide)
  have hpage (files : FileTree) : ∃ ex', answer files =
      dispatchWithin 0 1 (site.protecting ["private"] files) Handler.homePage false ex' := by
    refine ⟨(ex.attach (site.protecting ["private"] files)).setTemporary "background"
      Handler.defaultColor, ?_⟩
    simp only [answer, dispatch]
    rw [dispatchWithin_succ, visit, hindex]
    rfl
  refine ⟨agreeOutside_homeTree, by decide, by decide, by decide, ?_, ?_⟩
  · obtain ⟨ex', hanswer⟩ := hpage homeTree
    rw [hanswer, dispatchWithin_succ, visit, hhome]
    simp only [serve, readTemplate_homeTree]
    rfl
  · obtain ⟨ex', hanswer⟩ := hpage .empty
    rw [hanswer, dispatchWithin_succ, visit, hhome]
    rfl

end PageServer.Site
