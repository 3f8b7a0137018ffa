import PageServer.Proofs.Site.InternalPrefix

/-!
# Paths below the document root

The canonical form of a URL path and the file it stands for are found by two
walks over its components. Both refuse just the paths with a segment `..` and
keep the same segments, so the canonical form stands for the file of the path
itself: the document root, and below it these segments.
-/

namespace PageServer.Site

/-! ### The canonical form -/

theorem spelled_cons_eq (s : String) (names : List String) :
    spelled (s :: names) = '/' :: ['/'].intercalate ((s :: names).map String.toList) := by
  induction names generalizing s with
  | nil => simp [spelled]
  | cons t names ih =>
    have hjoin : ['/'].intercalate ((s :: t :: names).map String.toList) =
        s.toList ++ ['/'] ++ ['/'].intercalate ((t :: names).map String.toList) :=
      List.intercalate_cons_cons
    rw [spelled_cons, ih, hjoin, List.append_assoc]
    rfl

theorem absolute_eq (names : List String) : absolute names = "/" ++ "/".intercalate names := by
  cases names with
  | nil => rfl
  | cons s names =>
    rw [← String.toList_inj, toList_absolute (List.cons_ne_nil s names), spelled_cons_eq,
      String.toList_append, String.toList_intercalate]
    rfl

/-- The segments of a path are what stands between its slashes, less what says
nothing. -/
theorem segments_eq (path : String) :
    segments path =
      ((path.toList.splitOn '/').map String.ofList).filter fun t => t ≠ "" ∧ t ≠ "." := by
  rw [segments, segmentsOf, Text.splitAt, Text.splitBy_eq_splitOnP, ← List.splitOn_eq_splitOnP]
  induction path.toList.splitOn '/' with
  | nil => rfl
  | cons w ws ih =>
    have hkept : String.ofList w ≠ "" ∧ String.ofList w ≠ "." ↔ ¬(w = [] ∨ w = ['.']) := by
      simp [← String.toList_inj]
    rw [List.filterMap_cons, List.map_cons, List.filter_cons, ih, segment?]
    simp only [decide_eq_true_eq, hkept]
    by_cases hw : w = [] ∨ w = ['.'] <;> simp [hw]

theorem up_mem_segments_iff (path : String) :
    ".." ∈ segments path ↔ ".." ∈ (path.toList.splitOn '/').map String.ofList := by
  have hkept : ".." ≠ "" ∧ ".." ≠ "." := by decide
  rw [segments_eq, List.mem_filter, decide_eq_true hkept]
  exact and_iff_left rfl

theorem normalize?_eq (path : String) :
    normalize? path = if ".." ∈ segments path then none else some (absolute (segments path)) := by
  rw [normalize?, names?_components]
  split <;> rfl

theorem absolute_ne_slash {names : List String} (h : ∀ t ∈ names, IsSegment t)
    (hne : names ≠ []) : absolute names ≠ "/" := by
  intro hslash
  have hsegments := segments_absolute h
  rw [hslash] at hsegments
  exact hne hsegments.symm

/-- A path without names stands for the index. -/
theorem absolute_requested (path : String) :
    absolute (requested path) =
      if absolute (segments path) = "/" then "/index.html" else absolute (segments path) := by
  rw [requested]
  split
  · next hnil =>
    rw [hnil]
    decide
  · next hne => rw [if_neg (absolute_ne_slash (fun _ => isSegment_of_mem) hne)]

/-- The canonical form of a path says what the path does. -/
theorem segments_of_normalize? {path normal : String} (h : normalize? path = some normal) :
    segments normal = segments path := by
  rw [normalize?_eq] at h
  obtain ⟨-, hnormal⟩ := Option.ite_none_left_eq_some.mp h
  rw [← Option.some.inj hnormal, segments_absolute fun _ => isSegment_of_mem]

theorem normalize?_bind_normalize? (path : String) :
    (normalize? path).bind normalize? = normalize? path := by
  cases hnormal : normalize? path with
  | none => rfl
  | some normal =>
    rw [Option.bind_some, normalize?_eq, segments_of_normalize? hnormal, ← normalize?_eq, hnormal]

/-! ### The file -/

/-- What stands between a root and a name below it. -/
def separator (root : String) : String :=
  if root = "" ∨ root.toList.getLast? = some '/' then "" else "/"

/-- The path of these names below a root. -/
def under (root : String) (names : List String) : String :=
  if names = [] then root else root ++ separator root ++ "/".intercalate names

theorem below_eq (root s : String) : below root s = root ++ separator root ++ s := by
  rw [below, separator]
  cases hlast : root.toList.getLast? with
  | none =>
    have hempty : root = "" := String.toList_eq_nil_iff.mp (List.getLast?_eq_none_iff.mp hlast)
    simp [hempty]
  | some c =>
    have hne : root ≠ "" := by
      rintro rfl
      cases hlast
    by_cases hc : c = '/' <;> simp [hc, hne]

theorem separator_below {s : String} (hs : IsSegment s) (root : String) :
    separator (below root s) = "/" := by
  have hword : s.toList ≠ [] := mt String.toList_eq_nil_iff.mp hs.ne_empty
  have hlast : (below root s).toList.getLast? = s.toList.getLast? := by
    rw [below_eq, String.toList_append, List.getLast?_append_of_ne_nil _ hword]
  have hfull : below root s ≠ "" := by
    intro hempty
    rw [hempty] at hlast
    exact hword (List.getLast?_eq_none_iff.mp hlast.symm)
  have hopen : (below root s).toList.getLast? ≠ some '/' := by
    rw [hlast]
    exact fun hslash => hs.slashFree (List.mem_of_getLast? hslash)
  rw [separator, if_neg (not_or.mpr ⟨hfull, hopen⟩)]

theorem segments_below {s : String} (hs : IsSegment s) (root : String) :
    segments (below root s) = segments root ++ [s] := by
  rw [below_eq, separator, segments, segments, String.toList_append, String.toList_append,
    ← segmentsOf_segment hs]
  split
  · next hopen =>
    rcases hopen with rfl | hslash
    · rfl
    · obtain ⟨front, hfront⟩ := List.getLast?_eq_some_iff.mp hslash
      have hroot : segmentsOf (front ++ ['/']) = segmentsOf front := by
        rw [segmentsOf_append_slash]
        exact List.append_nil _
      rw [hfront, hroot, ← segmentsOf_append_slash]
      simp
  · rw [← segmentsOf_append_slash]
    simp

theorem segments_foldl_below {names : List String} (h : ∀ s ∈ names, IsSegment s) (root : String) :
    segments (names.foldl below root) = segments root ++ names := by
  induction names generalizing root with
  | nil => exact (List.append_nil _).symm
  | cons s names ih =>
    rw [List.foldl_cons, ih fun t ht => h t (List.mem_cons_of_mem s ht),
      segments_below (h s List.mem_cons_self), List.append_assoc]
    rfl

theorem foldl_below {names : List String} (h : ∀ s ∈ names, IsSegment s) (root : String) :
    names.foldl below root = under root names := by
  induction names generalizing root with
  | nil => rfl
  | cons s names ih =>
    rw [List.foldl_cons, ih fun t ht => h t (List.mem_cons_of_mem s ht), under, under,
      separator_below (h s List.mem_cons_self), below_eq, if_neg (List.cons_ne_nil s names)]
    split
    · next hnil => rw [hnil, String.intercalate_singleton]
    · next hne =>
      rw [String.intercalate_cons_of_ne_nil hne]
      simp only [String.append_assoc]

theorem descend?_eq (root : String) (cs : List Component) :
    descend? root cs = (names? cs).map fun names => names.foldl below root := by
  induction cs generalizing root with
  | nil => rfl
  | cons c cs ih =>
    cases c with
    | here => exact ih root
    | up => rfl
    | name s =>
      rw [descend?, names?, ih, Option.map_map]
      rfl

theorem locate?_eq (root path : String) :
    locate? root path =
      if ".." ∈ segments path then none else some (under root (segments path)) := by
  rw [locate?, descend?_eq, names?_components]
  by_cases hup : ".." ∈ segments path
  · rw [if_pos hup, if_pos hup]
    rfl
  · rw [if_neg hup, if_neg hup, Option.map_some, foldl_below fun _ => isSegment_of_mem]

/-! ### Both -/

theorem locate?_eq_none_iff (root path : String) :
    locate? root path = none ↔ normalize? path = none := by
  rw [locate?_eq, normalize?_eq]
  split <;> simp

theorem normalize?_bind_locate? (root path : String) :
    (normalize? path).bind (locate? root) = locate? root path := by
  cases hnormal : normalize? path with
  | none => exact ((locate?_eq_none_iff root path).mpr hnormal).symm
  | some normal =>
    rw [Option.bind_some, locate?_eq, segments_of_normalize? hnormal, ← locate?_eq]

/-- Why a path is not answered at all, with the path that is shown. -/
inductive Refusal where
  /-- The path has no canonical form. -/
  | climbs (path : String)
  | internal (path : String)
  /-- The path stands for no file below the document root. -/
  | misplaced (path : String)
  deriving DecidableEq, Repr

def Refusal.path : Refusal → String
  | climbs path | internal path | misplaced path => path

/-- The checks of a path one after the other: it has a canonical form, clients may
ask for it, and the canonical form stands for a file. Both forms are kept. -/
def examine (s : Site) (path : String) (direct : Bool) : Except Refusal (String × String) :=
  match normalize? path with
  | none => .error (.climbs path)
  | some normal =>
    let normal := if normal = "/" then absolute indexNames else normal
    if direct && s.isInternal normal then .error (.internal normal)
    else
      match locate? s.root normal with
      | none => .error (.misplaced normal)
      | some file => .ok (normal, file)

theorem up_mem_requested_iff (path : String) :
    ".." ∈ requested path ↔ ".." ∈ segments path := by
  rw [requested]
  split
  · next hnil =>
    rw [hnil]
    decide
  · rfl

/-- A path that has a canonical form is never misplaced. -/
theorem examine_eq (s : Site) (path : String) (direct : Bool) :
    s.examine path direct =
      if ".." ∈ segments path then .error (.climbs path)
      else if direct && s.isInternal (absolute (requested path)) then
        .error (.internal (absolute (requested path)))
      else .ok (absolute (requested path), under s.root (requested path)) := by
  have hindex : absolute indexNames = "/index.html" := by decide
  rw [examine, normalize?_eq]
  by_cases hup : ".." ∈ segments path
  · rw [if_pos hup, if_pos hup]
  · have hfile : locate? s.root (absolute (requested path)) =
        some (under s.root (requested path)) := by
      rw [locate?_eq, segments_absolute fun _ => isSegment_of_mem_requested,
        if_neg (mt (up_mem_requested_iff path).mp hup)]
    rw [if_neg hup, if_neg hup]
    simp only [hindex, ← absolute_requested, hfile]

theorem route_eq_examine (s : Site) (path : String) (direct : Bool) :
    s.route path direct =
      match s.examine path direct with
      | .error r => .error (.forbidden r.path)
      | .ok _ => s.lead (requested path) := by
  rw [route_eq, examine_eq]
  split
  · rfl
  split <;> rfl

theorem not_misplaced (s : Site) (path : String) (direct : Bool) (shown : String) :
    s.examine path direct ≠ .error (.misplaced shown) := by
  rw [examine_eq]
  split
  · nofun
  split <;> nofun

/-- A path has no canonical form, and stands for no file, exactly if a segment of it
is `..`. Else its canonical form is a slash before each of its segments, and both
forms stand for one file, the document root with these segments below it. So what
may be asked for always stands for a file, and no path is refused for want of one. -/
theorem paths_stay_below_root (s : Site) (path : String) (direct : Bool) :
    let parts := (path.toList.splitOn '/').map String.ofList
    let names := parts.filter fun t => t ≠ "" ∧ t ≠ "."
    let wanted := if names = [] then indexNames else names
    normalize? path = (if ".." ∈ parts then none else some ("/" ++ "/".intercalate names)) ∧
    (normalize? path).bind normalize? = normalize? path ∧
    (locate? s.root path = none ↔ normalize? path = none) ∧
    locate? s.root path = (if ".." ∈ parts then none else some (under s.root names)) ∧
    (normalize? path).bind (locate? s.root) = locate? s.root path ∧
    (∀ t ∈ names, IsSegment t) ∧ (".." ∈ names ↔ ".." ∈ parts) ∧
    segments (under s.root names) = segments s.root ++ names ∧
    (∀ shown, s.examine path direct ≠ .error (.misplaced shown)) ∧
    s.examine path direct =
      (if ".." ∈ parts then .error (.climbs path)
      else if direct && s.isInternal (absolute wanted) then .error (.internal (absolute wanted))
      else .ok (absolute wanted, under s.root wanted)) ∧
    s.route path direct =
      (match s.examine path direct with
      | .error r => .error (.forbidden r.path)
      | .ok _ => s.lead wanted) := by
  intro parts names wanted
  have hnames : names = segments path := (segments_eq path).symm
  have hwanted : wanted = requested path := by rw [requested, ← hnames]
  have hup : ".." ∈ names ↔ ".." ∈ parts := by
    rw [hnames]
    exact up_mem_segments_iff path
  have hsegments : ∀ t ∈ names, IsSegment t := by
    rw [hnames]
    exact fun _ => isSegment_of_mem
  have hbelow : segments (under s.root names) = segments s.root ++ names := by
    rw [← foldl_below hsegments, segments_foldl_below hsegments]
  have hnormal := normalize?_eq path
  rw [absolute_eq] at hnormal
  have hfile := locate?_eq s.root path
  have hexamined := examine_eq s path direct
  have hroute := route_eq_examine s path direct
  simp only [← hnames, ← hwanted, hup] at hnormal hfile hexamined hroute
  exact ⟨hnormal, normalize?_bind_normalize? path, locate?_eq_none_iff s.root path, hfile,
    normalize?_bind_locate? s.root path, hsegments, hup, hbelow,
    not_misplaced s path direct, hexamined, hroute⟩

example : normalize? "a/.//..b/.../." = some "/a/..b/..." ∧
    locate? "/srv/" "a/.//..b/.../." = some "/srv/a/..b/..." := by
  decide

end PageServer.Site
