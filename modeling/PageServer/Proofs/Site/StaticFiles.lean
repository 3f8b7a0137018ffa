import PageServer.Proofs.Exchange.FileSending
import PageServer.Proofs.Exchange.HeadLines
import PageServer.Proofs.Site.TemplateSources

/-!
# Files that are sent as they are

A file whose path leads neither to a handler nor to a template is found by every
spelling of the path. It arrives after a head that gives its type and its length,
and of its bytes none is changed, added or left out.
-/

namespace PageServer.Site

open Exchange (start finish)
open Response (Head IsPlain)
open Text (IsLatin1 latin1Bytes ofLatin1)

/-! ### Paths of files -/

/-- The path of these names leads to a file that clients are sent as it is. -/
structure IsSent (s : Site) (names : List String) (ext : String) (content : Bytes) : Prop where
  file : s.files.file? names = some content
  extension : names.getLast?.bind extension? = some ext
  unmounted : s.workers.get? (absolute names) = none
  notTemplate : ¬ templateEnding.toList <:+ (absolute names).toList
  notHandler : ¬ handlerPrefix.toList <+: (absolute names).toList
  notInternal : s.isInternal (absolute names) = false

namespace IsSent

variable {s : Site} {names : List String} {ext : String} {content : Bytes}

theorem staticFile_eq (h : s.IsSent names ext content) :
    s.staticFile names = .ok ⟨names, s.mimeTypes.get ext, content⟩ := by
  simp only [staticFile, h.file, h.extension]

theorem lead_eq (h : s.IsSent names ext content) :
    s.lead names = .ok (.staticFile names (absolute names)) := by
  have hending : ¬ endsIn templateEnding (absolute names) = true :=
    mt (endsIn_iff _ _).mp h.notTemplate
  have hhandler : Text.strip? handlerPrefix.toList (absolute names).toList = none := by
    rw [← Option.not_isSome_iff_eq_none, Text.isSome_strip?_iff]
    exact h.notHandler
  simp only [lead, h.unmounted, if_neg hending, hhandler]

theorem route_eq (h : s.IsSent names ext content) {path : String} (hup : ".." ∉ segments path)
    (hpath : requested path = names) (direct : Bool) :
    s.route path direct = .ok (.staticFile names (absolute names)) := by
  rw [Site.route_eq, if_neg hup, hpath, h.notInternal, Bool.and_false, if_neg Bool.false_ne_true,
    h.lead_eq]

/-- Every spelling of the path has the file sent. -/
theorem dispatch_of_sendFile (h : s.IsSent names ext content) {path : String}
    (hup : ".." ∉ segments path) (hpath : requested path = names) (direct : Bool)
    {bounds : Bounds} (hpages : bounds.pages ≠ 0) {ex sent : Exchange}
    (hsent : Exchange.sendFile ⟨names, s.mimeTypes.get ext, content⟩ ex = .ok () sent) :
    s.dispatch bounds path direct ex = .ok () sent := by
  obtain ⟨pages, hsucc⟩ := Nat.exists_eq_succ_of_ne_zero hpages
  rw [dispatch, hsucc, dispatchWithin_succ, visit, h.route_eq hup hpath]
  simp only [serve, h.staticFile_eq, bind_apply, EStateM.adaptExcept, hsent]
  rfl

end IsSent

/-! ### Heads of files -/

/-- The lines that announce a file of this type and size. -/
def fileLines (type : String) (size : Nat) : List String :=
  ["HTTP/1.1 200 OK",
    "Content-Type: " ++ (type ++
      if "text/".toList <+: type.toList then "; charset=UTF-8" else ""),
    "Content-Length: " ++ Decimal.natText size]

theorem contentType_eq (h : Head) :
    h.contentType = h.mimeType ++
      if "text/".toList <+: h.mimeType.toList then "; charset=" ++ h.encoding.label else "" := by
  rw [Head.contentType]
  simp only [Text.isSome_strip?_iff]
  split
  · rw [String.append_assoc]
  · exact String.append_empty.symm

theorem lines_announcing {f : StaticFile} (hsize : f.content.length < UInt64.size) (sink : Sink)
    (query persistent : Params) (site : Option Site) :
    (Exchange.announcing f (start sink query persistent [] site)).head.lines =
      fileLines f.mimeType f.content.length := by
  have hlength : (UInt64.ofNat f.content.length).toNat = f.content.length :=
    UInt64.toNat_ofNat_of_lt' hsize
  have hstatus : "HTTP/1.1 " ++ Decimal.natText (200 : UInt16).toNat ++ " " ++ "OK" =
      "HTTP/1.1 200 OK" := by decide
  have hutf8 : "; charset=" ++ Text.Encoding.utf8.label = "; charset=UTF-8" := by decide
  rw [Head.lines, contentType_eq]
  change ["HTTP/1.1 " ++ Decimal.natText (200 : UInt16).toNat ++ " " ++ "OK",
    "Content-Type: " ++ (f.mimeType ++
      if "text/".toList <+: f.mimeType.toList then "; charset=" ++ Text.Encoding.utf8.label else ""),
    "Content-Length: " ++ Decimal.natText (UInt64.ofNat f.content.length).toNat] = _
  rw [hstatus, hutf8, hlength, fileLines]

theorem isClean_announcing {f : StaticFile} (hmime : IsPlain f.mimeType) (sink : Sink)
    (query persistent : Params) (site : Option Site) :
    (Exchange.announcing f (start sink query persistent [] site)).head.IsClean where
  reason := by
    change IsPlain "OK"
    decide
  mimeType := hmime
  cookies := fun _ hc => absurd hc List.not_mem_nil

/-! ### What can be read back -/

theorem ofLatin1_latin1Bytes_eq_iff {s : String} :
    ofLatin1 (latin1Bytes s) = s.toList ↔ IsLatin1 s := by
  refine ⟨?_, Text.ofLatin1_of_isLatin1⟩
  intro h c hc
  have hkept : s.toList.map Text.latin1Char = s.toList.map id := by
    rw [← Text.ofLatin1_latin1Bytes, h, List.map_id]
  have hsame : Text.latin1Char c = c := List.map_inj_left.mp hkept c hc
  by_contra hbig
  rw [Text.latin1Char, if_neg hbig] at hsame
  exact hbig (hsame ▸ by decide)

theorem isLatin1_append {s t : String} : IsLatin1 (s ++ t) ↔ IsLatin1 s ∧ IsLatin1 t := by
  simp only [IsLatin1, String.toList_append, List.mem_append, or_imp, forall_and]

/-- The head of a file can be read back just if the type of the file can. -/
theorem readable_fileLines_iff {type : String} {size : Nat} :
    (∀ l ∈ fileLines type size, ofLatin1 (latin1Bytes l) = l.toList) ↔ IsLatin1 type := by
  have hstatus : IsLatin1 "HTTP/1.1 200 OK" := by decide
  have hcharset : IsLatin1 (if "text/".toList <+: type.toList then "; charset=UTF-8" else "") := by
    split <;> decide
  have htype : IsLatin1 "Content-Type: " := by decide
  have hlength : IsLatin1 "Content-Length: " := by decide
  simp only [ofLatin1_latin1Bytes_eq_iff, fileLines, List.forall_mem_cons, isLatin1_append,
    hstatus, htype, hcharset, hlength, Response.isLatin1_natText, true_and, and_true,
    List.not_mem_nil, false_imp_iff, implies_true]

/-! ### Arrival -/

/-- All that comes of a file: its head and then its bytes. -/
theorem IsSent.arrives {s : Site} {names : List String} {ext : String} {content : Bytes}
    (hsent : s.IsSent names ext content) {path : String} (hup : ".." ∉ segments path)
    (hpath : requested path = names) (hsize : content.length < UInt64.size)
    (hmime : IsPlain (s.mimeTypes.get ext)) {bounds : Bounds} (hpages : bounds.pages ≠ 0)
    (query persistent : Params) (site : Option Site) :
    ∃ sent done,
      s.dispatch bounds path true (start .unlimited query persistent [] site) = .ok () sent ∧
      finish sent = .ok () done ∧
      done.sink.received =
        Request.block ((fileLines (s.mimeTypes.get ext) content.length).map latin1Bytes) ++
          content := by
  let file : StaticFile := ⟨names, s.mimeTypes.get ext, content⟩
  have htakes := Exchange.takesAll_start query persistent [] site
  have hplain : IsPlain file.mimeType := hmime
  obtain ⟨sent, hsendFile, htaken, hcompleted⟩ := htakes.sendFile_completed rfl hplain
  refine ⟨sent, sent.headSent, ?_, htaken.finish_eq, ?_⟩
  · exact hsent.dispatch_of_sendFile hup hpath true hpages hsendFile
  · rw [Exchange.completed, Exchange.after_eq_endState, htaken.finish_eq, Head.bytes_eq_block,
      lines_announcing hsize] at hcompleted
    exact hcompleted

/-- Whatever bytes a file has and however its path is spelled, a client that asks for
it in a new exchange gets a head of three unbroken lines, for success, the type by
the extension and the number of the bytes, and then these bytes. The lines can be
read back exactly if the type is in the characters that a head can say; for any
other character there is a question mark. -/
theorem static_file_arrives_intact {s : Site} {names : List String} {ext : String}
    {content : Bytes} (hsent : s.IsSent names ext content) {path : String}
    (hup : ".." ∉ segments path) (hpath : requested path = names)
    (hsize : content.length < UInt64.size) (hmime : IsPlain (s.mimeTypes.get ext))
    (bounds : Bounds) (hpages : bounds.pages ≠ 0) (query persistent : Params)
    (site : Option Site) :
    let type := (s.mimeTypes.types.get? (Text.lower ext)).getD "application/octet-stream"
    let lines := fileLines type content.length
    (∃ sent done, s.dispatch bounds path true (start .unlimited query persistent [] site) =
        .ok () sent ∧
      finish sent = .ok () done ∧
      done.sink.received = Request.block (lines.map latin1Bytes) ++ content) ∧
    (∀ l ∈ lines.map latin1Bytes, Request.IsLine l) ∧
    ((∀ l ∈ lines, ofLatin1 (latin1Bytes l) = l.toList) ↔ IsLatin1 type) := by
  intro type lines
  refine ⟨hsent.arrives hup hpath hsize hmime hpages query persistent site, ?_,
    readable_fileLines_iff⟩
  let file : StaticFile := ⟨names, type, content⟩
  have hhead := lines_announcing (f := file) hsize .unlimited query persistent site
  have hclean := isClean_announcing (f := file) hmime .unlimited query persistent site
  change ∀ l ∈ (fileLines file.mimeType file.content.length).map latin1Bytes, Request.IsLine l
  rw [← hhead, Head.map_lines]
  exact hclean.isLine

theorem shouted_notes_arrive :
    let content : Bytes := [13, 10, 0, 255]
    let s := ofFiles "" (.ofList [(["notes", "A.TXT"], .file content)]) .standard
      defaultInternalPrefix
    let path := "/./notes//A.TXT"
    s.IsSent ["notes", "A.TXT"] "TXT" content ∧ ".." ∉ segments path ∧
      requested path = ["notes", "A.TXT"] ∧ content.length < UInt64.size ∧
      IsPlain (s.mimeTypes.get "TXT") ∧
      ∃ sent done,
        s.dispatch ⟨0, 1⟩ path true (start .unlimited .empty .empty [] none) = .ok () sent ∧
        finish sent = .ok () done ∧
        done.sink.received = Request.block
          [latin1Bytes "HTTP/1.1 200 OK", latin1Bytes "Content-Type: text/plain; charset=UTF-8",
            latin1Bytes "Content-Length: 4"] ++ content := by
  intro content s path
  have hsent : s.IsSent ["notes", "A.TXT"] "TXT" content := by
    constructor <;> decide
  have hup : ".." ∉ segments path := by decide
  have hpath : requested path = ["notes", "A.TXT"] := by decide
  have hsize : content.length < UInt64.size := by decide
  have hmime : IsPlain (s.mimeTypes.get "TXT") := by decide +kernel
  obtain ⟨⟨sent, done, hdispatch, hfinish, hreceived⟩, -⟩ :=
    static_file_arrives_intact hsent hup hpath hsize hmime ⟨0, 1⟩ (by decide) .empty .empty none
  have hlines : (fileLines (s.mimeTypes.get "TXT") content.length).map latin1Bytes =
      [latin1Bytes "HTTP/1.1 200 OK", latin1Bytes "Content-Type: text/plain; charset=UTF-8",
        latin1Bytes "Content-Length: 4"] := by
    decide +kernel
  refine ⟨hsent, hup, hpath, hsize, hmime, sent, done, hdispatch, hfinish, ?_⟩
  rw [← hlines]
  exact hreceived

/-- A euro sign in a type is sent as a question mark, and a file that is itself the
internal prefix is not sent, though it is not below the prefix. -/
theorem euro_type_replaced_and_prefix_refused :
    let content := Text.utf8Bytes "hello"
    let first := start .unlimited .empty .empty [] none
    let euro := ofFiles "" (.ofList [(["a.txt"], .file content)]) (.ofEntries [("txt", "text/€")])
      defaultInternalPrefix
    let asked := "HTTP/1.1 200 OK\r\nContent-Type: text/€; charset=UTF-8\r\n" ++
      "Content-Length: 5\r\n\r\nhello"
    let secret := ofFiles "" (.ofList [(["secret.txt"], .file content)]) .standard "/secret.txt"
    (euro.IsSent ["a.txt"] "txt" content ∧ euro.mimeTypes.get "txt" = "text/€" ∧
      ∃ sent done, euro.dispatch ⟨0, 1⟩ "/./a.txt" true first = .ok () sent ∧
        finish sent = .ok () done ∧
        done.sink.received ≠ Text.utf8Bytes asked ∧ ofLatin1 done.sink.received ≠ asked.toList) ∧
    (secret.files.file? ["secret.txt"] = some content ∧ extension? "secret.txt" = some "txt" ∧
      secret.workers.get? "/secret.txt" = none ∧ absolute ["secret.txt"] = "/secret.txt" ∧
      ¬ (secret.internalPrefix ++ "/").toList <+: "/secret.txt".toList ∧
      secret.dispatch ⟨0, 1⟩ "/secret.txt" true first =
        .error (.failed (.forbidden "/secret.txt")) first) := by
  intro content first euro asked secret
  have hsent : euro.IsSent ["a.txt"] "txt" content := by
    constructor <;> decide
  have htype : euro.mimeTypes.get "txt" = "text/€" := by decide +kernel
  have hmime : IsPlain (euro.mimeTypes.get "txt") := by
    rw [htype]
    decide
  have hup : ".." ∉ segments "/./a.txt" := by decide
  have hpath : requested "/./a.txt" = ["a.txt"] := by decide
  have hsize : content.length < UInt64.size := by decide
  have hpages : (⟨0, 1⟩ : Bounds).pages ≠ 0 := by decide
  refine ⟨⟨hsent, htype, ?_⟩, by decide, by decide, by decide, by decide, by decide, ?_⟩
  · obtain ⟨sent, done, hdispatch, hfinish, hreceived⟩ :=
      hsent.arrives hup hpath hsize hmime hpages .empty .empty none
    refine ⟨sent, done, hdispatch, hfinish, ?_⟩
    rw [hreceived, htype]
    decide +kernel
  · have hroute : secret.route "/secret.txt" true = .error (.forbidden "/secret.txt") := by decide
    exact dispatch_of_route_error hroute hpages first

end PageServer.Site
