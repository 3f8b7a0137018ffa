import PageServer.Proofs.Exchange.Accepted
import PageServer.Proofs.Response.Markup
import PageServer.Site.Page

/-!
# Values in pages

The pages that handlers write themselves and the error pages are templates with
places for values. Which template it is depends on the branch that was taken, and
what is put in its places is no markup. So no value adds a bracket to a page or
takes one away.
-/

namespace PageServer.Site

open Response (IsInert brackets escapeMarkup unescape)

/-! ### Templates -/

/-- What is put in a place of a template. -/
inductive Part where
  /-- A value that is written escaped. -/
  | escaped (value : String)
  /-- A text that is made from a value and written as it is. -/
  | bare (s : String)
  deriving DecidableEq, Repr

def Part.text : Part → String
  | escaped value => escapeMarkup value
  | bare s => s

/-- Puts parts in the places of a template, which are its entries without a text. -/
def fill : List (Option String) → List Part → String
  | [], _ => ""
  | some s :: template, parts => s ++ fill template parts
  | none :: template, part :: parts => part.text ++ fill template parts
  | none :: template, [] => fill template []

/-- What was done to make a page, as far as its template goes. -/
inductive Branch where
  | greeted
  | notGreeted
  | parameters (count : Nat)
  | colorSet
  | colorRefused
  | colorMissing
  | error (status : UInt16)
  deriving DecidableEq, Repr

namespace Branch

def rowTemplate : List (Option String) :=
  [some "<tr><td>", none, some "</td><td>", none, some "</td></tr>"]

def colorTemplate (answer : List (Option String)) : List (Option String) :=
  some "<html><body><p>" :: answer ++
    [some "</p><p><a href=\"/index2.html\">Back home</a></p></body></html>"]

def errorTitle (status : UInt16) : String :=
  Decimal.natText status.toNat ++ " " ++ Response.reason status

def template : Branch → List (Option String)
  | greeted =>
    [some "<html><body><h1>Hello ", none, some "!</h1><p>Your name has ", none,
      some " letters.</p></body></html>"]
  | notGreeted =>
    [some "<html><body><h1>Hello!</h1><p>You did not send a name.</p></body></html>"]
  | parameters count =>
    some "<html><body><table border=\"1\"><tr><th>Name</th><th>Value</th></tr>" ::
      (List.replicate count rowTemplate).flatten ++ [some "</table></body></html>"]
  | colorSet => colorTemplate [some "Background color set to #", none, some "."]
  | colorRefused => colorTemplate [some "`", none, some "` is not a valid color."]
  | colorMissing => colorTemplate [some "No color given."]
  | error status =>
    [some "<html><head><title>", some (errorTitle status), some "</title></head><body><h1>",
      some (errorTitle status), some "</h1><p>", none, some "</p></body></html>"]

end Branch

/-! ### Pages -/

/-- A page that is built from values alone. -/
inductive BuiltPage where
  | greeting (name : Option String)
  | parameters (params : Params)
  | color (requested : Option String)
  | error (status : UInt16) (message : String)

/-- The name that is greeted, if there is one. -/
def greeted? (name : Option String) : Option String :=
  (name.map Text.trim).filter (!·.isEmpty)

namespace BuiltPage

def text : BuiltPage → String
  | greeting name => Page.greeting name
  | parameters params => Page.parameterTable params
  | color requested => Page.colorPage (.ofText? requested)
  | error status message => Response.errorPage status message

def branch : BuiltPage → Branch
  | greeting name => if (greeted? name).isSome then .greeted else .notGreeted
  | parameters params => .parameters params.size
  | color requested =>
    match Page.ColorRequest.ofText? requested with
    | .color _ => .colorSet
    | .invalid _ => .colorRefused
    | .missing => .colorMissing
  | error status _ => .error status

/-- What the page shows, place after place. -/
def parts : BuiltPage → List Part
  | greeting name =>
    match greeted? name with
    | some n => [.escaped n, .bare (Decimal.natText n.length)]
    | none => []
  | parameters params => params.entries.flatMap fun e => [.escaped e.1, .escaped e.2]
  | color requested =>
    match Page.ColorRequest.ofText? requested with
    | .color digits => [.bare digits]
    | .invalid text => [.escaped text]
    | .missing => []
  | error _ message => [.escaped message]

theorem fill_rows (entries : List (String × String)) (template : List (Option String)) :
    fill ((List.replicate entries.length Branch.rowTemplate).flatten ++ template)
        (entries.flatMap fun e => [.escaped e.1, .escaped e.2]) =
      String.join (entries.map Page.parameterRow) ++ fill template [] := by
  induction entries with
  | nil => exact String.empty_append.symm
  | cons e entries ih =>
    have hrow (a b c x y rest : String) :
        a ++ (x ++ (b ++ (y ++ (c ++ rest)))) = a ++ x ++ b ++ y ++ c ++ rest := by
      simp only [String.append_assoc]
    rw [List.map_cons, String.join_cons, String.append_assoc, ← ih]
    exact hrow ..

theorem text_eq_fill (p : BuiltPage) : p.text = fill p.branch.template p.parts := by
  cases p with
  | greeting name =>
    have hgreeting : text (.greeting name) = Page.greeting name := rfl
    rw [hgreeting, Page.greeting, branch, parts, greeted?]
    cases (name.map Text.trim).filter (!·.isEmpty) with
    | some n =>
      have hjoin (a b c x y : String) : a ++ x ++ b ++ (y ++ c) = a ++ (x ++ (b ++ (y ++ (c ++ "")))) := by
        simp only [String.append_assoc, String.append_empty]
      exact hjoin ..
    | none => exact String.append_empty.symm
  | parameters params =>
    have hjoin (a c : String) : a ++ (String.join (params.entries.map Page.parameterRow) ++ c) =
        a ++ fill ((List.replicate params.entries.length Branch.rowTemplate).flatten ++ [some c])
          (params.entries.flatMap fun e => [.escaped e.1, .escaped e.2]) := by
      rw [fill_rows, fill, fill, String.append_empty]
    refine Eq.trans ?_ (hjoin _ _)
    exact String.append_assoc
  | color requested =>
    have hshown (a b c d x : String) : a ++ (b ++ x ++ c) ++ d = a ++ (b ++ (x ++ (c ++ (d ++ "")))) := by
      simp only [String.append_assoc, String.append_empty]
    have hmissing (a b d : String) : a ++ b ++ d = a ++ (b ++ (d ++ "")) := by
      simp only [String.append_assoc, String.append_empty]
    have hcolor : text (.color requested) = Page.colorPage (.ofText? requested) := rfl
    rw [hcolor, branch, parts]
    cases Page.ColorRequest.ofText? requested with
    | color digits => exact hshown ..
    | invalid text => exact hshown ..
    | missing => exact hmissing ..
  | error status message =>
    have hjoin (a b c d t m : String) : a ++ t ++ b ++ t ++ c ++ m ++ d =
        a ++ (t ++ (b ++ (t ++ (c ++ (m ++ (d ++ "")))))) := by
      simp only [String.append_assoc, String.append_empty]
    exact hjoin ..

/-! ### Parts -/

theorem length_parts (p : BuiltPage) : p.parts.length = p.branch.template.count none := by
  cases p with
  | greeting name =>
    rw [parts, branch]
    cases greeted? name <;> rfl
  | parameters params =>
    have hrow : Branch.rowTemplate.count none = 2 := by decide
    rw [parts, branch, Branch.template, Table.size, List.length_flatMap]
    simp [List.count_flatten, hrow, List.map_const']
  | color requested =>
    rw [parts, branch]
    cases Page.ColorRequest.ofText? requested <;> rfl
  | error status message => rfl

theorem entity?_of_isHexDigit {c : Char} (h : Text.isHexDigit c = true) :
    Response.entity? c = none := by
  apply Option.eq_none_iff_forall_ne_some.mpr
  intro e he
  have hmem := Response.entity?_eq_some_iff.mp he
  simp only [Response.entities, List.mem_cons, List.not_mem_nil, or_false, Prod.mk.injEq] at hmem
  rcases hmem with ⟨rfl, -⟩ | ⟨rfl, -⟩ | ⟨rfl, -⟩ | ⟨rfl, -⟩ | ⟨rfl, -⟩ <;> cases h

theorem isInert_natText (n : Nat) : IsInert (Decimal.natText n).toList := by
  apply IsInert.of_plain
  intro c hc
  rw [Decimal.natText, String.toList_ofList] at hc
  apply entity?_of_isHexDigit
  rw [Text.isHexDigit, Decimal.isDigit_of_mem_digits hc]
  rfl

theorem entity?_toUpper_of_isHexDigit {c : Char} (h : Text.isHexDigit c = true) :
    Response.entity? c.toUpper = none := by
  have hall : ∀ n < 128, Text.isHexDigit (Char.ofNat n) = true →
      Response.entity? (Char.ofNat n).toUpper = none := by
    decide
  have hbound : c.toNat < 128 := by
    simp [Text.isHexDigit, Char.isDigit, Char.le_def, UInt32.le_iff_toNat_le] at h
    omega
  have hc := hall c.toNat hbound
  rw [Char.ofNat_toNat] at hc
  exact hc h

/-- A color that was asked for is given in hexadecimal digits. -/
theorem isInert_of_color {requested : Option String} {digits : String}
    (h : Page.ColorRequest.ofText? requested = .color digits) : IsInert digits.toList := by
  cases requested with
  | none => cases h
  | some s =>
    rw [Page.ColorRequest.ofText?] at h
    split at h
    · next hcolor =>
      obtain rfl := Page.ColorRequest.color.inj h
      rw [Page.isColor, Bool.and_eq_true, List.all_eq_true] at hcolor
      apply IsInert.of_plain
      intro c hc
      rw [Text.asciiUpper, String.toList_ofList] at hc
      obtain ⟨d, hd, rfl⟩ := List.mem_map.mp hc
      exact entity?_toUpper_of_isHexDigit (hcolor.2 d hd)
    · cases h

theorem isInert_parts (p : BuiltPage) : ∀ part ∈ p.parts, IsInert part.text.toList := by
  have hescaped (value : String) : IsInert (Part.text (.escaped value)).toList :=
    IsInert.escapeMarkup value
  cases p with
  | greeting name =>
    rw [parts]
    cases greeted? name with
    | none => exact fun part hpart => absurd hpart List.not_mem_nil
    | some n =>
      simp only [List.forall_mem_cons, List.not_mem_nil, false_imp_iff, implies_true, and_true]
      exact ⟨hescaped n, isInert_natText n.length⟩
  | parameters params =>
    intro part hpart
    obtain ⟨e, -, hrow⟩ := List.mem_flatMap.mp hpart
    have hcases : part = .escaped e.1 ∨ part = .escaped e.2 := by simpa using hrow
    rcases hcases with rfl | rfl <;> exact hescaped _
  | color requested =>
    rw [parts]
    cases hrequest : Page.ColorRequest.ofText? requested with
    | color digits => exact List.forall_mem_singleton.mpr (isInert_of_color hrequest)
    | invalid text => exact List.forall_mem_singleton.mpr (hescaped text)
    | missing => exact fun part hpart => absurd hpart List.not_mem_nil
  | error status message => exact List.forall_mem_singleton.mpr (hescaped message)

end BuiltPage

/-! ### Brackets -/

theorem brackets_append (s t : String) : brackets (s ++ t) = brackets s ++ brackets t := by
  rw [brackets, String.toList_append, List.filter_append, brackets, brackets]

/-- The brackets of a page are those of its template. -/
theorem brackets_fill {parts : List Part} (h : ∀ part ∈ parts, IsInert part.text.toList)
    (template : List (Option String)) :
    brackets (fill template parts) = template.flatMap fun s => brackets (s.getD "") := by
  induction template generalizing parts with
  | nil => rfl
  | cons place template ih =>
    rw [List.flatMap_cons]
    cases place with
    | some s =>
      rw [fill, brackets_append, ih h]
      rfl
    | none =>
      cases parts with
      | nil => exact ih h
      | cons part parts =>
        obtain ⟨hpart, hparts⟩ := List.forall_mem_cons.mp h
        rw [fill, brackets_append, ih hparts, brackets, hpart.filter_isBracket]
        rfl

namespace Branch

/-- The same branch. For which status an error page is makes no difference. -/
def Alike (b c : Branch) : Prop :=
  b = c ∨ ∃ status status', b = error status ∧ c = error status'

theorem brackets_errorTitle (status : UInt16) : brackets (errorTitle status) = [] := by
  have hreason : brackets (Response.reason status) = [] :=
    Exchange.of_reasonPhrases (P := fun r => brackets r = []) (by decide +kernel) (by decide) status
  rw [errorTitle, brackets_append, brackets_append, hreason, brackets,
    (BuiltPage.isInert_natText _).filter_isBracket]
  decide

theorem Alike.brackets_template {b c : Branch} (h : b.Alike c) :
    b.template.flatMap (fun s => brackets (s.getD "")) =
      c.template.flatMap fun s => brackets (s.getD "") := by
  rcases h with rfl | ⟨status, status', rfl, rfl⟩
  · rfl
  · simp only [template, List.flatMap_cons, Option.getD_some, brackets_errorTitle]

end Branch

/-! ### Writers -/

/-- What writes a page that is built from values. -/
inductive Writer where
  | hello
  | echoParams
  | bgColor
  | errorPage (status : UInt16) (message : String)

namespace Writer

def run : Writer → Exchange.Action HandlerError Next
  | hello => Handler.hello.run
  | echoParams => Handler.echoParams.run
  | bgColor => Handler.bgColor.run
  | errorPage status message => Handler.answering (Exchange.sendError status message)

/-- The page that is written for these parameters. -/
def page (query : Params) : Writer → BuiltPage
  | hello => .greeting (query.get? "name")
  | echoParams => .parameters query
  | bgColor => .color (query.get? Handler.colorParameter)
  | errorPage status message => .error status message

/-- The head that is sent before the page. -/
def head (h : Response.Head) : Writer → Response.Head
  | errorPage status _ => Exchange.errorHead h status
  | _ => { h with mimeType := "text/html" }

/-- This head and then this text are sent, in the encoding of the exchange. -/
def Sends (head : Response.Head) (text : String) (ex sent : Exchange) : Prop :=
  sent.sink.received = ex.sink.received ++ head.bytes ++ ex.head.encoding.encode text

theorem writeText_of_takes {ex ready : Exchange} (h : Exchange.TakesAll ready)
    (hopen : ready.committed = false) (hsink : ready.sink = ex.sink)
    (hencoding : ready.head.encoding = ex.head.encoding) (text : String) :
    ∃ sent, Exchange.writeText text ready = .ok () sent ∧ Sends ready.head text ex sent := by
  refine ⟨_, h.write hopen _, ?_⟩
  rw [Sends, Sink.received_push, Sink.received_push, hsink, hencoding]

/-- The exchange with its content announced as a page. -/
def asPage (ex : Exchange) : Exchange :=
  { ex with head := { ex.head with mimeType := "text/html" } }

theorem setMimeType_of_open {ex : Exchange} (hopen : ex.committed = false) :
    Exchange.setMimeType "text/html" ex = .ok () (asPage ex) := by
  have hmime : Exchange.lineFault? .mimeType "text/html" = none := by decide
  rw [Exchange.setMimeType, hmime]
  exact Exchange.change_of_open hopen _ _

theorem answering_of_ok {act : Exchange.Action Response.Error Unit} {ex sent : Exchange}
    (h : act ex = .ok () sent) : Handler.answering act ex = .ok .done sent := by
  rw [Handler.answering, bind_apply, EStateM.adaptExcept, h]
  rfl

theorem answerWith_of_takes {ex : Exchange} (h : Exchange.TakesAll ex)
    (hopen : ex.committed = false) (text : String) :
    ∃ sent, Handler.answering (Handler.answerWith text) ex = .ok .done sent ∧
      Sends (asPage ex).head text ex sent := by
  have htakes : Exchange.TakesAll (asPage ex) := h
  have hstill : (asPage ex).committed = false := hopen
  have hsink : (asPage ex).sink = ex.sink := rfl
  obtain ⟨sent, hwrite, hsends⟩ := writeText_of_takes htakes hstill hsink rfl text
  refine ⟨sent, answering_of_ok ?_, hsends⟩
  rw [Handler.answerWith, bind_apply, setMimeType_of_open hopen]
  exact hwrite

theorem sink_rememberColor (r : Page.ColorRequest) (ex : Exchange) :
    (Handler.rememberColor r ex).sink = ex.sink ∧
      (Handler.rememberColor r ex).committed = ex.committed ∧
      (Handler.rememberColor r ex).head = ex.head := by
  cases r <;> exact ⟨rfl, rfl, rfl⟩

theorem run_of_takes {ex : Exchange} (h : Exchange.TakesAll ex) (hopen : ex.committed = false)
    (w : Writer) :
    ∃ sent, w.run ex = .ok .done sent ∧ Sends (w.head ex.head) (w.page ex.query).text ex sent := by
  cases w with
  | hello => exact answerWith_of_takes h hopen _
  | echoParams => exact answerWith_of_takes h hopen _
  | bgColor =>
    let r := Page.ColorRequest.ofText? (ex.query.get? Handler.colorParameter)
    let ready := Handler.rememberColor r (asPage ex)
    obtain ⟨hsink, hcommitted, hhead⟩ := sink_rememberColor r (asPage ex)
    have htakes : Exchange.TakesAll ready := by
      intro o
      rw [hsink]
      exact h o
    have hencoding : ready.head.encoding = ex.head.encoding := by
      rw [hhead]
      rfl
    obtain ⟨sent, hwrite, hsends⟩ := writeText_of_takes htakes (hcommitted.trans hopen) hsink
      hencoding (Page.colorPage r)
    rw [hhead] at hsends
    refine ⟨sent, answering_of_ok ?_, hsends⟩
    rw [bind_apply, setMimeType_of_open hopen]
    exact hwrite
  | errorPage status message =>
    have hsent := h.sendError hopen status message
    refine ⟨_, answering_of_ok hsent, ?_⟩
    rw [Sends, Sink.received_push, Sink.received_push]
    rfl

end Writer

/-! ### No markup in values -/

/-- A page that is built from values is sent as the template of the branch that was
taken with its places filled. What fills them has no bracket and no quote, each
ampersand in it begins an entity, and where a value was escaped it can be read
back. So pages of one branch, whatever they show, have the same brackets in the same
order, in any encoding; the parameters of a request are shown in a row each, by
increasing names, and only their number matters. -/
theorem values_bring_no_markup {ex : Exchange} (htakes : Exchange.TakesAll ex)
    (hopen : ex.committed = false) (w : Writer) :
    let p := w.page ex.query
    (∃ sent, w.run ex = .ok .done sent ∧
      sent.sink.received = ex.sink.received ++ (w.head ex.head).bytes ++
        ex.head.encoding.encode p.text) ∧
    p.text = fill p.branch.template p.parts ∧
    p.parts.length = p.branch.template.count none ∧
    ex.query.keys.Pairwise (· < ·) ∧
    (∀ part ∈ p.parts, IsInert part.text.toList) ∧
    (∀ value, .escaped value ∈ p.parts → unescape (escapeMarkup value).toList = value.toList) ∧
    ∀ q : BuiltPage, p.branch.Alike q.branch → brackets p.text = brackets q.text ∧
      ∀ e : Text.Encoding, (ex.head.encoding.encode p.text).filter Response.isBracketByte =
        (e.encode q.text).filter Response.isBracketByte := by
  intro p
  refine ⟨Writer.run_of_takes htakes hopen w, p.text_eq_fill, p.length_parts, ?_, p.isInert_parts,
    fun value _ => Response.unescape_escapeMarkup value, ?_⟩
  · exact List.pairwise_map.mpr ex.query.increasing
  · intro q hq
    have hbrackets : brackets p.text = brackets q.text := by
      rw [p.text_eq_fill, q.text_eq_fill, brackets_fill p.isInert_parts,
        brackets_fill q.isInert_parts, hq.brackets_template]
    refine ⟨hbrackets, ?_⟩
    intro e
    rw [Response.filter_isBracketByte_encode, Response.filter_isBracketByte_encode, hbrackets]

theorem marks_in_parameters_escaped :
    let query : Params := .ofList [("a<b", "\"'"), ("&amp;", "x")]
    let other : Params := .ofList [("p", "q"), ("r", "")]
    let ex := Exchange.start .unlimited query .empty [] none
    let page :=
      "<html><body><table border=\"1\"><tr><th>Name</th><th>Value</th></tr>" ++
        "<tr><td>&amp;amp;</td><td>x</td></tr>" ++
        "<tr><td>a&lt;b</td><td>&quot;&#39;</td></tr></table></body></html>"
    Exchange.TakesAll ex ∧ ex.committed = false ∧
      (∃ sent, Handler.echoParams.run ex = .ok .done sent ∧
        sent.sink.received = ex.head.bytes ++ Text.utf8Bytes page) ∧
      unescape "&amp;amp;".toList = "&amp;".toList ∧
      brackets page = brackets (Page.parameterTable other) := by
  intro query other ex page
  have htakes : Exchange.TakesAll ex := Exchange.takesAll_start query .empty [] none
  have hpage : (Writer.page ex.query .echoParams).text = page := by decide +kernel
  have hnothing : ex.sink.received = [] := rfl
  have hhead : Writer.echoParams.head ex.head = ex.head := rfl
  obtain ⟨⟨sent, hrun, hreceived⟩, -, -, -, -, hunescape, hbrackets⟩ :=
    values_bring_no_markup htakes rfl .echoParams
  refine ⟨htakes, rfl, ⟨sent, hrun, ?_⟩, ?_, ?_⟩
  · rw [hpage, hhead, hnothing, List.nil_append] at hreceived
    exact hreceived
  · have hescaped : escapeMarkup "&amp;" = "&amp;amp;" := by decide
    rw [← hescaped]
    exact hunescape "&amp;" (by decide)
  · have halike : Branch.Alike (.parameters query.size) (.parameters other.size) := .inl (by decide)
    have hother := (hbrackets (.parameters other) halike).1
    rw [hpage] at hother
    exact hother

end PageServer.Site
