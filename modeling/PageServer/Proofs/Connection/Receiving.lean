import PageServer.Connection.Reception
import PageServer.Proofs.Request.HeaderReading

/-!
# What a connection brings

The three kinds of a reception, each with the bytes of a stream that lead to it.
Every stream has exactly one.
-/

namespace PageServer.Connection

open Request (Arrival EndsHeader IsHeaderOf delivered)

/-- A stream of bytes is received as this. -/
inductive Receives (limit : Nat) (stream : List Arrival) : Reception → Prop
  | closed (hshort : (delivered stream).length ≤ limit)
      (hopen : ∀ p, p <+: delivered stream → ¬ EndsHeader p) : Receives limit stream .closed
  | tooLarge (hlong : limit < (delivered stream).length)
      (hlate : ∀ p, p <+: delivered stream → EndsHeader p → limit < p.length) :
      Receives limit stream (.rejected (.headerTooLarge limit))
  | malformed {header : Bytes} {e : Request.Error} (hheader : IsHeaderOf (delivered stream) header)
      (hfits : header.length ≤ limit) (hparse : Request.parse header = .error e) :
      Receives limit stream (.rejected e)
  | undecodable {header : Bytes} {request : Request} {e : Request.Error}
      (hheader : IsHeaderOf (delivered stream) header) (hfits : header.length ≤ limit)
      (hparse : Request.parse header = .ok request)
      (hpath : Request.decode false (Request.splitTarget request.target).1 = .error e) :
      Receives limit stream (.rejected e)
  | accepted {header : Bytes} {request : Request} {path : String}
      (hheader : IsHeaderOf (delivered stream) header) (hfits : header.length ≤ limit)
      (hparse : Request.parse header = .ok request)
      (hpath : Request.decode false (Request.splitTarget request.target).1 = .ok path) :
      Receives limit stream (.accepted ⟨request, path, (Request.splitTarget request.target).2⟩)

theorem readRequest_of_parse {header : Bytes} {request : Request}
    (h : Request.parse header = .ok request) :
    readRequest header = match Request.decode false (Request.splitTarget request.target).1 with
      | .ok path => .ok ⟨request, path, (Request.splitTarget request.target).2⟩
      | .error e => .error e := by
  rw [readRequest, h]
  cases hpath : Request.decode false (Request.splitTarget request.target).1 with
  | ok path => simp only [bind, Except.bind, hpath, pure, Except.pure]
  | error e => simp only [bind, Except.bind, hpath]

theorem readRequest_of_error {header : Bytes} {e : Request.Error}
    (h : Request.parse header = .error e) : readRequest header = .error e := by
  rw [readRequest, h]
  rfl

theorem receive_of_header {limit : Nat} {stream : List Arrival} {header : Bytes}
    (h : Request.readHeader limit stream = .ok (some header)) :
    receive limit stream = match readRequest header with
      | .ok incoming => .accepted incoming
      | .error e => .rejected e := by
  cases hread : readRequest header with
  | ok incoming => simp only [receive, h, hread]
  | error e => simp only [receive, h, hread]

theorem receives_receive (limit : Nat) (stream : List Arrival) :
    Receives limit stream (receive limit stream) := by
  rcases Request.readHeader_cases limit stream with
    ⟨hshort, hopen, hread⟩ | ⟨header, hheader, hfits, hread⟩ | ⟨hlong, hlate, hread⟩
  · have hclosed : receive limit stream = .closed := by
      rw [receive, hread]
      cases Request.fails stream <;> rfl
    rw [hclosed]
    exact .closed hshort hopen
  · rw [receive_of_header hread]
    cases hparse : Request.parse header with
    | error e =>
      rw [readRequest_of_error hparse]
      exact .malformed hheader hfits hparse
    | ok request =>
      rw [readRequest_of_parse hparse]
      cases hpath : Request.decode false (Request.splitTarget request.target).1 with
      | error e => exact .undecodable hheader hfits hparse hpath
      | ok path => exact .accepted hheader hfits hparse hpath
  · have hrejected : receive limit stream = .rejected (.headerTooLarge limit) := by
      simp only [receive, hread]
    rw [hrejected]
    exact .tooLarge hlong hlate

/-- The header of a stream is the one that is read, unless the limit forbids. -/
theorem readHeader_of_isHeaderOf {limit : Nat} {stream : List Arrival} {header : Bytes}
    (h : IsHeaderOf (delivered stream) header) (hfits : header.length ≤ limit) :
    Request.readHeader limit stream = .ok (some header) := by
  rcases Request.readHeader_cases limit stream with
    ⟨-, hopen, -⟩ | ⟨header', hheader, -, hread⟩ | ⟨-, hlate, -⟩
  · exact absurd h.ends (hopen header h.begins)
  · rw [hread, hheader.unique h]
  · have hlong := hlate header h.begins h.ends
    omega

theorem Receives.receive_eq {limit : Nat} {stream : List Arrival} {r : Reception}
    (h : Receives limit stream r) : receive limit stream = r := by
  cases h with
  | closed hshort hopen =>
    rcases Request.readHeader_cases limit stream with
      ⟨-, -, hread⟩ | ⟨header, hheader, -, -⟩ | ⟨hlong, -, -⟩
    · rw [receive, hread]
      cases Request.fails stream <;> rfl
    · exact absurd hheader.ends (hopen header hheader.begins)
    · omega
  | tooLarge hlong hlate =>
    rcases Request.readHeader_cases limit stream with
      ⟨hshort, -, -⟩ | ⟨header, hheader, hfits, -⟩ | ⟨-, -, hread⟩
    · omega
    · have hlater := hlate header hheader.begins hheader.ends
      omega
    · simp only [receive, hread]
  | malformed hheader hfits hparse =>
    rw [receive_of_header (readHeader_of_isHeaderOf hheader hfits), readRequest_of_error hparse]
  | undecodable hheader hfits hparse hpath =>
    rw [receive_of_header (readHeader_of_isHeaderOf hheader hfits), readRequest_of_parse hparse,
      hpath]
  | accepted hheader hfits hparse hpath =>
    rw [receive_of_header (readHeader_of_isHeaderOf hheader hfits), readRequest_of_parse hparse,
      hpath]

theorem receives_iff {limit : Nat} {stream : List Arrival} {r : Reception} :
    Receives limit stream r ↔ receive limit stream = r := by
  constructor
  · exact Receives.receive_eq
  · rintro rfl
    exact receives_receive limit stream

end PageServer.Connection
