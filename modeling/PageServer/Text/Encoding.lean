import PageServer.Text.Casing
import PageServer.Text.Trim

/-!
# Text as bytes

The two encodings a response may be written in. UTF-8 keeps every text;
ISO-8859-1 has the characters up to U+00FF as single bytes and writes a
question mark for any other.
-/

namespace PageServer

abbrev Bytes := List UInt8

namespace Text

inductive Encoding where
  | utf8
  | latin1
  deriving DecidableEq, Repr

def utf8Bytes (s : String) : Bytes :=
  s.toList.flatMap String.utf8EncodeChar

def ofUtf8? (bytes : Bytes) : Option String :=
  String.fromUTF8? ⟨bytes.toArray⟩

theorem toList_data_toByteArray (s : String) : s.toByteArray.data.toList = utf8Bytes s := by
  rw [← String.utf8Encode_toList, List.utf8Encode, List.toList_data_toByteArray, utf8Bytes]

/-- Bytes are read as the one text that they encode. -/
theorem ofUtf8?_eq_some_iff {bytes : Bytes} {s : String} :
    ofUtf8? bytes = some s ↔ utf8Bytes s = bytes := by
  rw [ofUtf8?, String.fromUTF8?, ← toList_data_toByteArray]
  constructor
  · intro h
    split at h
    · obtain rfl := Option.some.inj h
      rfl
    · cases h
  · rintro rfl
    rw [dif_pos s.isValidUTF8]
    rfl

def latin1Byte (c : Char) : UInt8 :=
  if c.toNat < 256 then UInt8.ofNat c.toNat else '?'.toUInt8

def latin1Bytes (s : String) : Bytes :=
  s.toList.map latin1Byte

/-- Every byte as the character with its code. -/
def ofLatin1 (bytes : Bytes) : List Char :=
  bytes.map fun b => Char.ofNat b.toNat

namespace Encoding

def ofLabel? (label : String) : Option Encoding :=
  let name := asciiUpper (trim label)
  if name = "UTF-8" || name = "UTF8" then some utf8
  else if name = "ISO-8859-1" || name = "LATIN1" then some latin1
  else none

def label : Encoding → String
  | utf8 => "UTF-8"
  | latin1 => "ISO-8859-1"

def encode : Encoding → String → Bytes
  | utf8 => utf8Bytes
  | latin1 => latin1Bytes

end Encoding

/-- What a character is read back as after it was written in ISO-8859-1. -/
def latin1Char (c : Char) : Char :=
  if c.toNat < 256 then c else '?'

/-- The character of a byte has its code. -/
theorem toNat_ofNat_toNat (b : UInt8) : (Char.ofNat b.toNat).toNat = b.toNat := by
  have hb := b.toNat_lt
  have hvalid : b.toNat.isValidChar := .inl (by omega)
  rw [Char.ofNat, dif_pos hvalid]
  rfl

theorem ofLatin1_latin1Bytes (s : String) :
    ofLatin1 (latin1Bytes s) = s.toList.map latin1Char := by
  rw [ofLatin1, latin1Bytes, List.map_map]
  refine List.map_congr_left fun c _ => ?_
  by_cases hc : c.toNat < 256
  · simp [latin1Byte, latin1Char, hc, Nat.mod_eq_of_lt hc]
  · simp only [Function.comp_apply, latin1Byte, latin1Char, if_neg hc]
    decide

theorem char_of_latin1Byte (c : Char) : Char.ofNat (latin1Byte c).toNat = latin1Char c := by
  have hread := ofLatin1_latin1Bytes (String.singleton c)
  simpa [ofLatin1, latin1Bytes] using hread

theorem latin1Bytes_append (s t : String) :
    latin1Bytes (s ++ t) = latin1Bytes s ++ latin1Bytes t := by
  simp only [latin1Bytes, String.toList_append, List.map_append]

/-- Text that a head can say. -/
def IsLatin1 (s : String) : Prop :=
  ∀ c ∈ s.toList, c.toNat < 256

instance (s : String) : Decidable (IsLatin1 s) :=
  List.decidableBAll (fun c : Char => c.toNat < 256) s.toList

theorem ofLatin1_of_isLatin1 {s : String} (h : IsLatin1 s) :
    ofLatin1 (latin1Bytes s) = s.toList := by
  have hkept : s.toList.map latin1Char = s.toList.map id := by
    apply List.map_congr_left
    intro c hc
    exact if_pos (h c hc)
  rw [ofLatin1_latin1Bytes, hkept, List.map_id]

/-- But for the question mark, a character is read only where it was written. -/
theorem latin1Char_eq_iff {c d : Char} (hd : d.toNat < 256) (hmark : d ≠ '?') :
    latin1Char c = d ↔ c = d := by
  rw [latin1Char]
  split
  · exact Iff.rfl
  · next hbig =>
    constructor
    · intro h
      exact absurd h.symm hmark
    · rintro rfl
      exact absurd hd hbig

theorem latin1Byte_eq_iff {c d : Char} (hd : d.toNat < 256) (hmark : d ≠ '?') :
    latin1Byte c = latin1Byte d ↔ c = d := by
  refine ⟨fun h => ?_, fun h => h ▸ rfl⟩
  rw [← latin1Char_eq_iff hd hmark, ← char_of_latin1Byte, h, char_of_latin1Byte]
  exact if_pos hd

end Text

end PageServer
