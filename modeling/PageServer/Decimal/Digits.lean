/-!
# Decimal digits

Whole numbers as decimal digits and back. `ofDigits_digits` says that the
digits of a number read as that number, and leading zeros do not change what
digits read as.
-/

namespace PageServer.Decimal

def digits (n : Nat) : List Char :=
  Nat.toDigits 10 n

def ofDigits (ds : List Char) : Nat :=
  Nat.ofDigitChars 10 ds 0

def zeros (n : Nat) : List Char :=
  List.replicate n '0'

def signed (i : Int) : List Char :=
  if i < 0 then '-' :: digits i.natAbs else digits i.natAbs

def natText (n : Nat) : String :=
  String.ofList (digits n)

def intText (i : Int) : String :=
  String.ofList (signed i)

@[simp] theorem ofDigits_digits (n : Nat) : ofDigits (digits n) = n :=
  Nat.ofDigitChars_ten_toDigits

theorem digits_ne_nil (n : Nat) : digits n ≠ [] :=
  Nat.toDigits_ne_nil

theorem isDigit_of_mem_digits {n : Nat} {c : Char} (h : c ∈ digits n) : c.isDigit = true :=
  Nat.isDigit_of_mem_toDigits (by decide) (by decide) h

@[simp] theorem ofDigits_zeros_append (k : Nat) (ds : List Char) :
    ofDigits (zeros k ++ ds) = ofDigits ds := by
  simp [ofDigits, zeros, Nat.ofDigitChars_append, Nat.ofDigitChars_replicate_zero]

end PageServer.Decimal
