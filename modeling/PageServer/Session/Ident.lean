/-!
# Identifiers

Sessions and connections are named by random numbers, spelled with a fixed
number of digits of an alphabet.
-/

namespace PageServer.Ident

/-- The last digits of a number in the base of the alphabet's size, so many of
them. -/
def spell (alphabet : List Char) : Nat → Nat → List Char
  | 0, _ => []
  | width + 1, n =>
    spell alphabet width (n / alphabet.length) ++ [alphabet.getD (n % alphabet.length) '?']

def letters : List Char := "ABCDEFGHIJKLMNOPQRSTUVWXYZ".toList

/-- Digits and the letters that cannot be taken for digits. -/
def sortable : List Char := "0123456789ABCDEFGHJKMNPQRSTVWXYZ".toList

def sessionLength : Nat := 20

def session (n : Nat) : String :=
  String.ofList (spell letters sessionLength n)

/-- The name of a connection: a time in milliseconds, of 48 bits, before a
random number of 80 bits. -/
def connection (time random : Nat) : String :=
  String.ofList (spell sortable 26 (time % Nat.pow 2 48 * Nat.pow 2 80 + random % Nat.pow 2 80))

end PageServer.Ident
