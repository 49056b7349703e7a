/-
Percent escapes. Which characters a part of a URL escapes is a predicate;
the sets grow from the fragment, which escapes the fewest, to the user
information. Outside ASCII and among the controls everything is escaped,
so what `encode` yields is printable ASCII.
-/
import Depot.Bytes

namespace Depot.Url

/-- Controls and everything outside ASCII. -/
def inControlSet (c : Char) : Bool := c.toNat < 0x20 || 0x7F ≤ c.toNat

/-- What a fragment escapes. -/
def inFragmentSet (c : Char) : Bool :=
  inControlSet c || [' ', '"', '<', '>', '\x60'].contains c

/-- What a query escapes. -/
def inQuerySet (c : Char) : Bool :=
  inControlSet c || [' ', '"', '#', '<', '>'].contains c

/-- What the query of a special URL escapes. -/
def inSpecialQuerySet (c : Char) : Bool := inQuerySet c || c = '\''

/-- What a path escapes. -/
def inPathSet (c : Char) : Bool :=
  inFragmentSet c || ['#', '?', '\x7b', '\x7d'].contains c

/-- What a user name or a password escapes. -/
def inUserinfoSet (c : Char) : Bool :=
  inPathSet c || ['/', ':', ';', '=', '@', '[', '\\', ']', '^', '|'].contains c

/-- The upper-case hexadecimal digit of a number below 16. -/
def escapeDigit (n : Nat) : Char := (Text.hexDigit n).toUpper

/-- The escape of one octet. -/
def escapeByte (b : UInt8) : List Char :=
  ['%', escapeDigit (b.toNat / 16), escapeDigit (b.toNat % 16)]

/-- The characters with those of the set escaped. -/
def encode (set : Char → Bool) (s : List Char) : List Char :=
  s.flatMap fun c => if set c then (String.utf8EncodeChar c).flatMap escapeByte else [c]

/-- The octets that escaped characters stand for. A percent sign without
two digits stands for itself. -/
def decode : List Char → Bytes
  | [] => []
  | '%' :: a :: b :: rest =>
      match Text.hexValue? a, Text.hexValue? b with
      | some x, some y => UInt8.ofNat (x * 16 + y) :: decode rest
      | _, _ => 0x25 :: decode (a :: b :: rest)
  | c :: rest => String.utf8EncodeChar c ++ decode rest

/-- The text that an escaped text stands for. -/
def decodeText (s : String) : String := Bytes.decodeLossy (decode s.toList)

end Depot.Url
