/-
Byte strings: their hexadecimal form, the UTF-8 form of text, and the
two ways back to text. `decode?` accepts exactly well-formed UTF-8;
`decodeLossy` puts one replacement character for each maximal invalid
run, so it never fails.
-/
import Depot.Text.Ascii

namespace Depot

/-- A sequence of octets. -/
abbrev Bytes := List UInt8

namespace Bytes

/-- The UTF-8 form of `s`. -/
def ofText (s : String) : Bytes :=
  s.toList.flatMap String.utf8EncodeChar

/-- Two lower-case hexadecimal digits an octet. -/
def hex (bytes : Bytes) : String :=
  String.ofList (bytes.flatMap fun b =>
    [Text.hexDigit (b.toNat / 16), Text.hexDigit (b.toNat % 16)])

/-- Whether `b` continues a UTF-8 sequence. -/
def isTail (b : UInt8) : Bool := 0x80 ≤ b && b ≤ 0xBF

/-- What the octets at the front of a byte string spell. -/
inductive Lead where
  /-- A character of `length` octets. -/
  | char (c : Char) (length : Nat)
  /-- No character starts so; `length` octets could have begun one. -/
  | invalid (length : Nat)
deriving DecidableEq, Repr

/-- The range that the octet after `b` must lie in. Narrower than
`isTail` where a wider one would spell a number twice, a surrogate or
one beyond Unicode. -/
def secondOk (b second : UInt8) : Bool :=
  if b = 0xE0 then 0xA0 ≤ second && second ≤ 0xBF
  else if b = 0xED then 0x80 ≤ second && second ≤ 0x9F
  else if b = 0xF0 then 0x90 ≤ second && second ≤ 0xBF
  else if b = 0xF4 then 0x80 ≤ second && second ≤ 0x8F
  else isTail second

/-- The low six bits of a continuation octet. -/
def tailBits (b : UInt8) : Nat := b.toNat % 64

/-- Reads one UTF-8 sequence, which starts with `b`. -/
def lead (b : UInt8) (rest : Bytes) : Lead :=
  if b < 0x80 then .char (Char.ofNat b.toNat) 1
  else if 0xC2 ≤ b && b ≤ 0xDF then
    match rest with
    | x :: _ =>
        if isTail x then .char (Char.ofNat (b.toNat % 32 * 64 + tailBits x)) 2
        else .invalid 1
    | [] => .invalid 1
  else if 0xE0 ≤ b && b ≤ 0xEF then
    match rest with
    | x :: y :: _ =>
        if !secondOk b x then .invalid 1
        else if isTail y then
          .char (Char.ofNat ((b.toNat % 16 * 64 + tailBits x) * 64 + tailBits y)) 3
        else .invalid 2
    | [x] => if secondOk b x then .invalid 2 else .invalid 1
    | [] => .invalid 1
  else if 0xF0 ≤ b && b ≤ 0xF4 then
    match rest with
    | x :: y :: z :: _ =>
        if !secondOk b x then .invalid 1
        else if !isTail y then .invalid 2
        else if isTail z then
          .char (Char.ofNat
            (((b.toNat % 8 * 64 + tailBits x) * 64 + tailBits y) * 64 + tailBits z)) 4
        else .invalid 3
    | [x, y] =>
        if !secondOk b x then .invalid 1 else if isTail y then .invalid 3 else .invalid 2
    | [x] => if secondOk b x then .invalid 2 else .invalid 1
    | [] => .invalid 1
  else .invalid 1

/-- The characters of a byte string, `none` for each maximal invalid
run. `fuel` bounds the number of runs. -/
def scan : Nat → Bytes → List (Option Char)
  | 0, _ => []
  | _, [] => []
  | fuel + 1, b :: rest =>
      match lead b rest with
      | .char c length => some c :: scan fuel (rest.drop (length - 1))
      | .invalid length => none :: scan fuel (rest.drop (length - 1))

/-- The text whose UTF-8 form this is. -/
def decode? (bytes : Bytes) : Option String :=
  ((scan bytes.length bytes).mapM id).map String.ofList

/-- The text with U+FFFD in place of each maximal invalid run. -/
def decodeLossy (bytes : Bytes) : String :=
  String.ofList ((scan bytes.length bytes).map (·.getD '\uFFFD'))

end Bytes

end Depot
