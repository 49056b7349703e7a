/-
Numeric hosts. An IPv4 address may be written with fewer than four
numbers, of which the last fills what the others leave, each in decimal,
octal (`0…`) or hexadecimal (`0x…`). An IPv6 address is eight pieces, of
which a run of zeros may be left out once (`::`) and the last two may be
written as an IPv4 address.
-/
import Depot.Text.Ascii
import Depot.Text.Split

namespace Depot.Url

-- ===================================================== IPv4

/-- What digits in a base spell. -/
def digitsValue? (base : Nat) (s : List Char) : Option Nat :=
  s.foldlM (fun n c => do
    let d ← Text.hexValue? c
    if d < base then some (n * base + d) else none) 0

/-- A number of an IPv4 address, of any size. -/
def ipv4Number? : List Char → Option Nat
  | [] => none
  | '0' :: 'x' :: rest => digitsValue? 16 rest
  | '0' :: 'X' :: rest => digitsValue? 16 rest
  | '0' :: d :: rest => digitsValue? 8 (d :: rest)
  | s => digitsValue? 10 s

/-- Whether a host has to be an IPv4 address, as its last label is a
number. -/
def endsInNumber (host : List Char) : Bool :=
  let labels := (Text.pieces '.' host).reverse
  let last := match labels with
    | [] :: before :: _ => before
    | label :: _ => label
    | [] => []
  (!last.isEmpty && last.all Char.isDigit) || (ipv4Number? last).isSome

/-- The numbers before the last take one octet each; the last takes the
octets that are left. -/
def ipv4Value? (numbers : List Nat) : Option Nat :=
  match numbers.reverse with
  | [] => none
  | last :: before =>
      let before := before.reverse
      if 4 ≤ before.length ∨ before.any (255 < ·) ∨ Nat.pow 256 (4 - before.length) ≤ last then none
      else
        some (before.zipIdx.foldl (fun sum (n, i) => sum + n * Nat.pow 256 (3 - i)) last)

/-- The value of an IPv4 address. -/
def ipv4? (host : List Char) : Option Nat :=
  let labels := Text.pieces '.' host
  let labels := if labels.getLast? = some [] then labels.dropLast else labels
  (labels.mapM ipv4Number?).bind ipv4Value?

/-- The four decimal numbers of an IPv4 address. -/
def ipv4Text (address : Nat) : String :=
  Text.joinWith '.' ([3, 2, 1, 0].map fun i => toString (address / Nat.pow 256 i % 256))

-- ===================================================== IPv6

/-- How many pieces an IPv6 address has. -/
def ipv6Size : Nat := 8

/-- The pieces read so far and where a run of zeros was left out. -/
structure Ipv6Pieces where
  done : List Nat
  gap : Option Nat

/-- All eight pieces: the zeros that were left out go into the gap. -/
def Ipv6Pieces.complete? (p : Ipv6Pieces) : Option (List Nat) :=
  match p.gap with
  | none => if p.done.length = ipv6Size then some p.done else none
  | some i =>
      if ipv6Size < p.done.length then none
      else some (p.done.take i ++ List.replicate (ipv6Size - p.done.length) 0 ++ p.done.drop i)

/-- A number of the IPv4 form at the end of an IPv6 address: at most 255
and without leading zeros. -/
def strictOctet? (s : List Char) : Option Nat :=
  match s with
  | '0' :: _ :: _ => none
  | [] => none
  | s => (digitsValue? 10 s).bind fun n => if n ≤ 255 then some n else none

/-- The two pieces that the IPv4 form spells. -/
def embeddedIpv4? (s : List Char) : Option (List Nat) :=
  match (Text.pieces '.' s).mapM strictOctet? with
  | some [a, b, c, d] => some [a * 256 + b, c * 256 + d]
  | _ => none

/-- Reads pieces separated by colons, after those of `p`. -/
def ipv6Pieces? : Nat → Ipv6Pieces → List Char → Option Ipv6Pieces
  | 0, _, _ => none
  | _, p, [] => some p
  | fuel + 1, p, c :: s =>
      if ipv6Size ≤ p.done.length then none
      else if c = ':' then
        if p.gap.isSome then none
        else ipv6Pieces? fuel ⟨p.done ++ [0], some (p.done.length + 1)⟩ s
      else
        let digits := ((c :: s).take 4).takeWhile Text.isHexDigit
        match (c :: s).drop digits.length with
        | '.' :: _ =>
            if digits.isEmpty ∨ ipv6Size - 2 < p.done.length then none
            else (embeddedIpv4? (c :: s)).map fun pair => { p with done := p.done ++ pair }
        | ':' :: [] => none
        | ':' :: rest =>
            (digitsValue? 16 digits).bind fun n =>
              ipv6Pieces? fuel { p with done := p.done ++ [n] } rest
        | [] => (digitsValue? 16 digits).map fun n => { p with done := p.done ++ [n] }
        | _ :: _ => none

/-- The eight pieces of an IPv6 address, which is written without
brackets. -/
def ipv6? (s : List Char) : Option (List Nat) :=
  let found := match s with
    | ':' :: ':' :: rest => ipv6Pieces? (s.length + 1) ⟨[0], some 1⟩ rest
    | ':' :: _ => none
    | _ :: _ :: _ => ipv6Pieces? (s.length + 1) ⟨[], none⟩ s
    | _ => none
  found.bind Ipv6Pieces.complete?

/-- How many zeros stand in front of a list. -/
def zeroRun (pieces : List Nat) : Nat := (pieces.takeWhile (· == 0)).length

/-- Where the first of the longest runs of zeros starts and how long it
is. -/
def longestZeros (pieces : List Nat) : Nat × Nat :=
  (List.range pieces.length).foldl (fun (at_, n) i =>
    let run := zeroRun (pieces.drop i)
    if n < run then (i, run) else (at_, n)) (0, 0)

/-- Pieces in hexadecimal with colons between. -/
def piecesText (pieces : List Nat) : String :=
  Text.joinWith ':' (pieces.map Text.hexNumeral)

/-- The text of an IPv6 address, in brackets. The first of the longest
runs of two zeros or more is left out. -/
def ipv6Text (pieces : List Nat) : String :=
  let (start, length) := longestZeros pieces
  if length < 2 then "[" ++ piecesText pieces ++ "]"
  else
    "[" ++ piecesText (pieces.take start) ++ "::" ++ piecesText (pieces.drop (start + length))
      ++ "]"

end Depot.Url
