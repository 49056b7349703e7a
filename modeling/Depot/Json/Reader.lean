/-
Reading JSON text. A `Reader` takes characters off the front of the text
that is left and yields a value or the first fault it meets. The readers
of arrays and objects are given the reader of what they hold, so that the
same grammar serves values of any shape (`value`), records with known
fields (`Depot.Json.Record`) and text that is only passed over (`skip`).

How deep arrays and objects may nest is the measure of `value`; how long
they are is bounded by `fuel`, for which the length of the text is always
enough.
-/
import Depot.Json.Basic
import Depot.Text.Ascii

namespace Depot.Json

/-- Why a text is not read. -/
inductive Fault where
  /-- The text is not JSON. -/
  | malformed
  /-- The text ends too early. -/
  | truncated
  /-- The text is JSON of another shape than was asked for. -/
  | mismatched
deriving DecidableEq, Repr

/-- Reads a value off the front of a text. -/
abbrev Reader := StateT (List Char) (Except Fault)

/-- How deep arrays and objects may nest. -/
def maxDepth : Nat := 127

namespace Reader

/-- Drops blanks. -/
def dropBlanks : List Char → List Char
  | ' ' :: rest => dropBlanks rest
  | '\n' :: rest => dropBlanks rest
  | '\t' :: rest => dropBlanks rest
  | '\r' :: rest => dropBlanks rest
  | s => s

/-- The next character that is not blank, if there is one; it is not
taken. -/
def peek : Reader (Option Char) := fun s =>
  let s := dropBlanks s
  .ok (s.head?, s)

/-- The next character, if there is one; it is not taken. -/
def front : Reader (Option Char) := fun s => .ok (s.head?, s)

/-- Takes one character. -/
def take : Reader Unit := fun s => .ok ((), s.tail)

/-- Fails. -/
def fail {α : Type} (f : Fault) : Reader α := fun _ => .error f

/-- Takes exactly the characters of `word`. -/
def word : List Char → Reader Unit
  | [] => pure ()
  | c :: rest => do
      match ← front with
      | none => fail .truncated
      | some d => if c = d then do take; word rest else fail .malformed

-- ===================================================== strings

/-- Takes four hexadecimal digits. Text that is too short for them in
octets is cut off; any other is not JSON. -/
def hexEscape : Reader Nat := fun s =>
  match s with
  | a :: b :: c :: d :: rest =>
      match Text.hexValue? a, Text.hexValue? b, Text.hexValue? c, Text.hexValue? d with
      | some a, some b, some c, some d => .ok (((a * 16 + b) * 16 + c) * 16 + d, rest)
      | _, _, _, _ => .error .malformed
  | s => if s.foldl (fun n c => n + c.utf8Size) 0 < 4 then .error .truncated else .error .malformed

/-- Whether a number is the first half of a character written as two
escapes. -/
def isHighHalf (n : Nat) : Bool := 0xD800 ≤ n && n ≤ 0xDBFF

/-- Whether a number is the second half of such a character. -/
def isLowHalf (n : Nat) : Bool := 0xDC00 ≤ n && n ≤ 0xDFFF

/-- The character after `\u`, which takes a second escape if the first is
a high half. -/
def unicodeEscape : Reader Char := do
  let n ← hexEscape
  if isLowHalf n then fail .malformed
  else if isHighHalf n then do
    word ['\\', 'u']
    let m ← hexEscape
    if isLowHalf m then
      pure (Char.ofNat (0x10000 + (n - 0xD800) * 0x400 + (m - 0xDC00)))
    else fail .malformed
  else pure (Char.ofNat n)

/-- The character that a letter after a backslash stands for. -/
def simpleEscape? : Char → Option Char
  | '"' => some '"'
  | '\\' => some '\\'
  | '/' => some '/'
  | 'b' => some '\x08'
  | 'f' => some '\x0c'
  | 'n' => some '\n'
  | 'r' => some '\r'
  | 't' => some '\t'
  | _ => none

/-- The rest of a string after its opening quote, and the quote that
closes it. `escape` reads what follows `\u`; `seen` holds the characters
so far, last one first. -/
def stringBody (escape : Reader Char) : Nat → List Char → Reader (List Char)
  | 0, _ => fail .truncated
  | fuel + 1, seen => do
      match ← front with
      | none => fail .truncated
      | some '"' => do take; pure seen.reverse
      | some '\\' => do
          take
          match ← front with
          | none => fail .truncated
          | some 'u' => do
              take
              let c ← escape
              stringBody escape fuel (c :: seen)
          | some e =>
              match simpleEscape? e with
              | some c => do take; stringBody escape fuel (c :: seen)
              | none => fail .malformed
      | some c =>
          if c.toNat < 32 then fail .malformed
          else do take; stringBody escape fuel (c :: seen)

/-- A string, from its opening quote on. -/
def string (fuel : Nat) : Reader String := do
  take
  return String.ofList (← stringBody unicodeEscape fuel [])

-- ===================================================== numbers

/-- The largest number that digits are gathered to: 64 bits. -/
def maxGathered : Nat := 18446744073709551615

/-- The largest exponent that digits are gathered to: 31 bits. -/
def maxExponent : Nat := 2147483647

/-- The largest power of ten that is a finite double. -/
def maxTenPower : Nat := 308

/-- The digits at the front of a text and what follows them. -/
def spanDigits (s : List Char) : List Char × List Char := s.span Char.isDigit

/-- Gathers digits into `n` until one would make it larger than `limit`:
the number, the digits taken and those left over. -/
def gather (limit : Nat) : Nat → Nat → List Char → Nat × Nat × List Char
  | n, taken, [] => (n, taken, [])
  | n, taken, d :: rest =>
      let next := n * 10 + (d.toNat - '0'.toNat)
      if limit < next then (n, taken, d :: rest) else gather limit next (taken + 1) rest

/-- Divides by 10 ^ 308 until the exponent is in reach. Three rounds bring
any number to zero. -/
def scaleDown : Nat → Decimal.Double → Int → Decimal.Double × Int
  | 0, x, e => (x, e)
  | fuel + 1, x, e =>
      if (maxTenPower : Int) < -e && !x.isZero then
        match (Decimal.Double.tenPower? maxTenPower).bind x.div? with
        | some y => scaleDown fuel y (e + maxTenPower)
        | none => (x, e)
      else (x, e)

/-- The double read for `n · 10 ^ e`: the double nearest to `n`, scaled by
doubles that are powers of ten. This is not always the double nearest to
the decimal. -/
def scaled? (n : Nat) (e : Int) : Option Decimal.Double := do
  let x ← Decimal.Double.ofNat? n
  let (x, e) := scaleDown 4 x e
  if x.isZero then return x
  else if (maxTenPower : Int) < e ∨ (maxTenPower : Int) < -e then none
  else if 0 ≤ e then x.mul? (← Decimal.Double.tenPower? e.toNat)
  else x.div? (← Decimal.Double.tenPower? (-e).toNat)

/-- The number `n · 10 ^ e` as a double. -/
def scaledNumber (negative : Bool) (n : Nat) (e : Int) : Reader Number :=
  match scaled? n e with
  | some x => pure (.float (x.withSign negative))
  | none => fail .malformed

/-- The exponent after `e`, for the number `n · 10 ^ e` read so far. -/
def exponent (negative : Bool) (n : Nat) (e : Int) : Reader Number := do
  take
  let down ← (do
    match ← front with
    | some '+' => do take; pure false
    | some '-' => do take; pure true
    | _ => pure false : Reader Bool)
  match ← front with
  | none => fail .truncated
  | some d =>
      if d.isDigit then
        let (digits, rest) := spanDigits (← get)
        set rest
        match gather maxExponent 0 0 digits with
        | (k, _, []) => scaledNumber negative n (if down then e - k else e + k)
        | _ =>
            if n ≠ 0 ∧ !down then fail .malformed
            else pure (.float (.zero negative))
      else fail .malformed

/-- What may follow the digits of `n · 10 ^ e`: an exponent or nothing. -/
def exponentOrEnd (negative : Bool) (n : Nat) (e : Int) : Reader Number := do
  match ← front with
  | some 'e' | some 'E' => exponent negative n e
  | _ => scaledNumber negative n e

/-- The fraction after the point. Digits that do not fit any more are
passed over. -/
def fraction (negative : Bool) (n : Nat) (e : Int) : Reader Number := do
  take
  match ← front with
  | none => fail .truncated
  | some d =>
      if d.isDigit then
        let (digits, rest) := spanDigits (← get)
        set rest
        let (n, taken, _) := gather maxGathered n 0 digits
        exponentOrEnd negative n (e - taken)
      else fail .malformed

/-- An integer, where it fits in 64 bits with its sign. Minus zero does
not. -/
def integer (negative : Bool) (n : Nat) : Reader Number :=
  if !negative then pure (.int n)
  else if 0 < n ∧ n ≤ 9223372036854775808 then pure (.int (-n))
  else scaledNumber true n 0

/-- A number without its sign. -/
def unsigned (negative : Bool) : Reader Number := do
  match ← front with
  | none => fail .truncated
  | some d =>
      if d.isDigit then
        let (digits, rest) := spanDigits (← get)
        if d = '0' ∧ 1 < digits.length then fail .malformed
        else do
          set rest
          match gather maxGathered 0 0 digits with
          | (n, _, []) =>
              match rest.head? with
              | some '.' => fraction negative n 0
              | some 'e' | some 'E' => exponent negative n 0
              | _ => integer negative n
          | (n, _, dropped) =>
              match rest.head? with
              | some '.' => fraction negative n dropped.length
              | _ => exponentOrEnd negative n dropped.length
      else fail .malformed

/-- A number. -/
def number : Reader Number := do
  match ← front with
  | some '-' => do take; unsigned true
  | _ => unsigned false

-- ===================================================== arrays and objects

/-- What stands at the next place of an array or object. -/
inductive Place where
  | item
  | close
deriving DecidableEq

/-- Whether another item follows in an array. -/
def nextItem (first : Bool) : Reader Place := do
  match ← peek with
  | none => fail .truncated
  | some ']' => pure .close
  | some ',' =>
      if first then pure .item
      else do
        take
        match ← peek with
        | none => fail .truncated
        | some ']' => fail .malformed
        | some _ => pure .item
  | some _ => if first then pure .item else fail .malformed

/-- Whether another member follows in an object; its name comes next. -/
def nextMember (first : Bool) : Reader Place := do
  match ← peek with
  | none => fail .truncated
  | some '}' => pure .close
  | some ',' =>
      if first then fail .malformed
      else do
        take
        match ← peek with
        | none => fail .truncated
        | some '"' => pure .item
        | some _ => fail .malformed
  | some c => if first ∧ c = '"' then pure .item else fail .malformed

/-- The colon after a member's name. -/
def colon : Reader Unit := do
  match ← peek with
  | none => fail .truncated
  | some ':' => take
  | some _ => fail .malformed

/-- The items of an array up to its closing bracket; each makes a new
state out of the one before. -/
def items {σ : Type} (item : σ → Reader σ) : Nat → Bool → σ → Reader σ
  | 0, _, _ => fail .truncated
  | fuel + 1, first, s => do
      match ← nextItem first with
      | .close => do take; pure s
      | .item => do
          let s ← item s
          items item fuel false s

/-- The members of an object up to its closing brace. `member` is given
the name and reads the colon and the value. -/
def members {σ : Type} (name : Reader String) (member : String → σ → Reader σ) :
    Nat → Bool → σ → Reader σ
  | 0, _, _ => fail .truncated
  | fuel + 1, first, s => do
      match ← nextMember first with
      | .close => do take; pure s
      | .item => do
          let n ← name
          let s ← member n s
          members name member fuel false s

/-- A scalar, or the fault that no value starts so. -/
def scalar (fuel : Nat) (c : Char) : Reader Json := do
  match c with
  | 'n' => do word ['n', 'u', 'l', 'l']; pure .null
  | 't' => do word ['t', 'r', 'u', 'e']; pure (.bool true)
  | 'f' => do word ['f', 'a', 'l', 's', 'e']; pure (.bool false)
  | '"' => return .str (← string fuel)
  | c => if c = '-' ∨ c.isDigit then return .num (← number) else fail .malformed

/-- A value in which arrays and objects nest at most `depth` deep. -/
def value (fuel : Nat) : Nat → Reader Json
  | 0 => do
      match ← peek with
      | none => fail .truncated
      | some c => scalar fuel c
  | depth + 1 => do
      match ← peek with
      | none => fail .truncated
      | some '[' => do
          take
          let found ← items (fun found => return (← value fuel depth) :: found) fuel true []
          return .arr found.reverse
      | some '{' => do
          take
          let found ← members (string fuel)
            (fun n found => do colon; return setMember n (← value fuel depth) found) fuel true []
          return .obj found
      | some c => scalar fuel c

-- ===================================================== passing over values

/-- What follows `\u` in a string that is passed over: any four digits. -/
def passEscape : Reader Char := do
  let _ ← hexEscape
  return ' '

/-- Passes over a string. -/
def skipString (fuel : Nat) : Reader String := do
  take
  return String.ofList (← stringBody passEscape fuel [])

/-- Passes over one digit or more. -/
def skipDigits : Reader Unit := do
  let (digits, rest) := spanDigits (← get)
  if digits.isEmpty then fail .malformed else set rest

/-- Passes over a number, of any size. -/
def skipNumber : Reader Unit := do
  if (← front) = some '-' then take
  match spanDigits (← get) with
  | ('0' :: _ :: _, _) => fail .malformed
  | _ => skipDigits
  if (← front) = some '.' then do take; skipDigits
  match ← front with
  | some 'e' | some 'E' => do
      take
      match ← front with
      | some '+' | some '-' => do take; skipDigits
      | _ => skipDigits
  | _ => pure ()

/-- Passes over a value, however deep. -/
def skip : Nat → Reader Unit
  | 0 => fail .truncated
  | fuel + 1 => do
      match ← peek with
      | none => fail .truncated
      | some '[' => do
          take
          items (fun _ => skip fuel) (fuel + 1) true ()
      | some '{' => do
          take
          members (skipString (fuel + 1)) (fun _ _ => do colon; skip fuel) (fuel + 1) true ()
      | some '"' => do let _ ← skipString (fuel + 1)
      | some 'n' => word ['n', 'u', 'l', 'l']
      | some 't' => word ['t', 'r', 'u', 'e']
      | some 'f' => word ['f', 'a', 'l', 's', 'e']
      | some c => if c = '-' ∨ c.isDigit then skipNumber else fail .malformed

-- ===================================================== whole texts

/-- Reads a whole text, which may end in blanks. -/
def run {α : Type} (reader : Nat → Reader α) (text : String) : Except Fault α :=
  let chars := text.toList
  match reader (chars.length + 1) chars with
  | .error f => .error f
  | .ok (a, rest) => if (dropBlanks rest).isEmpty then .ok a else .error .malformed

end Reader

/-- Reads one JSON value. -/
def read (text : String) : Except Fault Json :=
  Reader.run (fun fuel => Reader.value fuel maxDepth) text

end Depot.Json
