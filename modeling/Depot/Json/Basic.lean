/-
JSON values. An object keeps its members sorted by name and has each
name once: a member set again replaces the one before, which is what
reading a text with a repeated name does too.
-/
import Depot.Decimal.Double

namespace Depot

/-- A number of a JSON text: an integer of 64 bits, signed or not, or
else a double. -/
inductive Json.Number where
  | int (n : Int)
  | float (x : Decimal.Double)
deriving DecidableEq, Repr

/-- A JSON value. -/
inductive Json where
  | null
  | bool (b : Bool)
  | num (n : Json.Number)
  | str (s : String)
  | arr (items : List Json)
  | obj (members : List (String × Json))
deriving BEq, Repr, Inhabited

namespace Json

/-- Whether a number is zero, of either sign. -/
def Number.isZero : Number → Bool
  | int n => n == 0
  | float x => x.isZero

/-- The members with `name` set to `value`. -/
def setMember (name : String) (value : Json) : List (String × Json) → List (String × Json)
  | [] => [(name, value)]
  | (n, v) :: rest =>
      if name < n then (name, value) :: (n, v) :: rest
      else if name = n then (name, value) :: rest
      else (n, v) :: setMember name value rest

/-- The object with these members, of which the last of a name counts. -/
def ofMembers (members : List (String × Json)) : Json :=
  obj (members.foldl (fun set (n, v) => setMember n v set) [])

/-- The member called `name`, of an object that has one. -/
def member? (name : String) : Json → Option Json
  | obj members => members.lookup name
  | _ => none

/-- An integer. -/
def ofNat (n : Nat) : Json := num (.int n)

/-- A string, or null for none. -/
def ofString? : Option String → Json
  | some s => str s
  | none => null

/-- An array of strings. -/
def ofStrings (items : List String) : Json := arr (items.map str)

/-- The text of a string. -/
def string? : Json → Option String
  | str s => some s
  | _ => none

/-- The items of an array. -/
def items? : Json → Option (List Json)
  | arr items => some items
  | _ => none

/-- The value of an integer that is not negative. -/
def nat? : Json → Option Nat
  | num (.int n) => if 0 ≤ n then some n.toNat else none
  | _ => none

end Json

end Depot
