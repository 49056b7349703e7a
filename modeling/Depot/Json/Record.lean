/-
Readers for text of a known shape. They go through the text once from
front to back, so the fault they report is the first one in the text,
whether it is bad JSON or a value of the wrong kind.

A record is an object with known fields, each at most once and others
passed over, or else an array of the fields in their order, from which
fields at the end may be missing.
-/
import Depot.Json.Reader
import Std.Data.ExtTreeMap

namespace Depot.Json.Reader

/-- Reads the value that stands where another kind was asked for. -/
def mistyped {α : Type} (fuel : Nat) : Reader α := do
  match ← peek with
  | none => fail .truncated
  | some '[' | some '{' => fail .mismatched
  | some c => do
      let _ ← scalar fuel c
      fail .mismatched

/-- A string. -/
def text (fuel : Nat) : Reader String := do
  match ← peek with
  | some '"' => string fuel
  | _ => mistyped fuel

/-- A truth value. -/
def flag (fuel : Nat) : Reader Bool := do
  match ← peek with
  | some 't' => do word ['t', 'r', 'u', 'e']; pure true
  | some 'f' => do word ['f', 'a', 'l', 's', 'e']; pure false
  | _ => mistyped fuel

/-- Null, for a value that is not there. -/
def optional {α : Type} (reader : Reader α) : Reader (Option α) := do
  match ← peek with
  | some 'n' => do word ['n', 'u', 'l', 'l']; pure none
  | _ => return some (← reader)

/-- An array whose items are all of one kind. -/
def listOf {α : Type} (fuel : Nat) (item : Reader α) : Reader (List α) := do
  match ← peek with
  | some '[' => do
      take
      return (← items (fun found => return (← item) :: found) fuel true []).reverse
  | _ => mistyped fuel

/-- An object whose values are all of one kind; of members of one name the
last counts. -/
def mapOf {α : Type} (fuel : Nat) (item : Reader α) : Reader (Std.ExtTreeMap String α) := do
  match ← peek with
  | some '{' => do
      take
      members (string fuel) (fun n found => do colon; return found.insert n (← item)) fuel true ∅
  | _ => mistyped fuel

/-- A name in an object, where nothing but a string may stand. -/
def memberName (fuel : Nat) : Reader String := do
  match ← peek with
  | none => fail .truncated
  | some '"' => string fuel
  | some _ => fail .malformed

/-- One of the named alternatives: its name, or an object of that name
with null. -/
def choice {α : Type} (fuel : Nat) (named : String → Option α) : Reader α := do
  match ← peek with
  | none => fail .truncated
  | some '"' =>
      match named (← string fuel) with
      | some a => pure a
      | none => fail .mismatched
  | some '{' => do
      take
      match named (← memberName fuel) with
      | none => fail .mismatched
      | some a => do
          colon
          match ← peek with
          | some 'n' => word ['n', 'u', 'l', 'l']
          | _ => mistyped fuel
          match ← peek with
          | none => fail .truncated
          | some '}' => do take; pure a
          | some _ => fail .malformed
  | some _ => fail .malformed

/-- A field of a record: what it is called, and how its value is taken in. -/
structure RecordField (σ : Type) where
  name : String
  read : σ → Reader σ

/-- A member of a record's object form. -/
def fieldMember {σ : Type} (fuel : Nat) (fields : List (RecordField σ)) (name : String) :
    List String × σ → Reader (List String × σ)
  | (seen, s) =>
      match fields.find? (fun f => f.name = name) with
      | none => do colon; skip fuel; pure (seen, s)
      | some f =>
          if seen.contains name then fail .mismatched
          else do colon; return (name :: seen, ← f.read s)

/-- The fields of a record's array form, and the bracket that ends it. -/
def fieldItems {σ : Type} : List (RecordField σ) → Bool → σ → Reader σ
  | [], _, s => do
      match ← peek with
      | none => fail .truncated
      | some ']' => do take; pure s
      | some _ => fail .malformed
  | f :: fields, first, s => do
      match ← nextItem first with
      | .close => do take; pure s
      | .item => do
          let s ← f.read s
          fieldItems fields false s

/-- A record. -/
def record {σ : Type} (fuel : Nat) (fields : List (RecordField σ)) (start : σ) : Reader σ := do
  match ← peek with
  | some '{' => do
      take
      return (← members (string fuel) (fieldMember fuel fields) fuel true ([], start)).2
  | some '[' => do
      take
      fieldItems fields true start
  | _ => mistyped fuel

end Depot.Json.Reader
