/-
Cutting and joining text at a single character. The list forms carry the
recursion and are what proofs speak of; the string forms are what the
rest of the library calls. `pieces` never loses a character: joining the
pieces again gives the text back (`join_pieces`).
-/

namespace Depot.Text

/-- The text before and after the first `c`, if there is one. -/
def cut? (c : Char) : List Char → Option (List Char × List Char)
  | [] => none
  | x :: rest =>
      if x = c then some ([], rest)
      else (cut? c rest).map fun (before, after) => (x :: before, after)

/-- The pieces between the occurrences of `c`; `n` occurrences give
`n + 1` pieces, so the list is never empty. -/
def pieces (c : Char) : List Char → List (List Char)
  | [] => [[]]
  | x :: rest =>
      if x = c then [] :: pieces c rest
      else match pieces c rest with
        | [] => [[x]]
        | p :: ps => (x :: p) :: ps

/-- The pieces joined with `c` between neighbours. -/
def join (c : Char) : List (List Char) → List Char
  | [] => []
  | [p] => p
  | p :: q :: ps => p ++ c :: join c (q :: ps)

theorem pieces_ne_nil (c : Char) (s : List Char) : pieces c s ≠ [] := by
  cases s with
  | nil => simp [pieces]
  | cons x rest =>
      rw [pieces]
      split
      · simp
      · split <;> simp

theorem join_pieces (c : Char) (s : List Char) : join c (pieces c s) = s := by
  induction s with
  | nil => rfl
  | cons x rest ih =>
      rw [pieces]
      split
      · next h =>
        subst h
        cases hp : pieces x rest with
        | nil => exact absurd hp (pieces_ne_nil x rest)
        | cons p ps => rw [join, ← hp, ih]; rfl
      · cases hp : pieces c rest with
        | nil => exact absurd hp (pieces_ne_nil c rest)
        | cons p ps =>
            rw [hp] at ih
            cases ps with
            | nil => simpa [join] using ih
            | cons q qs => simpa [join] using ih

/-- `cut?` on strings. -/
def cutString? (c : Char) (s : String) : Option (String × String) :=
  (cut? c s.toList).map fun (before, after) => (String.ofList before, String.ofList after)

/-- `pieces` on strings. -/
def split (c : Char) (s : String) : List String :=
  (pieces c s.toList).map String.ofList

/-- The strings joined with `c` between neighbours. -/
def joinWith (c : Char) (parts : List String) : String :=
  String.ofList (join c (parts.map String.toList))

/-- What follows the last `c`, or all of the text if it has none. -/
def afterLast (c : Char) (s : String) : String :=
  (split c s).getLastD s

/-- What is left of `s` after `lead`, if it starts so. -/
def dropLead? : List Char → List Char → Option (List Char)
  | [], s => some s
  | _ :: _, [] => none
  | x :: lead, y :: s => if x = y then dropLead? lead s else none

/-- Whether `s` starts with `lead`. -/
def startsWith (lead s : String) : Bool :=
  (dropLead? lead.toList s.toList).isSome

end Depot.Text
