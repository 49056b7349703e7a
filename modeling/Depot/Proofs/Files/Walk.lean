/-
Where paths lead. A path without a step upwards leads to the place of its
names, if anywhere (`walk_eq`); in a tree in which everything lies in
directories (`Closed`) it leads there as soon as there is something there
and it ends in a name (`walk_concat`).
-/
import Depot.Files.Tree
import Mathlib.Data.List.Induction

namespace Depot.Files

/-- The names of a path: its pieces without those that say nothing. -/
def names (pieces : List String) : Place := pieces.filter fun piece => !Path.isIdle piece

theorem names_append (a b : List String) : names (a ++ b) = names a ++ names b :=
  List.filter_append a b

theorem names_singleton {name : String} (h : Path.isIdle name = false) : names [name] = [name] := by
  unfold names
  rw [List.filter_cons, h]
  rfl

theorem names_idle {piece : String} (h : Path.isIdle piece = true) : names [piece] = [] := by
  unfold names
  rw [List.filter_cons, h]
  rfl

/-- A path that ends in a name ends in it. -/
theorem names_concat (above : List String) {name : String} (h : Path.isIdle name = false) :
    names (above ++ [name]) = names above ++ [name] := by
  rw [names_append, names_singleton h]

/-- An operation on a path that is taken. -/
theorem reach_of_taken {α : Type} {path : String} (h : refusal? path = none)
    (result : Except OsError α) : reach path result = result := by
  unfold reach
  rw [h]

theorem reach_eq_ok_iff {α : Type} {path : String} {result : Except OsError α} {a : α} :
    reach path result = .ok a ↔ refusal? path = none ∧ result = .ok a := by
  unfold reach
  cases refusal? path <;> simp

theorem reach_eq_error_iff {α : Type} {path : String} {result : Except OsError α} {e : OsError} :
    reach path result = .error e
      ↔ refusal? path = some e ∨ refusal? path = none ∧ result = .error e := by
  unfold reach
  cases refusal? path <;> simp

namespace Tree

/-- Everything lies in a directory, and under a name that is not too
long. -/
structure Closed (t : Tree) : Prop where
  below : ∀ place name, t.node? (place ++ [name]) ≠ none → t.node? place = some .dir
  short : ∀ place name, t.node? (place ++ [name]) ≠ none → name.utf8ByteSize ≤ maxName

theorem closed_empty : empty.Closed where
  below place name h := by simp [node?, empty] at h
  short place name h := by simp [node?, empty] at h

@[simp] theorem node?_nil (t : Tree) : t.node? [] = some .dir := if_pos rfl

theorem node?_of_ne {t : Tree} {place : Place} (h : place ≠ []) :
    t.node? place = t.nodes[place]? := if_neg h

variable {t : Tree} {place : Place} {pieces : List String}

-- ===================================================== steps

/-- A step that says nothing leads from a directory to itself. -/
theorem step_idle {piece : String} (hdir : t.node? place = some .dir)
    (hidle : Path.isIdle piece = true) : t.step place piece = .ok place := by
  unfold step
  rw [if_neg (by simp [hdir]), if_pos hidle]

/-- A step along a name leads below it, or nowhere. -/
theorem step_name {name : String} (hdir : t.node? place = some .dir)
    (hname : Path.isIdle name = false) (hup : name ≠ "..") :
    t.step place name =
      if maxName < name.utf8ByteSize then .error .nameTooLong
      else if (t.node? (place ++ [name])).isSome then .ok (place ++ [name])
      else .error .notFound := by
  unfold step
  rw [if_neg (by simp [hdir]), if_neg (by simp [hname]), if_neg hup]

/-- Steps lead out of directories only. -/
theorem step_ok {piece : String} {next : Place} (h : t.step place piece = .ok next)
    (hup : piece ≠ "..") :
    t.node? place = some .dir ∧ next = place ++ names [piece]
      ∧ (Path.isIdle piece = false →
          piece.utf8ByteSize ≤ maxName ∧ t.node? (place ++ [piece]) ≠ none) := by
  unfold step at h
  by_cases hdir : t.node? place = some .dir
  · rw [if_neg (by simp [hdir])] at h
    cases hidle : Path.isIdle piece with
    | true =>
        rw [if_pos hidle] at h
        cases h
        exact ⟨hdir, by rw [names_idle hidle, List.append_nil], nofun⟩
    | false =>
        rw [if_neg (by simp [hidle]), if_neg hup] at h
        split at h
        · cases h
        · next hlen =>
          split at h
          · next hsome =>
            cases h
            refine ⟨hdir, by rw [names_singleton hidle], fun _ => ⟨by omega, ?_⟩⟩
            intro hnone
            rw [hnone] at hsome
            cases hsome
          · cases h
  · rw [if_pos hdir] at h
    cases h

/-- Walking on from where a path leads. -/
theorem walk_append (above : List String) (piece : String) :
    t.walk (above ++ [piece]) = (t.walk above).bind (t.step · piece) := by
  unfold walk
  rw [List.foldlM_append]
  show Except.bind _ _ = _
  congr 1
  funext next
  exact List.foldlM_cons.trans (bind_pure _)

/-- Where there is no next place, a directory lacks a name. -/
theorem step_notFound {piece : String} (h : t.step place piece = .error .notFound)
    (hup : piece ≠ "..") :
    t.node? place = some .dir ∧ Path.isIdle piece = false ∧ piece.utf8ByteSize ≤ maxName
      ∧ t.node? (place ++ [piece]) = none := by
  unfold step at h
  by_cases hdir : t.node? place = some .dir
  · rw [if_neg (by simp [hdir])] at h
    cases hidle : Path.isIdle piece with
    | true =>
        rw [if_pos hidle] at h
        cases h
    | false =>
        rw [if_neg (by simp [hidle]), if_neg hup] at h
        split at h
        · cases h
        · next hlen =>
          split at h
          · cases h
          · next hnone => exact ⟨hdir, rfl, by omega, by simpa using hnone⟩
  · rw [if_pos hdir] at h
    cases h

-- ===================================================== walks

/-- A path without a step upwards leads to the place of its names, if
anywhere. -/
theorem walk_eq {dest : Place} (h : t.walk pieces = .ok dest) (hup : ".." ∉ pieces) :
    dest = names pieces := by
  induction pieces using List.reverseRecOn generalizing dest with
  | nil =>
      cases h
      rfl
  | append_singleton above piece ih =>
      rw [walk_append] at h
      cases habove : t.walk above with
      | error e =>
          rw [habove] at h
          cases h
      | ok dir =>
          rw [habove] at h
          have hpiece : piece ≠ ".." := fun heq => hup (by simp [heq])
          rw [names_append, ← ih habove fun hmem => hup (by simp [hmem])]
          exact (step_ok h hpiece).2.1

/-- In a closed tree, every path leads to the directory of its names. -/
theorem walk_dir (hclosed : t.Closed) (hup : ".." ∉ pieces)
    (hdir : t.node? (names pieces) = some .dir) : t.walk pieces = .ok (names pieces) := by
  induction pieces using List.reverseRecOn with
  | nil => rfl
  | append_singleton above piece ih =>
      have habove : ".." ∉ above := fun hmem => hup (by simp [hmem])
      have hpiece : piece ≠ ".." := fun heq => hup (by simp [heq])
      rw [walk_append]
      cases hidle : Path.isIdle piece with
      | true =>
          rw [names_append, names_idle hidle, List.append_nil] at hdir ⊢
          rw [ih habove hdir]
          exact step_idle hdir hidle
      | false =>
          rw [names_concat above hidle] at hdir ⊢
          have hsome : t.node? (names above ++ [piece]) ≠ none := by simp [hdir]
          have hbelow := hclosed.below _ _ hsome
          rw [ih habove hbelow]
          show t.step (names above) piece = _
          rw [step_name hbelow hidle hpiece, if_neg (Nat.not_lt.2 (hclosed.short _ _ hsome)),
            if_pos (by simp [hdir])]

/-- In a closed tree, a path that ends in a name is walked along that name
from the directory above. -/
theorem walk_concat (hclosed : t.Closed) {above : List String} {name : String}
    (hup : ".." ∉ above ++ [name]) (hname : Path.isIdle name = false)
    (hdir : t.node? (names above) = some .dir) (hlen : name.utf8ByteSize ≤ maxName) :
    t.walk (above ++ [name]) =
      if (t.node? (names (above ++ [name]))).isSome then .ok (names (above ++ [name]))
      else .error .notFound := by
  have habove : ".." ∉ above := fun hmem => hup (by simp [hmem])
  have hpiece : name ≠ ".." := fun heq => hup (by simp [heq])
  rw [walk_append, walk_dir hclosed habove hdir, names_concat above hname]
  show t.step (names above) name = _
  rw [step_name hdir hname hpiece, if_neg (Nat.not_lt.2 hlen)]

end Tree

end Depot.Files
