/-
The text of paths, taken apart. A path that is led on behind a slash has
the pieces of both (`Text.split_slash`), wherever it starts
(`join_slash`); and its components are the steps that it says to take,
which are names only if it neither starts at a root nor with a point and
never goes upwards (`components_isName_iff`).
-/
import Depot.Proofs.Files.Walk
import Depot.Proofs.Text.Split
import Mathlib.Data.List.TakeWhile

namespace Depot

open Text

namespace Path

variable {path base a b : String}

-- ===================================================== joining

theorem isAbsolute_append (h : a ≠ "") (b : String) : isAbsolute (a ++ b) = isAbsolute a := by
  unfold isAbsolute
  rw [String.toList_append]
  cases ha : a.toList with
  | nil => exact absurd (String.toList_eq_nil_iff.1 ha) h
  | cons x s => rfl

/-- What follows a slash follows it in a joined path. -/
theorem join_slash (base : String) (h : a ≠ "") (b : String) :
    join base (a ++ "/" ++ b) = join base a ++ "/" ++ b := by
  unfold join
  rw [String.append_assoc, isAbsolute_append h]
  split
  · rw [String.append_assoc]
  · split <;> simp only [String.append_assoc]

/-- A relative path is joined with a slash to a path that does not end in
one. -/
theorem join_relative (hbase : base ≠ "") (hlast : base.toList.getLast? ≠ some '/')
    (h : isAbsolute path = false) : join base path = base ++ "/" ++ path := by
  unfold join
  rw [if_neg (by simp [h, hbase]), if_neg hlast]

/-- A joined path is the path itself, or the path behind a slash. -/
theorem join_cases (base path : String) :
    join base path = path ∨ ∃ lead, join base path = lead ++ "/" ++ path := by
  unfold join
  split
  · exact .inl rfl
  · split
    · next hlast =>
      -- the slash between the two is already there
      obtain ⟨lead, hlead⟩ := List.getLast?_eq_some_iff.1 hlast
      refine .inr ⟨String.ofList lead, ?_⟩
      rw [← String.toList_inj, String.toList_append, String.toList_append, String.toList_append,
        String.toList_ofList, hlead]
      rfl
    · exact .inr ⟨base, rfl⟩

/-- The last pieces of a joined path are those of the path. -/
theorem split_join (base path : String) :
    ∃ above, split '/' (join base path) = above ++ split '/' path := by
  rcases join_cases base path with heq | ⟨lead, heq⟩
  · exact ⟨[], by rw [heq]; rfl⟩
  · exact ⟨split '/' lead, by rw [heq, split_slash]⟩

/-- The first piece is empty in a path that is empty or starts at the
root. -/
theorem head?_split_eq_empty :
    (split '/' path).head? = some "" ↔ path = "" ∨ isAbsolute path = true := by
  unfold isAbsolute split
  rw [List.head?_map]
  cases hpath : path.toList with
  | nil =>
      have hempty : path = "" := by simpa using hpath
      simp [hempty, pieces]
  | cons x s =>
      have hne : path ≠ "" := by
        intro hempty
        rw [hempty] at hpath
        cases hpath
      by_cases hx : x = '/'
      · subst hx
        simp [pieces]
      · obtain ⟨p, ps, -, hps⟩ := pieces_cons_of_ne hx s
        simp [hps, hne, hx, ← String.toList_inj]

-- ===================================================== directories

/-- Dropping from the front stops at what is not to be dropped. -/
theorem dropWhile_append_of_stop {α : Type} {p : α → Bool} {x : α} (xs ys : List α)
    (hx : p x = false) : (xs ++ x :: ys).dropWhile p = xs.dropWhile p ++ x :: ys := by
  rw [List.dropWhile_append, List.dropWhile_cons_of_neg (by simp [hx])]
  split
  · next hempty => rw [List.isEmpty_iff.1 hempty, List.nil_append]
  · rfl

/-- The directory of a path that goes on from a name to others. -/
theorem parent_eq {front back : List String} {last piece : String}
    (hpath : split '/' path = front ++ last :: back) (hlast : isIdle last = false)
    (hmem : piece ∈ back) (hpiece : isIdle piece = false) :
    parent path = joinWith '/'
      (front ++ last :: ((back.reverse.dropWhile isIdle).tail.dropWhile isIdle).reverse) := by
  unfold parent namesBackwards
  rw [hpath, show (front ++ last :: back).reverse = back.reverse ++ last :: front.reverse by simp,
    dropWhile_append_of_stop _ _ hlast]
  cases hback : back.reverse.dropWhile isIdle with
  | nil =>
      have hidle := List.dropWhile_eq_nil_iff.1 hback piece (List.mem_reverse.2 hmem)
      rw [hpiece] at hidle
      cases hidle
  | cons name above =>
      rw [List.cons_append, List.tail_cons, dropWhile_append_of_stop _ _ hlast]
      simp

-- ===================================================== components

/-- All components are names if the path does not start at the root or
with a point and does not go upwards. -/
theorem components_isName_iff : (components path).all Component.isName = true
    ↔ isAbsolute path = false ∧ (split '/' path).head? ≠ some "." ∧ ".." ∉ split '/' path := by
  have hsteps : (((split '/' path).filter fun piece => !isIdle piece).map
        Component.ofPiece).all Component.isName = true
      ↔ ".." ∉ split '/' path := by
    rw [List.all_map, List.all_eq_true]
    constructor
    · intro h hmem
      have hname : ".." ∈ (split '/' path).filter fun piece => !isIdle piece :=
        List.mem_filter.2 ⟨hmem, by decide⟩
      exact absurd (h _ hname) (by decide)
    · intro h piece hpiece
      have hne : piece ≠ ".." := fun heq => h (heq ▸ (List.mem_filter.1 hpiece).1)
      simp [Component.ofPiece, hne, Component.isName]
  unfold components
  dsimp only
  cases habs : isAbsolute path with
  | true => simp [Component.isName]
  | false =>
      by_cases hhere : (split '/' path).head? = some "."
      · simp [hhere, Component.isName]
      · simp only [Bool.false_eq_true, ↓reduceIte, hhere, hsteps, not_false_eq_true, true_and,
          ne_eq]

end Path

end Depot
