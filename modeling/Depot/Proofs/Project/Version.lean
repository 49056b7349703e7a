/-
Sorting versions loses none and makes none up (`newestFirst_perm`).
-/
import Depot.Project.Version

namespace Depot.Project

/-- A version is put among others. -/
theorem insertVersion_perm (x : Version × String) (ys : List (Version × String)) :
    (insertVersion x ys).Perm (x :: ys) := by
  induction ys with
  | nil => exact .refl _
  | cons y ys ih =>
      unfold insertVersion
      split
      · exact (ih.cons y).trans (.swap x y ys)
      · exact .refl _

/-- A text is put among others. -/
theorem insertText_perm (x : String) (ys : List String) : (insertText x ys).Perm (x :: ys) := by
  induction ys with
  | nil => exact .refl _
  | cons y ys ih =>
      unfold insertText
      split
      · exact (ih.cons y).trans (.swap x y ys)
      · exact .refl _

/-- What is put in place one by one is all there in the end. -/
theorem foldl_insert_perm {α : Type} {put : α → List α → List α}
    (hput : ∀ x ys, (put x ys).Perm (x :: ys)) (xs sorted : List α) :
    (xs.foldl (fun sorted x => put x sorted) sorted).Perm (sorted ++ xs) := by
  induction xs generalizing sorted with
  | nil => simp
  | cons x xs ih =>
      rw [List.foldl_cons]
      refine (ih (put x sorted)).trans (((hput x sorted).append_right xs).trans ?_)
      exact List.perm_middle.symm

/-- A text spells a version or it does not. -/
theorem versions_perm (texts : List String) :
    ((versions texts).map (·.2) ++ unversioned texts).Perm texts := by
  induction texts with
  | nil => exact .refl _
  | cons t texts ih =>
      unfold versions unversioned at ih ⊢
      rw [List.filterMap_cons, List.filter_cons]
      cases Version.parse? t with
      | none => exact List.perm_middle.trans (ih.cons t)
      | some v => exact ih.cons t

/-- Sorting keeps the texts. -/
theorem newestFirst_perm (texts : List String) : (newestFirst texts).Perm texts := by
  have hversions := foldl_insert_perm insertVersion_perm (versions texts) []
  have hothers := foldl_insert_perm insertText_perm (unversioned texts) []
  rw [List.nil_append] at hversions hothers
  unfold newestFirst
  refine List.Perm.trans ?_ (versions_perm texts)
  exact (((List.reverse_perm _).trans hversions).map (·.2)).append hothers

end Depot.Project
