/-
Trees without a node for their top, which is a directory anyway. Such a
tree is what is found again below the place where it is put
(`below_graft`), and nothing else changes with it (`follows_graft`).
-/
import Depot.Proofs.Files.Nested

namespace Depot.Files.Tree

variable {t t' : Tree} {place : Place}

/-- A tree in which nothing is put for its top, which is a directory
anyway. -/
def Bare (t : Tree) : Prop := t.nodes[([] : Place)]? = none

theorem Bare.insert (h : t.Bare) (hne : place ≠ []) (node : Node) :
    (⟨t.nodes.insert place node⟩ : Tree).Bare := by
  unfold Bare
  rw [Std.ExtTreeMap.getElem?_insert, if_neg (by simpa using hne)]
  exact h

theorem bare_below (t : Tree) (top : Place) : (t.below top).Bare := by
  refine Std.ExtTreeMap.getElem?_ofList_of_contains_eq_false ?_
  simp only [List.contains_eq_mem, List.mem_map, List.mem_filterMap, Option.map_eq_some_iff,
    decide_eq_false_iff_not]
  rintro ⟨_, ⟨⟨q, node⟩, -, rest, hrest, rfl⟩, hnil⟩
  exact (relative?_eq_some.1 hrest).2 hnil

theorem Bare.makeDirsFrom (h : t.Bare) (place : Place) (pieces : List String) :
    (t.makeDirsFrom place pieces).1.Bare := by
  induction pieces generalizing t place with
  | nil => exact h
  | cons piece rest ih =>
      have hstep : (makeStep rest.isEmpty (t, place) piece).1.Bare := by
        unfold makeStep
        dsimp only
        split
        · split <;> exact h
        · exact h.insert (by simp) .dir
        · exact h
      unfold Tree.makeDirsFrom
      cases hmade : makeStep rest.isEmpty (t, place) piece with
      | mk made answer =>
          rw [hmade] at hstep
          cases answer with
          | error e => exact hstep
          | ok next => exact ih hstep next

theorem Bare.removeFile (h : t.Bare) (pieces : List String) : (t.removeFile pieces).Bare := by
  unfold Tree.removeFile
  split
  · split
    · unfold Bare
      rw [Std.ExtTreeMap.getElem?_erase]
      split
      · rfl
      · exact h
    · exact h
  · exact h

/-- Where a bare tree is put, there is what was there. -/
theorem getElem?_graft_top (t : Tree) (top : Place) (h : t'.Bare) :
    (t.graft top t').nodes[top]? = t.nodes[top]? := by
  have hself : relative? top top = none := by
    cases hr : relative? top top with
    | none => rfl
    | some rest =>
        obtain ⟨heq, hne⟩ := relative?_eq_some.1 hr
        exact absurd (List.self_eq_append_right.1 heq) hne
  rw [graft, Std.ExtTreeMap.getElem?_insertMany_list_of_contains_eq_false]
  · rw [Std.ExtTreeMap.getElem?_filter]
    simp only [Std.ExtTreeMap.getKey_eq, hself, Option.isNone_none, Option.pfilter_eq_filter]
    cases t.nodes[top]? <;> rfl
  · simp only [List.contains_eq_mem, List.mem_map, decide_eq_false_iff_not]
    rintro ⟨_, ⟨⟨inner, node⟩, hmem, rfl⟩, heq⟩
    obtain rfl := List.append_right_eq_self.1 heq
    rw [Bare, Std.ExtTreeMap.mem_toList_iff_getElem?_eq_some.1 hmem] at h
    cases h

/-- A bare tree is what is found below the place where it was put. -/
theorem below_graft (h : t'.Bare) (t : Tree) (top : Place) : (t.graft top t').below top = t' := by
  have hnodes : ((t.graft top t').below top).nodes = t'.nodes := by
    refine Std.ExtTreeMap.ext_getElem? fun rest => ?_
    by_cases hrest : rest = []
    · subst hrest
      exact (bare_below _ top).trans h.symm
    · rw [getElem?_below _ top hrest, getElem?_graft_below t top t' hrest]
  exact congrArg Tree.mk hnodes

/-- It is put there, and nowhere else. -/
theorem follows_graft (h : t'.Bare) {top : Place} (htop : t.node? top = some .dir) :
    Follows top t (t.graft top t') t' where
  nested q := by
    by_cases hq : q = []
    · subst hq
      rw [List.append_nil, node?_nil]
      by_cases hnil : top = []
      · rw [hnil, node?_nil]
      · rw [node?_of_ne hnil] at htop ⊢
        exact (getElem?_graft_top t top h).trans htop
    · rw [node?_of_ne (by simp [hq]), node?_of_ne hq]
      exact getElem?_graft_below t top t' hq
  outside q hq := by
    by_cases hnil : q = []
    · rw [hnil, node?_nil, node?_nil]
    · rw [node?_of_ne hnil, node?_of_ne hnil]
      exact getElem?_graft_outside t top t' hq

end Depot.Files.Tree
