/-
Sorting versions, newest first. Sorting puts one version after the other
into a list that is in order, which it stays if the order is transitive on
what is sorted (`insertVersion_ordered`). Torn versions stay as they come,
oldest first (`insertVersion_torn`).

So `newestFirst_iff_whole`: whatever is sorted, texts that spell no version
come last, in descending order; and versions come newest first, in whatever
order they were given, just if no three of them are torn.
-/
import Mathlib.Data.List.Basic
import Depot.Proofs.Bytes
import Depot.Proofs.Project.Order
import Depot.Proofs.Project.Version

namespace Depot.Project

/-- No version of the texts comes before a newer one. -/
def NewestFirst (texts : List String) : Prop :=
  (texts.filterMap Version.parse?).Pairwise fun v w => v.compare w ≠ .lt

instance (texts : List String) : Decidable (NewestFirst texts) :=
  inferInstanceAs (Decidable (List.Pairwise _ _))

/-- No version comes before an older one. -/
def Ascending (sorted : List (Version × String)) : Prop :=
  sorted.Pairwise fun y z => (y.1.compare z.1).isLE = true

-- ===================================================== texts without version

/-- A text finds its place in descending order. -/
theorem insertText_ordered {x : String} {ys : List String} (h : ys.Pairwise fun s t => t ≤ s) :
    (insertText x ys).Pairwise fun s t => t ≤ s := by
  induction ys with
  | nil => exact List.pairwise_singleton _ x
  | cons y ys ih =>
      obtain ⟨hy, hys⟩ := List.pairwise_cons.1 h
      unfold insertText
      split
      · next hle =>
        refine List.pairwise_cons.2 ⟨fun z hz => ?_, ih hys⟩
        rcases List.mem_cons.1 ((insertText_perm x ys).mem_iff.1 hz) with rfl | hz
        · exact hle
        · exact hy z hz
      · next hlt =>
        have hle : y ≤ x := Std.le_of_not_ge hlt
        refine List.pairwise_cons.2 ⟨fun z hz => ?_, h⟩
        rcases List.mem_cons.1 hz with rfl | hz
        · exact hle
        · exact Std.le_trans (hy z hz) hle

/-- Texts come out in descending order. -/
theorem foldl_insertText_ordered (texts : List String) {sorted : List String}
    (h : sorted.Pairwise fun s t => t ≤ s) :
    (texts.foldl (fun sorted t => insertText t sorted) sorted).Pairwise fun s t => t ≤ s := by
  induction texts generalizing sorted with
  | nil => exact h
  | cons t texts ih => exact ih (insertText_ordered h)

-- ===================================================== versions

variable {texts : List String} {x : Version × String} {sorted : List (Version × String)}

/-- A version finds its place among others, if the order is one. -/
theorem insertVersion_ordered {all : List Version} (hwhole : Version.Whole all)
    (hx : x.1 ∈ all) (hall : ∀ y ∈ sorted, y.1 ∈ all) (h : Ascending sorted) :
    Ascending (insertVersion x sorted) := by
  induction sorted with
  | nil => exact List.pairwise_singleton _ x
  | cons y ys ih =>
      obtain ⟨hy, hys⟩ := List.pairwise_cons.1 h
      have hyall := hall y (.head _)
      have hysall := fun z hz => hall z (.tail _ hz)
      unfold insertVersion
      split
      · next hlt =>
        refine List.pairwise_cons.2 ⟨fun z hz => ?_, ih hysall hys⟩
        rcases List.mem_cons.1 ((insertVersion_perm x ys).mem_iff.1 hz) with rfl | hz
        · rw [hlt]
          rfl
        · exact hy z hz
      · next hlt =>
        have hle := Version.isLE_iff.2 hlt
        refine List.pairwise_cons.2 ⟨fun z hz => ?_, h⟩
        rcases List.mem_cons.1 hz with rfl | hz
        · exact hle
        · exact Version.isLE_trans_of_whole hwhole hx hyall (hysall z hz) hle (hy z hz)

/-- Versions come out in order, if the order is one. -/
theorem foldl_insertVersion_ordered {all : List Version} (hwhole : Version.Whole all)
    (xs : List (Version × String)) (hxs : ∀ x ∈ xs, x.1 ∈ all) (hall : ∀ y ∈ sorted, y.1 ∈ all)
    (h : Ascending sorted) :
    Ascending (xs.foldl (fun sorted x => insertVersion x sorted) sorted) := by
  induction xs generalizing sorted with
  | nil => exact h
  | cons x xs ih =>
      have hx := hxs x (.head _)
      refine ih (fun y hy => hxs y (.tail _ hy)) (fun y hy => ?_)
        (insertVersion_ordered hwhole hx hall h)
      rcases List.mem_cons.1 ((insertVersion_perm x sorted).mem_iff.1 hy) with rfl | hy
      · exact hx
      · exact hall y hy

/-- What is in place keeps its order. -/
theorem insertVersion_sublist (x : Version × String) (ys : List (Version × String)) :
    ys.Sublist (insertVersion x ys) := by
  induction ys with
  | nil => exact List.nil_sublist _
  | cons y ys ih =>
      unfold insertVersion
      split
      · exact ih.cons_cons y
      · exact List.sublist_cons_self x (y :: ys)

theorem foldl_insertVersion_sublist (xs sorted : List (Version × String)) :
    sorted.Sublist (xs.foldl (fun sorted x => insertVersion x sorted) sorted) := by
  induction xs generalizing sorted with
  | nil => exact .refl _
  | cons x xs ih => exact (insertVersion_sublist x sorted).trans (ih _)

-- ===================================================== what comes out

/-- The versions that texts spell, each with its text. -/
theorem mem_versions {v : Version} {t : String} :
    (v, t) ∈ versions texts ↔ t ∈ texts ∧ Version.parse? t = some v := by
  unfold versions
  simp only [List.mem_filterMap, Option.map_eq_some_iff, Prod.mk.injEq]
  constructor
  · rintro ⟨t, ht, v, hv, rfl, rfl⟩
    exact ⟨ht, hv⟩
  · rintro ⟨ht, hv⟩
    exact ⟨t, ht, v, hv, rfl, rfl⟩

/-- The versions, oldest first, if their order is one. -/
def sortedVersions (texts : List String) : List (Version × String) :=
  (versions texts).foldl (fun sorted x => insertVersion x sorted) []

/-- The texts that spell none, in descending order. -/
def sortedOthers (texts : List String) : List String :=
  (unversioned texts).foldl (fun sorted t => insertText t sorted) []

theorem sortedVersions_perm (texts : List String) : (sortedVersions texts).Perm (versions texts) :=
  foldl_insert_perm insertVersion_perm (versions texts) []

theorem sortedOthers_perm (texts : List String) :
    (sortedOthers texts).Perm (unversioned texts) :=
  foldl_insert_perm insertText_perm (unversioned texts) []

theorem parse?_of_mem_sortedVersions (h : x ∈ sortedVersions texts) :
    Version.parse? x.2 = some x.1 :=
  (mem_versions.1 ((sortedVersions_perm texts).mem_iff.1 h)).2

theorem parse?_of_mem_sortedOthers {t : String} (h : t ∈ sortedOthers texts) :
    Version.parse? t = none := by
  have hmem := (sortedOthers_perm texts).mem_iff.1 h
  simpa using (List.mem_filter.1 hmem).2

/-- The versions that come out, newest first, if their order is one. -/
theorem filterMap_newestFirst (texts : List String) :
    (newestFirst texts).filterMap Version.parse? = (sortedVersions texts).reverse.map (·.1) := by
  have hothers : (sortedOthers texts).filterMap Version.parse? = [] :=
    List.filterMap_eq_nil_iff.2 fun _ => parse?_of_mem_sortedOthers
  have hversions : ∀ x ∈ (sortedVersions texts).reverse,
      (Version.parse? ∘ Prod.snd) x = some x.1 := fun x hx =>
    parse?_of_mem_sortedVersions (List.mem_reverse.1 hx)
  show (((sortedVersions texts).reverse.map (·.2)) ++ sortedOthers texts).filterMap _ = _
  rw [List.filterMap_append, hothers, List.append_nil, List.filterMap_map,
    List.filterMap_congr hversions, List.filterMap_eq_map']

/-- Versions come newest first if they come out in order. -/
theorem newestFirst_iff_ascending :
    NewestFirst (newestFirst texts) ↔ Ascending (sortedVersions texts) := by
  unfold NewestFirst Ascending
  rw [filterMap_newestFirst, List.pairwise_map, List.pairwise_reverse]
  simp only [Version.isLE_iff]

-- ===================================================== torn versions

/-- Where no versions are torn, they come newest first. -/
theorem newestFirst_of_whole (h : Version.Whole (texts.filterMap Version.parse?)) :
    NewestFirst (newestFirst texts) := by
  rw [newestFirst_iff_ascending]
  refine foldl_insertVersion_ordered h (versions texts) (fun x hx => ?_) (by simp)
    List.Pairwise.nil
  obtain ⟨hmem, hparse⟩ := mem_versions.1 hx
  exact List.mem_filterMap.2 ⟨x.2, hmem, hparse⟩

/-- Of torn versions that are given pre-release first, none passes another,
though the development release is newer than the pre-release. -/
theorem not_newestFirst_of_torn {dev other pre : Version} {d o p : String}
    (h : Version.Torn dev other pre) (hd : Version.parse? d = some dev)
    (ho : Version.parse? o = some other) (hp : Version.parse? p = some pre) (rest : List String) :
    ¬ NewestFirst (newestFirst (p :: o :: d :: rest)) := by
  have hover : other.compare dev ≠ .lt := fun hlt => absurd hlt (Version.isLE_iff.1 h.above)
  have hunder : pre.compare other ≠ .lt := fun hlt => absurd hlt (Version.isLE_iff.1 h.below)
  have hsorted : sortedVersions (p :: o :: d :: rest)
      = (versions rest).foldl (fun sorted x => insertVersion x sorted)
          [(dev, d), (other, o), (pre, p)] := by
    simp [sortedVersions, versions, hp, ho, hd, insertVersion, hover, hunder]
  rw [newestFirst_iff_ascending, hsorted]
  intro hascending
  have hthree := List.Pairwise.sublist (foldl_insertVersion_sublist (versions rest) _) hascending
  have hle := (List.pairwise_cons.1 hthree).1 (pre, p) (by simp)
  exact Version.isLE_iff.1 hle h.older

/-- Three texts of a list can be given first. -/
theorem exists_perm_of_mem {α : Type} [BEq α] [LawfulBEq α] {all : List α} {x y z : α}
    (hx : x ∈ all) (hy : y ∈ all) (hz : z ∈ all) (hxy : x ≠ y) (hxz : x ≠ z) (hyz : y ≠ z) :
    ∃ rest, (x :: y :: z :: rest).Perm all := by
  have hy' : y ∈ all.erase x := (List.mem_erase_of_ne hxy.symm).2 hy
  have hz' : z ∈ (all.erase x).erase y :=
    (List.mem_erase_of_ne hyz.symm).2 ((List.mem_erase_of_ne hxz.symm).2 hz)
  have hz_first := (List.perm_cons_erase hz').symm
  have hy_first := (List.perm_cons_erase hy').symm
  have hx_first := (List.perm_cons_erase hx).symm
  exact ⟨((all.erase x).erase y).erase z,
    ((hz_first.cons y).cons x).trans ((hy_first.cons x).trans hx_first)⟩

-- ===================================================== what sorting does

/-- What sorting versions comes to. No text is lost or made up, and those
that spell a version come first, the others behind them in the descending
order of their octets. The versions come newest first, whatever order they
were given in, just if no three of them are torn. -/
theorem newestFirst_iff_whole (texts : List String) :
    (newestFirst texts).Perm texts
      ∧ (∃ spelled others, newestFirst texts = spelled ++ others
          ∧ (∀ t ∈ spelled, (Version.parse? t).isSome = true)
          ∧ (∀ t ∈ others, Version.parse? t = none)
          ∧ others.Pairwise fun s t => Bytes.ofText t ≤ Bytes.ofText s)
      ∧ ((∀ given, given.Perm texts → NewestFirst (newestFirst given))
          ↔ Version.Whole (texts.filterMap Version.parse?)) := by
  refine ⟨newestFirst_perm texts, ⟨(sortedVersions texts).reverse.map (·.2), sortedOthers texts,
    rfl, ?_, fun t => parse?_of_mem_sortedOthers, ?_⟩, ?_, ?_⟩
  · intro t ht
    obtain ⟨x, hx, rfl⟩ := List.mem_map.1 ht
    rw [parse?_of_mem_sortedVersions (List.mem_reverse.1 hx)]
    rfl
  · refine (foldl_insertText_ordered (unversioned texts) List.Pairwise.nil).imp ?_
    intro s t hle
    by_cases heq : t = s
    · rw [heq]
      exact Std.le_refl _
    · exact Std.le_of_lt (Bytes.ofText_lt (Std.lt_of_le_of_ne hle heq))
  · intro hgiven dev hdev other hother pre hpre htorn
    obtain ⟨d, hd, hdparse⟩ := List.mem_filterMap.1 hdev
    obtain ⟨o, ho, hoparse⟩ := List.mem_filterMap.1 hother
    obtain ⟨p, hp, hpparse⟩ := List.mem_filterMap.1 hpre
    have hne : ∀ {s t v w}, Version.parse? s = some v → Version.parse? t = some w → v ≠ w →
        s ≠ t := by
      rintro s _ v w hv hw hvw rfl
      exact hvw (Option.some.inj (hv.symm.trans hw))
    obtain ⟨hpo, hpd, hod⟩ := htorn.ne
    obtain ⟨rest, hrest⟩ := exists_perm_of_mem hp ho hd (hne hpparse hoparse hpo)
      (hne hpparse hdparse hpd) (hne hoparse hdparse hod)
    exact not_newestFirst_of_torn htorn hdparse hoparse hpparse rest (hgiven _ hrest)
  · intro hwhole given hperm
    refine newestFirst_of_whole fun dev hdev other hother pre hpre => hwhole dev ?_ other ?_ pre ?_
    all_goals
      exact (hperm.filterMap Version.parse?).mem_iff.1 (by assumption)

/-- A development release whose zeros make it too long to be compact equals
the compact one and is older than a pre-release, which is older than the
compact one. They are torn, and stay as they are given, the oldest of them
first, though they could be in order. -/
theorem newestFirst_torn :
    let given := ["1.0.0.0.0.dev1", "1.0.dev1", "1.0a1"]
    newestFirst given = given
      ∧ ¬ NewestFirst given
      ∧ ["1.0.dev1", "1.0a1", "1.0.0.0.0.dev1"].Perm given
      ∧ NewestFirst ["1.0.dev1", "1.0a1", "1.0.0.0.0.dev1"]
      ∧ ¬ Version.Whole (given.filterMap Version.parse?) := by
  intro given
  have hsame : newestFirst given = given := by decide +kernel
  have hnot : ¬ NewestFirst given := by decide +kernel
  refine ⟨hsame, hnot, by decide, by decide +kernel, fun hwhole => hnot ?_⟩
  have hsorted := (newestFirst_iff_whole given).2.2.2 hwhole given (.refl _)
  rwa [hsame] at hsorted

end Depot.Project
