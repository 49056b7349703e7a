/-
What is in the registry of a snapshot. A stage is there for each index of
the snapshot, with what was said of the index (`lookup_ofSnapshot`), and a
removal only marks it (`lookup_remove`). The projects of an index go by
their normalized names, and of names that are the same project the last
one in order counts: `getElem?_registerProjects` says which project a
normalized name leads to, `listedNames_normalized` which names are listed.
-/
import Mathlib.Data.List.Induction
import Depot.Indexing.Registry
import Depot.Proofs.Text.Keys

namespace Depot

namespace Indexing

-- ===================================================== projects

/-- The names that an index lists: of each project the one that counts. -/
def IndexSnapshot.listedNames (index : IndexSnapshot) : List String :=
  (Registry.registerProjects index.projects).values.map (·.listedName)

namespace Registry

variable {listed : Std.ExtTreeMap String ProjectSnapshot} {key name : String}

/-- A normalized name leads to the last of the listed projects that have
it. -/
theorem getElem?_registerProjects :
    (registerProjects listed)[key]?
      = (listed.toList.reverse.find? fun project => Project.normalize project.1 = key).map
          fun project => ⟨project.1, project.2⟩ := by
  unfold registerProjects
  rw [Std.ExtTreeMap.foldl_eq_foldl_toList]
  -- the last project of the list is registered last, over what is there
  induction listed.toList using List.reverseRecOn with
  | nil => simp
  | append_singleton projects project ih =>
      rw [List.foldl_append, List.foldl_cons, List.foldl_nil, Std.ExtTreeMap.getElem?_insert, ih,
        List.reverse_append, List.reverse_singleton, List.singleton_append, List.find?_cons]
      by_cases h : Project.normalize project.1 = key <;> simp [h]

/-- What is registered is listed in the snapshot, and is registered under
its normalized name. -/
theorem of_registerProjects {project : RegisteredProject}
    (h : (registerProjects listed)[key]? = some project) :
    Project.normalize project.listedName = key
      ∧ listed[project.listedName]? = some project.snapshot := by
  rw [getElem?_registerProjects, Option.map_eq_some_iff] at h
  obtain ⟨⟨name, snapshot⟩, hfind, rfl⟩ := h
  have hmem := List.mem_of_find?_eq_some hfind
  have hkey := List.find?_some hfind
  rw [List.mem_reverse, Std.ExtTreeMap.mem_toList_iff_getElem?_eq_some] at hmem
  exact ⟨by simpa using hkey, hmem⟩

/-- What is registered comes last of what has its normalized name. -/
theorem le_of_registerProjects {project : RegisteredProject}
    (h : (registerProjects listed)[key]? = some project) (hname : name ∈ listed)
    (hkey : Project.normalize name = key) : name ≤ project.listedName := by
  rw [getElem?_registerProjects, Option.map_eq_some_iff] at h
  obtain ⟨found, hfind, rfl⟩ := h
  obtain ⟨-, later, earlier, hsplit, hlater⟩ := List.find?_eq_some_iff_append.1 hfind
  rw [List.reverse_eq_iff, List.reverse_append, List.reverse_cons, List.append_assoc] at hsplit
  have hsorted := keys_sorted listed
  rw [← Std.ExtTreeMap.map_fst_toList_eq_keys, hsplit] at hsorted
  have hmem := Std.ExtTreeMap.mem_keys.2 hname
  rw [← Std.ExtTreeMap.map_fst_toList_eq_keys, hsplit, List.mem_map] at hmem
  obtain ⟨other, hother, rfl⟩ := hmem
  rw [List.map_append, List.pairwise_append] at hsorted
  simp only [List.mem_append, List.mem_reverse, List.mem_singleton] at hother
  rcases hother with hearly | rfl | hlate
  · have hlt := hsorted.2.2 other.1 (by simpa using ⟨_, hearly⟩) found.1 (by simp)
    exact Std.le_of_lt hlt
  · exact Std.le_refl _
  · exact absurd hkey (by simpa using hlater other hlate)

/-- What is registered goes by the normal forms of the listed names. -/
theorem mem_registerProjects :
    key ∈ registerProjects listed ↔ ∃ name ∈ listed, Project.normalize name = key := by
  rw [Std.ExtTreeMap.mem_iff_isSome_getElem?, getElem?_registerProjects, Option.isSome_map,
    List.find?_isSome]
  simp only [List.mem_reverse, Prod.exists, Std.ExtTreeMap.mem_toList_iff_getElem?_eq_some,
    decide_eq_true_eq, Std.ExtTreeMap.mem_iff_isSome_getElem?, Option.isSome_iff_exists]
  constructor
  · rintro ⟨name, snapshot, hname, hkey⟩
    exact ⟨name, ⟨snapshot, hname⟩, hkey⟩
  · rintro ⟨name, ⟨snapshot, hname⟩, hkey⟩
    exact ⟨name, snapshot, hname, hkey⟩

end Registry

namespace IndexSnapshot

open Registry

variable {index : IndexSnapshot} {name : String}

/-- The normal forms of the names that are listed, in order. -/
theorem map_normalize_listedNames :
    index.listedNames.map Project.normalize = (registerProjects index.projects).keys := by
  unfold listedNames
  rw [values_eq_map_toList, ← Std.ExtTreeMap.map_fst_toList_eq_keys, List.map_map, List.map_map]
  refine List.map_congr_left ?_
  rintro ⟨key, project⟩ hmem
  exact (of_registerProjects (Std.ExtTreeMap.mem_toList_iff_getElem?_eq_some.1 hmem)).1

/-- Each project of the snapshot is listed under one of its names. -/
theorem mem_map_normalize {key : String} : key ∈ index.listedNames.map Project.normalize ↔
    ∃ name ∈ index.projects, Project.normalize name = key := by
  rw [map_normalize_listedNames, Std.ExtTreeMap.mem_keys]
  exact mem_registerProjects

/-- An index lists its projects in the order of their normalized names,
and none of them twice. -/
theorem listedNames_sorted : (index.listedNames.map Project.normalize).Pairwise (· < ·) := by
  rw [map_normalize_listedNames]
  exact keys_sorted _

/-- The name that is listed of a project. -/
theorem mem_listedNames_iff_registered : name ∈ index.listedNames ↔
    ∃ project, (registerProjects index.projects)[Project.normalize name]? = some project
      ∧ project.listedName = name := by
  unfold listedNames
  rw [values_eq_map_toList, List.map_map, List.mem_map]
  constructor
  · rintro ⟨⟨key, project⟩, hmem, rfl⟩
    have hfound := Std.ExtTreeMap.mem_toList_iff_getElem?_eq_some.1 hmem
    exact ⟨project, (of_registerProjects hfound).1.symm ▸ hfound, rfl⟩
  · rintro ⟨project, hfound, rfl⟩
    exact ⟨(_, project), Std.ExtTreeMap.mem_toList_iff_getElem?_eq_some.2 hfound, rfl⟩

/-- An index lists the names of its snapshot, but of names that are the
same project the last one only. -/
theorem mem_listedNames : name ∈ index.listedNames ↔
    name ∈ index.projects ∧ ∀ other ∈ index.projects,
      Project.normalize other = Project.normalize name → other ≤ name := by
  rw [mem_listedNames_iff_registered]
  constructor
  · rintro ⟨project, hfound, rfl⟩
    have hlisted := (of_registerProjects hfound).2
    refine ⟨Std.ExtTreeMap.mem_iff_isSome_getElem?.2 (hlisted ▸ rfl), ?_⟩
    intro other hother hsame
    exact le_of_registerProjects hfound hother hsame
  · rintro ⟨hname, hlast⟩
    have hkey := mem_registerProjects.2 ⟨name, hname, rfl⟩
    obtain ⟨project, hfound⟩ := Option.isSome_iff_exists.1
      (Std.ExtTreeMap.mem_iff_isSome_getElem?.1 hkey)
    obtain ⟨hsame, hlisted⟩ := of_registerProjects hfound
    have hother : project.listedName ∈ index.projects :=
      Std.ExtTreeMap.mem_iff_isSome_getElem?.2 (hlisted ▸ rfl)
    exact ⟨project, hfound,
      Std.le_antisymm (hlast _ hother hsame) (le_of_registerProjects hfound hname rfl)⟩

end IndexSnapshot

-- ===================================================== stages

/-- What a snapshot says of an index. -/
def Snapshot.index? (snapshot : Snapshot) (user index : String) : Option IndexSnapshot :=
  snapshot.users[user]?.bind (·.indexes[index]?)

namespace Registry

variable {registry : Registry} {user index user' index' : String}

/-- A stage for each index of the snapshot. -/
theorem lookup_ofSnapshot (snapshot : Snapshot) :
    (ofSnapshot snapshot).lookup user index
      = (snapshot.index? user index).map registerStage := by
  unfold lookup ofSnapshot Snapshot.index?
  rw [Std.ExtTreeMap.getElem?_map]
  cases snapshot.users[user]? with
  | none => rfl
  | some indexes =>
      simp only [Option.map_some, Option.bind_some]
      exact Std.ExtTreeMap.getElem?_map

@[simp]
theorem users_update (change : RegisteredStage → RegisteredStage) :
    (registry.update user index change).users = registry.users := by
  unfold update
  split <;> rfl

/-- A change of a stage changes this stage, if there is one. -/
theorem lookup_update (change : RegisteredStage → RegisteredStage) :
    (registry.update user index change).lookup user' index'
      = if (user', index') = (user, index) then (registry.lookup user index).map change
        else registry.lookup user' index' := by
  unfold update
  split
  · next indexes stage hindexes hstage =>
    unfold lookup at hstage ⊢
    rw [hindexes, Option.bind_some] at hstage
    by_cases huser : user' = user
    · subst huser
      by_cases hindex : index' = index
      · subst hindex
        simp [hindexes, hstage]
      · simp [hindex, hindexes, Std.ExtTreeMap.getElem?_insert, Ne.symm hindex]
    · simp [huser, Std.ExtTreeMap.getElem?_insert, Ne.symm huser]
  · next hnone =>
    split
    · next heq =>
      obtain ⟨rfl, rfl⟩ := Prod.mk.inj heq
      cases hlookup : registry.lookup user' index' with
      | none => rfl
      | some stage =>
          unfold lookup at hlookup
          obtain ⟨indexes, hindexes, -⟩ := Option.bind_eq_some_iff.1 hlookup
          exact absurd hlookup (hnone indexes stage hindexes)
    · rfl

@[simp]
theorem users_remove : ((remove user index).run registry).2.users = registry.users := by
  show (remove user index registry).2.users = _
  unfold remove
  split
  · exact users_update _
  · rfl

/-- A removal marks a stage as gone. -/
theorem lookup_remove :
    (((remove user index).run registry).2).lookup user' index'
      = (registry.lookup user' index').map fun stage =>
          { stage with gone := stage.gone || (user', index') = (user, index) } := by
  show ((remove user index registry).2).lookup user' index' = _
  unfold remove
  split
  · rw [lookup_update]
    split
    · next heq =>
      obtain ⟨rfl, rfl⟩ := Prod.mk.inj heq
      simp
    · next hne => simp [hne]
  · next hnone =>
    -- nothing is there to be marked, or it is marked already
    unfold live? at hnone
    cases hlookup : registry.lookup user' index' with
    | none => rfl
    | some stage =>
        by_cases heq : (user', index') = (user, index)
        · obtain ⟨rfl, rfl⟩ := Prod.mk.inj heq
          rw [hlookup] at hnone
          have hgone : stage.gone = true := by simpa [Option.filter] using hnone
          simp [← hgone]
        · simp [heq]

/-- Of two changes of one stage, the second is made behind the first. -/
theorem update_update (first second : RegisteredStage → RegisteredStage) :
    (registry.update user index first).update user index second
      = registry.update user index (second ∘ first) := by
  cases hindexes : registry.stages[user]? with
  | none => simp [update, lookup, hindexes]
  | some indexes =>
      cases hstage : indexes[index]? with
      | none => simp [update, lookup, hindexes, hstage]
      | some stage => simp [update, lookup, hindexes, hstage, insert_insert]

/-- A change that changes nothing. -/
theorem update_eq_self {change : RegisteredStage → RegisteredStage}
    (h : ∀ stage, registry.lookup user index = some stage → change stage = stage) :
    registry.update user index change = registry := by
  unfold update
  split
  · next indexes stage hindexes hstage =>
    have hindex : indexes[index]? = some stage := by
      unfold lookup at hstage
      rwa [hindexes] at hstage
    rw [h stage hstage, insert_eq_self hindex, insert_eq_self hindexes]
  · rfl

end Registry

end Indexing

end Depot
