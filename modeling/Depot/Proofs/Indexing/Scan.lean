/-
A scan over the registry of a snapshot, while stages are removed. The
scan's answers can be told beforehand from when each stage is removed
(`answers_eq`): stages are visited in order; the one that is gone by the
call that comes to it adds nothing, any other adds all its projects, also
if it is removed while they are listed.

`Scan.left` is the engine: what a scan still has to list, if stages are
removed as foreseen. A call answers the first of it and leaves the rest
(`next_left`), and a removal leaves it as it is, being foreseen.
-/
import Depot.Indexing.Scan
import Depot.Proofs.Indexing.Registry
import Depot.Proofs.Steps

namespace Depot.Indexing

open Registry

-- ===================================================== what is scanned

namespace Snapshot

/-- The indexes of a user. -/
def indexesOf (snapshot : Snapshot) (user : String) : List String :=
  (snapshot.users[user]?.map (·.indexes.keys)).getD []

/-- The stages of users, in order. -/
def stagesOf (snapshot : Snapshot) (users : List String) : List (String × String) :=
  users.flatMap fun user => (snapshot.indexesOf user).map (user, ·)

/-- The stages of a snapshot, in order. -/
def stages (snapshot : Snapshot) : List (String × String) :=
  snapshot.stagesOf snapshot.users.keys

/-- What a stage lists. -/
def listings (snapshot : Snapshot) (stage : String × String) : List (Listing Registry) :=
  match snapshot.index? stage.1 stage.2 with
  | none => []
  | some index =>
      index.listedNames.map fun name =>
        ⟨Registry.stage stage.1 stage.2 (registerStage index), name⟩

/-- All that the stages of a snapshot list. -/
def allListings (snapshot : Snapshot) : List (Listing Registry) :=
  snapshot.stages.flatMap snapshot.listings

/-- What stages add to a scan that comes to the first of them in the given
call. `gone` tells which stages are gone by a call. -/
def contributions (snapshot : Snapshot) (gone : Nat → String × String → Bool) :
    Nat → List (String × String) → List (Listing Registry)
  | _, [] => []
  | call, stage :: stages =>
      if gone call stage then snapshot.contributions gone call stages
      else
        snapshot.listings stage
          ++ snapshot.contributions gone (call + (snapshot.listings stage).length) stages

/-- The stages of a snapshot are its indexes. -/
theorem mem_stages {snapshot : Snapshot} {user index : String} :
    (user, index) ∈ snapshot.stages ↔ (snapshot.index? user index).isSome = true := by
  unfold stages stagesOf indexesOf index?
  simp only [List.mem_flatMap, List.mem_map, Prod.mk.injEq, Std.ExtTreeMap.mem_keys]
  constructor
  · rintro ⟨user, -, index, hindex, rfl, rfl⟩
    cases huser : snapshot.users[user]? with
    | none => simp [huser] at hindex
    | some contents =>
        simp only [huser, Option.map_some, Option.getD_some, Std.ExtTreeMap.mem_keys] at hindex
        exact Std.ExtTreeMap.mem_iff_isSome_getElem?.1 hindex
  · intro hsome
    cases huser : snapshot.users[user]? with
    | none => simp [huser] at hsome
    | some contents =>
        refine ⟨user, Std.ExtTreeMap.mem_iff_isSome_getElem?.2 (huser ▸ rfl), index, ?_, rfl, rfl⟩
        simp only [huser, Option.bind_some] at hsome
        simpa only [huser, Option.map_some, Option.getD_some, Std.ExtTreeMap.mem_keys] using
          Std.ExtTreeMap.mem_iff_isSome_getElem?.2 hsome

/-- They are in the order of their users, then of their indexes. -/
theorem stages_sorted (snapshot : Snapshot) :
    snapshot.stages.Pairwise fun a b => a.1 < b.1 ∨ a.1 = b.1 ∧ a.2 < b.2 := by
  unfold stages stagesOf
  rw [List.pairwise_flatMap]
  refine ⟨?_, (keys_sorted snapshot.users).imp ?_⟩
  · intro user _
    rw [List.pairwise_map]
    unfold indexesOf
    cases snapshot.users[user]? with
    | none => exact List.Pairwise.nil
    | some contents => exact (keys_sorted contents.indexes).imp fun hlt => .inr ⟨rfl, hlt⟩
  · intro user user' hlt stage hstage stage' hstage'
    obtain ⟨_, -, rfl⟩ := List.mem_map.1 hstage
    obtain ⟨_, -, rfl⟩ := List.mem_map.1 hstage'
    exact .inl hlt

/-- Stages add nothing but what they list, and each of it once at most. -/
theorem contributions_sublist (snapshot : Snapshot) (gone : Nat → String × String → Bool)
    (call : Nat) (stages : List (String × String)) :
    (snapshot.contributions gone call stages).Sublist (stages.flatMap snapshot.listings) := by
  induction stages generalizing call with
  | nil => exact .refl _
  | cons stage stages ih =>
      rw [contributions, List.flatMap_cons]
      split
      · exact (ih call).trans (List.sublist_append_right ..)
      · exact (List.Sublist.refl _).append (ih _)

theorem length_contributions_le (snapshot : Snapshot) (gone : Nat → String × String → Bool)
    (call : Nat) (stages : List (String × String)) :
    (snapshot.contributions gone call stages).length
      ≤ (stages.flatMap snapshot.listings).length :=
  (snapshot.contributions_sublist gone call stages).length_le

end Snapshot

variable {snapshot : Snapshot} {registry : Registry} {removed : List (String × String)}
  {user index : String}

-- ===================================================== what may change

/-- A change of a registry. -/
inductive Change where
  | remove (user index : String)
  | switch (user index : String) (offline : Bool)
deriving DecidableEq

namespace Change

/-- Makes a change. -/
def apply : Change → StateM Registry Unit
  | remove user index => discard (Registry.remove user index)
  | switch user index offline => discard (Registry.setOffline user index offline)

/-- The stage that a change removes. -/
def removed? : Change → Option (String × String)
  | remove user index => some (user, index)
  | switch _ _ _ => none

end Change

/-- A registry of a snapshot that has lost some stages. Any of them may be
offline. -/
structure Holds (snapshot : Snapshot) (removed : List (String × String)) (registry : Registry) :
    Prop where
  users : registry.users = snapshot.users.map fun _ user => user.indexes.keys
  stages : ∀ user index, ∃ offline, registry.lookup user index
    = (snapshot.index? user index).map fun contents =>
        { registerStage contents with gone := decide ((user, index) ∈ removed), offline }

namespace Holds

theorem ofSnapshot (snapshot : Snapshot) : Holds snapshot [] (ofSnapshot snapshot) where
  users := rfl
  stages _ _ := ⟨false, by rw [lookup_ofSnapshot]; rfl⟩

/-- A change removes what it says. -/
theorem apply (h : Holds snapshot removed registry) (change : Change) :
    Holds snapshot (change.removed?.toList ++ removed) (change.apply.run registry).2 := by
  cases change with
  | remove user index =>
      refine ⟨users_remove.trans h.users, ?_⟩
      intro user' index'
      obtain ⟨offline, hstage⟩ := h.stages user' index'
      refine ⟨offline, ?_⟩
      show (((Registry.remove user index).run registry).2).lookup user' index' = _
      rw [lookup_remove, hstage, Option.map_map]
      simp [Function.comp_def, Change.removed?, Bool.or_comm]
  | switch user index offline =>
      refine ⟨(users_update _).trans h.users, ?_⟩
      intro user' index'
      obtain ⟨before, hstage⟩ := h.stages user' index'
      refine ⟨if (user', index') = (user, index) then offline else before, ?_⟩
      show (registry.update user index ({ · with offline })).lookup user' index' = _
      rw [lookup_update]
      split
      · next heq =>
        obtain ⟨rfl, rfl⟩ := Prod.mk.inj heq
        rw [hstage, Option.map_map]
        rfl
      · exact hstage

/-- So do changes, one after the other. -/
theorem forM (h : Holds snapshot removed registry) (changes : List Change) :
    ∃ removed', Holds snapshot removed' ((changes.forM Change.apply).run registry).2
      ∧ ∀ stage, stage ∈ removed' ↔ stage ∈ changes.filterMap Change.removed? ++ removed := by
  induction changes generalizing removed registry with
  | nil => exact ⟨removed, h, fun _ => Iff.rfl⟩
  | cons change changes ih =>
      obtain ⟨removed', hholds, hmem⟩ := ih (h.apply change)
      refine ⟨removed', hholds, ?_⟩
      intro stage
      rw [hmem, List.filterMap_cons]
      cases change.removed? <;> simp [or_left_comm]

variable (h : Holds snapshot removed registry)
include h

/-- A scan starts with the users of the snapshot. -/
theorem start :
    (Scan.start model).run registry = ({ users := snapshot.users.keys }, registry) := by
  show (({ users := registry.users.keys } : Scan Registry), registry) = _
  rw [h.users, Std.ExtTreeMap.keys_map]

/-- The indexes of a user are those of the snapshot. -/
theorem userIndexes (user : String) :
    (model.userIndexes user).run registry = (snapshot.indexesOf user, registry) := by
  show (registry.users[user]?.getD [], registry) = _
  rw [h.users, Std.ExtTreeMap.getElem?_map]
  rfl

/-- A stage that is gone is not found. -/
theorem stage?_removed (hgone : (user, index) ∈ removed) :
    (model.stage? user index).run registry = (none, registry) := by
  obtain ⟨offline, hstage⟩ := h.stages user index
  show ((registry.live? user index).map _, registry) = _
  unfold live?
  rw [hstage]
  cases snapshot.index? user index <;> simp [hgone, Option.filter]

/-- Any other stage of the snapshot is. -/
theorem stage?_standing (hgone : (user, index) ∉ removed) :
    (model.stage? user index).run registry
      = ((snapshot.index? user index).map (Registry.stage user index ∘ registerStage),
          registry) := by
  obtain ⟨offline, hstage⟩ := h.stages user index
  show ((registry.live? user index).map _, registry) = _
  unfold live?
  rw [hstage]
  cases snapshot.index? user index with
  | none => rfl
  | some contents => simp [hgone, Option.filter, Registry.stage]

/-- It is there to be asked. -/
theorem alive {contents : IndexSnapshot} (hgone : (user, index) ∉ removed)
    (hindex : snapshot.index? user index = some contents) :
    ∃ offline, registry.alive user index = .ok { registerStage contents with offline } := by
  obtain ⟨offline, hstage⟩ := h.stages user index
  refine ⟨offline, ?_⟩
  unfold Registry.alive live?
  rw [hstage, hindex]
  simp [hgone, Option.filter]
  rfl

/-- It lists what it has. -/
theorem listProjects_standing {contents : IndexSnapshot} (hgone : (user, index) ∉ removed)
    (hindex : snapshot.index? user index = some contents) :
    ((Registry.stage user index (registerStage contents)).listProjects).run registry
      = (.ok contents.listedNames, registry) := by
  obtain ⟨offline, halive⟩ := h.alive hgone hindex
  show ((registry.alive user index).map _, registry) = _
  rw [halive]
  rfl

end Holds

-- ===================================================== what is left

namespace Scan

variable {gone : Nat → String × String → Bool} {call : Nat} {scan : Scan Registry}

/-- The projects of the stage that was reached, those not yet listed. -/
def pending (scan : Scan Registry) : List (Listing Registry) :=
  match scan.current with
  | none => []
  | some (stage, names) => names.map (⟨stage, ·⟩)

/-- The stages that are not reached yet. -/
def ahead (snapshot : Snapshot) (scan : Scan Registry) : List (String × String) :=
  scan.indexes.map (scan.user, ·) ++ snapshot.stagesOf scan.users

/-- What a scan has left to list from the given call on. -/
def left (snapshot : Snapshot) (gone : Nat → String × String → Bool) (call : Nat)
    (scan : Scan Registry) : List (Listing Registry) :=
  scan.pending
    ++ snapshot.contributions gone (call + scan.pending.length) (scan.ahead snapshot)

/-- What a search among stages comes to, with others behind them. -/
def Finds (snapshot : Snapshot) (gone : Nat → String × String → Bool) (call : Nat)
    (stages others : List (String × String)) : Option (Found Registry × Scan Registry) → Prop
  | none => snapshot.contributions gone call (stages ++ others)
      = snapshot.contributions gone call others
  | some (found, scan) => ∃ listing, found = .ok listing
      ∧ snapshot.contributions gone call (stages ++ others)
          = listing :: scan.left snapshot gone (call + 1)

/-- A stage that adds nothing is passed over. -/
theorem Finds.skip {stage : String × String} {stages others : List (String × String)}
    {found : Option (Found Registry × Scan Registry)}
    (hskip : gone call stage = true ∨ snapshot.listings stage = [])
    (h : Finds snapshot gone call stages others found) :
    Finds snapshot gone call (stage :: stages) others found := by
  have hpass : snapshot.contributions gone call (stage :: stages ++ others)
      = snapshot.contributions gone call (stages ++ others) := by
    rcases hskip with hgone | hnil
    · simp [Snapshot.contributions, hgone]
    · simp [Snapshot.contributions, hnil]
  unfold Finds
  rw [hpass]
  exact h

/-- The search among the indexes of a user. -/
theorem inUser_finds (h : Holds snapshot removed registry)
    (hgone : ∀ stage, gone call stage = decide (stage ∈ removed)) (users indexes : List String) :
    ∃ found, (inUser model users user indexes).run registry = (found, registry)
      ∧ Finds snapshot gone call (indexes.map (user, ·)) (snapshot.stagesOf users) found := by
  induction indexes with
  | nil => exact ⟨none, rfl, rfl⟩
  | cons index indexes ih =>
      obtain ⟨found, hrun, hfinds⟩ := ih
      rw [List.map_cons]
      unfold inUser
      by_cases hremoved : (user, index) ∈ removed
      · rw [run_bind_of (h.stage?_removed hremoved)]
        exact ⟨found, hrun, hfinds.skip (.inl (by simp [hgone, hremoved]))⟩
      · rw [run_bind_of (h.stage?_standing hremoved)]
        cases hindex : snapshot.index? user index with
        | none => exact ⟨found, hrun, hfinds.skip (.inr (by simp [Snapshot.listings, hindex]))⟩
        | some contents =>
            have hlistings : snapshot.listings (user, index)
                = contents.listedNames.map
                    (⟨Registry.stage user index (registerStage contents), ·⟩) := by
              simp [Snapshot.listings, hindex]
            simp only [Option.map_some, Function.comp_apply]
            rw [run_bind_of (h.listProjects_standing hremoved hindex)]
            cases hnames : contents.listedNames with
            | nil => exact ⟨found, hrun, hfinds.skip (.inr (by simp [hlistings, hnames]))⟩
            | cons name names =>
                rw [hnames] at hlistings
                refine ⟨_, rfl, _, rfl, ?_⟩
                simp [Snapshot.contributions, hgone, hremoved, hlistings, left, pending, ahead,
                  Nat.add_assoc, Nat.add_comm 1]

/-- The search among users. -/
theorem inUsers_finds (h : Holds snapshot removed registry)
    (hgone : ∀ stage, gone call stage = decide (stage ∈ removed)) (users : List String) :
    ∃ found, (inUsers model users).run registry = (found, registry)
      ∧ Finds snapshot gone call (snapshot.stagesOf users) [] found := by
  induction users with
  | nil => exact ⟨none, rfl, rfl⟩
  | cons user users ih =>
      obtain ⟨found, hrun, hfinds⟩ := inUser_finds h hgone users (snapshot.indexesOf user)
      unfold inUsers
      rw [run_bind_of (h.userIndexes user), run_bind_of hrun]
      have hstages : snapshot.stagesOf (user :: users)
          = (snapshot.indexesOf user).map (user, ·) ++ snapshot.stagesOf users := rfl
      rw [hstages]
      cases found with
      | some found =>
          refine ⟨some found, rfl, ?_⟩
          unfold Finds at hfinds ⊢
          rw [List.append_nil]
          exact hfinds
      | none =>
          obtain ⟨later, hlater, hfinds'⟩ := ih
          refine ⟨later, hlater, ?_⟩
          unfold Finds at hfinds hfinds' ⊢
          rw [List.append_nil] at hfinds' ⊢
          rw [hfinds]
          exact hfinds'

/-- A call answers the first project that is left and leaves the others. -/
theorem next_left (h : Holds snapshot removed registry)
    (hgone : ∀ stage, gone call stage = decide (stage ∈ removed)) (scan : Scan Registry) :
    ∃ scan', (scan.next model).run registry
        = (((scan.left snapshot gone call).head?.map .ok, scan'), registry)
      ∧ scan'.left snapshot gone (call + 1) = (scan.left snapshot gone call).tail := by
  unfold next
  split
  · next stage name names hcurrent =>
    refine ⟨{ scan with current := some (stage, names) }, ?_, ?_⟩
    · simp only [left, pending, hcurrent]
      rfl
    · simp [left, pending, hcurrent, ahead, Nat.add_assoc, Nat.add_comm 1]
  · next hnone =>
    have hleft : scan.left snapshot gone call
        = snapshot.contributions gone call (scan.ahead snapshot) := by
      have hpending : scan.pending = [] := by
        unfold pending
        split
        · rfl
        · next stage names hcurrent =>
          cases names with
          | nil => rfl
          | cons name names => exact absurd hcurrent (hnone stage name names)
      simp [left, hpending]
    rw [hleft]
    obtain ⟨found, hrun, hfinds⟩ := inUser_finds h hgone scan.users scan.indexes
    rw [run_bind_of hrun]
    cases found with
    | some found =>
        obtain ⟨found, scan'⟩ := found
        obtain ⟨listing, rfl, hlist⟩ := hfinds
        rw [ahead, hlist]
        exact ⟨scan', rfl, rfl⟩
    | none =>
        obtain ⟨found, hrun', hfinds'⟩ := inUsers_finds h hgone scan.users
        rw [run_bind_of hrun', ahead, hfinds, ← List.append_nil (snapshot.stagesOf scan.users)]
        cases found with
        | some found =>
            obtain ⟨found, scan'⟩ := found
            obtain ⟨listing, rfl, hlist⟩ := hfinds'
            rw [hlist]
            exact ⟨scan', rfl, rfl⟩
        | none =>
            rw [hfinds']
            exact ⟨_, rfl, rfl⟩

end Scan

-- ===================================================== scans and removals

/-- What happens while a registry is scanned. -/
inductive Event where
  | next
  | change (change : Change)
deriving DecidableEq

/-- The stages that are removed before the given call, counted from 0. -/
def removedBefore : List Event → Nat → List (String × String)
  | [], _ => []
  | .next :: _, 0 => []
  | .next :: events, call + 1 => removedBefore events call
  | .change change :: events, call => change.removed?.toList ++ removedBefore events call

namespace Scan

variable {gone : Nat → String × String → Bool} {call : Nat}

/-- The answers of a scan, while things happen. -/
def answers : List Event → Scan Registry → StateM Registry (List (Option (Found Registry)))
  | [], _ => return []
  | .next :: events, scan => do
      let (found, scan) ← scan.next model
      return found :: (← answers events scan)
  | .change change :: events, scan => do
      change.apply
      answers events scan

/-- The answers of a scan that starts after some changes. -/
def answersAfter (early : List Change) (events : List Event) :
    StateM Registry (List (Option (Found Registry))) := do
  early.forM Change.apply
  answers events (← start model)

/-- The answers are what is left, one by one, and none behind its end. -/
theorem answers_eq (h : Holds snapshot removed registry) (events : List Event)
    (hgone : ∀ k stage, gone (call + k) stage
      = decide (stage ∈ removedBefore events k ∨ stage ∈ removed))
    (scan : Scan Registry) :
    ((answers events scan).run registry).1
      = (List.range (events.count .next)).map fun k =>
          (scan.left snapshot gone call)[k]?.map .ok := by
  induction events generalizing call removed registry scan with
  | nil => rfl
  | cons event events ih =>
      cases event with
      | next =>
          have hnow : ∀ stage, gone call stage = decide (stage ∈ removed) := by
            intro stage
            simpa [removedBefore] using hgone 0 stage
          have hlater : ∀ k stage, gone (call + 1 + k) stage
              = decide (stage ∈ removedBefore events k ∨ stage ∈ removed) := by
            intro k stage
            rw [Nat.add_assoc, Nat.add_comm 1 k]
            exact hgone (k + 1) stage
          obtain ⟨scan', hrun, hleft⟩ := next_left h hnow scan
          have hrest := ih h hlater scan'
          unfold answers
          rw [run_bind_of hrun, List.count_cons_self, List.range_succ_eq_map, List.map_cons,
            List.map_map, List.head?_eq_getElem?]
          show _ :: ((answers events scan').run registry).1 = _
          rw [hrest, hleft]
          simp [Function.comp_def]
      | change change =>
          have hlater : ∀ k stage, gone (call + k) stage
              = decide (stage ∈ removedBefore events k
                  ∨ stage ∈ change.removed?.toList ++ removed) := by
            intro k stage
            rw [hgone k stage]
            simp only [removedBefore, List.mem_append]
            congr 1
            exact propext ⟨by tauto, by tauto⟩
          rw [List.count_cons_of_ne (by simp)]
          exact ih (h.apply change) hlater scan

/-- What a scan of a snapshot's registry answers that is started after some
changes. -/
theorem answersAfter_eq (snapshot : Snapshot) (early : List Change) (events : List Event)
    (hgone : ∀ call stage, gone call stage = decide
      (stage ∈ early.filterMap Change.removed? ++ removedBefore events call)) :
    ((answersAfter early events).run (Registry.ofSnapshot snapshot)).1
      = (List.range (events.count .next)).map fun call =>
          (snapshot.contributions gone 0 snapshot.stages)[call]?.map .ok := by
  obtain ⟨removed, hholds, hmem⟩ := (Holds.ofSnapshot snapshot).forM early
  have hthen : ∀ k stage, gone (0 + k) stage
      = decide (stage ∈ removedBefore events k ∨ stage ∈ removed) := by
    intro k stage
    simp [hgone, hmem, or_comm]
  have hleft : Scan.left snapshot gone 0 { users := snapshot.users.keys }
      = snapshot.contributions gone 0 snapshot.stages := by
    simp [left, pending, ahead, Snapshot.stages]
  unfold answersAfter
  rw [StateT.run_bind, ← hleft]
  show ((start model >>= answers events).run _).1 = _
  rw [run_bind_of hholds.start]
  exact answers_eq hholds events hthen _

/-- A scan of a snapshot's registry, started after some changes, while
stages are removed. It never answers with a refusal; it lists what the
stages contribute in their order, each all of its projects, unless it is
gone by the call that comes to it, and nothing ever after. Each stage has
every project of its snapshot under one name, in the order of their
normalized names. -/
theorem passes_over_removed (snapshot : Snapshot) (early : List Change) (events : List Event) :
    let gone call stage :=
      decide (stage ∈ early.filterMap Change.removed? ++ removedBefore events call)
    let found := snapshot.contributions gone 0 snapshot.stages
    ((answersAfter early events).run (Registry.ofSnapshot snapshot)).1
        = (List.range (events.count .next)).map (fun call => found[call]?.map .ok)
      ∧ found.length ≤ snapshot.allListings.length
      ∧ snapshot.stages.Pairwise (fun a b => a.1 < b.1 ∨ a.1 = b.1 ∧ a.2 < b.2)
      ∧ (∀ user index, (user, index) ∈ snapshot.stages
          ↔ (snapshot.index? user index).isSome = true)
      ∧ ∀ user index contents, snapshot.index? user index = some contents →
          (contents.listedNames.map Project.normalize).Pairwise (· < ·)
            ∧ (∀ name ∈ contents.listedNames, name ∈ contents.projects)
            ∧ ∀ name ∈ contents.projects,
                Project.normalize name ∈ contents.listedNames.map Project.normalize := by
  intro gone found
  refine ⟨answersAfter_eq snapshot early events fun _ _ => rfl,
    snapshot.length_contributions_le gone 0 _, snapshot.stages_sorted,
    fun _ _ => Snapshot.mem_stages, ?_⟩
  intro user index contents _
  refine ⟨IndexSnapshot.listedNames_sorted, fun _ h => (IndexSnapshot.mem_listedNames.1 h).1, ?_⟩
  intro name hname
  exact IndexSnapshot.mem_map_normalize.2 ⟨name, hname, rfl⟩

end Scan

end Depot.Indexing
