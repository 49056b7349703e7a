/-
Trees with guests. A tree hosts guests where it has a file at the place of
each, at which another tree has nothing, and is as the other elsewhere.
Guests go by names that paths do not have. So a path leads where it leads
without them (`Hosts.walk`), and making directories and moving files come
to the same beside them (`Hosts.makeDirs`, `Hosts.moveInto`); once all
have left, the trees are one (`Hosts.eq`).
-/
import Depot.Proofs.Files.Change

namespace Depot.Files.Tree

variable {hidden : String → Prop} {guests : List (Place × Bytes)} {t t' : Tree} {place : Place}
  {pieces : List String}

/-- `t'` is `t` and its guests, each under a hidden name. -/
structure Hosts (hidden : String → Prop) (guests : List (Place × Bytes)) (t t' : Tree) : Prop where
  named : ∀ guest ∈ guests, ∃ dir name, guest.1 = dir ++ [name] ∧ hidden name
  free : ∀ guest ∈ guests, t.nodes[guest.1]? = none
  file : ∀ guest ∈ guests, t'.nodes[guest.1]? = some (.file guest.2)
  other : ∀ q, (∀ guest ∈ guests, guest.1 ≠ q) → t'.nodes[q]? = t.nodes[q]?

/-- No name of a path is hidden. -/
def Shown (hidden : String → Prop) (pieces : List String) : Prop :=
  ∀ piece ∈ pieces, ¬hidden piece

theorem Shown.append (h : Shown hidden place) (h' : Shown hidden pieces) :
    Shown hidden (place ++ pieces) :=
  fun piece hmem => (List.mem_append.1 hmem).elim (h piece) (h' piece)

theorem Shown.names (h : Shown hidden pieces) : Shown hidden (names pieces) :=
  fun piece hmem => h piece (List.mem_filter.1 hmem).1

theorem hosts_self (hidden : String → Prop) (t : Tree) : Hosts hidden [] t t where
  named := by simp
  free := by simp
  file := by simp
  other _ _ := rfl

namespace Hosts

/-- Without guests there is one tree. -/
theorem eq (h : Hosts hidden [] t t') : t' = t :=
  eq_of_nodes fun q => h.other q (by simp)

/-- A shown place is that of no guest. -/
theorem ne_of_shown (h : Hosts hidden guests t t') (hshown : Shown hidden place) :
    ∀ guest ∈ guests, guest.1 ≠ place := by
  intro guest hguest heq
  obtain ⟨dir, name, hplace, hname⟩ := h.named guest hguest
  refine hshown name ?_ hname
  rw [← heq, hplace]
  simp

/-- What lies at a shown place lies there without the guests. -/
theorem node? (h : Hosts hidden guests t t') (hshown : Shown hidden place) :
    t'.node? place = t.node? place := by
  unfold Tree.node?
  rw [h.other place (h.ne_of_shown hshown)]

-- ===================================================== paths

theorem step (h : Hosts hidden guests t t') (hplace : Shown hidden place) {piece : String}
    (hpiece : ¬hidden piece) : t'.step place piece = t.step place piece := by
  have hnext : Shown hidden (place ++ [piece]) := hplace.append (by simpa [Shown] using hpiece)
  unfold Tree.step
  rw [h.node? hplace, h.node? hnext]

/-- Steps that are shown lead from shown places to shown places. -/
theorem shown_of_step {piece : String} {next : Place} (hplace : Shown hidden place)
    (hpiece : ¬hidden piece) (hup : piece ≠ "..") (hstep : t.step place piece = .ok next) :
    Shown hidden next := by
  obtain ⟨-, rfl, -⟩ := step_ok hstep hup
  exact hplace.append (Shown.names (by simpa [Shown] using hpiece))

theorem foldlM_step (h : Hosts hidden guests t t') (hplace : Shown hidden place)
    (hpieces : Shown hidden pieces) (hup : ".." ∉ pieces) :
    pieces.foldlM t'.step place = pieces.foldlM t.step place := by
  induction pieces generalizing place with
  | nil => rfl
  | cons piece rest ih =>
      have hpiece := hpieces piece (List.mem_cons_self ..)
      rw [List.foldlM_cons, List.foldlM_cons, h.step hplace hpiece]
      cases hstep : t.step place piece with
      | error e => rfl
      | ok next =>
          exact ih (shown_of_step hplace hpiece (fun heq => hup (by simp [heq])) hstep)
            (fun p hp => hpieces p (List.mem_cons_of_mem _ hp)) fun hmem => hup (by simp [hmem])

theorem walk (h : Hosts hidden guests t t') (hpieces : Shown hidden pieces)
    (hup : ".." ∉ pieces) : t'.walk pieces = t.walk pieces :=
  h.foldlM_step (by simp [Shown]) hpieces hup

-- ===================================================== single nodes

/-- A node that is put at a shown place is put there beside the guests. -/
theorem insert (h : Hosts hidden guests t t') (hplace : Shown hidden place) (node : Node) :
    Hosts hidden guests ⟨t.nodes.insert place node⟩ ⟨t'.nodes.insert place node⟩ := by
  have hne := h.ne_of_shown hplace
  constructor
  · exact h.named
  · intro guest hguest
    rw [Std.ExtTreeMap.getElem?_insert, if_neg (by simpa using (hne guest hguest).symm)]
    exact h.free guest hguest
  · intro guest hguest
    rw [Std.ExtTreeMap.getElem?_insert, if_neg (by simpa using (hne guest hguest).symm)]
    exact h.file guest hguest
  · intro q hq
    rw [Std.ExtTreeMap.getElem?_insert, Std.ExtTreeMap.getElem?_insert, h.other q hq]

/-- A guest comes to a place at which there is nothing. -/
theorem arrive (h : Hosts hidden guests t t') {dir : Place} {name : String} (hname : hidden name)
    (hfree : t.nodes[dir ++ [name]]? = none)
    (hnew : ∀ guest ∈ guests, guest.1 ≠ dir ++ [name]) (content : Bytes) :
    Hosts hidden (guests ++ [(dir ++ [name], content)]) t (t'.put (dir ++ [name]) content) := by
  unfold put
  constructor
  · simp only [List.forall_mem_append, List.forall_mem_singleton]
    exact ⟨h.named, dir, name, rfl, hname⟩
  · simp only [List.forall_mem_append, List.forall_mem_singleton]
    exact ⟨h.free, hfree⟩
  · simp only [List.forall_mem_append, List.forall_mem_singleton]
    refine ⟨fun guest hguest => ?_, Std.ExtTreeMap.getElem?_insert_self⟩
    rw [Std.ExtTreeMap.getElem?_insert, if_neg (by simpa using (hnew guest hguest).symm)]
    exact h.file guest hguest
  · simp only [List.forall_mem_append, List.forall_mem_singleton]
    intro q hq
    rw [Std.ExtTreeMap.getElem?_insert, if_neg (by simpa using hq.2)]
    exact h.other q hq.1

/-- A guest leaves. -/
theorem leave {guest : Place × Bytes} (h : Hosts hidden (guest :: guests) t t')
    (hne : ∀ other ∈ guests, other.1 ≠ guest.1) :
    Hosts hidden guests t ⟨t'.nodes.erase guest.1⟩ := by
  constructor
  · exact fun other hother => h.named other (List.mem_cons_of_mem _ hother)
  · exact fun other hother => h.free other (List.mem_cons_of_mem _ hother)
  · intro other hother
    rw [Std.ExtTreeMap.getElem?_erase, if_neg (by simpa using (hne other hother).symm)]
    exact h.file other (List.mem_cons_of_mem _ hother)
  · intro q hq
    rw [Std.ExtTreeMap.getElem?_erase]
    by_cases heq : guest.1 = q
    · rw [if_pos (by simpa using heq), ← heq]
      exact (h.free guest (List.mem_cons_self ..)).symm
    · rw [if_neg (by simpa using heq)]
      exact h.other q (List.forall_mem_cons.2 ⟨heq, hq⟩)

-- ===================================================== making directories

theorem makeStep (h : Hosts hidden guests t t') (hplace : Shown hidden place) {piece : String}
    (hpiece : ¬hidden piece) (hup : piece ≠ "..") (last : Bool) :
    (Tree.makeStep last (t', place) piece).2 = (Tree.makeStep last (t, place) piece).2
      ∧ Hosts hidden guests (Tree.makeStep last (t, place) piece).1
        (Tree.makeStep last (t', place) piece).1
      ∧ ∀ next, (Tree.makeStep last (t, place) piece).2 = .ok next → Shown hidden next := by
  have hnext : Shown hidden (place ++ [piece]) := hplace.append (by simpa [Shown] using hpiece)
  unfold Tree.makeStep
  dsimp only
  rw [h.step hplace hpiece]
  cases hstep : t.step place piece with
  | ok next =>
      have hshown := shown_of_step hplace hpiece hup hstep
      dsimp only
      rw [h.node? hshown]
      split
      · exact ⟨rfl, h, nofun⟩
      · refine ⟨rfl, h, fun dest hdest => ?_⟩
        cases hdest
        exact hshown
  | error e =>
      cases e with
      | notFound =>
          refine ⟨rfl, h.insert hnext .dir, fun dest hdest => ?_⟩
          cases hdest
          exact hnext
      | busy | «exists» | notDirectory | isDirectory | nameTooLong | nulInName | onPath =>
          exact ⟨rfl, h, nofun⟩

theorem makeDirsFrom (h : Hosts hidden guests t t') (hplace : Shown hidden place)
    (hpieces : Shown hidden pieces) (hup : ".." ∉ pieces) :
    (t'.makeDirsFrom place pieces).2 = (t.makeDirsFrom place pieces).2
      ∧ Hosts hidden guests (t.makeDirsFrom place pieces).1 (t'.makeDirsFrom place pieces).1 := by
  induction pieces generalizing t t' place with
  | nil => exact ⟨rfl, h⟩
  | cons piece rest ih =>
      obtain ⟨hanswer, hhosts, hnext⟩ := h.makeStep hplace (hpieces piece (List.mem_cons_self ..))
        (fun heq => hup (by simp [heq])) rest.isEmpty
      unfold Tree.makeDirsFrom
      cases hstep : Tree.makeStep rest.isEmpty (t, place) piece with
      | mk u answer =>
          cases hstep' : Tree.makeStep rest.isEmpty (t', place) piece with
          | mk u' answer' =>
              rw [hstep, hstep'] at hanswer hhosts
              rw [hstep] at hnext
              obtain rfl : answer' = answer := hanswer
              cases answer' with
              | error e => exact ⟨rfl, hhosts⟩
              | ok next =>
                  exact ih hhosts (hnext next rfl)
                    (fun p hp => hpieces p (List.mem_cons_of_mem _ hp))
                    fun hmem => hup (by simp [hmem])

/-- Directories are made beside the guests as without them. -/
theorem makeDirs (h : Hosts hidden guests t t') (hpieces : Shown hidden pieces)
    (hup : ".." ∉ pieces) :
    (t'.makeDirs pieces).2 = (t.makeDirs pieces).2
      ∧ Hosts hidden guests (t.makeDirs pieces).1 (t'.makeDirs pieces).1 :=
  h.makeDirsFrom (by simp [Shown]) hpieces hup

-- ===================================================== moving files

/-- Moving a file is refused beside the guests as it is without them. -/
theorem moveInto_answer (h : Hosts hidden guests t t') (hpieces : Shown hidden pieces)
    (hup : ".." ∉ pieces) (content : Bytes) :
    (t'.moveInto pieces content).map (fun _ => ())
      = (t.moveInto pieces content).map fun _ => () := by
  have hdropped : ∀ piece ∈ (dropSlashes pieces).1, piece ∈ pieces := by
    intro piece hpiece
    unfold dropSlashes at hpiece
    rw [← List.mem_reverse]
    split at hpiece
    · next above heq =>
      rw [heq]
      exact List.mem_cons_of_mem _ ((List.dropWhile_sublist _).mem hpiece)
    · exact hpiece
  unfold Tree.moveInto
  generalize hback : dropSlashes pieces = back at hdropped
  obtain ⟨backwards, slash⟩ := back
  cases backwards with
  | nil => rfl
  | cons name above =>
      have habove : ∀ piece ∈ above.reverse, piece ∈ pieces := fun piece hpiece =>
        hdropped piece (List.mem_cons_of_mem _ (List.mem_reverse.1 hpiece))
      have hwalk := h.walk (fun piece hpiece => hpieces piece (habove piece hpiece))
        fun hmem => hup (habove ".." hmem)
      dsimp only
      rw [hwalk]
      cases hdir : t.walk above.reverse with
      | error e => rfl
      | ok dir =>
          have hshown : Shown hidden dir := by
            rw [walk_eq hdir fun hmem => hup (habove ".." hmem)]
            exact Shown.names fun piece hpiece => hpieces piece (habove piece hpiece)
          have hname : ¬hidden name := hpieces name (hdropped name (List.mem_cons_self ..))
          dsimp only
          rw [h.node? hshown, h.node? (hshown.append (by simpa [Shown] using hname))]
          repeat' split
          all_goals rfl

/-- And if it is not, the file lies beside the guests, too. -/
theorem moveInto (h : Hosts hidden guests t t') (hpieces : Shown hidden pieces)
    (hup : ".." ∉ pieces) (content : Bytes) :
    (∀ e, t.moveInto pieces content = .error e → t'.moveInto pieces content = .error e)
      ∧ ∀ u, t.moveInto pieces content = .ok u →
          ∃ u', t'.moveInto pieces content = .ok u' ∧ Hosts hidden guests u u' := by
  have hanswer := h.moveInto_answer hpieces hup content
  cases hmove' : t'.moveInto pieces content with
  | error e' =>
      rw [hmove'] at hanswer
      constructor
      · intro e hmove
        rw [hmove] at hanswer
        cases hanswer
        rfl
      · intro u hmove
        rw [hmove] at hanswer
        cases hanswer
  | ok u' =>
      rw [hmove'] at hanswer
      constructor
      · intro e hmove
        rw [hmove] at hanswer
        cases hanswer
      · intro u hmove
        obtain ⟨-, -, -, -, rfl⟩ := moveInto_ok hup hmove
        obtain ⟨-, -, -, -, rfl⟩ := moveInto_ok hup hmove'
        exact ⟨_, rfl, h.insert hpieces.names _⟩

end Hosts

end Depot.Files.Tree
