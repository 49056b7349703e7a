/-
Commits that nobody notices who should not. After a plain commit each
relpath that is committed names its place alone, and nobody who has begun
before has a relpath at a place where the commit changes anything. So what
it leaves is what its transaction held (`PlainCommit.node`), and it puts and
removes files only where those who see them find records that fit
(`PlainCommit.putsTrusted`, `PlainCommit.fitsFiles`). Sites stay verified and
described, then, in every run whose commits are plain, as long as no link
declares a digest that content does not have, and no call leaves a record
that does not fit (`verified_of_plain`, `described_of_plain`).
-/
import Depot.Proofs.Store.Lengths

namespace Depot

open Files Transaction

namespace Transaction

variable {tx : Transaction} {store after : Store} {q : Place}

/-- Where no changed relpath has its place, a commit puts nothing and removes
nothing. -/
theorem Placed.nothing_of_apart (h : tx.Placed store after) (hpends : tx.Pends)
    (hapart : ∀ other, tx.blobs[other]? ≠ none → Store.place other ≠ q) :
    tx.puts store q = none ∧ tx.refiles store q = none := by
  have hall := (h.laid hpends).2
  have hput : (tx.laid store).foldl (shelve q) none = none := by
    refine foldl_shelve_of_ne (fun blob hblob => hapart blob.1 ?_) none
    rw [hall] at hblob
    rw [mem_staged.1 hblob]
    exact Option.some_ne_none _
  have hempties : tx.removals.any (empties store.filesRoot q) = false := by
    rw [List.any_eq_false]
    intro relpath hmem hempties
    unfold empties at hempties
    simp only [Bool.and_eq_true, decide_eq_true_eq] at hempties
    refine hapart relpath ?_ hempties.2
    rw [mem_removals.1 hmem]
    exact Option.some_ne_none _
  unfold puts refiles
  rw [hput, hempties, Bool.and_false]
  exact ⟨rfl, rfl⟩

end Transaction

namespace Site

variable {s t : Site} {who : Nat} {tx : Transaction} {algo : Digest.Algo}

-- ===================================================== plain commits

/-- A commit that is not refused, by which each relpath that is committed
then has its place to itself, and which changes nothing at the places that
are read by those who have begun before. -/
structure PlainCommit (tx : Transaction) (s t : Site) : Prop where
  placed : ∃ after, tx.Placed s.store after ∧ t.store = landed tx after s.store.index
  alone : ∀ relpath, t.store.index.blobs.contains relpath = true → tx.Alone relpath
  apart : ∀ v, t.Views v → (∃ n writable, v = fresh t.store n writable)
    ∨ ∀ relpath, (v.observed t.store).blobs.contains relpath = true →
      ∀ other, tx.blobs[other]? ≠ none → Store.place other ≠ Store.place relpath

namespace PlainCommit

/-- The index is what the transaction would have had it. -/
theorem index (h : PlainCommit tx s t) : t.store.index = tx.overlay s.store.index := by
  obtain ⟨after, -, hstore⟩ := h.placed
  rw [hstore]
  rfl

/-- It leaves what the transaction held. -/
theorem node (h : PlainCommit tx s t) (hs : s.Kept) (hopen : s.opened who = some tx)
    {relpath : String} (hmem : t.store.index.blobs.contains relpath = true) :
    t.store.files.node? (Store.place relpath) = tx.holds s.store relpath := by
  have hpends := hs.shelved.pends who tx hopen
  have hclosed := hs.shelved.closed
  obtain ⟨after, hplaced, hstore⟩ := h.placed
  obtain ⟨-, -, -, hstands⟩ := landed_stands hplaced hpends hclosed hs.shelved.current
  have hfile : Tree.isFilePath (Store.pieces relpath) = true :=
    (hstands relpath (hstore ▸ hmem)).file
  have hcontains := contains_overlay tx s.store.index relpath
  rw [← h.index, hmem] at hcontains
  rw [hstore, node?_landed hplaced hpends hclosed]
  refine (h.alone relpath hmem).leaves hfile (fun hdeleted => ?_) _
  rw [hdeleted] at hcontains
  cases hcontains

/-- So its files have the content that the transaction saw. -/
theorem content?_eq (h : PlainCommit tx s t) (hs : s.Kept) (hopen : s.opened who = some tx)
    (hwrites : tx.writable = true) {relpath : String}
    (hmem : t.store.index.blobs.contains relpath = true) :
    tx.content? s.store relpath = t.store.files.file? (Store.place relpath) := by
  have hview := ((hs.sane.fit who tx hopen).current hwrites).1
  have hcontains := contains_overlay tx s.store.index relpath
  rw [← h.index, hmem] at hcontains
  unfold Tree.file?
  rw [h.node hs hopen hmem]
  unfold content? holds
  cases hpending : tx.blobs[relpath]? with
  | some pending => cases pending <;> rfl
  | none =>
      rw [hpending] at hcontains
      dsimp only at hcontains ⊢
      rw [observed_eq hview, if_pos hcontains.symm]
      rfl

/-- What it puts has the digest that those who see it see declared. -/
theorem putsTrusted (h : PlainCommit tx s t) (hs : s.Kept) (ht : t.Kept) (hverified : s.Verified)
    (hopen : s.opened who = some tx) (hwrites : tx.writable = true) : PutsTrusted tx s t := by
  have hview := ((hs.sane.fit who tx hopen).current hwrites).1
  have hpends := hs.shelved.pends who tx hopen
  have hclosed := hs.shelved.closed
  obtain ⟨after, hplaced, hstore⟩ := h.placed
  intro v hv relpath spec content _ hmem hdeclares hputs
  rcases h.apart v hv with ⟨n, writable, rfl⟩ | hapart
  · -- the transaction saw the content, and the same digest declared
    have hcommitted : t.store.index.blobs.contains relpath = true := hmem
    have hheir := heir_landed hs ht hopen hwrites hplaced hstore hv
    have hleft := (hplaced.left hpends hclosed).put _ _ hputs
    rw [← hstore, h.node hs hopen hcommitted] at hleft
    have hseen := seen_holds hview hpends hclosed (hs.shelved.current relpath)
    rw [← h.index, hcommitted, if_pos rfl, hleft] at hseen
    exact hverified tx (.inl ⟨who, hopen⟩) relpath spec content
      (hheir.declares relpath spec hdeclares) (congrArg Seen.content hseen)
  · rw [(hplaced.nothing_of_apart hpends (hapart relpath hmem)).1] at hputs
    cases hputs

/-- What it makes of files fits the entries that are found with them. -/
theorem fitsFiles (h : PlainCommit tx s t) (hs : s.Kept) (hdescribed : s.AllDescribed)
    (hopen : s.opened who = some tx) (hwrites : tx.writable = true) : FitsFiles tx s t := by
  have hview := ((hs.sane.fit who tx hopen).current hwrites).1
  have hpends := hs.shelved.pends who tx hopen
  have hclosed := hs.shelved.closed
  obtain ⟨after, hplaced, hstore⟩ := h.placed
  intro v hv relpath algo e what _ hmem hload hmade
  rcases h.apart v hv with ⟨n, writable, rfl⟩ | hapart
  · have hcommitted : t.store.index.blobs.contains relpath = true := hmem
    have hbefore := load_landed (hs.recorded who tx hopen) hview hload h.index
    have hnow := file?_committed hpends hclosed (.inl ⟨after, hplaced, hstore⟩)
      (Store.place relpath)
    rw [hmade, ← h.content?_eq hs hopen hwrites hcommitted] at hnow
    rw [← show tx.content? s.store relpath = what from hnow]
    exact (hs.described_iff (.inl ⟨who, hopen⟩) relpath).1
      (hdescribed tx (.inl ⟨who, hopen⟩) relpath) algo e hbefore
  · rw [(hplaced.nothing_of_apart hpends (hapart relpath hmem)).2] at hmade
    cases hmade

end PlainCommit

/-- A transaction that commits changes is open and writes. -/
theorem Move.writes {a : Action} {answer : Except StoreError UInt64} (hs : s.Kept)
    (h : Move s who a answer t) (ha : ∀ e, a ≠ .edit e) (hlands : tx ∈ s.lands who a)
    (hchanges : tx.hasChanges = true) : s.opened who = some tx ∧ tx.writable = true := by
  cases h.shift hs ha with
  | idle _ _ hclean =>
      rw [hclean tx hlands] at hchanges
      cases hchanges
  | @commit tx' hopen hwrites hlanded =>
      rw [hlanded] at hlands
      obtain rfl := List.mem_singleton.1 hlands
      exact ⟨hopen, hwrites⟩

-- ===================================================== runs

/-- No operation declares a digest for content that does not have it, and
every commit of changes is plain. -/
def Turn.Plain (algo : Digest.Algo) (turn : Turn) : Prop :=
  match turn.demand with
  | .use op =>
      ∀ tx, turn.before.opened turn.who = some tx → op.Sound algo turn.before.store tx
  | .manage a => ∀ tx ∈ turn.before.lands turn.who a, tx.hasChanges = true →
      PlainCommit tx turn.before turn.after

theorem Turn.Plain.harmless (hs : s.Kept) (hverified : s.Verified) {d : Demand}
    (h : s.perform algo who d = some t) (hplain : Turn.Plain algo ⟨s, who, d, t⟩) :
    Turn.Harmless algo ⟨s, who, d, t⟩ := by
  have ht := (perform_verified_iff hs hverified h).1
  rcases perform_cases hs.sane h with ⟨op, tx, rfl, hopen, -⟩ | ⟨a, result, rfl, ha, hmove⟩
  · exact hplain
  · intro tx hlands
    cases hchanges : tx.hasChanges with
    | false =>
        intro v _ relpath spec content _ _ _ hputs
        rw [puts_of_clean hchanges] at hputs
        cases hputs
    | true =>
        obtain ⟨hopen, hwrites⟩ := hmove.writes hs ha hlands hchanges
        exact (hplain tx hlands hchanges).putsTrusted hs ht hverified hopen hwrites

/-- In a run on a store that is empty at first, whose commits are plain, all
that transactions see always has the digest that they see declared, unless a
link declares another one. -/
theorem verified_of_plain (algo : Digest.Algo) (root cwd : String) (demands : List (Nat × Demand))
    (h : ∀ turn ∈ (empty root cwd).turns algo demands, turn.Plain algo) :
    ∀ turn ∈ (empty root cwd).turns algo demands, turn.after.Verified := by
  intro turn hmem
  refine (turns_verified (fun s who d t hs hverified hperform hplain => ?_) (kept_empty root cwd)
    (verified_empty root cwd) h turn hmem).1
  exact (perform_verified_iff hs hverified hperform).2.2 (hplain.harmless hs hverified hperform)

/-- Every call leaves a record that fits the content beside it, and every
commit of changes is plain. -/
def Round.Plain (algo : Digest.Algo) (round : Round) : Prop :=
  match round.request with
  | .call c => ∀ tx, round.before.opened round.who = some tx →
      c.Faithful algo round.before.store tx
  | .manage a => ∀ tx ∈ round.before.lands round.who a, tx.hasChanges = true →
      PlainCommit tx round.before round.after

theorem Round.Plain.faithful (hs : s.Kept) (hdescribed : s.AllDescribed) {r : Request}
    (h : s.answer algo who r = some t) (hplain : Round.Plain algo ⟨s, who, r, t⟩) :
    Round.Faithful algo ⟨s, who, r, t⟩ := by
  rcases answer_cases hs.sane h with ⟨c, tx, rfl, hopen, -⟩ | ⟨a, result, rfl, ha, hmove⟩
  · exact hplain
  · intro tx hlands
    cases hchanges : tx.hasChanges with
    | false =>
        intro v _ relpath algo e what _ _ _ hmade
        rw [refiles_of_clean hchanges] at hmade
        cases hmade
    | true =>
        obtain ⟨hopen, hwrites⟩ := hmove.writes hs ha hlands hchanges
        exact (hplain tx hlands hchanges).fitsFiles hs hdescribed hopen hwrites

/-- In a run on a store that is empty at first, whose commits are plain, every
entry that is found is always served with the length of its content, unless a
call leaves a record that does not fit it. -/
theorem described_of_plain (algo : Digest.Algo) (root cwd : String)
    (requests : List (Nat × Request))
    (h : ∀ round ∈ (empty root cwd).rounds algo requests, round.Plain algo) :
    ∀ round ∈ (empty root cwd).rounds algo requests, round.after.AllDescribed := by
  obtain ⟨hs, hdescribed⟩ := paired_empty root cwd
  intro round hmem
  refine (rounds_described (fun s who r t hs hdescribed hanswer hplain => ?_) hs hdescribed h
    round hmem).1
  exact (answer_described_iff hs hdescribed hanswer).2
    (hplain.faithful hs.kept hdescribed hanswer)

end Site

end Depot
