/-
The records that transactions read, told without texts and indexes. A
`Ledger` has the versions that were committed, each the record of every
key, and for each open transaction the version it began on and its
changes since. It knows nothing of what the steps of a run were answered;
a run in which no step is refused goes as the ledger says
(`Site.Move.follows`), so that its transactions are isolated from each
other.

Between a commit and a later reader there is text: a record is read as
its text is, which is the record itself where it is `Json.Lasting`.
-/
import Depot.Proofs.Store.Site
import Depot.Proofs.Json.RoundTrip
import Mathlib.Data.List.Induction

namespace Depot

/-- The record of each key, if it has one. -/
abbrev Records := String → Option Json

/-- What a ledger knows of an open transaction. -/
structure Draft where
  writable : Bool
  /-- How many versions there were when it began or started over. -/
  since : Nat
  /-- The records that were committed then. -/
  base : Records
  /-- Its changes of records, in order. -/
  changes : List (String × Option Json) := []
  /-- Whether it changed blobs. -/
  touched : Bool := false

namespace Draft

/-- The last change of a key, if it was changed. -/
def pending? (d : Draft) (key : String) : Option (Option Json) := d.changes.reverse.lookup key

/-- The records with the changes made in order. -/
def records (d : Draft) : Records :=
  d.changes.foldl (fun records change key => if key = change.1 then change.2 else records key)
    d.base

/-- Whether there is anything to commit. -/
def isDirty (d : Draft) : Bool := !d.changes.isEmpty || d.touched

/-- The draft with a key changed. -/
def change (d : Draft) (key : String) (value : Option Json) : Draft :=
  { d with changes := d.changes ++ [(key, value)] }

/-- The draft with an edit made. -/
def edit (d : Draft) : Edit → Draft
  | .set key value => d.change key (some value)
  | .delete key => d.change key none
  | .setBlob _ _ => { d with touched := true }
  | .deleteBlob _ => { d with touched := true }

end Draft

/-- The versions that were committed, after the empty one, and what is
under way. -/
structure Ledger where
  versions : List Records := []
  drafts : Nat → Option Draft := fun _ => none

namespace Ledger

/-- The records that are committed. -/
def current (l : Ledger) : Records := l.versions.getLast?.getD fun _ => none

/-- The ledger with one of the drafts changed. -/
def put (l : Ledger) (who : Nat) (d : Option Draft) : Ledger :=
  { l with drafts := fun i => if i = who then d else l.drafts i }

/-- A new draft on what is committed. -/
def start (l : Ledger) (who : Nat) (writable : Bool) : Ledger :=
  l.put who (some { writable, since := l.versions.length, base := l.current })

/-- The ledger with a draft made its last version, unless there is nothing
to commit. -/
def publish (l : Ledger) (d : Draft) : Ledger :=
  if d.isDirty then { l with versions := l.versions ++ [d.records] } else l

/-- The ledger after a step. -/
def act (l : Ledger) (who : Nat) (a : Action) : Ledger :=
  match a, l.drafts who with
  | .begin writable, _ => l.start who writable
  | .edit e, some d => l.put who (some (d.edit e))
  | .commit, some d => (l.publish d).put who none
  | .rollback, some _ => l.put who none
  | .drop, some _ => l.put who none
  | .restart true, some d => (if d.writable then l.publish d else l).start who true
  | .restart false, some _ => l.start who false
  | _, none => l

/-- The serial that a step is answered with. -/
def answer (l : Ledger) (who : Nat) (a : Action) : Nat :=
  match a, l.drafts who with
  | .edit _, some d => d.since
  | .commit, some d => if d.isDirty then d.since + 1 else d.since
  | .rollback, some d => d.since
  | .drop, some d => d.since
  | _, _ => (l.act who a).versions.length

/-- The ledger of a run from the start. -/
def after (events : List Site.Event) : Ledger :=
  events.foldl (fun l e => l.act e.who e.action) {}

end Ledger

-- ===================================================== drafts

namespace Draft

variable {d : Draft}

theorem pending?_change (key k : String) (value : Option Json) :
    (d.change k value).pending? key = if key = k then some value else d.pending? key := by
  unfold change pending?
  dsimp only
  rw [List.reverse_append, List.reverse_singleton, List.singleton_append, List.lookup_cons]
  by_cases h : key = k
  · subst h
    simp
  · rw [if_neg h, show (key == k) = false by simpa using h]

/-- What a draft says of a key is its last change of it, or else what was
committed. -/
theorem records_eq (d : Draft) (key : String) :
    d.records key = (d.pending? key).getD (d.base key) := by
  obtain ⟨writable, since, base, changes, touched⟩ := d
  unfold records pending?
  dsimp only
  induction changes using List.reverseRecOn with
  | nil => rfl
  | append_singleton changes change ih =>
      obtain ⟨k, value⟩ := change
      rw [List.foldl_append, List.foldl_cons, List.foldl_nil, List.reverse_append,
        List.reverse_singleton, List.singleton_append, List.lookup_cons]
      by_cases h : key = k
      · subst h
        simp
      · rw [if_neg h, show (key == k) = false by simpa using h]
        exact ih

end Draft

-- ===================================================== following a ledger

namespace Site

/-- A transaction as the ledger has it. -/
structure Keeps (d : Draft) (tx : Transaction) : Prop where
  writable : tx.writable = d.writable
  serial : tx.serial = UInt64.ofNat d.since
  base : ∀ view, tx.view = some view → ∀ key, view.records[key]? = (d.base key).map Json.compact
  pending : ∀ key, tx.records[key]? = d.pending? key
  dirty : tx.hasChanges = d.isDirty

/-- The index says what the ledger says is committed. -/
structure Tells (l : Ledger) (index : Index) : Prop where
  records : ∀ key, index.records[key]? = (l.current key).map Json.compact
  serial : index.serial = some (toString (UInt64.ofNat l.versions.length))

/-- A site as the ledger has it. -/
structure Follows (l : Ledger) (s : Site) : Prop where
  index : Tells l s.store.index
  drafts : ∀ i, Option.Rel Keeps (l.drafts i) (s.opened i)

variable {l : Ledger} {s t : Site} {store : Store} {who : Nat} {tx : Transaction} {d : Draft}

theorem follows_empty (root cwd : String) : Follows {} (empty root cwd) where
  index := ⟨fun key => by simp [Ledger.current, empty], rfl⟩
  drafts _ := .none

/-- The draft of an open transaction. -/
theorem Follows.draft (h : Follows l s) (hopen : s.opened who = some tx) :
    ∃ d, l.drafts who = some d ∧ Keeps d tx := by
  have hrel := h.drafts who
  rw [hopen] at hrel
  cases hd : l.drafts who with
  | none => rw [hd] at hrel; cases hrel
  | some d =>
      rw [hd] at hrel
      cases hrel with
      | some hkeeps => exact ⟨d, rfl, hkeeps⟩

/-- A change of the index and one transaction, on both sides. -/
theorem Follows.settle (h : Follows l s) {l' : Ledger} (hdrafts : l'.drafts = l.drafts)
    (hindex : Tells l' store.index) {d : Option Draft} {tx : Option Transaction}
    (hkeeps : Option.Rel Keeps d tx) : Follows (l'.put who d) (s.settle store who tx) where
  index := ⟨hindex.records, hindex.serial⟩
  drafts := by
    intro i
    unfold Ledger.put Site.settle
    dsimp only
    by_cases hi : i = who
    · rw [if_pos hi, if_pos hi]
      exact hkeeps
    · rw [if_neg hi, if_neg hi, hdrafts]
      exact h.drafts i

/-- A new transaction, on both sides. -/
theorem Follows.start (h : Follows l s) (who : Nat) {l' : Ledger} (hdrafts : l'.drafts = l.drafts)
    (hindex : Tells l' store.index) {n : UInt64} (hserial : store.index.serial = some (toString n))
    (writable : Bool) :
    Follows (l'.start who writable) (s.settle store who (some (fresh store n writable)))
      ∧ n = UInt64.ofNat l'.versions.length := by
  have hn : n = UInt64.ofNat l'.versions.length :=
    Transaction.serial_inj (hserial.symm.trans hindex.serial)
  refine ⟨h.settle hdrafts hindex (.some ?_), hn⟩
  exact {
    writable := rfl
    serial := hn
    base := by
      intro u hu key
      cases hu
      exact hindex.records key
    pending := fun _ => rfl
    dirty := rfl }

/-- An edit, on both sides. -/
theorem Keeps.edit (h : Keeps d tx) {tx' : Transaction} {e : Edit} (hedit : tx.edit e = .ok tx') :
    Keeps (d.edit e) tx' := by
  have hchange : ∀ key value, tx.change key value = .ok tx' → Keeps (d.change key value) tx' := by
    intro key value hedit
    obtain ⟨-, rfl⟩ := Transaction.change_eq hedit
    refine ⟨h.writable, h.serial, h.base, fun k => ?_, ?_⟩
    · dsimp only
      rw [Draft.pending?_change, Std.ExtTreeMap.getElem?_insert, ← h.pending]
      by_cases hk : k = key
      · subst hk
        simp
      · simp [hk, Ne.symm hk]
    · have hfull := Std.ExtTreeMap.isEmpty_eq_false_iff.2
        (Std.ExtTreeMap.insert_ne_empty (t := tx.records) (k := key) (v := value))
      simp [Transaction.hasChanges, Draft.isDirty, Draft.change, hfull]
  have hblob : ∀ relpath content, tx.changeBlob relpath content = .ok tx' →
      Keeps { d with touched := true } tx' := by
    intro relpath content hedit
    obtain ⟨-, -, rfl⟩ := Transaction.changeBlob_eq hedit
    refine ⟨h.writable, h.serial, h.base, h.pending, ?_⟩
    have hfull := Std.ExtTreeMap.isEmpty_eq_false_iff.2
      (Std.ExtTreeMap.insert_ne_empty (t := tx.blobs) (k := relpath) (v := content))
    simp [Transaction.hasChanges, Draft.isDirty, hfull]
  cases e with
  | set key value => exact hchange key (some value) hedit
  | delete key => exact hchange key none hedit
  | setBlob relpath content => exact hblob relpath (some content) hedit
  | deleteBlob relpath => exact hblob relpath none hedit

/-- The index that a transaction lands on says the records of its draft. -/
theorem Tells.landed (h : Tells l store.index) (hfit : Fit store tx) (hkeeps : Keeps d tx)
    (hwrites : tx.writable = true) (hchanges : tx.hasChanges = true) (after : Store) :
    Tells (l.publish d) (landed tx after store.index).index := by
  have hdirty : d.isDirty = true := hkeeps.dirty.symm.trans hchanges
  unfold Ledger.publish
  rw [if_pos hdirty]
  refine ⟨fun key => ?_, ?_⟩
  · have hbase := hkeeps.base _ (hfit.current hwrites).1 key
    rw [landed_index, Transaction.getElem?_overlay, hkeeps.pending, hbase]
    unfold Ledger.current
    dsimp only
    rw [List.getLast?_concat, Option.getD_some, Draft.records_eq]
    cases d.pending? key <;> rfl
  · rw [hfit.landed_serial hwrites after,
      Transaction.serial_inj ((hfit.current hwrites).2.symm.trans h.serial)]
    dsimp only
    rw [List.length_append, List.length_singleton, UInt64.ofNat_add]
    rfl

/-- A step that is not refused goes as the ledger says. -/
theorem Move.follows (hs : s.Sane) (h : Follows l s) {a : Action} {n : UInt64}
    (hmove : Move s who a (.ok n) t) :
    Follows (l.act who a) t ∧ n = UInt64.ofNat (l.answer who a) := by
  cases hmove with
  | @begin writable _ hfree hlock hserial =>
      have hnone : l.drafts who = none := by
        have hrel := h.drafts who
        rw [hfree] at hrel
        cases hd : l.drafts who with
        | none => rfl
        | some d => rw [hd] at hrel; cases hrel
      have hstart := h.start who rfl h.index hserial writable
      unfold Ledger.answer Ledger.act
      rw [hnone]
      exact hstart
  | @edit tx tx' e hopen hedit =>
      obtain ⟨d, hd, hkeeps⟩ := h.draft hopen
      have hedited := hkeeps.edit hedit
      unfold Ledger.answer Ledger.act
      rw [hd]
      refine ⟨h.settle rfl h.index (.some hedited), ?_⟩
      rw [(edit_eq hedit).2]
      exact hkeeps.serial
  | @close tx a hopen ha =>
      obtain ⟨d, hd, hkeeps⟩ := h.draft hopen
      have hclosed : Follows (l.put who none) (s.settle s.store who none) :=
        h.settle rfl h.index .none
      unfold Ledger.answer Ledger.act
      rcases ha with rfl | rfl | ⟨rfl, hidle⟩
      · rw [hd]
        exact ⟨hclosed, hkeeps.serial⟩
      · rw [hd]
        exact ⟨hclosed, hkeeps.serial⟩
      · have hclean : d.isDirty = false := hkeeps.dirty.symm.trans hidle
        rw [hd]
        dsimp only
        unfold Ledger.publish
        rw [hclean, if_neg (by decide), if_neg (by decide)]
        exact ⟨hclosed, hkeeps.serial⟩
  | @commit tx after hopen hwrites hchanges hplaced =>
      obtain ⟨d, hd, hkeeps⟩ := h.draft hopen
      have htells := h.index.landed (hs.fit who tx hopen) hkeeps hwrites hchanges after
      have hdrafts : (l.publish d).drafts = l.drafts := by unfold Ledger.publish; split <;> rfl
      have hdirty : d.isDirty = true := hkeeps.dirty.symm.trans hchanges
      unfold Ledger.answer Ledger.act
      rw [hd]
      dsimp only
      rw [hdirty, if_pos rfl, hkeeps.serial]
      exact ⟨h.settle hdrafts htells .none, (UInt64.ofNat_add _ _).symm⟩
  | @renew tx writable _ hopen hlock hchanges hserial =>
      obtain ⟨d, hd, hkeeps⟩ := h.draft hopen
      have hstart := h.start who rfl h.index hserial writable
      unfold Ledger.answer Ledger.act
      rw [hd]
      cases writable with
      | false => exact hstart
      | true =>
          have hclean : d.isDirty = false := hkeeps.dirty.symm.trans (hchanges rfl)
          have hsame : (if d.writable then l.publish d else l) = l := by
            unfold Ledger.publish
            rw [hclean]
            simp
          dsimp only
          rw [hsame]
          exact hstart
  | @recommit tx after hopen hwrites hchanges hplaced =>
      obtain ⟨d, hd, hkeeps⟩ := h.draft hopen
      have hfit := hs.fit who tx hopen
      have htells := h.index.landed hfit hkeeps hwrites hchanges after
      have hdrafts : (l.publish d).drafts = l.drafts := by unfold Ledger.publish; split <;> rfl
      have hstart := h.start who hdrafts htells (hfit.landed_serial hwrites after) true
      unfold Ledger.answer Ledger.act
      rw [hd]
      dsimp only
      rw [← hkeeps.writable, hwrites, if_pos rfl]
      exact hstart

/-- What a transaction answers for a key: its own last change, or else what
was committed when it began, as its text is read. -/
theorem Keeps.get (h : Keeps d tx) (hlive : tx.view.isSome = true) (store : Store)
    (key : String) :
    tx.get store key = match d.pending? key with
      | some own => .ok own
      | none => match d.base key with
        | none => .ok none
        | some v => (Transaction.readRecord key v.compact).map some := by
  obtain ⟨view, hview⟩ := Option.isSome_iff_exists.1 hlive
  unfold Transaction.get Transaction.observed
  rw [hview, Option.getD_some, h.pending, h.base view hview]
  cases d.pending? key with
  | some own => rfl
  | none => cases d.base key <;> rfl

/-- Runs in which no step is refused are followed. -/
theorem Steps.follows {root cwd : String} {events : List Event}
    (h : Steps (empty root cwd) events t)
    (hok : ∀ e ∈ events, e.answer.isOk = true) :
    Follows (Ledger.after events) t := by
  induction h with
  | refl => exact follows_empty root cwd
  | @snoc events t u e hsteps hact ih =>
      have hbefore := ih fun e he => hok e (List.mem_append_left _ he)
      cases hanswer : e.answer with
      | error err =>
          have := hok e (by simp)
          rw [hanswer] at this
          cases this
      | ok n =>
          rw [hanswer] at hact
          have hsane := hsteps.sane (sane_empty root cwd)
          unfold Ledger.after
          rw [List.foldl_append, List.foldl_cons, List.foldl_nil]
          exact ((hsane.move hact).follows hsane hbefore).1

-- ===================================================== values that last

end Site

/-- All records in it have a property. -/
def Records.All (P : Json → Prop) (records : Records) : Prop :=
  ∀ key v, records key = some v → P v

/-- All that a draft says has a property. -/
structure Draft.All (P : Json → Prop) (d : Draft) : Prop where
  base : Records.All P d.base
  changes : ∀ change ∈ d.changes, ∀ v, change.2 = some v → P v

/-- All that a ledger says has a property. -/
structure Ledger.All (P : Json → Prop) (l : Ledger) : Prop where
  versions : ∀ records ∈ l.versions, Records.All P records
  drafts : ∀ i d, l.drafts i = some d → d.All P

variable {P : Json → Prop} {l : Ledger} {d : Draft} {who : Nat}

theorem Draft.All.records (h : d.All P) : Records.All P d.records := by
  intro key v hv
  rw [Draft.records_eq] at hv
  unfold Draft.pending? at hv
  cases hown : d.changes.reverse.lookup key with
  | none =>
      rw [hown] at hv
      exact h.base key v hv
  | some own =>
      rw [hown, Option.getD_some] at hv
      subst hv
      obtain ⟨before, after, heq, -⟩ := List.lookup_eq_some_iff.1 hown
      refine h.changes (key, some v) (List.mem_reverse.1 ?_) v rfl
      rw [heq]
      exact List.mem_append_right _ (List.mem_cons_self ..)

theorem Ledger.All.current (h : l.All P) : Records.All P l.current := by
  unfold Ledger.current
  cases hlast : l.versions.getLast? with
  | none => exact nofun
  | some records => exact h.versions records (List.mem_of_mem_getLast? hlast)

theorem Ledger.All.put (h : l.All P) {d : Option Draft} (hd : ∀ e, d = some e → e.All P) :
    (l.put who d).All P where
  versions := h.versions
  drafts := by
    intro i e he
    unfold Ledger.put at he
    dsimp only at he
    split at he
    · exact hd e he
    · exact h.drafts i e he

theorem Ledger.All.start (h : l.All P) (writable : Bool) : (l.start who writable).All P := by
  apply h.put
  intro u hu
  cases hu
  exact ⟨h.current, nofun⟩

theorem Ledger.All.publish (h : l.All P) (hd : d.All P) : (l.publish d).All P := by
  unfold Ledger.publish
  split
  · refine ⟨fun records hmem => ?_, h.drafts⟩
    rcases List.mem_append.1 hmem with hmem | hmem
    · exact h.versions records hmem
    · rw [List.mem_singleton.1 hmem]
      exact hd.records
  · exact h

theorem Draft.All.edit (h : d.All P) {e : Edit} (he : ∀ key v, e = .set key v → P v) :
    (d.edit e).All P := by
  have hchange : ∀ key value, (∀ v, value = some v → P v) → (d.change key value).All P := by
    intro key value hvalue
    refine ⟨h.base, fun change hmem => ?_⟩
    rcases List.mem_append.1 hmem with hmem | hmem
    · exact h.changes change hmem
    · rw [List.mem_singleton.1 hmem]
      exact hvalue
  cases e with
  | set key v => exact hchange key (some v) (by rintro _ ⟨⟩; exact he key v rfl)
  | delete key => exact hchange key none nofun
  | setBlob relpath content => exact ⟨h.base, h.changes⟩
  | deleteBlob relpath => exact ⟨h.base, h.changes⟩

/-- A step says nothing but what was said before or is set by it. -/
theorem Ledger.All.act (h : l.All P) {a : Action}
    (ha : ∀ key v, a = .edit (.set key v) → P v) : (l.act who a).All P := by
  unfold Ledger.act
  split
  · exact h.start _
  · next d hd =>
    apply h.put
    intro u hu
    cases hu
    exact (h.drafts who d hd).edit fun key v he => ha key v (by rw [he])
  · next d hd => exact (h.publish (h.drafts who d hd)).put nofun
  · exact h.put nofun
  · exact h.put nofun
  · next d hd =>
    refine All.start ?_ true
    split
    · exact h.publish (h.drafts who d hd)
    · exact h
  · exact h.start false
  · exact h

namespace Site

variable {t : Site}

/-- Whether the values that are set are all read back from their texts. -/
def Lasting (events : List Event) : Prop :=
  ∀ e ∈ events, ∀ key v, e.action = .edit (.set key v) → v.Lasting

theorem Lasting.after {events : List Event} (h : Lasting events) :
    (Ledger.after events).All Json.Lasting := by
  unfold Ledger.after
  induction events using List.reverseRecOn with
  | nil => exact ⟨nofun, nofun⟩
  | append_singleton events e ih =>
      rw [List.foldl_append, List.foldl_cons, List.foldl_nil]
      exact (ih fun e he => h e (List.mem_append_left _ he)).act (h e (by simp))

-- ===================================================== isolation

/-- Transactions are isolated. In a run in which no step is refused, the
serial is the number of versions, each step is answered as the ledger
says, and what an open transaction answers for a key is its own last
change of it, or else what was committed when it began, as the text of
that is read; which is no other value if all values last. -/
theorem isolated {root cwd : String} {events : List Event} (h : Steps (empty root cwd) events t)
    (hok : ∀ e ∈ events, e.answer.isOk = true) :
    t.store.currentSerial = .ok (UInt64.ofNat (Ledger.after events).versions.length)
      ∧ (∀ before e after, events = before ++ e :: after →
          e.answer = .ok (UInt64.ofNat ((Ledger.after before).answer e.who e.action)))
      ∧ ∀ who tx, t.opened who = some tx →
          ∃ d, (Ledger.after events).drafts who = some d ∧ tx.serial = UInt64.ofNat d.since
            ∧ ∀ key,
              tx.get t.store key = (match d.pending? key with
                | some own => .ok own
                | none => match d.base key with
                  | none => .ok none
                  | some v => (Transaction.readRecord key v.compact).map some)
              ∧ tx.hasRecord t.store key = (tx.get t.store key).map Option.isSome
              ∧ (Lasting events → tx.get t.store key = .ok (d.records key)) := by
  have hfollows := h.follows hok
  have hsane := h.sane (sane_empty root cwd)
  refine ⟨currentSerial_eq hfollows.index.serial, ?_, ?_⟩
  · intro before e after hevents
    subst hevents
    obtain ⟨u, v, hbefore, hact, -⟩ := h.split
    have hsaneBefore := hbefore.sane (sane_empty root cwd)
    have hfollowsBefore := hbefore.follows fun e he => hok e (List.mem_append_left _ he)
    cases hanswer : e.answer with
    | error err =>
        have := hok e (by simp)
        rw [hanswer] at this
        cases this
    | ok n =>
        rw [hanswer] at hact
        rw [((hsaneBefore.move hact).follows hsaneBefore hfollowsBefore).2]
  · intro who tx hopen
    obtain ⟨d, hd, hkeeps⟩ := hfollows.draft hopen
    refine ⟨d, hd, hkeeps.serial, fun key => ?_⟩
    have hget := hkeeps.get (hsane.fit who tx hopen).live t.store key
    refine ⟨hget, rfl, fun hlasting => ?_⟩
    have hall := hlasting.after.drafts who d hd
    rw [hget, Draft.records_eq]
    cases d.pending? key with
    | some own => rfl
    | none =>
        cases hbase : d.base key with
        | none => rfl
        | some v =>
            unfold Transaction.readRecord
            dsimp only
            rw [(hall.base key v hbase).read_compact]
            rfl

set_option maxRecDepth 20000 in
/-- A writer commits a record while a reader is open, and another reads
it. -/
theorem isolated_reader_and_writer : ∃ events t tx,
    (empty "depot" "/").run
      [(0, .begin false), (1, .begin true), (1, .edit (.set "k" (.str "v"))), (1, .commit),
        (2, .begin false)] = some (events, t)
    ∧ (∀ e ∈ events, e.answer.isOk = true)
    ∧ t.store.currentSerial = .ok 1
    ∧ t.opened 0 = some tx ∧ tx.get t.store "k" = .ok none := by
  have hrun : (empty "depot" "/").run
      [(0, .begin false), (1, .begin true), (1, .edit (.set "k" (.str "v"))), (1, .commit),
        (2, .begin false)] = some (_, _) := rfl
  obtain ⟨hserial, -, hopen⟩ := isolated (steps_of_run hrun) (List.all_eq_true.1 rfl)
  obtain ⟨d, hd, -, hget⟩ := hopen 0 _ rfl
  cases hd
  exact ⟨_, _, _, hrun, List.all_eq_true.1 rfl, hserial, rfl, (hget "k").1⟩

set_option maxRecDepth 20000 in
/-- A double that is committed may be read as another one. -/
theorem rounded_by_commit : ∃ events t tx d,
    (empty "depot" "/").run
      [(0, .begin true), (0, .edit (.set "k" (.num (.float ⟨false, 8711228593176024, -136⟩)))),
        (0, .commit), (1, .begin false)] = some (events, t)
    ∧ (∀ e ∈ events, e.answer.isOk = true)
    ∧ t.opened 1 = some tx ∧ (Ledger.after events).drafts 1 = some d
    ∧ tx.get t.store "k" = .ok (some (.num (.float ⟨false, 8711228593176025, -136⟩)))
    ∧ tx.get t.store "k" ≠ .ok (d.records "k") :=
  ⟨_, _, _, _, rfl, List.all_eq_true.1 rfl, rfl, rfl, rfl, fun h => by cases h⟩

end Site

end Depot
