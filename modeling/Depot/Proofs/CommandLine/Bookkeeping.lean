/-
The commands of a store as book-keeping. What uploads, removals, listings
and refused fetches come to, run after run in a server directory that was
not there, is what an `Inventory` answers: it is told by which uploads and
removals succeeded before, and by nothing else that is on the disk
(`commands_keep_inventory`).
-/
import Depot.CommandLine.Run
import Depot.Proofs.Bytes
import Depot.Proofs.CommandLine.Reopening
import Depot.Proofs.CommandLine.Steps
import Depot.Proofs.Store.Inventory

namespace Depot

open Files Machine Text Transaction

namespace CommandLine

-- ===================================================== runs of commands

/-- The commands that work on a store. -/
inductive Use where
  | fetch (url : String)
  | upload (target file : String)
  | cat (relpath : String)
  | remove (relpath : String)
  | list
deriving DecidableEq

/-- The command of a use. -/
def Use.command : Use → Command
  | fetch url => .fetch url
  | upload target file => .upload target file
  | cat relpath => .cat relpath
  | remove relpath => .remove relpath
  | list => .list

/-- A run of a command on a machine. -/
structure Visit where
  machine : Machine
  config : Config
  web : Web
  now : String
  use : Use

namespace Visit

/-- What it comes to, and the machine that it leaves. -/
def run (v : Visit) : Except Failure Outcome × Machine :=
  (v.use.command.run v.config v.web v.now).run.run v.machine

/-- The URL that is asked for what a link leads to. -/
def source (link : Link) : String := Entry.withoutFragment link.withoutFragment

/-- Why it is not fetched: the machine is offline, or the URL cannot be
requested. -/
def refusal (v : Visit) (link : Link) : FetchError :=
  if v.config.offline then .offline (source link) else .request (source link)

/-- A visit to a server directory. Fetches are refused, and the files that
are uploaded have no more octets than 64 bits count. -/
structure Fits (v : Visit) (dir : String) : Prop where
  dir : v.config.serverDir = dir
  refused : ∀ url link, v.use = .fetch url → Link.parse url = .ok link →
    v.web (source link) = .error (v.refusal link)
  counted : ∀ target file content, v.use = .upload target file →
    v.machine.readFile file = .ok content → content.length ≤ Json.Reader.maxGathered

end Visit

/-- Visits one after the other. In between the machine may change, but not
the store that is opened in the server directory. -/
def Visits (dir : String) : Machine → List Visit → Prop
  | _, [] => True
  | m, v :: rest => v.Fits dir ∧ (v.machine.openStore dir).2 = (m.openStore dir).2
      ∧ Visits dir v.run.2 rest

end CommandLine

-- ===================================================== what an inventory answers

namespace Inventory

open CommandLine

/-- How many changes there were, counted in 64 bits. -/
def serial (i : Inventory) : Json := Json.ofNat (i.changes % UInt64.size)

/-- An artifact as a line and in detail. -/
def row (relpath : String) (a : Artifact) : String × Json :=
  (relpath ++ "  " ++ toString a.content.length,
    Json.ofMembers
      [("relpath", .str relpath), ("size", Json.ofNat a.content.length),
       ("hash_spec", .str a.spec.toText), ("url", .null)])

/-- An answer: what is written, and the inventory from then on. A failure
leaves it as it was. -/
abbrev Answer := Except Failure (Outcome × Inventory)

/-- Takes in an upload, unless the store that was first refuses its
relpath. -/
def upload (i : Inventory) (first : Store) (algo : Digest.Algo) (user index basename : String)
    (content : Bytes) : Answer :=
  let a : Artifact := ⟨content, .ofContent algo content⟩
  let relpath := Relpath.ofUpload user index a.spec basename
  if !Entry.isUpload user index basename then
    .error (.fetch (.store (.invalidRelpath (user ++ "/" ++ index ++ "/" ++ basename))))
  else
    match first.refusal? relpath with
    | some cause => .error (.fetch (.store cause))
    | none =>
        let after := i.set relpath (some a)
        .ok (.message ("stored " ++ relpath)
          (Json.ofMembers
            [("relpath", .str relpath), ("hash_spec", .str a.spec.toText),
             ("serial", after.serial)]), after)

/-- The content of an artifact. -/
def cat (i : Inventory) (relpath : String) : Answer :=
  match i.artifacts[relpath]? with
  | some a => .ok (.content a.content, i)
  | none => .error (.noEntry relpath)

/-- Takes an artifact away. -/
def remove (i : Inventory) (relpath : String) : Answer :=
  match i.artifacts[relpath]? with
  | some _ =>
      let after := i.set relpath none
      .ok (.message ("removed " ++ relpath)
        (Json.ofMembers [("relpath", .str relpath), ("serial", after.serial)]), after)
  | none => .error (.noEntry relpath)

/-- All artifacts, in the order of their relpaths. -/
def list (i : Inventory) : Answer :=
  let rows := i.artifacts.toList.map fun (relpath, a) => row relpath a
  .ok (.message
    (if rows.isEmpty then "no entries" else joinWith '\n' (rows.map (·.1)))
    (Json.ofMembers [("entries", .arr (rows.map (·.2)))]), i)

/-- What an inventory answers to a visit. `opened` is the store that was
opened first, or why there is none. -/
def answer (i : Inventory) (opened : Except StoreError Machine.Mounted) (v : Visit) : Answer := do
  match v.use with
  | .fetch url =>
      let link ← (Link.parse url).mapError .link
      let _ ← opened.mapError (.fetch ∘ .store)
      .error (.fetch (v.refusal link))
  | .upload target file =>
      let some (user, index) := uploadTarget? target | .error (.target target)
      let some basename := Path.fileName? file | .error (.fileName file)
      let content ← (v.machine.readFile file).mapError (.unreadable file)
      let mounted ← opened.mapError (.fetch ∘ .store)
      i.upload mounted.store v.config.algo user index basename content
  | .cat relpath =>
      let _ ← opened.mapError (.fetch ∘ .store)
      i.cat relpath
  | .remove relpath =>
      let _ ← opened.mapError (.fetch ∘ .store)
      i.remove relpath
  | .list =>
      let _ ← opened.mapError (.fetch ∘ .store)
      i.list

/-- What it answers to visits one after the other. -/
def answers (opened : Except StoreError Machine.Mounted) (i : Inventory) :
    List Visit → List (Except Failure Outcome)
  | [] => []
  | v :: rest =>
      match i.answer opened v with
      | .ok (outcome, after) => .ok outcome :: answers opened after rest
      | .error cause => .error cause :: answers opened i rest

end Inventory

namespace CommandLine

open Work

variable {m m₀ : Machine} {config : Config} {mounted : Machine.Mounted} {first : Store}
  {opened : Except StoreError Machine.Mounted} {i : Inventory} {dir : String}

-- ===================================================== steps of commands

/-- An entry is there just for an artifact. -/
theorem run_entryAt (h : Holds first mounted.store i) (writable : Bool) (config : Config)
    (relpath : String) (m : Machine) :
    let tx := Holds.started mounted.store i writable
    match i.artifacts[relpath]? with
    | none => (entryAt tx mounted.store config relpath).run.run m = (.error (.noEntry relpath), m)
    | some a => ∃ date, (entryAt tx mounted.store config relpath).run.run m
        = (.ok ⟨relpath, a.record date, config.algo⟩, m) := by
  have hload := h.load writable config.algo relpath
  unfold entryAt
  cases hfound : i.artifacts[relpath]? with
  | none =>
      rw [hfound] at hload
      dsimp only at hload ⊢
      rw [run_bind_of_ok (run_ofStore hload m)]
      rfl
  | some a =>
      rw [hfound] at hload
      obtain ⟨date, hload⟩ := hload
      refine ⟨date, ?_⟩
      rw [run_bind_of_ok (run_ofStore hload m)]
      rfl

/-- Steps that leave the machine alone leave it alone one after the other. -/
theorem run_mapM {α β : Type} {step : α → Work β} {f : α → β} {items : List α} (m : Machine)
    (h : ∀ a ∈ items, (step a).run.run m = (.ok (f a), m)) :
    (items.mapM step).run.run m = (.ok (items.map f), m) := by
  induction items with
  | nil =>
      rw [List.mapM_nil]
      rfl
  | cons a rest ih =>
      rw [List.mapM_cons, run_bind_of_ok (h a (List.mem_cons_self ..)),
        run_bind_of_ok (ih fun b hb => h b (List.mem_cons_of_mem _ hb))]
      rfl

-- ===================================================== machines that keep an inventory

/-- A machine that keeps an inventory: the store that is opened on it holds
the inventory, or is refused as it was at first. -/
def Keeps (opened : Except StoreError Machine.Mounted) (dir : String) (m : Machine)
    (i : Inventory) : Prop :=
  match opened with
  | .ok first => ∃ mounted, (m.openStore dir).2 = .ok mounted
      ∧ Holds first.store mounted.store i
  | .error e => (m.openStore dir).2 = .error e

/-- A run that comes to what an inventory answers, and leaves a machine that
keeps what the inventory is from then on. -/
def Answered (opened : Except StoreError Machine.Mounted) (dir : String) (i : Inventory)
    (result : Except Failure Outcome × Machine) : Inventory.Answer → Prop
  | .ok (outcome, after) => result.1 = .ok outcome ∧ Keeps opened dir result.2 after
  | .error cause => result.1 = .error cause ∧ Keeps opened dir result.2 i

theorem keeps_opened {first : Machine.Mounted} (hopened : m.Opened dir mounted)
    (h : Holds first.store mounted.store i) : Keeps (.ok first) dir m i :=
  ⟨mounted, by rw [hopened.openStore], h⟩

/-- A command that opens the store is answered as it is from there on, or
refused if the store is. -/
theorem answered_openStore (h : Keeps opened config.serverDir m₀ i)
    {next : Machine.Mounted → Work Outcome} {answer : Machine.Mounted → Inventory.Answer}
    (hnext : ∀ m first mounted, m.Opened config.serverDir mounted →
      Holds first.store mounted.store i →
      Answered (.ok first) config.serverDir i ((next mounted).run.run m) (answer first)) :
    Answered opened config.serverDir i ((openStore config >>= next).run.run m₀)
      (opened.mapError (.fetch ∘ .store) >>= answer) := by
  have hrun := run_openStore config m₀
  unfold Keeps at h
  cases hopen : m₀.openStore config.serverDir with
  | mk m result =>
      rw [hopen] at h hrun
      cases opened with
      | error e =>
          obtain rfl : result = .error e := h
          rw [run_bind_of_error hrun]
          have hagain := Machine.openStore_refused hopen
          exact ⟨rfl, by unfold Keeps; rw [hagain]⟩
      | ok first =>
          obtain ⟨mounted, rfl, hholds⟩ := h
          rw [run_bind_of_ok hrun]
          exact hnext m first mounted (Machine.opened_of_openStore hopen) hholds

/-- A transaction is started in it. -/
theorem run_start (h : Holds first mounted.store i) (writable : Bool) (m : Machine) :
    (ofStore (Transaction.start mounted.store writable)).run.run m
      = (.ok (Holds.started mounted.store i writable), m) := run_ofStore (h.start writable) m

-- ===================================================== commands that read

theorem answered_cat (h : Keeps opened config.serverDir m₀ i) (relpath : String) :
    Answered opened config.serverDir i ((cat config relpath).run.run m₀)
      (opened.mapError (.fetch ∘ .store) >>= fun _ => i.cat relpath) := by
  refine answered_openStore h fun m first mounted hopened h => ?_
  have hkeeps := keeps_opened hopened h
  have hentry := run_entryAt h false config relpath m
  unfold Inventory.cat
  rw [run_bind_of_ok (run_start h false m)]
  cases hfound : i.artifacts[relpath]? with
  | none =>
      rw [hfound] at hentry
      rw [run_bind_of_error hentry]
      exact ⟨rfl, hkeeps⟩
  | some a =>
      rw [hfound] at hentry
      obtain ⟨date, hentry⟩ := hentry
      rw [run_bind_of_ok hentry, run_bind_of_ok (run_ofStore (h.blob false hfound).1 m)]
      exact ⟨rfl, hkeeps⟩

/-- The rows of the relpaths are those of the artifacts. -/
theorem filterMap_rows (i : Inventory) :
    (i.artifacts.keys.map fun relpath =>
        i.artifacts[relpath]?.map (Inventory.row relpath)).filterMap id
      = i.artifacts.toList.map fun (relpath, a) => Inventory.row relpath a := by
  have hrows : (i.artifacts.toList.map fun p => i.artifacts[p.1]?.map (Inventory.row p.1))
      = i.artifacts.toList.map fun p => some (Inventory.row p.1 p.2) := by
    refine List.map_congr_left fun p hmem => ?_
    rw [Std.ExtTreeMap.mem_toList_iff_getElem?_eq_some.1 hmem]
    rfl
  rw [← Std.ExtTreeMap.map_fst_toList_eq_keys, List.map_map]
  refine (congrArg (List.filterMap id) hrows).trans ?_
  rw [List.filterMap_map]
  exact congrFun (List.filterMap_eq_map (f := Function.uncurry Inventory.row)) _

theorem answered_list (h : Keeps opened config.serverDir m₀ i) :
    Answered opened config.serverDir i ((list config).run.run m₀)
      (opened.mapError (.fetch ∘ .store) >>= fun _ => i.list) := by
  refine answered_openStore h fun m first mounted hopened h => ?_
  unfold Inventory.list
  rw [run_bind_of_ok (run_start h false m), h.relpaths, run_bind_of_ok (run_mapM
    (f := fun relpath => i.artifacts[relpath]?.map (Inventory.row relpath)) m
    fun relpath hmem => ?_)]
  · rw [filterMap_rows]
    exact ⟨rfl, keeps_opened hopened h⟩
  · have hload := h.load false config.algo relpath
    obtain ⟨a, hfound⟩ := Option.isSome_iff_exists.1
      (Std.ExtTreeMap.mem_iff_isSome_getElem?.1 (Std.ExtTreeMap.mem_keys.1 hmem))
    rw [hfound] at hload ⊢
    obtain ⟨date, hload⟩ := hload
    rw [run_bind_of_ok (run_ofStore hload m)]
    dsimp only
    rw [run_bind_of_ok (run_ofStore (h.blob false hfound).2 m)]
    rfl

/-- A refused fetch leaves the store as it is, whatever was to be written of
the link. -/
theorem answered_fetch (h : Keeps opened config.serverDir m₀ i) {web : Web} {url : String}
    {cause : Link → FetchError}
    (hweb : ∀ link, Link.parse url = .ok link → web (Visit.source link) = .error (cause link))
    (hdamage : ∀ link, Entry.isDamage (cause link) = false) (now : String) :
    Answered opened config.serverDir i ((fetch config web now url).run.run m₀) (do
      let link ← (Link.parse url).mapError .link
      let _ ← opened.mapError (.fetch ∘ .store)
      .error (.fetch (cause link))) := by
  have hlift := run_lift .link (Link.parse url) m₀
  unfold fetch
  cases hlink : Link.parse url with
  | error e =>
      rw [hlink] at hlift
      rw [run_bind_of_error hlift]
      exact ⟨rfl, h⟩
  | ok link =>
      rw [hlink] at hlift
      rw [run_bind_of_ok hlift]
      refine answered_openStore h fun m first mounted hopened h => ?_
      obtain ⟨e, tx, hmap, hwritable, hurl⟩ := h.ofLink config.algo link
      have htarget : e.target tx none = .ok (Visit.source link) := by
        unfold Entry.target
        rw [hurl, hwritable]
        rfl
      have hresult : (e.fetch tx web now none).result = .error (cause link) := by
        unfold Entry.fetch Entry.download
        rw [htarget]
        dsimp only
        rw [hweb link hlink]
        dsimp only
        rw [hdamage]
        rfl
      have hfailed := run_lift .fetch (e.fetch tx web now none).result m
      rw [hresult] at hfailed
      rw [run_bind_of_ok (run_start h true m), run_bind_of_ok (run_ofStore hmap m)]
      dsimp only
      rw [hresult, run_bind_of_error hfailed]
      exact ⟨rfl, keeps_opened hopened h⟩

-- ===================================================== commands that write

/-- The machine once a transaction has committed. -/
theorem keeps_keep {first : Machine.Mounted} {before : Inventory}
    (hopened : m.Opened dir mounted) {tx tx' : Transaction} {after : Store}
    {result : Except StoreError UInt64}
    (hview : tx.view = some mounted.store.index) (hpends : tx.Pends)
    (hcommit : tx.commit mounted.store = (after, tx', result))
    (hfirst : Holds first.store mounted.store before)
    (hdirs : KeepsDirs mounted.store.files after.files) (h : Holds first.store after i) :
    Keeps (.ok first) dir (m.keep { mounted with store := after }) i := by
  have hbare := bare_commit hview hpends hopened.bare
  rw [hcommit] at hbare
  have hserial : after.index.serial ≠ none := by
    rw [h.serial]
    exact Option.some_ne_none _
  exact keeps_opened (hopened.keep (h.root.trans hfirst.root.symm) (h.cwd.trans hfirst.cwd.symm)
    hserial hbare hdirs) h

/-- Where the store that was opened first refuses a relpath, an upload does
not commit. -/
theorem run_commit_refused {first : Machine.Mounted} (hopened : m.Opened dir mounted)
    (h : Holds first.store mounted.store i) {relpath : String} {a : Artifact}
    (hbelongs : a.BelongsAt relpath) (date : String) {e : StoreError}
    (hrefusal : first.store.refusal? relpath = some e) :
    ∃ after, (commit mounted (Holds.changed mounted.store i relpath date (some a))).run.run m
        = (.error (.fetch (.store e)), after)
      ∧ Keeps (.ok first) dir after i := by
  obtain ⟨above, name, hplain, -⟩ := hbelongs.plain
  obtain ⟨after, tx', hcommit, hdirs, hafter⟩ := h.commit_refused hbelongs date hrefusal
  have hkeeps := keeps_keep hopened rfl (Holds.pends_changed hplain.valid) hcommit h hdirs
    hafter
  exact ⟨_, by rw [run_commit, hcommit]; rfl, hkeeps⟩

/-- Where it does not, an artifact is put. -/
theorem run_commit_put {first : Machine.Mounted} (hopened : m.Opened dir mounted)
    (h : Holds first.store mounted.store i) {relpath : String} {a : Artifact}
    (hbelongs : a.BelongsAt relpath) (hcounted : a.content.length ≤ Json.Reader.maxGathered)
    (date : String) (hrefusal : first.store.refusal? relpath = none) :
    ∃ after, (commit mounted (Holds.changed mounted.store i relpath date (some a))).run.run m
        = (.ok (UInt64.ofNat (i.changes + 1)), after)
      ∧ Keeps (.ok first) dir after (i.set relpath (some a)) := by
  obtain ⟨above, name, hplain, -⟩ := hbelongs.plain
  obtain ⟨after, tx', hcommit, hdirs, hafter⟩ := h.commit_put hbelongs hcounted date hrefusal
  have hkeeps := keeps_keep hopened rfl (Holds.pends_changed hplain.valid) hcommit h hdirs
    hafter
  exact ⟨_, by rw [run_commit, hcommit]; rfl, hkeeps⟩

/-- A removal takes an artifact away. -/
theorem run_commit_remove {first : Machine.Mounted} (hopened : m.Opened dir mounted)
    (h : Holds first.store mounted.store i) {relpath : String} {a : Artifact}
    (hfound : i.artifacts[relpath]? = some a) (date : String) :
    ∃ after, (commit mounted (Holds.changed mounted.store i relpath date none)).run.run m
        = (.ok (UInt64.ofNat (i.changes + 1)), after)
      ∧ Keeps (.ok first) dir after (i.set relpath none) := by
  have hvalid := (h.kept relpath a hfound).stands.valid
  obtain ⟨after, tx', hcommit, hdirs, hafter⟩ := h.commit_remove hfound date
  have hkeeps := keeps_keep hopened rfl (Holds.pends_changed hvalid) hcommit h hdirs
    hafter
  exact ⟨_, by rw [run_commit, hcommit]; rfl, hkeeps⟩

/-- The serial that is reported is the number of changes, as 64 bits count
it. -/
theorem serialJson_set (i : Inventory) (relpath : String) (now : Option Artifact) :
    serialJson (UInt64.ofNat (i.changes + 1)) = (i.set relpath now).serial := by
  unfold serialJson Inventory.serial
  rw [i.changes_set]
  exact congrArg Json.ofNat UInt64.toNat_ofNat'

theorem answered_remove (h : Keeps opened config.serverDir m₀ i) (relpath : String) :
    Answered opened config.serverDir i ((remove config relpath).run.run m₀)
      (opened.mapError (.fetch ∘ .store) >>= fun _ => i.remove relpath) := by
  refine answered_openStore h fun m first mounted hopened h => ?_
  have hentry := run_entryAt h true config relpath m
  unfold Inventory.remove
  rw [run_bind_of_ok (run_start h true m)]
  cases hfound : i.artifacts[relpath]? with
  | none =>
      rw [hfound] at hentry
      rw [run_bind_of_error hentry]
      exact ⟨rfl, keeps_opened hopened h⟩
  | some a =>
      rw [hfound] at hentry
      obtain ⟨date, hentry⟩ := hentry
      obtain ⟨after, hcommit, hkeeps⟩ := run_commit_remove hopened h hfound date
      rw [run_bind_of_ok hentry, Holds.delete_eq (h.kept relpath a hfound).stands.valid _ _ date]
      dsimp only
      rw [run_bind_of_ok (run_ofStore rfl m), run_bind_of_ok hcommit, serialJson_set]
      exact ⟨rfl, hkeeps⟩

/-- Of an upload, what is left to do once the store is opened. -/
theorem answered_put {first : Machine.Mounted} (hopened : m.Opened config.serverDir mounted)
    (h : Holds first.store mounted.store i) (user index basename : String) {content : Bytes}
    (hcounted : content.length ≤ Json.Reader.maxGathered) (now : String) :
    Answered (.ok first) config.serverDir i ((do
      let tx ← ofStore (Transaction.start mounted.store true)
      let (entry, tx) ← ofStore
        (Entry.upload tx mounted.store config.algo now user index basename content)
      let serial ← Work.commit mounted tx
      return .message ("stored " ++ entry.relpath)
        (Json.ofMembers
          [("relpath", .str entry.relpath), ("hash_spec", hashJson entry),
           ("serial", serialJson serial)]) : Work Outcome).run.run m)
      (i.upload first.store config.algo user index basename content) := by
  rw [run_bind_of_ok (run_start h true m)]
  cases hnames : Entry.isUpload user index basename with
  | false =>
      have hupload : ∀ tx, Entry.upload tx mounted.store config.algo now user index basename content
          = .error (.invalidRelpath (user ++ "/" ++ index ++ "/" ++ basename)) := by
        intro tx
        unfold Entry.upload
        rw [if_pos (by simp [hnames])]
      unfold Inventory.upload
      rw [hupload, run_bind_of_error (run_lift _ _ m), if_pos (by simp [hnames])]
      exact ⟨rfl, keeps_opened hopened h⟩
  | true =>
      have hbelongs : (Artifact.mk content (.ofContent config.algo content)).BelongsAt
          (Relpath.ofUpload user index (.ofContent config.algo content) basename) :=
        ⟨user, index, basename, config.algo, hnames, rfl, rfl⟩
      have hupload := h.upload_eq hnames config.algo now
        ⟨content, .ofContent config.algo content⟩ rfl
      rw [run_bind_of_ok (run_ofStore hupload m)]
      unfold Inventory.upload
      rw [if_neg (by simp [hnames])]
      dsimp only
      cases hrefusal : first.store.refusal? (Relpath.ofUpload user index
          (.ofContent config.algo content) basename) with
      | some e =>
          obtain ⟨after, hcommit, hkeeps⟩ := run_commit_refused hopened h hbelongs now hrefusal
          rw [run_bind_of_error hcommit]
          exact ⟨rfl, hkeeps⟩
      | none =>
          obtain ⟨after, hcommit, hkeeps⟩ := run_commit_put hopened h hbelongs hcounted now hrefusal
          rw [run_bind_of_ok hcommit, serialJson_set]
          exact ⟨rfl, hkeeps⟩

/-- An upload is checked before the store is opened. -/
theorem answered_upload (h : Keeps opened config.serverDir m₀ i) (target file : String)
    (hcounted : ∀ content, m₀.readFile file = .ok content →
      content.length ≤ Json.Reader.maxGathered) (now : String) :
    Answered opened config.serverDir i ((upload config now target file).run.run m₀) (do
      let some (user, index) := uploadTarget? target | .error (.target target)
      let some basename := Path.fileName? file | .error (.fileName file)
      let content ← (m₀.readFile file).mapError (.unreadable file)
      let mounted ← opened.mapError (.fetch ∘ .store)
      i.upload mounted.store config.algo user index basename content) := by
  unfold upload
  cases uploadTarget? target with
  | none => exact ⟨rfl, h⟩
  | some names =>
      cases Path.fileName? file with
      | none => exact ⟨rfl, h⟩
      | some basename =>
          have hlift := run_lift (.unreadable file) (m₀.readFile file) m₀
          dsimp only
          rw [run_bind_of_ok (run_readFile file m₀)]
          cases hfile : m₀.readFile file with
          | error e =>
              rw [hfile] at hlift
              rw [run_bind_of_error hlift]
              exact ⟨rfl, h⟩
          | ok content =>
              rw [hfile] at hlift
              rw [run_bind_of_ok hlift]
              exact answered_openStore h fun m first mounted hopened h =>
                answered_put hopened h names.1 names.2 basename (hcounted content hfile) now

-- ===================================================== runs

/-- Each visit is answered by the inventory that the machine keeps. -/
theorem Visit.Fits.answered {v : Visit} (hfits : v.Fits dir) (h : Keeps opened dir v.machine i) :
    Answered opened dir i v.run (i.answer opened v) := by
  obtain ⟨machine, config, web, now, use⟩ := v
  obtain ⟨rfl, hrefused, hcounted⟩ := hfits
  cases use with
  | fetch url =>
      refine answered_fetch h (fun link hlink => hrefused url link rfl hlink) (fun link => ?_) now
      unfold Visit.refusal
      split <;> rfl
  | upload target file =>
      exact answered_upload h target file (fun content => hcounted target file content rfl) now
  | cat relpath => exact answered_cat h relpath
  | remove relpath => exact answered_remove h relpath
  | list => exact answered_list h

/-- So are visits one after the other. -/
theorem Visits.answers {visits : List Visit} (h : Visits dir m visits)
    (hkeeps : Keeps opened dir m i) :
    visits.map (fun v => v.run.1) = i.answers opened visits := by
  induction visits generalizing m i with
  | nil => rfl
  | cons v rest ih =>
      obtain ⟨hfits, hsame, hrest⟩ := h
      have hbefore : Keeps opened dir v.machine i := by
        unfold Keeps
        rw [hsame]
        exact hkeeps
      have hanswered := hfits.answered hbefore
      unfold Inventory.answers
      cases hanswer : i.answer opened v with
      | ok pair =>
          obtain ⟨outcome, after⟩ := pair
          rw [hanswer] at hanswered
          obtain ⟨hrun, hafter⟩ := hanswered
          rw [List.map_cons, hrun, ih hrest hafter]
      | error cause =>
          rw [hanswer] at hanswered
          obtain ⟨hrun, hafter⟩ := hanswered
          rw [List.map_cons, hrun, ih hrest hafter]

/-- A store that is new holds nothing. -/
theorem holds_new {store : Store} (h : Machine.New store) : Holds store store {} := by
  obtain ⟨hindex, hdirs, hclosed⟩ := h
  refine ⟨rfl, rfl, by rw [hindex]; rfl, fun relpath => ?_, fun relpath => ?_,
    fun relpath a hfound => ?_, hclosed, fun q content hq => ?_, fun _ _ => Iff.rfl⟩
  · rw [hindex]
    exact Std.ExtTreeMap.getElem?_empty
  · rw [hindex]
    rfl
  · rw [Std.ExtTreeMap.getElem?_empty] at hfound
    cases hfound
  · cases hdirs q _ hq

/-- Where there is no server directory, a machine keeps nothing. -/
theorem keeps_new (habsent : m.Lacks dir) : Keeps (m.openStore dir).2 dir m {} := by
  unfold Keeps
  cases hopen : m.openStore dir with
  | mk m' opened =>
      cases opened with
      | error e => rfl
      | ok first => exact ⟨first, rfl, holds_new (new_of_lacks habsent hopen)⟩

/-- The commands keep an inventory. From a server directory that is not
there on, what uploads, removals, listings and refused fetches come to, one
after the other, is what it answers; and it has its relpaths in the order of
their octets. -/
theorem commands_keep_inventory {visits : List Visit} (habsent : m.Lacks dir)
    (h : Visits dir m visits) :
    visits.map (fun v => v.run.1) = Inventory.answers (m.openStore dir).2 {} visits
      ∧ ∀ i : Inventory, i.artifacts.keys.Pairwise fun a b => Bytes.ofText a < Bytes.ofText b :=
  ⟨h.answers (keeps_new habsent), fun i => (keys_sorted i.artifacts).imp Bytes.ofText_lt⟩

/-- Visits with nothing in between. -/
def Visit.chain (config : Config) (web : Web) (now : String) : Machine → List Use → List Visit
  | _, [] => []
  | m, use :: rest =>
      let v : Visit := ⟨m, config, web, now, use⟩
      v :: chain config web now v.run.2 rest

theorem visits_chain {web : Web} {now : String} {uses : List Use}
    (h : ∀ v ∈ Visit.chain config web now m uses, v.Fits dir) :
    Visits dir m (Visit.chain config web now m uses) := by
  induction uses generalizing m with
  | nil => trivial
  | cons use rest ih =>
      exact ⟨h _ (List.mem_cons_self ..), rfl, ih fun v hv => h v (List.mem_cons_of_mem _ hv)⟩

theorem mem_chain {web : Web} {now : String} {uses : List Use} {v : Visit}
    (h : v ∈ Visit.chain config web now m uses) :
    v.config = config ∧ v.web = web ∧ v.use ∈ uses := by
  induction uses generalizing m with
  | nil => cases h
  | cons use rest ih =>
      rcases List.mem_cons.1 h with rfl | hrest
      · exact ⟨rfl, rfl, List.mem_cons_self ..⟩
      · obtain ⟨hconfig, hweb, huse⟩ := ih hrest
        exact ⟨hconfig, hweb, List.mem_cons_of_mem _ huse⟩

/-- A machine with one file. -/
def Visit.sampleMachine : Machine where
  env := { vars := [], home := none, dataHome := none, cwd := "/" }
  disk := Tree.empty.put ["a.txt"] [104, 105]

/-- The file comes and goes as an artifact, offline. -/
def Visit.sample : List Visit :=
  chain
    { serverDir := "/srv", source := .commandLine, algo := .md5, timeout := 60, offline := true }
    (fun url => .error (.offline url)) "Thu, 01 Jan 2026 00:00:00 GMT" sampleMachine
    [.upload "root/pypi" "/a.txt", .list, .cat "root/pypi/+f/49f/68a5c8493ec2c/a.txt",
     .fetch "https://example.org/a-1.zip", .remove "root/pypi/+f/49f/68a5c8493ec2c/a.txt",
     .cat "root/pypi/+f/49f/68a5c8493ec2c/a.txt"]

theorem lacks_sample : Visit.sampleMachine.Lacks "/srv" := by
  intro mounted hopen q hprefix
  have hplace : (Visit.sampleMachine.openStore "/srv").2.map (·.place) = .ok ["srv"] := by rfl
  rw [hopen] at hplace
  rw [show mounted.place = ["srv"] from Except.ok.inj hplace] at hprefix
  obtain ⟨rest, rfl⟩ := hprefix
  refine (Tree.node?_put (List.cons_ne_nil _ _) ..).trans ?_
  rw [if_neg (by simp), Tree.node?_of_ne (by simp)]
  exact Std.ExtTreeMap.getElem?_empty

theorem fits_sample : ∀ v ∈ Visit.sample, v.Fits "/srv" := by
  have hread : Visit.sampleMachine.readFile "/a.txt" = .ok [104, 105] := by rfl
  intro v hv
  obtain ⟨hconfig, hweb, -⟩ := mem_chain hv
  refine ⟨by rw [hconfig], fun url link _ _ => ?_, fun target file content huse hfile => ?_⟩
  · unfold Visit.refusal
    rw [hweb, hconfig]
    rfl
  · -- the file is read where nothing was done yet
    rcases List.mem_cons.1 hv with rfl | hrest
    · cases huse
      cases hread.symm.trans hfile
      decide
    · have hother := (mem_chain hrest).2.2
      rw [huse] at hother
      simp at hother

theorem visits_sample : Visits "/srv" Visit.sampleMachine Visit.sample := by
  have hfits := fits_sample
  unfold Visit.sample at hfits ⊢
  exact visits_chain hfits

/-- What the inventory answers to them, in writing. -/
theorem answers_sample :
    (Inventory.answers (Visit.sampleMachine.openStore "/srv").2 {} Visit.sample).map
        (fun result => result.toOption.map (·.output .list false))
      = [some (Bytes.ofText "stored root/pypi/+f/49f/68a5c8493ec2c/a.txt\n"),
         some (Bytes.ofText "root/pypi/+f/49f/68a5c8493ec2c/a.txt  2\n"), some [104, 105], none,
         some (Bytes.ofText "removed root/pypi/+f/49f/68a5c8493ec2c/a.txt\n"), none] := by
  decide +kernel

/-- So that is written on these visits. -/
theorem commands_keep_inventory_sample :
    Visit.sampleMachine.Lacks "/srv" ∧ Visits "/srv" Visit.sampleMachine Visit.sample
      ∧ (Visit.sample.map (·.run.1)).map (fun result => result.toOption.map (·.output .list false))
        = [some (Bytes.ofText "stored root/pypi/+f/49f/68a5c8493ec2c/a.txt\n"),
           some (Bytes.ofText "root/pypi/+f/49f/68a5c8493ec2c/a.txt  2\n"), some [104, 105], none,
           some (Bytes.ofText "removed root/pypi/+f/49f/68a5c8493ec2c/a.txt\n"), none] := by
  refine ⟨lacks_sample, visits_sample, ?_⟩
  rw [(commands_keep_inventory lacks_sample visits_sample).1]
  exact answers_sample

end CommandLine

end Depot
