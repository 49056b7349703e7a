/-
The switch of a stage while documents are made. Whatever is asked of a
project's versions is asked while the stage is offline, and then the switch is
as it was, whether there is a document or not (`Document.asked_offline`).

That a question is put offline is read off a stage that notes what it is asked
(`Stage.noted`). Noting changes nothing (`Shadows.ofListing`), and a stage that
has a switch has it also where it is noted (`Stage.Switched.noted`). So both
parts are one fact about stages with a switch, `Stage.Switched.ofListing`: once
for the stage, where the states are those with the switch as it was, and once
for the stage with notes, where they are those with every note in turn. A
registry is left as it is altogether (`Registry.run_ofListing`).
-/
import Depot.Proofs.Indexing.Document

namespace Depot.Indexing

variable {σ : Type} {stage : Stage σ} {offline : σ → Bool} {among : σ → Prop} {project : String}

-- ===================================================== questions that stay among some states

/-- Whatever a stage is asked of the versions of a project, it does not leave
the states `among`. -/
structure Stage.Stays (stage : Stage σ) (project : String) (among : σ → Prop) : Prop where
  listVersions : StaysIn among (stage.listVersions project)
  versionData : ∀ version, StaysIn among (stage.versionData project version)
  docLinks : ∀ version, StaysIn among (stage.docLinks project version)
  docExists : ∀ version, StaysIn among (stage.docExists project version)
  metadataKeys : StaysIn among stage.metadataKeys

namespace Document

theorem staysIn_ask {α : Type} {question : StateM σ (Except StageError α)}
    (h : StaysIn among question) : StaysIn among (ask question).run := by
  unfold ask
  rw [ExceptT.run_mk]
  exact h.bind fun _ => StaysIn.return _

theorem staysIn_lift {ε α : Type} {step : StateM σ α} (h : StaysIn among step) :
    StaysIn among (ExceptT.lift step : ExceptT ε (StateM σ) α).run := by
  rw [ExceptT.run_lift]
  exact fun s hs => h s hs

theorem staysIn_askDocumented (h : stage.Stays project among) (versions : List String) :
    StaysIn among (askDocumented stage project versions).run := by
  induction versions with
  | nil => exact StaysIn.return _
  | cons version older ih =>
      unfold askDocumented
      refine (staysIn_ask (h.docLinks version)).andThen fun links => ?_
      cases links.isEmpty with
      | true => exact ih
      | false => exact (staysIn_ask (h.docExists version)).andThen fun _ => StaysIn.return _

/-- Neither does it when it is asked for all that a document is made of,
wherever that ends. -/
theorem staysIn_describe (h : stage.Stays project among) :
    StaysIn among (describe stage project).run := by
  rw [describe_eq_compose]
  refine (staysIn_ask h.listVersions).andThen fun versions => StaysIn.andThen ?_ fun newest =>
    (staysIn_askDocumented h _).andThen fun documented =>
      (staysIn_lift h.metadataKeys).andThen fun keys => StaysIn.return _
  cases Project.newestFirst versions with
  | nil => exact StaysIn.return _
  | cons version older => exact staysIn_ask (h.versionData version)

/-- A mirror is asked for the document once it has said that it has fetched
the project. -/
theorem ofListing_eq_bind (hkind : stage.kind = .mirror) (name : String) :
    ofListing ⟨stage, name⟩
      = stage.isCached (Project.normalize name) >>= fun answer =>
          match answer with
          | .error cause => return .error (.stage cause)
          | .ok true => whileOffline stage (describe stage (Project.normalize name)).run
          | .ok false => return .ok (stub stage (Project.normalize name)) := by
  unfold ofListing
  dsimp only
  refine (if_pos hkind).trans (bind_congr fun answer => ?_)
  match answer with
  | .error cause => rfl
  | .ok true => rfl
  | .ok false => rfl

end Document

-- ===================================================== stages with a switch

/-- In the states `among`, a stage has a switch that is `offline` or not:
setting it tells how it was before, and no question changes it. -/
structure Stage.Switched (stage : Stage σ) (offline : σ → Bool) (among : σ → Prop) : Prop where
  setOffline : ∀ value s, among s →
    ((stage.setOffline value).run s).1 = offline s
      ∧ among ((stage.setOffline value).run s).2
      ∧ offline ((stage.setOffline value).run s).2 = value
  isCached : ∀ project value,
    StaysIn (fun s => among s ∧ offline s = value) (stage.isCached project)
  versions : ∀ project, stage.Stays project fun s => among s ∧ offline s = true

namespace Stage.Switched

/-- What is done while a stage is offline leaves the switch where it was. -/
theorem whileOffline {α : Type} {action : StateM σ α} (h : stage.Switched offline among)
    (haction : StaysIn (fun s => among s ∧ offline s = true) action) (value : Bool) :
    StaysIn (fun s => among s ∧ offline s = value) (Document.whileOffline stage action) := by
  rintro s ⟨hs, rfl⟩
  obtain ⟨hbefore, hoffline⟩ := h.setOffline true s hs
  obtain ⟨-, hback⟩ := h.setOffline ((stage.setOffline true).run s).1 _ (haction _ hoffline).1
  rw [← hbefore]
  exact hback

/-- So does making the document of a project, wherever it ends. -/
theorem ofListing (h : stage.Switched offline among) (name : String) (value : Bool) :
    StaysIn (fun s => among s ∧ offline s = value) (Document.ofListing ⟨stage, name⟩) := by
  have hdescribed := h.whileOffline
    (Document.staysIn_describe (h.versions (Project.normalize name))) value
  cases hkind : stage.kind with
  | own =>
      rw [Document.ofListing_of_own hkind]
      exact hdescribed
  | mirror =>
      rw [Document.ofListing_eq_bind hkind]
      refine (h.isCached _ value).bind fun answer => ?_
      match answer with
      | .ok true => exact hdescribed
      | .ok false => exact StaysIn.return _
      | .error cause => exact StaysIn.return _

end Stage.Switched

-- ===================================================== notes

/-- What a stage is asked when a document is made. -/
inductive Question where
  | isCached (project : String)
  | listVersions (project : String)
  | versionData (project version : String)
  | docLinks (project version : String)
  | docExists (project version : String)
  | metadataKeys
deriving DecidableEq

/-- A question that was put, and whether the stage was offline then. -/
structure Note where
  question : Question
  offline : Bool
deriving DecidableEq

/-- Puts a question and notes it. -/
def noting {α : Type} (offline : σ → Bool) (question : Question) (answer : StateM σ α) :
    StateM (σ × List Note) α :=
  fun (s, notes) =>
    let (a, s') := answer s
    (a, s', notes ++ [⟨question, offline s⟩])

/-- Does something of which there is no note. -/
def unnoted {α : Type} (step : StateM σ α) : StateM (σ × List Note) α :=
  fun (s, notes) =>
    let (a, s') := step s
    (a, s', notes)

/-- The stage with notes of what it is asked when a document is made. -/
def Stage.noted (stage : Stage σ) (offline : σ → Bool) : Stage (σ × List Note) where
  user := stage.user
  index := stage.index
  kind := stage.kind
  listProjects := unnoted stage.listProjects
  isCached project := noting offline (.isCached project) (stage.isCached project)
  setOffline value := unnoted (stage.setOffline value)
  listVersions project := noting offline (.listVersions project) (stage.listVersions project)
  versionData project version :=
    noting offline (.versionData project version) (stage.versionData project version)
  docLinks project version :=
    noting offline (.docLinks project version) (stage.docLinks project version)
  docExists project version :=
    noting offline (.docExists project version) (stage.docExists project version)
  metadataKeys := noting offline .metadataKeys stage.metadataKeys

/-- A step with notes comes to what the step without comes to. -/
def Shadows {α : Type} (step : StateM σ α) (noted : StateM (σ × List Note) α) : Prop :=
  ∀ s notes, (noted.run (s, notes)).1 = (step.run s).1
    ∧ (noted.run (s, notes)).2.1 = (step.run s).2

namespace Shadows

variable {α β ε : Type}

theorem pure (a : α) : Shadows (σ := σ) (return a) (return a) := fun _ _ => ⟨rfl, rfl⟩

theorem noting (offline : σ → Bool) (question : Question) (answer : StateM σ α) :
    Shadows answer (noting offline question answer) :=
  fun _ _ => ⟨rfl, rfl⟩

theorem unnoted (step : StateM σ α) : Shadows step (unnoted step) := fun _ _ => ⟨rfl, rfl⟩

theorem bind {step : StateM σ α} {noted : StateM (σ × List Note) α} {next : α → StateM σ β}
    {next' : α → StateM (σ × List Note) β} (hstep : Shadows step noted)
    (hnext : ∀ a, Shadows (next a) (next' a)) : Shadows (step >>= next) (noted >>= next') := by
  intro s notes
  obtain ⟨result, hrun⟩ : ∃ notes',
      noted.run (s, notes) = ((step.run s).1, (step.run s).2, notes') :=
    ⟨_, Prod.ext (hstep s notes).1 (Prod.ext (hstep s notes).2 rfl)⟩
  rw [run_bind_of hrun]
  exact hnext _ _ _

theorem andThen {step : ExceptT ε (StateM σ) α} {noted : ExceptT ε (StateM (σ × List Note)) α}
    {next : α → ExceptT ε (StateM σ) β} {next' : α → ExceptT ε (StateM (σ × List Note)) β}
    (hstep : Shadows step.run noted.run) (hnext : ∀ a, Shadows (next a).run (next' a).run) :
    Shadows (step >>= next).run (noted >>= next').run := by
  rw [ExceptT.run_bind, ExceptT.run_bind]
  refine bind hstep fun result => ?_
  cases result with
  | ok a => exact hnext a
  | error e => exact pure (Except.error e)

theorem ask {question : StateM σ (Except StageError α)}
    {noted : StateM (σ × List Note) (Except StageError α)} (h : Shadows question noted) :
    Shadows (Document.ask question).run (Document.ask noted).run := by
  unfold Document.ask
  rw [ExceptT.run_mk, ExceptT.run_mk]
  exact h.bind fun _ => pure _

theorem lift {step : StateM σ α} {noted : StateM (σ × List Note) α} (h : Shadows step noted) :
    Shadows (ExceptT.lift step : ExceptT ε (StateM σ) α).run
      (ExceptT.lift noted : ExceptT ε (StateM (σ × List Note)) α).run := by
  rw [ExceptT.run_lift, ExceptT.run_lift]
  exact fun s notes => ⟨congrArg Except.ok (h s notes).1, (h s notes).2⟩

variable (stage : Stage σ) (offline : σ → Bool) (project : String)

theorem askDocumented (versions : List String) :
    Shadows (Document.askDocumented stage project versions).run
      (Document.askDocumented (stage.noted offline) project versions).run := by
  induction versions with
  | nil => exact pure _
  | cons version older ih =>
      unfold Document.askDocumented
      refine (noting offline _ _).ask.andThen fun links => ?_
      cases links.isEmpty with
      | true => exact ih
      | false => exact (noting offline _ _).ask.andThen fun _ => pure _

theorem describe :
    Shadows (Document.describe stage project).run
      (Document.describe (stage.noted offline) project).run := by
  rw [Document.describe_eq_compose, Document.describe_eq_compose]
  refine (noting offline _ _).ask.andThen fun versions => andThen ?_ fun newest =>
    (askDocumented stage offline project _).andThen fun documented =>
      (noting offline _ _).lift.andThen fun keys => pure _
  cases Project.newestFirst versions with
  | nil => exact pure _
  | cons version older => exact (noting offline _ _).ask

/-- A stage with notes makes the same documents. -/
theorem ofListing (name : String) :
    Shadows (Document.ofListing ⟨stage, name⟩)
      (Document.ofListing ⟨stage.noted offline, name⟩) := by
  have hdescribed : Shadows
      (Document.whileOffline stage (Document.describe stage (Project.normalize name)).run)
      (Document.whileOffline (stage.noted offline)
        (Document.describe (stage.noted offline) (Project.normalize name)).run) :=
    (unnoted _).bind fun _ => (describe stage offline _).bind fun _ =>
      (unnoted _).bind fun _ => pure _
  cases hkind : stage.kind with
  | own =>
      have hkind' : (stage.noted offline).kind = .own := hkind
      rw [Document.ofListing_of_own hkind, Document.ofListing_of_own hkind']
      exact hdescribed
  | mirror =>
      have hkind' : (stage.noted offline).kind = .mirror := hkind
      rw [Document.ofListing_eq_bind hkind, Document.ofListing_eq_bind hkind']
      refine (noting offline _ _).bind fun answer => ?_
      match answer with
      | .ok true => exact hdescribed
      | .ok false => exact pure _
      | .error cause => exact pure _

end Shadows

/-- A question is put in turn: while the stage is offline, unless it is the one
that comes before that. -/
def Note.InTurn (note : Note) : Prop :=
  note.offline = true ∨ ∃ project, note.question = .isCached project

/-- A question that is in turn where the switch is `value` adds a note in
turn. -/
theorem staysIn_noting {α : Type} {answer : StateM σ α} {question : Question} {value : Bool}
    (h : StaysIn (fun s => among s ∧ offline s = value) answer)
    (hturn : Note.InTurn ⟨question, value⟩) :
    StaysIn (fun t : σ × List Note =>
        (among t.1 ∧ ∀ note ∈ t.2, note.InTurn) ∧ offline t.1 = value)
      (noting offline question answer) := by
  rintro ⟨s, notes⟩ ⟨⟨hs, hnotes⟩, rfl⟩
  obtain ⟨hs', hvalue⟩ := h s ⟨hs, rfl⟩
  exact ⟨⟨hs', List.forall_mem_append.2 ⟨hnotes, List.forall_mem_singleton.2 hturn⟩⟩, hvalue⟩

/-- A stage that has a switch has it also where it is noted, among states in
which all notes are in turn. -/
theorem Stage.Switched.noted (h : stage.Switched offline among) :
    (stage.noted offline).Switched (fun t => offline t.1)
      (fun t => among t.1 ∧ ∀ note ∈ t.2, note.InTurn) where
  setOffline := by
    rintro value ⟨s, notes⟩ ⟨hs, hnotes⟩
    obtain ⟨hbefore, hs', hvalue⟩ := h.setOffline value s hs
    exact ⟨hbefore, ⟨hs', hnotes⟩, hvalue⟩
  isCached project value := staysIn_noting (h.isCached project value) (.inr ⟨project, rfl⟩)
  versions project := {
    listVersions := staysIn_noting (h.versions project).listVersions (.inl rfl)
    versionData version := staysIn_noting ((h.versions project).versionData version) (.inl rfl)
    docLinks version := staysIn_noting ((h.versions project).docLinks version) (.inl rfl)
    docExists version := staysIn_noting ((h.versions project).docExists version) (.inl rfl)
    metadataKeys := staysIn_noting (h.versions project).metadataKeys (.inl rfl) }

-- ===================================================== registries

namespace Registry

/-- Whether the stage of a user and an index is offline, also if it is
gone. -/
def isOff (user index : String) (registry : Registry) : Bool :=
  (registry.lookup user index).any (·.offline)

variable (user index : String) (registered : RegisteredStage)

/-- Answers of a registry change nothing. -/
theorem stays_stage (project : String) (among : Registry → Prop) :
    (Registry.stage user index registered).Stays project among where
  listVersions _ hs := hs
  versionData _ _ hs := hs
  docLinks _ _ hs := hs
  docExists _ _ hs := hs
  metadataKeys _ hs := hs

/-- Where a registry has a stage, also one that is gone, the stage has a
switch. -/
theorem switched_stage :
    (Registry.stage user index registered).Switched (isOff user index)
      (fun registry => (registry.lookup user index).isSome = true) where
  setOffline value registry hthere := by
    obtain ⟨found, hfound⟩ := Option.isSome_iff_exists.1 hthere
    have hafter : (registry.update user index ({ · with offline := value })).lookup user index
        = some { found with offline := value } := by
      rw [lookup_update, if_pos rfl, hfound]
      rfl
    refine ⟨rfl, ?_, ?_⟩
    · show ((registry.update user index _).lookup user index).isSome = true
      rw [hafter]
      rfl
    · show ((registry.update user index _).lookup user index).any _ = value
      rw [hafter]
      rfl
  isCached _ _ _ hs := hs
  versions project := stays_stage user index registered project _

/-- Making a document leaves a registry as it is. -/
theorem run_ofListing (name : String) (registry : Registry) :
    ((Document.ofListing ⟨Registry.stage user index registered, name⟩).run registry).2
      = registry := by
  have hdescribed : ∀ project, ((Document.whileOffline (Registry.stage user index registered)
      (Document.describe (Registry.stage user index registered) project).run).run registry).2
        = registry := by
    intro project
    let switched := registry.update user index ({ · with offline := true })
    have hstays := Document.staysIn_describe
      (stays_stage user index registered project (· = switched)) switched rfl
    obtain ⟨result, hrun⟩ : ∃ result,
        (Document.describe (Registry.stage user index registered) project).run.run switched
          = (result, switched) := ⟨_, Prod.ext rfl hstays⟩
    rw [Document.whileOffline_eq hrun]
  cases hkind : (Registry.stage user index registered).kind with
  | own =>
      rw [Document.ofListing_of_own hkind]
      exact hdescribed _
  | mirror =>
      obtain ⟨answer, hcached⟩ : ∃ answer,
          ((Registry.stage user index registered).isCached (Project.normalize name)).run registry
            = (answer, registry) := ⟨_, rfl⟩
      rw [Document.ofListing_of_mirror hkind hcached]
      match answer with
      | .ok true => exact hdescribed _
      | .ok false => rfl
      | .error cause => rfl

end Registry

-- ===================================================== documents

/-- While a document is made, every question about the versions of the project
is put while the stage is offline, and then the switch is as it was before,
whatever the stage answers or refuses to answer. The stages of a registry are
such stages, and making documents of any of them, one after the other, leaves
the registry as it is, and with it all switches. -/
theorem Document.asked_offline :
    (∀ {σ : Type} (stage : Stage σ) (offline : σ → Bool) (among : σ → Prop),
        stage.Switched offline among → ∀ (name : String) (s : σ), among s →
          let ran := (ofListing ⟨stage, name⟩).run s
          let noted := (ofListing ⟨stage.noted offline, name⟩).run (s, [])
          noted.1 = ran.1 ∧ noted.2.1 = ran.2
            ∧ (∀ note ∈ noted.2.2, note.InTurn)
            ∧ offline ran.2 = offline s)
      ∧ (∀ user index registered, (Registry.stage user index registered).Switched
          (Registry.isOff user index) fun registry => (registry.lookup user index).isSome = true)
      ∧ ∀ (registry : Registry) (listings : List (Listing Registry)),
          (∀ listing ∈ listings, ∃ user index registered,
              listing.stage = Registry.stage user index registered) →
            ((listings.mapM ofListing).run registry).2 = registry := by
  refine ⟨?_, Registry.switched_stage, ?_⟩
  · intro σ stage offline among h name s hs ran noted
    obtain ⟨hresult, hstate⟩ := Shadows.ofListing stage offline name s []
    have hstart : among s ∧ ∀ note ∈ ([] : List Note), note.InTurn := ⟨hs, nofun⟩
    obtain ⟨⟨-, hnotes⟩, -⟩ := h.noted.ofListing name (offline s) (s, []) ⟨hstart, rfl⟩
    exact ⟨hresult, hstate, hnotes, (h.ofListing name (offline s) s ⟨hs, rfl⟩).2⟩
  · intro registry listings h
    have hstays : StaysIn (· = registry) (listings.mapM ofListing) := by
      refine StaysIn.mapM ?_
      rintro ⟨stage, name⟩ hlisted _ rfl
      obtain ⟨user, index, registered, rfl⟩ := h _ hlisted
      exact Registry.run_ofListing user index registered name _
    exact hstays registry rfl

/-- A mirror that is gone. -/
def departed : RegisteredStage where
  kind := .mirror
  metadataKeys := []
  projects := ∅
  gone := true

/-- A stage without projects that somebody has switched off. -/
def switchedOff : RegisteredStage where
  kind := .own
  metadataKeys := []
  projects := ∅
  offline := true

/-- A registry of these two. -/
def refusing : Registry where
  users := (∅ : Std.ExtTreeMap String (List String)).insert "u" ["i", "j"]
  stages := (∅ : Std.ExtTreeMap String (Std.ExtTreeMap String RegisteredStage)).insert "u"
    (((∅ : Std.ExtTreeMap String RegisteredStage).insert "i" departed).insert "j" switchedOff)

/-- Of a mirror only the first question is put online. Stages that refuse to
answer leave their switches where they were. -/
theorem Document.asked_offline_by_refusing_stages :
    (shyMirror olderDocumented).Switched id (fun _ => True)
      ∧ (∃ notes,
          ((ofListing ⟨(shyMirror olderDocumented).noted id, "Pkg"⟩).run (false, [])).2
              = (false, notes)
            ∧ (∀ note ∈ notes, note.InTurn)
            ∧ notes = [⟨.isCached "pkg", false⟩, ⟨.listVersions "pkg", true⟩,
              ⟨.versionData "pkg" "1.0", true⟩, ⟨.docLinks "pkg" "1.0", true⟩,
              ⟨.docLinks "pkg" "0.9", true⟩, ⟨.docExists "pkg" "0.9", true⟩,
              ⟨.metadataKeys, true⟩])
      ∧ ∃ results,
          ([⟨Registry.stage "u" "i" departed, "p"⟩,
              ⟨Registry.stage "u" "j" switchedOff, "P"⟩].mapM ofListing).run refusing
              = (results, refusing)
            ∧ results = [.error (.stage (.gone "u/i")),
              .error (.stage (.unknownProject "u/j" "p"))] := by
  have hswitched : (shyMirror olderDocumented).Switched id (fun _ => True) := by
    refine ⟨fun _ _ _ => ⟨rfl, trivial, rfl⟩, fun _ _ _ hs => hs, fun project => ?_⟩
    exact ⟨fun _ hs => hs, fun _ _ hs => hs, fun _ _ hs => hs, fun _ _ hs => hs, fun _ hs => hs⟩
  obtain ⟨-, hstate, hnotes, hback⟩ :=
    asked_offline.1 (shyMirror olderDocumented) id (fun _ => True) hswitched "Pkg" false trivial
  have hkept := asked_offline.2.2 refusing
    [⟨Registry.stage "u" "i" departed, "p"⟩, ⟨Registry.stage "u" "j" switchedOff, "P"⟩]
    (List.forall_mem_cons.2 ⟨⟨_, _, _, rfl⟩, List.forall_mem_singleton.2 ⟨_, _, _, rfl⟩⟩)
  exact ⟨hswitched, ⟨_, Prod.ext (hstate.trans hback) rfl, hnotes, by decide +kernel⟩,
    _, Prod.ext rfl hkept, rfl⟩

end Depot.Indexing
