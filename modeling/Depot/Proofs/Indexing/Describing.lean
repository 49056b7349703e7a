/-
Making the document of a project, whatever the stage is. It comes down to a
few questions, among which no version is ever found out of order
(`describe_eq_compose`), so there is no document only where the stage refuses
to answer (`failsByRefusal_ofListing`). What a stage that answers says of a
project is an `Account`, and its document is that of the account
(`comesTo_describe`); accounts that are alike make the same document
(`Alike.document`).
-/
import Mathlib.Data.List.Induction
import Depot.Proofs.Indexing.Fields
import Depot.Proofs.Project.Version
import Depot.Proofs.Steps

namespace Depot.Indexing

variable {σ : Type}

namespace Document

-- ===================================================== the questions

/-- What is answered is passed on. -/
theorem run_ask {α : Type} {question : StateM σ (Except StageError α)}
    {answer : Except StageError α} {s s' : σ} (h : question.run s = (answer, s')) :
    (ask question).run.run s = (answer.mapError .stage, s') := by
  unfold ask
  rw [ExceptT.run_mk, run_bind_of h]
  rfl

/-- Asks what is said of the first of some versions. -/
def askNewest (stage : Stage σ) (project : String) :
    List String → ExceptT IndexError (StateM σ) Fields
  | [] => return ∅
  | version :: _ => ask (stage.versionData project version)

/-- Asks for documentation, of one version after the other up to the first
that links to any. -/
def askDocumented (stage : Stage σ) (project : String) :
    List String → ExceptT IndexError (StateM σ) (Option String)
  | [] => return none
  | version :: older => do
      let links ← ask (stage.docLinks project version)
      if links.isEmpty then askDocumented stage project older
      else
        let found ← ask (stage.docExists project version)
        return if found then some version else none

/-- Behind the newest version only documentation is asked for. -/
theorem visit_older (stage : Stage σ) (project : String) (fields : Fields)
    (versions : List String) :
    visit stage project false ⟨fields, none⟩ versions
      = (do
          let documented ← askDocumented stage project versions
          return withDocs stage.user stage.index project fields documented) := by
  induction versions with
  | nil => simp [visit, askDocumented, withDocs]
  | cons version older ih =>
      unfold visit askDocumented
      simp only [Bool.false_eq_true, if_false, pure_bind, bind_assoc]
      refine bind_congr fun links => ?_
      cases links.isEmpty with
      | true => simpa using ih
      | false =>
          simp only [Bool.not_false, if_true, Bool.false_eq_true, if_false, bind_assoc, pure_bind]
          refine bind_congr fun found => ?_
          cases found <;> rfl

/-- The newest version says its fields first. -/
theorem visit_newest (stage : Stage σ) (project : String) (fields : Fields)
    (versions : List String) :
    visit stage project true ⟨fields, none⟩ versions
      = (do
          let newest ← askNewest stage project versions
          visit stage project false ⟨extend fields newest, none⟩ versions) := by
  cases versions with
  | nil => simp [visit, askNewest]; rfl
  | cons version older =>
      unfold visit askNewest
      simp only [if_true, bind_assoc, pure_bind, Bool.false_eq_true, if_false]

/-- A document is made by asking for the versions, for what is said of the
newest one, for documentation and for the keys to be left out. No version
is ever found out of order. -/
theorem describe_eq_compose (stage : Stage σ) (project : String) :
    describe stage project = (do
      let versions ← ask (stage.listVersions project)
      let newest ← askNewest stage project (Project.newestFirst versions)
      let documented ← askDocumented stage project (Project.newestFirst versions)
      let keys ← ExceptT.lift stage.metadataKeys
      return compose stage.user stage.index project newest documented keys) := by
  unfold describe
  refine bind_congr fun versions => ?_
  dsimp only
  rw [visit_newest, bind_assoc]
  refine bind_congr fun newest => ?_
  rw [visit_older, bind_assoc]
  refine bind_congr fun documented => ?_
  rw [pure_bind]
  rfl

/-- What is done while a stage is offline starts from where the switch
leads. -/
theorem fst_whileOffline {α : Type} (stage : Stage σ) (action : StateM σ α) (s : σ) :
    ((whileOffline stage action).run s).1 = (action.run ((stage.setOffline true).run s).2).1 :=
  rfl

/-- In some state a stage refuses, for the reason `cause`, to answer a
question about a project. -/
inductive Refused (stage : Stage σ) (project : String) (cause : StageError) : Prop
  | isCached {s : σ} (h : ((stage.isCached project).run s).1 = .error cause)
  | listVersions {s : σ} (h : ((stage.listVersions project).run s).1 = .error cause)
  | versionData {version : String} {s : σ}
      (h : ((stage.versionData project version).run s).1 = .error cause)
  | docLinks {version : String} {s : σ}
      (h : ((stage.docLinks project version).run s).1 = .error cause)
  | docExists {version : String} {s : σ}
      (h : ((stage.docExists project version).run s).1 = .error cause)

/-- A step fails only where the stage refuses to answer. -/
def FailsByRefusal {α : Type} (stage : Stage σ) (project : String)
    (step : StateM σ (Except IndexError α)) : Prop :=
  ∀ s e, (step.run s).1 = .error e → ∃ cause, e = .stage cause ∧ Refused stage project cause

namespace FailsByRefusal

variable {stage : Stage σ} {project : String}

theorem ask {α : Type} {question : StateM σ (Except StageError α)}
    (hrefused : ∀ s cause, (question.run s).1 = .error cause → Refused stage project cause) :
    FailsByRefusal stage project (ask question).run := by
  intro s e h
  obtain ⟨answer, s₁, hrun⟩ : ∃ answer s₁, question.run s = (answer, s₁) := ⟨_, _, rfl⟩
  rw [run_ask hrun] at h
  cases answer with
  | ok a => cases h
  | error cause =>
      cases h
      exact ⟨cause, rfl, hrefused s cause (by rw [hrun])⟩

theorem bind {α β : Type} {step : ExceptT IndexError (StateM σ) α}
    {next : α → ExceptT IndexError (StateM σ) β} (hstep : FailsByRefusal stage project step.run)
    (hnext : ∀ a, FailsByRefusal stage project (next a).run) :
    FailsByRefusal stage project (step >>= next).run := by
  intro s e h
  obtain ⟨result, s₁, hrun⟩ : ∃ result s₁, step.run.run s = (result, s₁) := ⟨_, _, rfl⟩
  cases result with
  | ok a =>
      rw [run_bind_of_ok hrun] at h
      exact hnext a s₁ e h
  | error cause =>
      rw [run_bind_of_error hrun] at h
      refine hstep s e ?_
      rw [hrun, ← Except.error.inj h]

theorem pure {α : Type} (a : α) :
    FailsByRefusal stage project (return a : ExceptT IndexError (StateM σ) α).run :=
  nofun

theorem askDocumented (versions : List String) :
    FailsByRefusal stage project (askDocumented stage project versions).run := by
  induction versions with
  | nil => exact .pure none
  | cons version older ih =>
      unfold Document.askDocumented
      refine .bind (.ask fun _ _ => .docLinks) fun links => ?_
      cases links.isEmpty with
      | true => exact ih
      | false => exact .bind (.ask fun _ _ => .docExists) fun found => .pure _

theorem describe : FailsByRefusal stage project (describe stage project).run := by
  rw [describe_eq_compose]
  refine .bind (.ask fun _ _ => .listVersions) fun versions => .bind ?_ fun newest =>
    .bind (.askDocumented _) fun documented => .bind nofun fun keys => .pure _
  cases Project.newestFirst versions with
  | nil => exact .pure ∅
  | cons version older => exact .ask fun _ _ => .versionData

end FailsByRefusal

/-- A stage of its own projects is asked at once. -/
theorem ofListing_of_own {stage : Stage σ} (hkind : stage.kind = .own) (name : String) :
    ofListing ⟨stage, name⟩
      = whileOffline stage (describe stage (Project.normalize name)).run := by
  unfold ofListing
  dsimp only
  rw [hkind, if_neg nofun]

/-- A mirror is asked once it has said that it has fetched the project. -/
theorem ofListing_of_mirror {stage : Stage σ} (hkind : stage.kind = .mirror) {name : String}
    {answer : Except StageError Bool} {s s' : σ} :
    (stage.isCached (Project.normalize name)).run s = (answer, s') →
      (ofListing ⟨stage, name⟩).run s = match answer with
        | .error cause => (.error (.stage cause), s')
        | .ok true => (whileOffline stage (describe stage (Project.normalize name)).run).run s'
        | .ok false => (.ok (stub stage (Project.normalize name)), s') := by
  intro hcached
  unfold ofListing
  dsimp only
  rw [if_pos hkind, run_bind_of hcached]
  match answer with
  | .error cause => rfl
  | .ok true => rfl
  | .ok false => rfl

end Document

-- ===================================================== what a stage has to say

/-- What a stage has to say of a project. -/
structure Account where
  versions : List String
  data : String → Fields
  docLinks : String → List String
  docExists : String → Bool
  metadataKeys : List String

namespace Account

/-- The versions, newest first. -/
def sorted (account : Account) : List String := Project.newestFirst account.versions

/-- What is said of the newest version. -/
def newest (account : Account) : Fields := (account.sorted.head?.map account.data).getD ∅

/-- The version whose documentation counts: the first that links to any, if
what it links to is there. -/
def documented? (account : Account) : Option String :=
  (account.sorted.find? fun version => !(account.docLinks version).isEmpty).filter
    account.docExists

/-- The document of what is said. -/
def document (account : Account) (user index project : String) : Document :=
  .compose user index project account.newest account.documented? account.metadataKeys

/-- In the states `among` a stage says this of a project, and whatever it is
asked, it does not leave them. -/
structure ToldBy (account : Account) (stage : Stage σ) (project : String) (among : σ → Prop) :
    Prop where
  listVersions : ComesTo among (stage.listVersions project) (.ok account.versions)
  versionData : ∀ version ∈ account.versions,
    ComesTo among (stage.versionData project version) (.ok (account.data version))
  docLinks : ∀ version ∈ account.versions,
    ComesTo among (stage.docLinks project version) (.ok (account.docLinks version))
  docExists : ∀ version ∈ account.versions,
    ComesTo among (stage.docExists project version) (.ok (account.docExists version))
  metadataKeys : ComesTo among stage.metadataKeys account.metadataKeys

end Account

namespace Document

variable {stage : Stage σ} {project : String} {among : σ → Prop} {account : Account}

/-- A question that is answered. -/
theorem comesTo_ask {α : Type} {question : StateM σ (Except StageError α)} {a : α}
    (h : ComesTo among question (.ok a)) : ComesTo among (ask question).run (.ok a) := by
  intro s hs
  obtain ⟨s', hrun, hs'⟩ := h s hs
  exact ⟨s', run_ask hrun, hs'⟩

theorem comesTo_lift {ε α : Type} {step : StateM σ α} {a : α} (h : ComesTo among step a) :
    ComesTo among (ExceptT.lift step : ExceptT ε (StateM σ) α).run (.ok a) := by
  intro s hs
  obtain ⟨s', hrun, hs'⟩ := h s hs
  refine ⟨s', ?_, hs'⟩
  rw [ExceptT.run_lift, StateT.run_map, hrun]
  rfl

/-- What is said of the newest version. -/
theorem comesTo_askNewest (h : account.ToldBy stage project among) :
    ComesTo among (askNewest stage project account.sorted).run (.ok account.newest) := by
  have hmem : ∀ version ∈ account.sorted, version ∈ account.versions := fun version =>
    (Project.newestFirst_perm account.versions).mem_iff.1
  unfold Account.newest
  cases hsorted : account.sorted with
  | nil => exact ComesTo.return ∅
  | cons version older =>
      exact comesTo_ask (h.versionData version (hmem version (hsorted ▸ .head _)))

/-- The documentation that counts, among some of the versions. -/
theorem comesTo_askDocumented (h : account.ToldBy stage project among) {versions : List String}
    (hmem : ∀ version ∈ versions, version ∈ account.versions) :
    ComesTo among (askDocumented stage project versions).run
      (.ok ((versions.find? fun version => !(account.docLinks version).isEmpty).filter
        account.docExists)) := by
  induction versions with
  | nil => exact ComesTo.return none
  | cons version older ih =>
      have hversion := hmem version (.head _)
      unfold askDocumented
      refine (comesTo_ask (h.docLinks version hversion)).bind ?_
      rw [List.find?_cons]
      cases (account.docLinks version).isEmpty with
      | true => exact ih fun v hv => hmem v (.tail _ hv)
      | false =>
          refine (comesTo_ask (h.docExists version hversion)).bind ?_
          exact ComesTo.return _

/-- The document of what is said. -/
theorem comesTo_describe (h : account.ToldBy stage project among) :
    ComesTo among (describe stage project).run
      (.ok (account.document stage.user stage.index project)) := by
  have hmem : ∀ version ∈ account.sorted, version ∈ account.versions := fun version =>
    (Project.newestFirst_perm account.versions).mem_iff.1
  rw [describe_eq_compose]
  exact (comesTo_ask h.listVersions).bind <| (comesTo_askNewest h).bind <|
    (comesTo_askDocumented h hmem).bind <| (comesTo_lift h.metadataKeys).bind <| ComesTo.return _

-- ===================================================== the whole run

/-- A stage that is asked for a project in the state `s` goes on to the
questions in the state `s'`, once a mirror has said that it has fetched the
project. -/
inductive Consulted (stage : Stage σ) (project : String) (s : σ) : σ → Prop
  | own (h : stage.kind = .own) : Consulted stage project s s
  | fetched {s' : σ} (h : stage.kind = .mirror)
      (hcached : (stage.isCached project).run s = (.ok true, s')) : Consulted stage project s s'

/-- The questions are asked while the stage is offline. -/
theorem ofListing_of_consulted {name : String} {s s' : σ}
    (h : Consulted stage (Project.normalize name) s s') :
    (ofListing ⟨stage, name⟩).run s
      = (whileOffline stage (describe stage (Project.normalize name)).run).run s' := by
  cases h with
  | own hkind => rw [ofListing_of_own hkind]
  | fetched hkind hcached => rw [ofListing_of_mirror hkind hcached]

/-- What is done while a stage is offline comes to what it comes to in the
states of the stage that is offline. -/
theorem whileOffline_comesTo {α : Type} {action : StateM σ α} {a : α} {s : σ}
    (hoffline : among ((stage.setOffline true).run s).2) (h : ComesTo among action a) :
    ∃ s', (whileOffline stage action).run s = (a, s') := by
  obtain ⟨s₂, hrun, -⟩ := h _ hoffline
  refine ⟨_, Prod.ext ?_ rfl⟩
  rw [fst_whileOffline, hrun]

end Document

namespace Account

/-- The version is the first that links to documentation, and what it links
to is there. -/
def Documents (account : Account) (version : String) : Prop :=
  ∃ newer older, account.sorted = newer ++ version :: older
    ∧ (∀ v ∈ newer, account.docLinks v = [])
    ∧ account.docLinks version ≠ [] ∧ account.docExists version = true

/-- Two accounts list the same versions and keys, say the same of the newest
version, and the same of the documentation up to the first version that
links to any. -/
structure Alike (account other : Account) : Prop where
  versions : other.versions = account.versions
  metadataKeys : other.metadataKeys = account.metadataKeys
  newest : ∀ version, account.sorted.head? = some version →
    other.data version = account.data version
  docs : ∀ newer version older, account.sorted = newer ++ version :: older →
    (∀ v ∈ newer, account.docLinks v = []) →
      other.docLinks version = account.docLinks version
        ∧ other.docExists version = account.docExists version

variable {account other : Account}

theorem documented?_eq_some_iff {version : String} :
    account.documented? = some version ↔ account.Documents version := by
  unfold documented? Documents
  simp only [Option.filter_eq_some_iff, List.find?_eq_some_iff_append, Bool.not_eq_true',
    Bool.not_not, List.isEmpty_iff, List.isEmpty_eq_false_iff]
  constructor
  · rintro ⟨⟨hlinks, newer, older, hsorted, hnewer⟩, hexists⟩
    exact ⟨newer, older, hsorted, hnewer, hlinks, hexists⟩
  · rintro ⟨newer, older, hsorted, hnewer, hlinks, hexists⟩
    exact ⟨⟨hlinks, newer, older, hsorted, hnewer⟩, hexists⟩

/-- What stands before the first version that links to documentation is the
same in both. -/
theorem Alike.linkless (h : Alike account other) {newer rest : List String}
    (hsorted : account.sorted = newer ++ rest) :
    (∀ v ∈ newer, other.docLinks v = []) ↔ ∀ v ∈ newer, account.docLinks v = [] := by
  induction newer using List.reverseRecOn generalizing rest with
  | nil => exact iff_of_true nofun nofun
  | append_singleton newer version ih =>
      rw [List.append_assoc, List.singleton_append] at hsorted
      rw [List.forall_mem_append, List.forall_mem_append, ih hsorted]
      refine and_congr_right fun hnewer => ?_
      rw [List.forall_mem_singleton, List.forall_mem_singleton,
        (h.docs newer version rest hsorted hnewer).1]

theorem Alike.sorted (h : Alike account other) : other.sorted = account.sorted :=
  congrArg Project.newestFirst h.versions

theorem Alike.documented? (h : Alike account other) :
    other.documented? = account.documented? := by
  refine Option.ext fun version => ?_
  rw [documented?_eq_some_iff, documented?_eq_some_iff]
  unfold Documents
  refine exists_congr fun newer => exists_congr fun older => ?_
  rw [h.sorted]
  refine and_congr_right fun hsorted => ?_
  rw [h.linkless hsorted]
  refine and_congr_right fun hnewer => ?_
  obtain ⟨hlinks, hexists⟩ := h.docs newer version older hsorted hnewer
  rw [hlinks, hexists]

theorem Alike.newest_eq (h : Alike account other) : other.newest = account.newest := by
  unfold Account.newest
  rw [h.sorted]
  cases hhead : account.sorted.head? with
  | none => rfl
  | some version => rw [Option.map_some, Option.map_some, h.newest version hhead]

/-- Accounts that are alike make the same document. -/
theorem Alike.document (h : Alike account other) (user index project : String) :
    other.document user index project = account.document user index project := by
  unfold Account.document
  rw [h.newest_eq, h.documented?, h.metadataKeys]

end Account

-- ===================================================== the document

/-- A mirror that answers only while it is offline. -/
def shyMirror (account : Account) : Stage Bool where
  user := "u"
  index := "i"
  kind := .mirror
  listProjects := answer ["Pkg"]
  isCached _ := return .ok true
  setOffline offline := do
    let before ← get
    set offline
    return before
  listVersions _ := answer account.versions
  versionData _ version := answer (account.data version)
  docLinks _ version := answer (account.docLinks version)
  docExists _ version := answer (account.docExists version)
  metadataKeys := return account.metadataKeys
where
  answer {α : Type} (a : α) : StateM Bool (Except StageError α) :=
    return if ← get then .ok a else .error (.gone "u/i")

/-- Two versions, of which the older one is documented. -/
def olderDocumented : Account where
  versions := ["0.9", "1.0"]
  data version := (∅ : Fields).insertMany
    [("name", .str "Pkg"), ("summary", .str version), ("license", .str "UNKNOWN")]
  docLinks version := if version = "0.9" then ["0.9.doc.zip"] else []
  docExists _ := true
  metadataKeys := ["summary", "license"]

/-- It tells its account once it is switched off. -/
theorem toldBy_shyMirror (account : Account) (project : String) :
    account.ToldBy (shyMirror account) project (· = true) := by
  refine ⟨?_, fun _ _ => ?_, fun _ _ => ?_, fun _ _ => ?_, ?_⟩
  all_goals
    rintro _ rfl
    exact ⟨true, rfl, rfl⟩

end Depot.Indexing
