/-
What a document says of the place of its project and of its documentation,
whatever the newest version says and whichever keys are listed. What is said
of the newest version goes over the name of the project, and where no version
is documented it also passes for documentation; and a listed key takes any
field with it that says nothing. `Told.identified_iff` says when neither
does harm. The run that ends with a document is taken apart by
`compose_of_ofListing`; `Told` then reads each field off `getElem?_compose`.
-/
import Depot.Proofs.Indexing.Describing
import Depot.Proofs.Indexing.Scan
import Depot.Proofs.Project.Name

namespace Depot.Indexing

variable {σ : Type} {stage : Stage σ} {name : String} {newest : Fields} {keys : List String}
  {doc : Document}

namespace Document

-- ===================================================== taking a run apart

/-- What a stage that is asked in the state `s` says of the newest version
of a project, and the keys that it lists. Of a project that a mirror has not
fetched, nothing is said. -/
inductive Drawn (stage : Stage σ) (project : String) (s : σ) : Fields → List String → Prop
  | unfetched {s' : σ} (hkind : stage.kind = .mirror)
      (hcached : (stage.isCached project).run s = (.ok false, s')) : Drawn stage project s ∅ []
  | answered {s₁ s₂ s₃ s₄ s₅ : σ} {versions : List String} {newest : Fields}
      {documented : Option String} {keys : List String}
      (hconsulted : Consulted stage project s s₁)
      (hversions : (stage.listVersions project).run ((stage.setOffline true).run s₁).2
        = (.ok versions, s₂))
      (hnewest : (askNewest stage project (Project.newestFirst versions)).run.run s₂
        = (.ok newest, s₃))
      (hdocumented : (askDocumented stage project (Project.newestFirst versions)).run.run s₃
        = (.ok documented, s₄))
      (hkeys : stage.metadataKeys.run s₄ = (keys, s₅)) : Drawn stage project s newest keys

/-- What is answered to a question, if the step that asks it succeeds. -/
theorem answer_of_ask {α : Type} {question : StateM σ (Except StageError α)} {a : α} {s s' : σ}
    (h : (ask question).run.run s = (.ok a, s')) : question.run s = (.ok a, s') := by
  obtain ⟨answer, s₁, hrun⟩ : ∃ answer s₁, question.run s = (answer, s₁) := ⟨_, _, rfl⟩
  rw [run_ask hrun] at h
  cases answer with
  | error cause => cases h
  | ok a =>
      cases h
      exact hrun

theorem answer_of_lift {ε α : Type} {step : StateM σ α} {a : α} {s s' : σ}
    (h : (ExceptT.lift step : ExceptT ε (StateM σ) α).run.run s = (.ok a, s')) :
    step.run s = (a, s') := by
  rw [ExceptT.run_lift, StateT.run_map] at h
  cases h
  rfl

/-- Of a mirror that has not fetched a project, the document is composed of
nothing. -/
theorem stub_eq_compose (stage : Stage σ) (project : String) :
    stub stage project = compose stage.user stage.index project ∅ none [] :=
  rfl

/-- A stage that is asked while it is offline has said what the document is
made of. -/
theorem compose_of_whileOffline {project : String} {s s₁ s' : σ}
    (hconsulted : Consulted stage project s s₁)
    (h : (whileOffline stage (describe stage project).run).run s₁ = (.ok doc, s')) :
    ∃ newest documented keys, Drawn stage project s newest keys
      ∧ doc = compose stage.user stage.index project newest documented keys := by
  obtain ⟨result, ended, hrun⟩ : ∃ result ended,
      (describe stage project).run.run ((stage.setOffline true).run s₁).2 = (result, ended) :=
    ⟨_, _, rfl⟩
  have hresult := congrArg Prod.fst h
  rw [fst_whileOffline, hrun] at hresult
  cases hresult
  rw [describe_eq_compose] at hrun
  obtain ⟨versions, s₂, hversions, hrest⟩ := ok_of_run_bind hrun
  obtain ⟨newest, s₃, hnewest, hrest⟩ := ok_of_run_bind hrest
  obtain ⟨documented, s₄, hdocumented, hrest⟩ := ok_of_run_bind hrest
  obtain ⟨keys, s₅, hkeys, hrest⟩ := ok_of_run_bind hrest
  cases hrest
  refine ⟨newest, documented, keys,
    .answered hconsulted (answer_of_ask hversions) hnewest hdocumented (answer_of_lift hkeys), rfl⟩

/-- So has any stage that a document was made of. -/
theorem compose_of_ofListing {s s' : σ} (h : (ofListing ⟨stage, name⟩).run s = (.ok doc, s')) :
    ∃ newest documented keys, Drawn stage (Project.normalize name) s newest keys
      ∧ doc = compose stage.user stage.index (Project.normalize name) newest documented keys := by
  cases hkind : stage.kind with
  | own =>
      rw [ofListing_of_own hkind] at h
      exact compose_of_whileOffline (.own hkind) h
  | mirror =>
      obtain ⟨answer, s₁, hcached⟩ : ∃ answer s₁,
          (stage.isCached (Project.normalize name)).run s = (answer, s₁) := ⟨_, _, rfl⟩
      rw [ofListing_of_mirror hkind hcached] at h
      match answer with
      | .ok true => exact compose_of_whileOffline (.fetched hkind hcached) h
      | .ok false =>
          cases h
          exact ⟨∅, none, [], .unfetched hkind hcached, stub_eq_compose stage _⟩
      | .error cause => cases h

-- ===================================================== field by field

/-- Under a key a document shows the value that is set there, unless the key
is listed and the value says nothing. -/
def Shows (doc : Document) (keys : List String) (key : String) (set : Option Json) : Prop :=
  ∀ value, doc.fields[key]? = some value ↔ set = some value ∧ ¬ (key ∈ keys ∧ SaysNothing value)

theorem Shows.eq_some_iff {key : String} {value : Json} (h : doc.Shows keys key (some value)) :
    doc.fields[key]? = some value ↔ ¬ (key ∈ keys ∧ SaysNothing value) :=
  (h value).trans (and_iff_right rfl)

theorem Shows.eq_none_iff {key : String} {set : Option Json} (h : doc.Shows keys key set) :
    doc.fields[key]? = none ↔ ∀ value, set = some value → key ∈ keys ∧ SaysNothing value := by
  rw [Option.eq_none_iff_forall_ne_some]
  refine forall_congr' fun value => ?_
  rw [ne_eq, h value, not_and, not_not]

/-- What a document says of its project, where this is said of the newest
version. -/
structure Told (doc : Document) (stage : Stage σ) (project : String) (newest : Fields)
    (keys : List String) : Prop where
  user : doc.Shows keys "user" (some (.str stage.user))
  index : doc.Shows keys "index" (some (.str stage.index))
  name : doc.Shows keys "name" (some (newest["name"]?.getD (.str project)))
  docVersion : doc.Shows keys "doc_version"
    ((doc.docs.map fun docs => .str docs.version).or newest["doc_version"]?)
  handle : doc.Shows keys docsKey newest[docsKey]?
  handle_toJson : Json.member? docsKey doc.toJson = (doc.docs.map docsJson).or doc.fields[docsKey]?

theorem told_compose (stage : Stage σ) (project : String) (newest : Fields)
    (documented : Option String) (keys : List String) :
    (compose stage.user stage.index project newest documented keys).Told stage project newest
      keys := by
  have hshows : ∀ key,
      (compose stage.user stage.index project newest documented keys).Shows keys key
        (given stage.user stage.index project newest documented key) :=
    getElem?_compose _ _ _ _ _ _
  refine ⟨hshows "user", hshows "index", ?_, ?_, ?_, ?_⟩
  · have hname : given stage.user stage.index project newest documented "name"
        = some (newest["name"]?.getD (.str project)) := by
      simp [given]
    exact hname ▸ hshows "name"
  · have hversion : given stage.user stage.index project newest documented "doc_version"
        = (documented.map .str).or newest["doc_version"]? := by
      simp [given]
    have hdocs : (compose stage.user stage.index project newest documented keys).docs.map
        (fun docs => Json.str docs.version) = documented.map .str := by
      cases documented <;> rfl
    rw [hdocs, ← hversion]
    exact hshows "doc_version"
  · have hhandle : given stage.user stage.index project newest documented docsKey
        = newest[docsKey]? := by
      simp [given, docsKey]
    exact hhandle ▸ hshows docsKey
  · rw [member?_toJson]
    cases documented with
    | none => rfl
    | some version => rfl

-- ===================================================== identity

/-- A document tells which project it is of, and it links to documentation
just if there is some. -/
structure Identified (doc : Document) (stage : Stage σ) (name : String) : Prop where
  name : ∃ text, doc.name? = some text ∧ Project.normalize text = Project.normalize name
  user : doc.fields["user"]? = some (.str stage.user)
  index : doc.fields["index"]? = some (.str stage.index)
  docVersion : doc.fields["doc_version"]? = doc.docs.map fun docs => .str docs.version
  handle : (Json.member? docsKey doc.toJson).isSome = doc.docs.isSome

/-- What is said of the newest version gives the project no other name, and
does not pass for documentation where there is none; and no field that tells
which project it is or where its documentation is says nothing and is
listed. -/
structure Harmless (stage : Stage σ) (name : String) (newest : Fields) (keys : List String)
    (docs : Option Docs) : Prop where
  sameName : ∀ value, newest["name"]? = some value →
    ∃ text, value = .str text ∧ Project.normalize text = Project.normalize name
  name : ¬ ("name" ∈ keys
    ∧ SaysNothing (newest["name"]?.getD (.str (Project.normalize name))))
  user : ¬ ("user" ∈ keys ∧ SaysNothing (.str stage.user))
  index : ¬ ("index" ∈ keys ∧ SaysNothing (.str stage.index))
  documented : ∀ version, docs.map Docs.version = some version →
    ¬ ("doc_version" ∈ keys ∧ SaysNothing (.str version))
  undocumented : docs = none → ∀ key ∈ ["doc_version", docsKey], ∀ value,
    newest[key]? = some value → key ∈ keys ∧ SaysNothing value

theorem name?_eq_some_iff {text : String} :
    doc.name? = some text ↔ doc.fields["name"]? = some (.str text) := by
  unfold name?
  cases doc.fields["name"]? with
  | none => simp
  | some value => cases value <;> simp [Json.string?]

namespace Told

variable {project : String}

/-- A project that is given no name keeps its own, in normal form. -/
theorem name_iff (h : doc.Told stage (Project.normalize name) newest keys) :
    (∃ text, doc.name? = some text ∧ Project.normalize text = Project.normalize name)
      ↔ (∀ value, newest["name"]? = some value →
          ∃ text, value = .str text ∧ Project.normalize text = Project.normalize name)
        ∧ ¬ ("name" ∈ keys
          ∧ SaysNothing (newest["name"]?.getD (.str (Project.normalize name)))) := by
  have hshows := h.name
  constructor
  · rintro ⟨text, htext, hsame⟩
    obtain ⟨hset, hkept⟩ := (hshows _).1 (name?_eq_some_iff.1 htext)
    rw [Option.some_inj] at hset
    refine ⟨fun value hvalue => ⟨text, ?_, hsame⟩, hset ▸ hkept⟩
    rw [← hset, hvalue, Option.getD_some]
  · rintro ⟨hname, hkept⟩
    have hfield := hshows.eq_some_iff.2 hkept
    cases hvalue : newest["name"]? with
    | none =>
        rw [hvalue] at hfield
        exact ⟨_, name?_eq_some_iff.2 hfield, Project.normalize_normalize name⟩
    | some value =>
        obtain ⟨text, rfl, hsame⟩ := hname value hvalue
        rw [hvalue] at hfield
        exact ⟨text, name?_eq_some_iff.2 hfield, hsame⟩

/-- A version that is documented is told, and nothing passes for one if
there is none. -/
theorem docVersion_iff (h : doc.Told stage project newest keys) :
    doc.fields["doc_version"]? = (doc.docs.map fun docs => .str docs.version)
      ↔ (∀ version, doc.docs.map Docs.version = some version →
          ¬ ("doc_version" ∈ keys ∧ SaysNothing (.str version)))
        ∧ (doc.docs = none → ∀ value, newest["doc_version"]? = some value →
            "doc_version" ∈ keys ∧ SaysNothing value) := by
  have hshows := h.docVersion
  cases hdocs : doc.docs with
  | none =>
      rw [hdocs] at hshows
      simpa using hshows.eq_none_iff
  | some docs =>
      rw [hdocs] at hshows
      simpa using hshows.eq_some_iff

theorem handle_iff (h : doc.Told stage project newest keys) :
    (Json.member? docsKey doc.toJson).isSome = doc.docs.isSome
      ↔ (doc.docs = none → ∀ value, newest[docsKey]? = some value →
          docsKey ∈ keys ∧ SaysNothing value) := by
  rw [h.handle_toJson]
  cases doc.docs with
  | none =>
      rw [← h.handle.eq_none_iff]
      simp only [Option.map_none, Option.none_or, Option.isSome_none, Option.isSome_eq_false_iff,
        Option.isNone_iff_eq_none, forall_const]
  | some docs => simp

theorem identified_iff (h : doc.Told stage (Project.normalize name) newest keys) :
    doc.Identified stage name ↔ Harmless stage name newest keys doc.docs := by
  constructor
  · intro hid
    obtain ⟨hdocumented, hversion⟩ := h.docVersion_iff.1 hid.docVersion
    obtain ⟨hsame, hname⟩ := h.name_iff.1 hid.name
    refine ⟨hsame, hname, h.user.eq_some_iff.1 hid.user, h.index.eq_some_iff.1 hid.index,
      hdocumented, fun hnone key hkey => ?_⟩
    rcases List.mem_pair.1 hkey with rfl | rfl
    · exact hversion hnone
    · exact h.handle_iff.1 hid.handle hnone
  · intro hsafe
    exact ⟨h.name_iff.2 ⟨hsafe.sameName, hsafe.name⟩, h.user.eq_some_iff.2 hsafe.user,
      h.index.eq_some_iff.2 hsafe.index,
      h.docVersion_iff.2 ⟨hsafe.documented, fun hnone => hsafe.undocumented hnone _ (by simp)⟩,
      h.handle_iff.2 fun hnone => hsafe.undocumented hnone _ (by simp)⟩

end Told

/-- Whenever a project has a document, this shows each field that tells of
the project as it was set, and it tells which project it is of and where its
documentation is just if neither what is said of the newest version nor a
listed key does harm. -/
theorem identified_iff_harmless (stage : Stage σ) (name : String) {s s' : σ} {doc : Document}
    (h : (ofListing ⟨stage, name⟩).run s = (.ok doc, s')) :
    ∃ newest keys, Drawn stage (Project.normalize name) s newest keys
      ∧ doc.Told stage (Project.normalize name) newest keys
      ∧ (doc.Identified stage name ↔ Harmless stage name newest keys doc.docs) := by
  obtain ⟨newest, documented, keys, hdrawn, rfl⟩ := compose_of_ofListing h
  have htold := told_compose stage (Project.normalize name) newest documented keys
  exact ⟨newest, keys, hdrawn, htold, htold.identified_iff⟩

/-- A mirror that has documentation of a version. -/
theorem identified_iff_harmless_of_shyMirror :
    ∃ doc s' newest keys,
      (ofListing ⟨shyMirror olderDocumented, "Pkg"⟩).run false = (.ok doc, s')
        ∧ Drawn (shyMirror olderDocumented) (Project.normalize "Pkg") false newest keys
        ∧ doc.Told (shyMirror olderDocumented) (Project.normalize "Pkg") newest keys
        ∧ (doc.Identified (shyMirror olderDocumented) "Pkg"
            ↔ Harmless (shyMirror olderDocumented) "Pkg" newest keys doc.docs) := by
  have htold := toldBy_shyMirror olderDocumented (Project.normalize "Pkg")
  have hoffline : (· = true) (((shyMirror olderDocumented).setOffline true).run false).2 := rfl
  obtain ⟨s', hdone⟩ := whileOffline_comesTo hoffline (comesTo_describe htold)
  have hrun := (ofListing_of_consulted (.fetched rfl rfl)).trans hdone
  obtain ⟨newest, keys, hdrawn, hfields, hiff⟩ := identified_iff_harmless _ _ hrun
  exact ⟨_, s', newest, keys, hrun, hdrawn, hfields, hiff⟩

/-- A version that has a name and documentation of its own making, of a user
that is left out. -/
def misleading : String :=
  "\x7b\"users\":\x7b\"UNKNOWN\":\x7b\"indexes\":\x7b\"i\":\x7b\"metadata_keys\":[\"user\"],"
    ++ "\"projects\":\x7b\"p\":\x7b\"versions\":\x7b\"1\":\x7b\"metadata\":\x7b"
    ++ "\"name\":\"other\",\"doc_version\":\"9\",\"+doczip\":1"
    ++ "\x7d\x7d\x7d\x7d\x7d\x7d\x7d\x7d\x7d\x7d"

/-- Its document gives another name and no user, and it links to
documentation that there is not. -/
theorem misled : ∃ snapshot, Snapshot.read misleading = .ok snapshot
    ∧ ∃ listing ∈ snapshot.allListings, listing.name = "p"
      ∧ ∃ doc registry, (ofListing listing).run (Registry.ofSnapshot snapshot) = (.ok doc, registry)
        ∧ doc.name? = some "other"
        ∧ doc.fields["user"]? = none
        ∧ doc.docs = none
        ∧ (doc.fields["doc_version"]?).isSome = true
        ∧ (Json.member? docsKey doc.toJson).isSome = true
        ∧ ¬ doc.Identified listing.stage listing.name := by
  have hread : (Snapshot.read misleading).toOption.any fun snapshot =>
      snapshot.allListings.any fun listing =>
        listing.name = "p"
          && ((ofListing listing).run (Registry.ofSnapshot snapshot)).1.toOption.any fun doc =>
              doc.name? = some "other" && (doc.fields["user"]?).isNone && doc.docs.isNone
                && (doc.fields["doc_version"]?).isSome
                && (Json.member? docsKey doc.toJson).isSome := by
    decide +kernel
  simp only [Option.any_eq_true, List.any_eq_true, Bool.and_eq_true, decide_eq_true_eq,
    Option.isNone_iff_eq_none] at hread
  obtain ⟨snapshot, hsnapshot, listing, hlisting, hname, doc, hdoc,
    ⟨⟨⟨hother, huser⟩, hdocs⟩, hversion⟩, hhandle⟩ := hread
  refine ⟨snapshot, eq_ok_of_toOption hsnapshot, listing, hlisting, hname, doc, _,
    Prod.ext (eq_ok_of_toOption hdoc) rfl, hother, huser, hdocs, hversion, hhandle, ?_⟩
  intro hid
  obtain ⟨text, htext, hsame⟩ := hid.name
  rw [hother, Option.some_inj] at htext
  rw [← htext, hname] at hsame
  exact absurd hsame (by decide)

end Document

end Depot.Indexing
