/-
Several handles on one entry. Each has a copy of the record, which the
amendments made through it change and no others, and an amendment writes
the whole copy. So what counts for the record of the entry is what was set
through the handle of the last amendment (`record_of_last_copy`); what was
set through others since that handle was obtained is undone
(`undone_by_stale_copy`).
-/
import Depot.Proofs.Store.Amending
import Mathlib.Data.List.Induction
import Mathlib.Logic.Function.Basic

namespace Depot

open Transaction

namespace FileRecord

/-- The fields of a record. -/
inductive Field where
  | hash
  | url
  | egg
  | lastModified
  | size
  | contentType
  | contentLength

/-- What can be in a field. -/
def Field.Value : Field → Type
  | size => Option Nat
  | _ => Option String

/-- What is in a field. -/
def get (r : FileRecord) : (field : Field) → field.Value
  | .hash => r.hash
  | .url => r.url
  | .egg => r.egg
  | .lastModified => r.lastModified
  | .size => r.size
  | .contentType => r.contentType
  | .contentLength => r.contentLength

end FileRecord

namespace Entry

open FileRecord (Field)

/-- What an amendment sets a field to, if it is about that field. -/
def Amendment.sets : Amendment → (field : Field) → Option field.Value
  | .hash spec, .hash => some (spec.map HashSpec.toText)
  | .url source, .url => some (some source)
  | .lastModified date, .lastModified => some (some date)
  | .content bytes _, .size => some (some bytes.length)
  | .content _ date, .lastModified => some (some date)
  | .noContent, .size => some none
  | .noContent, .contentLength => some none
  | _, _ => none

/-- An amendment changes the fields that it is about. -/
theorem Amendment.get_revise (a : Amendment) (r : FileRecord) (field : Field) :
    (a.revise r).get field = (a.sets field).getD (r.get field) := by
  cases a <;> cases field <;> rfl

/-- What the last of the amendments that are about a field sets it to. -/
def lastSet (amendments : List Amendment) (field : Field) : Option field.Value :=
  (amendments.filterMap (·.sets field)).getLast?

/-- An amendment that is about a field overrides those before it. -/
theorem lastSet_concat (before : List Amendment) (a : Amendment) (field : Field) :
    lastSet (before ++ [a]) field = (a.sets field).or (lastSet before field) := by
  unfold lastSet
  cases hset : a.sets field <;> simp [hset]

/-- It is the last one if those after it are not about the field. -/
theorem lastSet_of_split {before after : List Amendment} {a : Amendment} {field : Field}
    {value : field.Value} (hset : a.sets field = some value)
    (hafter : ∀ later ∈ after, later.sets field = none) :
    lastSet (before ++ a :: after) field = some value := by
  have hnone : after.filterMap (·.sets field) = [] := List.filterMap_eq_nil_iff.2 hafter
  have hsome := List.filterMap_cons_some (f := (·.sets field)) (l := after) hset
  unfold lastSet
  rw [List.filterMap_append, hsome, hnone, List.getLast?_concat]

/-- The amendments that are made through a handle. -/
def through (who : Nat) (calls : List (Nat × Amendment)) : List Amendment :=
  (calls.filter (·.1 = who)).map (·.2)

theorem through_append (who : Nat) (before after : List (Nat × Amendment)) :
    through who (before ++ after) = through who before ++ through who after := by
  unfold through
  rw [List.filter_append, List.map_append]

theorem through_cons_self (who : Nat) (a : Amendment) (rest : List (Nat × Amendment)) :
    through who ((who, a) :: rest) = a :: through who rest := by
  unfold through
  rw [List.filter_cons_of_pos (by simp), List.map_cons]

theorem through_cons_of_ne {who other : Nat} (h : other ≠ who) (a : Amendment)
    (rest : List (Nat × Amendment)) : through other ((who, a) :: rest) = through other rest := by
  unfold through
  rw [List.filter_cons_of_neg (by simpa using Ne.symm h)]

theorem mem_of_mem_through {who : Nat} {a : Amendment} {calls : List (Nat × Amendment)}
    (h : a ∈ through who calls) : (who, a) ∈ calls := by
  obtain ⟨⟨caller, _⟩, hmem, rfl⟩ := List.mem_map.1 h
  obtain ⟨hcall, hcaller⟩ := List.mem_filter.1 hmem
  obtain rfl : caller = who := by simpa using hcaller
  exact hcall

-- ===================================================== several handles

/-- A transaction, and the handles that are held in it. -/
structure Copies where
  held : Nat → Entry
  tx : Transaction

namespace Copies

/-- Amends through one of the handles. -/
def amend (s : Copies) (call : Nat × Amendment) : Except StoreError Copies :=
  let step := call.2.perform (s.held call.1) s.tx
  step.result.map fun _ => ⟨Function.update s.held call.1 step.entry, step.tx⟩

/-- Amends through the handles, one after the other. -/
def amendAll (s : Copies) (calls : List (Nat × Amendment)) : Except StoreError Copies :=
  calls.foldlM amend s

/-- All handles are on one relpath, in a transaction that may write. -/
structure On (s : Copies) (relpath : String) : Prop where
  writable : s.tx.writable = true
  same : ∀ who, (s.held who).relpath = relpath

/-- What an amendment through a handle leaves. -/
def revised (s : Copies) (who : Nat) (a : Amendment) : Copies where
  held := Function.update s.held who
    { s.held who with record := a.revise (s.held who).record }
  tx := Patch.apply ⟨(s.held who).relpath, some (a.revise (s.held who).record), a.blob?⟩ s.tx

variable {s : Copies} {relpath : String} {who : Nat} {a : Amendment}

theorem held_revised_self (s : Copies) (who : Nat) (a : Amendment) :
    (s.revised who a).held who
      = { s.held who with record := a.revise (s.held who).record } :=
  Function.update_self ..

theorem held_revised_of_ne {other : Nat} (h : other ≠ who) (s : Copies) (a : Amendment) :
    (s.revised who a).held other = s.held other :=
  Function.update_of_ne h ..

theorem On.amend_eq (h : s.On relpath)
    (hvalid : a.blob? ≠ none → Relpath.isValid relpath = true) :
    s.amend (who, a) = .ok (s.revised who a) := by
  unfold amend
  dsimp only
  rw [Amendment.perform_of_writable h.writable (by rwa [h.same])]
  rfl

theorem On.revised (h : s.On relpath) (who : Nat) (a : Amendment) :
    (s.revised who a).On relpath where
  writable := h.writable
  same other := by
    by_cases heq : other = who
    · subst heq
      rw [held_revised_self]
      exact h.same other
    · rw [held_revised_of_ne heq]
      exact h.same other

theorem amendAll_concat {t : Copies} {calls : List (Nat × Amendment)}
    (h : s.amendAll calls = .ok t) (call : Nat × Amendment) :
    s.amendAll (calls ++ [call]) = t.amend call := by
  unfold amendAll at h ⊢
  rw [List.foldlM_append, h]
  show List.foldlM amend t [call] = t.amend call
  rw [List.foldlM_cons]
  cases t.amend call <;> rfl

/-- Amendments in a transaction that may write are made, if there can be
content where they are about that. Each handle then holds what was last
set through it. -/
theorem On.amendAll_spec (h : s.On relpath) {calls : List (Nat × Amendment)}
    (hvalid : ∀ call ∈ calls, call.2.blob? ≠ none → Relpath.isValid relpath = true) :
    ∃ t, s.amendAll calls = .ok t ∧ t.On relpath ∧ ∀ who field, (t.held who).record.get field
      = (lastSet (through who calls) field).getD ((s.held who).record.get field) := by
  induction calls using List.reverseRecOn with
  | nil => exact ⟨s, rfl, h, fun _ _ => rfl⟩
  | append_singleton calls call ih =>
      obtain ⟨t, hcalls, hon, hheld⟩ :=
        ih fun earlier hmem => hvalid earlier (List.mem_append_left _ hmem)
      obtain ⟨who, a⟩ := call
      have hamend : t.amend (who, a) = .ok (t.revised who a) :=
        hon.amend_eq (hvalid _ (List.mem_append_right _ (List.mem_singleton_self _)))
      refine ⟨t.revised who a, (amendAll_concat hcalls _).trans hamend, hon.revised who a,
        fun other field => ?_⟩
      rw [through_append]
      by_cases heq : other = who
      · subst heq
        have hthrough : through other [(other, a)] = [a] := through_cons_self ..
        rw [hthrough, lastSet_concat, held_revised_self]
        dsimp only
        rw [a.get_revise, hheld]
        cases a.sets field <;> rfl
      · have hthrough : through other [(who, a)] = [] := through_cons_of_ne heq ..
        rw [hthrough, List.append_nil, held_revised_of_ne heq]
        exact hheld other field

end Copies

/-- The record of an entry, after amendments through several handles, holds
in each field what was last set through the handle of the last of them, or
what that handle held before if nothing was. So it holds what was last set
at all if that was through the handle of the last amendment; and that one
leaves a field that it is not about as it was just if its handle held what
the record did. -/
theorem record_of_last_copy {s : Copies} {relpath : String} (h : s.On relpath)
    {calls : List (Nat × Amendment)} {who : Nat} {a : Amendment}
    (hvalid : ∀ call ∈ calls ++ [(who, a)],
      call.2.blob? ≠ none → Relpath.isValid relpath = true)
    (store : Store) (algo : Digest.Algo) :
    ∃ t u r, s.amendAll calls = .ok t ∧ t.amend (who, a) = .ok u
      ∧ s.amendAll (calls ++ [(who, a)]) = .ok u
      ∧ load u.tx store algo relpath = .ok (some ⟨relpath, r, algo⟩)
      ∧ (∀ field, r.get field = (lastSet (through who (calls ++ [(who, a)])) field).getD
          ((s.held who).record.get field))
      ∧ (∀ field value before b after, calls ++ [(who, a)] = before ++ (who, b) :: after →
          b.sets field = some value → (∀ later ∈ after, later.2.sets field = none) →
          r.get field = value)
      ∧ ∀ e, load t.tx store algo relpath = .ok (some e) → ∀ field, a.sets field = none →
          (r.get field = e.record.get field
            ↔ (t.held who).record.get field = e.record.get field) := by
  obtain ⟨t, hcalls, hon, hheld⟩ :=
    h.amendAll_spec fun call hmem => hvalid call (List.mem_append_left _ hmem)
  have hamend : t.amend (who, a) = .ok (t.revised who a) :=
    hon.amend_eq (hvalid _ (List.mem_append_right _ (List.mem_singleton_self _)))
  have hall := (Copies.amendAll_concat hcalls (who, a)).trans hamend
  obtain ⟨u, hall', -, hheld'⟩ := h.amendAll_spec hvalid
  cases Except.ok.inj (hall.symm.trans hall')
  have hget : ∀ field, (a.revise (t.held who).record).get field
      = (lastSet (through who (calls ++ [(who, a)])) field).getD
        ((s.held who).record.get field) := by
    intro field
    have hheld'' := hheld' who field
    rw [Copies.held_revised_self] at hheld''
    exact hheld''
  refine ⟨t, t.revised who a, a.revise (t.held who).record, hcalls, hamend, hall, ?_, hget,
    fun field value before b after hsplit hset hafter => ?_, fun e he field hnone => ?_⟩
  · unfold Copies.revised
    rw [hon.same who]
    exact Patch.load_apply ..
  · have hlast : lastSet (through who (before ++ (who, b) :: after)) field = some value := by
      rw [through_append, through_cons_self]
      exact lastSet_of_split hset fun later hmem => hafter _ (mem_of_mem_through hmem)
    rw [hget, hsplit, hlast]
    rfl
  · rw [a.get_revise, hnone]
    rfl

/-- A URL that is set through the handle of the last amendment stays; the
size of content that is set through another one does not. -/
theorem record_of_last_copy_of_two :
    let e : Entry := ⟨"a/b", { url := some "http://h/b" }, .md5⟩
    let s : Copies := ⟨fun _ => e, { writable := true, serial := 0, view := some {} }⟩
    let calls : List (Nat × Amendment) := [(0, .url "http://m/b"), (1, .content [1] "now")]
    ∃ u r, s.amendAll (calls ++ [(0, .lastModified "then")]) = .ok u
      ∧ load u.tx { root := "depot" } .md5 "a/b" = .ok (some ⟨"a/b", r, .md5⟩)
      ∧ r.url = some "http://m/b" ∧ r.lastModified = some "then" ∧ r.size = none := by
  intro e s calls
  have hon : s.On "a/b" := ⟨rfl, fun _ => rfl⟩
  have hvalid : ∀ call ∈ calls ++ [(0, .lastModified "then")],
      call.2.blob? ≠ none → Relpath.isValid "a/b" = true := fun _ _ _ => by decide
  obtain ⟨t, u, r, -, -, hall, hload, hget, -⟩ :=
    record_of_last_copy hon hvalid { root := "depot" } .md5
  exact ⟨u, r, hall, hload, hget .url, hget .lastModified, hget .size⟩

set_option maxRecDepth 20000 in
/-- Of two handles on what a link leads to, the second one sets the date.
The URL that was set through the first one is undone. -/
theorem undone_by_stale_copy :
    let store : Store := { root := "depot" }
    ∃ link a t b, Link.parse "http://h/b" = .ok link
      ∧ ofLink { writable := true, serial := 0, view := some {} } store .md5 link = .ok (a, t)
      ∧ load t store .md5 link.relpath = .ok (some b)
      ∧ (a.setUrl t "http://m/b").result = .ok ()
      ∧ (b.setLastModified (a.setUrl t "http://m/b").tx "then").result = .ok ()
      ∧ (load (a.setUrl t "http://m/b").tx store .md5 link.relpath).map
          (·.bind (·.record.url)) = .ok (some "http://m/b")
      ∧ (load (b.setLastModified (a.setUrl t "http://m/b").tx "then").tx store .md5
          link.relpath).map (·.bind (·.record.url)) = .ok (some "http://h/b") := by
  intro store
  have hparse : Link.parse "http://h/b"
      = .ok ⟨⟨"http", some { host := some "h" }, .segments ["b"], none, none⟩, none, none⟩ := rfl
  exact ⟨_, _, _, _, hparse, rfl, rfl, rfl, rfl, rfl, rfl⟩

end Entry

end Depot
