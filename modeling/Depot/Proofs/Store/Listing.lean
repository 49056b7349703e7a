/-
What a transaction lists. The committed keys and the changes are merged:
the committed keys that start as asked for make a set, and the changes
from there on, as far as they start so, enter their keys in it or take
them out. The changes that are scanned are all that start so
(`changedFrom_eq_filter`), so a key is in the set if it is set, or
committed and not changed (`mem_keys`), and that is when it is found
(`mem_keys_iff_get`). The relpaths that have a record are what is left of
the keys behind the text that all keys of records start with.
-/
import Depot.Proofs.Bytes
import Depot.Proofs.Store.Commit
import Depot.Proofs.Text.Keys
import Depot.Store.Entry

namespace Depot

open Text

variable {tx : Transaction} {store : Store} {lead key relpath : String}

namespace Transaction

-- ===================================================== changes

/-- The scan of the changes leaves out none that starts as asked for. -/
theorem changedFrom_eq_filter (tx : Transaction) (lead : String) :
    tx.changedFrom lead = tx.records.toList.filter fun change => startsWith lead change.1 :=
  scan_eq_filter (tx.records.ordered_keys_toList.imp fun hlt => compare_eq_lt_iff.1 hlt) lead

/-- Looking up among the changes of some keys. -/
theorem lookup_filter {α : Type} (p : String → Bool) (changes : List (String × α)) (key : String) :
    (changes.filter fun change => p change.1).lookup key
      = if p key then changes.lookup key else none := by
  induction changes with
  | nil => simp
  | cons change rest ih =>
      obtain ⟨k, value⟩ := change
      rw [List.filter_cons, List.lookup_cons]
      by_cases hk : key = k
      · subst hk
        cases hp : p key with
        | true => simp
        | false =>
            rw [hp] at ih
            simpa using ih
      · have hne : (key == k) = false := by simpa using hk
        rw [hne]
        cases p k with
        | true => simpa [List.lookup_cons, hne] using ih
        | false => simpa using ih

-- ===================================================== keys

/-- A key is listed if it starts as asked for and is set, or committed and
not changed. -/
theorem mem_keys (tx : Transaction) (store : Store) (lead key : String) :
    key ∈ tx.keys store lead ↔ startsWith lead key = true
      ∧ (match tx.records[key]? with
        | some value => value.isSome
        | none => findsCommitted lead && (tx.observed store).records.contains key) = true := by
  have hdistinct := (distinct_toList tx.records).filter fun change => startsWith lead change.1
  have hfold := contains_foldl_change hdistinct (Std.ExtTreeSet.ofList
    ((tx.observed store).records.keys.filter fun k =>
      findsCommitted lead && startsWith lead k)) key
  rw [lookup_filter, lookup_toList] at hfold
  unfold keys
  rw [Std.ExtTreeSet.mem_toList, Std.ExtTreeSet.mem_iff_contains, changedFrom_eq_filter]
  refine (Bool.eq_iff_iff.1 hfold).trans ?_
  cases hlead : startsWith lead key with
  | false => simp [hlead, Std.ExtTreeSet.contains_ofList]
  | true =>
      simp only [↓reduceIte, true_and]
      cases tx.records[key]? with
      | some value => rfl
      | none => simp [hlead, Std.ExtTreeSet.contains_ofList, Std.ExtTreeMap.mem_keys, and_comm]

/-- Keys are listed in order. -/
theorem keys_ordered (tx : Transaction) (store : Store) (lead : String) :
    (tx.keys store lead).Pairwise (· < ·) :=
  Std.ExtTreeSet.ordered_toList.imp fun hlt => compare_eq_lt_iff.1 hlt

/-- What is read is there, or is refused. -/
theorem map_some_ne_none {α β : Type} (read : Except StoreError α) (f : α → β) :
    (read.map fun a => some (f a)) ≠ .ok none := by
  cases read <;> simp [Except.map]

/-- A key is found if it is set, or committed and not changed. A text that
is no record is found, too, and refused. -/
theorem get_ne_none_iff : tx.get store key ≠ .ok none
    ↔ (match tx.records[key]? with
      | some value => value.isSome
      | none => (tx.observed store).records.contains key) = true := by
  unfold Transaction.get
  cases tx.records[key]? with
  | some value => cases value <;> simp
  | none =>
      dsimp only
      rw [← Std.ExtTreeMap.isSome_getElem?_eq_contains]
      cases (tx.observed store).records[key]? with
      | none => simp
      | some text => exact iff_of_true (map_some_ne_none _ _) rfl

/-- The keys that are listed are those that are found. -/
theorem mem_keys_iff_get (hlead : '\x00' ∉ lead.toList) :
    key ∈ tx.keys store lead ↔ startsWith lead key = true ∧ tx.get store key ≠ .ok none := by
  have hfinds : findsCommitted lead = true := by simpa [findsCommitted] using hlead
  rw [mem_keys, get_ne_none_iff, hfinds, Bool.true_and]

end Transaction

namespace Entry

-- ===================================================== relpaths

/-- The relpath of a key is what is left of it. -/
theorem key_eq_iff :
    (dropLead? keyLead.toList key.toList).map String.ofList = some relpath
      ↔ key = keyOf relpath := by
  rw [Option.map_eq_some_iff]
  unfold keyOf
  constructor
  · intro h
    obtain ⟨rest, hrest, rfl⟩ := h
    rw [← String.toList_inj, String.toList_append, String.toList_ofList]
    exact dropLead?_eq_some.1 hrest
  · intro h
    refine ⟨relpath.toList, dropLead?_eq_some.2 ?_, String.ofList_toList⟩
    rw [h, String.toList_append]

theorem mem_relpaths : relpath ∈ relpaths tx store ↔ keyOf relpath ∈ tx.keys store keyLead := by
  unfold relpaths
  rw [List.mem_filterMap]
  constructor
  · intro hin
    obtain ⟨key, hkey, heq⟩ := hin
    rwa [← key_eq_iff.1 heq]
  · exact fun hin => ⟨_, hin, key_eq_iff.2 rfl⟩

/-- Relpaths are listed in order. -/
theorem relpaths_ordered (tx : Transaction) (store : Store) :
    (relpaths tx store).Pairwise (· < ·) := by
  refine (Transaction.keys_ordered tx store keyLead).filterMap _ ?_
  intro a b hab a' ha b' hb
  rw [key_eq_iff.1 ha, key_eq_iff.1 hb] at hab
  exact append_lt_append_iff.1 hab

/-- Their keys are all that start as keys of records do. -/
theorem map_keyOf_relpaths (tx : Transaction) (store : Store) :
    (relpaths tx store).map keyOf = tx.keys store keyLead := by
  have hordered : ((relpaths tx store).map keyOf).Pairwise (· < ·) :=
    List.pairwise_map.2 ((relpaths_ordered tx store).imp append_lt_append_iff.2)
  refine eq_of_sorted hordered (Transaction.keys_ordered ..) fun key => ?_
  rw [List.mem_map]
  constructor
  · rintro ⟨relpath, hrelpath, rfl⟩
    exact mem_relpaths.1 hrelpath
  · intro hkey
    obtain ⟨relpath, rfl⟩ := startsWith_iff.1 ((Transaction.mem_keys ..).1 hkey).1
    exact ⟨relpath, mem_relpaths.2 hkey, rfl⟩

/-- There is a handle on a relpath, or its record is refused, just if its
key is found. -/
theorem load_ne_none_iff {algo : Digest.Algo} :
    load tx store algo relpath ≠ .ok none ↔ tx.get store (keyOf relpath) ≠ .ok none := by
  unfold load
  cases hget : tx.get store (keyOf relpath) with
  | error e => simp
  | ok found => cases found with
    | none => simp
    | some value => exact iff_of_true (Transaction.map_some_ne_none _ _) (by simp)

end Entry

namespace Transaction

/-- What is listed is what is found, whatever is committed and whatever is
changed. The keys that start with a text without NUL, and the relpaths
that have a record, are listed in the order of their octets, each once. -/
theorem listed_iff_found (tx : Transaction) (store : Store) {lead : String}
    (hlead : '\x00' ∉ lead.toList) :
    (tx.keys store lead).Pairwise (fun a b => Bytes.ofText a < Bytes.ofText b)
      ∧ (∀ key, key ∈ tx.keys store lead
          ↔ (∃ rest, key = lead ++ rest) ∧ tx.get store key ≠ .ok none)
      ∧ (Entry.relpaths tx store).Pairwise (fun a b => Bytes.ofText a < Bytes.ofText b)
      ∧ (Entry.relpaths tx store).map Entry.keyOf = tx.keys store Entry.keyLead
      ∧ ∀ algo relpath, relpath ∈ Entry.relpaths tx store
          ↔ Entry.load tx store algo relpath ≠ .ok none := by
  refine ⟨(keys_ordered tx store lead).imp Bytes.ofText_lt, fun key => ?_,
    (Entry.relpaths_ordered tx store).imp Bytes.ofText_lt, Entry.map_keyOf_relpaths tx store,
    fun algo relpath => ?_⟩
  · rw [mem_keys_iff_get hlead, startsWith_iff]
  · rw [Entry.mem_relpaths, mem_keys_iff_get (by decide), Entry.load_ne_none_iff]
    exact and_iff_right (startsWith_iff.2 ⟨relpath, rfl⟩)

set_option maxRecDepth 20000 in
/-- Committed keys, of which one is set anew, one is deleted and one has a
text that is no record, and new keys before, among and after them. -/
theorem listed_iff_found_merged : ∃ (tx : Transaction) (store : Store),
    tx.view = some ⟨.ofList [("é", "1"), ("éa", "\x7b"), ("éb", "3"), ("f", "4")], ∅, some "0"⟩
    ∧ (tx.records.toList.map fun (key, value) => (key, value.isSome))
      = [("e", true), ("é", true), ("éb", false), ("éc", true), ("ê", true)]
    ∧ tx.keys store "é" = ["é", "éa", "éc"]
    ∧ ∀ key, key ∈ tx.keys store "é" ↔ (∃ rest, key = "é" ++ rest)
      ∧ tx.get store key ≠ .ok none := by
  let tx : Transaction :=
    { writable := true
      serial := 0
      view := some ⟨.ofList [("é", "1"), ("éa", "\x7b"), ("éb", "3"), ("f", "4")], ∅, some "0"⟩
      records := .ofList [("ê", some Json.null), ("éc", some Json.null), ("e", some Json.null),
        ("éb", none), ("é", some Json.null)] }
  have hlead : '\x00' ∉ "é".toList := by decide
  obtain ⟨-, hfound, -⟩ := listed_iff_found tx { root := "depot" } hlead
  exact ⟨tx, { root := "depot" }, rfl, by with_unfolding_all rfl, by with_unfolding_all rfl, hfound⟩

end Transaction

end Depot
