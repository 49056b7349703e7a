/-
Records as JSON and as text. A record is read back from its JSON
(`ofJson?_toJson`), and what is read from its text is the same record, if
anything (`eq_of_read`): a size of more than 64 bits is read as a double
at best, which is no size.
-/
import Depot.Store.FileRecord
import Depot.Proofs.Json.RoundTrip

namespace Depot

namespace Json

-- ===================================================== members

theorem lookup_cons (key name : String) (value : Json) (rest : List (String × Json)) :
    ((name, value) :: rest).lookup key = if key = name then some value else rest.lookup key := by
  rw [List.lookup_cons]
  by_cases h : key = name
  · rw [if_pos h, show (key == name) = true by simpa using h]
  · rw [if_neg h, show (key == name) = false by simpa using h]

/-- A member that is set is found, and the others are found as before. -/
theorem lookup_setMember (name key : String) (value : Json) (members : List (String × Json)) :
    (setMember name value members).lookup key
      = if key = name then some value else members.lookup key := by
  induction members with
  | nil => exact lookup_cons key name value []
  | cons member rest ih =>
      obtain ⟨n, v⟩ := member
      rw [setMember]
      split
      · exact lookup_cons key name value _
      · split
        · next heq =>
          subst heq
          rw [lookup_cons, lookup_cons]
          by_cases h : key = name
          · rw [if_pos h, if_pos h]
          · rw [if_neg h, if_neg h, if_neg h]
        · next hne =>
          rw [lookup_cons, lookup_cons, ih]
          by_cases hn : key = n
          · subst hn
            rw [if_pos rfl, if_pos rfl, if_neg (Ne.symm hne)]
          · rw [if_neg hn, if_neg hn]

/-- A member that is set comes in order, and is no other than it or one
that was there. -/
theorem mem_setMember {name : String} {value : Json} {members : List (String × Json)}
    {m : String × Json} (h : m ∈ setMember name value members) :
    m = (name, value) ∨ m ∈ members := by
  induction members with
  | nil => exact .inl (List.mem_singleton.1 h)
  | cons member rest ih =>
      obtain ⟨n, v⟩ := member
      rw [setMember] at h
      split at h
      · exact List.mem_cons.1 h
      · split at h
        · exact (List.mem_cons.1 h).imp id (List.mem_cons_of_mem _)
        · rcases List.mem_cons.1 h with rfl | h
          · exact .inr (List.mem_cons_self ..)
          · exact (ih h).imp id (List.mem_cons_of_mem _)

theorem InOrder.setMember {members : List (String × Json)} (h : InOrder members) (name : String)
    (value : Json) : InOrder (setMember name value members) := by
  induction members with
  | nil => exact List.pairwise_singleton _ _
  | cons member rest ih =>
      obtain ⟨n, v⟩ := member
      obtain ⟨hfirst, hrest⟩ := List.pairwise_cons.1 h
      rw [Json.setMember]
      split
      · next hlt =>
        refine List.pairwise_cons.2 ⟨fun m hm => ?_, h⟩
        rcases List.mem_cons.1 hm with rfl | hm
        · exact hlt
        · exact String.lt_trans hlt (hfirst m hm)
      · next hlt =>
        split
        · next heq =>
          subst heq
          exact List.pairwise_cons.2 ⟨hfirst, hrest⟩
        · next hne =>
          refine List.pairwise_cons.2 ⟨fun m hm => ?_, ih hrest⟩
          rcases mem_setMember hm with rfl | hm
          · exact Std.lt_of_le_of_ne (String.not_lt.1 hlt) (Ne.symm hne)
          · exact hfirst m hm

/-- Setting members one after the other, of which no two are of one name. -/
theorem lookup_foldl_setMember {set : List (String × Json)}
    (h : set.Pairwise fun a b => a.1 ≠ b.1) (members : List (String × Json)) (key : String) :
    (set.foldl (fun members m => setMember m.1 m.2 members) members).lookup key
      = (set.lookup key).or (members.lookup key) := by
  induction set generalizing members with
  | nil => rfl
  | cons m rest ih =>
      obtain ⟨n, v⟩ := m
      obtain ⟨hfirst, hrest⟩ := List.pairwise_cons.1 h
      rw [List.foldl_cons, ih hrest, lookup_setMember, lookup_cons]
      by_cases hn : key = n
      · subst hn
        have hnone : rest.lookup key = none :=
          List.lookup_eq_none_iff.2 fun m hm => by simpa using hfirst m hm
        rw [hnone, if_pos rfl, if_pos rfl]
        rfl
      · rw [if_neg hn, if_neg hn]

theorem mem_foldl_setMember {set members : List (String × Json)} {m : String × Json}
    (h : m ∈ set.foldl (fun members m => setMember m.1 m.2 members) members) :
    m ∈ set ∨ m ∈ members := by
  induction set generalizing members with
  | nil => exact .inr h
  | cons first rest ih =>
      rcases ih h with h | h
      · exact .inl (List.mem_cons_of_mem _ h)
      · rcases mem_setMember h with rfl | h
        · exact .inl (List.mem_cons_self ..)
        · exact .inr h

theorem inOrder_foldl_setMember (set : List (String × Json)) {members : List (String × Json)}
    (h : InOrder members) :
    InOrder (set.foldl (fun members m => setMember m.1 m.2 members) members) := by
  induction set generalizing members with
  | nil => exact h
  | cons m rest ih => exact ih (h.setMember m.1 m.2)

/-- The present ones among optional members. -/
theorem lookup_filterMap {fields : List (String × Option Json)}
    (h : fields.Pairwise fun a b => a.1 ≠ b.1) (key : String) :
    (fields.filterMap fun f => f.2.map (f.1, ·)).lookup key = (fields.lookup key).join := by
  induction fields with
  | nil => rfl
  | cons field rest ih =>
      obtain ⟨n, value⟩ := field
      obtain ⟨hfirst, hrest⟩ := List.pairwise_cons.1 h
      have hother : key = n → (rest.filterMap fun f => f.2.map (f.1, ·)).lookup key = none := by
        intro heq
        subst heq
        rw [ih hrest, List.lookup_eq_none_iff.2 fun m hm => by simpa using hfirst m hm]
        rfl
      rw [List.lookup_cons]
      by_cases hn : key = n
      · rw [show (key == n) = true by simpa using hn]
        cases value with
        | none => exact hother hn
        | some v => exact (lookup_cons key n v _).trans (if_pos hn)
      · rw [show (key == n) = false by simpa using hn]
        cases value with
        | none => exact ih hrest
        | some v => exact (lookup_cons key n v _).trans ((if_neg hn).trans (ih hrest))

end Json

namespace FileRecord

/-- The fields of a record, with their values if they have some. -/
def fields (r : FileRecord) : List (String × Option Json) :=
  [("hash_spec", r.hash.map Json.str), ("url", r.url.map Json.str),
   ("eggfragment", r.egg.map Json.str), ("last_modified", r.lastModified.map Json.str),
   ("size", r.size.map Json.ofNat), ("content_type", r.contentType.map Json.str),
   ("content_length", r.contentLength.map Json.str)]

/-- The members of a record's JSON. -/
def members (r : FileRecord) : List (String × Json) :=
  (r.fields.filterMap fun f => f.2.map (f.1, ·)).foldl
    (fun members m => Json.setMember m.1 m.2 members) []

theorem toJson_eq (r : FileRecord) : r.toJson = .obj r.members := rfl

theorem distinct_fields (r : FileRecord) : r.fields.Pairwise fun a b => a.1 ≠ b.1 := by
  simp [fields]

/-- The members of a record are its fields. -/
theorem lookup_members (r : FileRecord) (name : String) :
    r.members.lookup name = (r.fields.lookup name).join := by
  have hdistinct :
      (r.fields.filterMap fun f => f.2.map (f.1, ·)).Pairwise fun a b => a.1 ≠ b.1 := by
    refine List.Pairwise.filterMap _ ?_ r.distinct_fields
    intro a b hab a' ha b' hb
    obtain ⟨_, -, rfl⟩ := Option.map_eq_some_iff.1 ha
    obtain ⟨_, -, rfl⟩ := Option.map_eq_some_iff.1 hb
    exact hab
  unfold members
  rw [Json.lookup_foldl_setMember hdistinct, Json.lookup_filterMap r.distinct_fields]
  cases (r.fields.lookup name).join <;> rfl

theorem text?_getD (text : Option String) :
    text? ((text.map Json.str).getD .null) = some text := by
  cases text <;> rfl

theorem size?_getD (size : Option Nat) : size? ((size.map Json.ofNat).getD .null) = some size := by
  cases size with
  | none => rfl
  | some n => simp [size?, Json.ofNat, Json.nat?]

/-- The values of a record's fields, in order. -/
def values (r : FileRecord) : List Json :=
  r.fields.map fun f => f.2.getD .null

/-- What is looked up in the members of a record are its values. -/
theorem map_lookup_members (r : FileRecord) :
    (fieldNames.map fun name => (r.members.lookup name).getD .null) = r.values := by
  unfold values fieldNames
  simp only [lookup_members]
  rfl

theorem ofFields?_values (r : FileRecord) : ofFields? r.values = some r := by
  unfold values fields
  simp only [List.map_cons, List.map_nil]
  unfold ofFields?
  simp only [text?_getD, size?_getD]
  rfl

/-- A record is read back from its JSON. -/
theorem ofJson?_toJson (r : FileRecord) : ofJson? r.toJson = some r := by
  rw [toJson_eq]
  unfold ofJson?
  dsimp only
  rw [map_lookup_members, ofFields?_values]

-- ===================================================== through text

/-- A text is read as itself. -/
theorem text?_reread {v w : Json} {text : Option String} (h : text? v = some text)
    (hread : v.reread = .ok w) : text? w = some text := by
  cases v with
  | null => cases hread; exact h
  | str s => cases hread; exact h
  | bool b => cases h
  | num n => cases h
  | arr items => cases h
  | obj members => cases h

theorem size?_eq_some {v : Json} {size : Option Nat} (h : size? v = some size) :
    v = .null ∧ size = none ∨ ∃ n : Nat, v = .num (.int n) ∧ size = some n := by
  cases v with
  | null => cases h; exact .inl ⟨rfl, rfl⟩
  | num n =>
      cases n with
      | int k =>
          unfold size? Json.nat? at h
          dsimp only at h
          split at h
          · next hk => cases h; exact .inr ⟨k.toNat, by rw [Int.toNat_of_nonneg hk], rfl⟩
          · cases h
      | float x => cases h
  | bool b => cases h
  | str s => cases h
  | arr items => cases h
  | obj members => cases h

/-- A size that is read as a size is read as itself. -/
theorem size?_reread {v w : Json} {size size' : Option Nat} (h : size? v = some size)
    (hread : v.reread = .ok w) (h' : size? w = some size') : size' = size := by
  rcases size?_eq_some h with ⟨rfl, rfl⟩ | ⟨n, rfl, rfl⟩
  · cases hread
    cases h'
    rfl
  · rw [Json.reread] at hread
    cases hnumber : Json.rereadNumber (.int n) with
    | error f => rw [hnumber] at hread; cases hread
    | ok m =>
        rw [hnumber] at hread
        cases hread
        rcases size?_eq_some h' with ⟨hnull, -⟩ | ⟨k, heq, rfl⟩
        · cases hnull
        · cases heq
          have hk := Json.eq_of_rereadNumber hnumber
          rw [Int.ofNat_inj.1 hk]

/-- The members that are read are those that were written, each with its
value as it is read. -/
theorem lookup_rereadMembers {members read : List (String × Json)}
    (h : Json.rereadMembers members = .ok read) (name : String) :
    ((members.lookup name).getD .null).reread = .ok ((read.lookup name).getD .null) := by
  induction members generalizing read with
  | nil =>
      cases h
      rfl
  | cons member rest ih =>
      obtain ⟨n, v⟩ := member
      rw [Json.rereadMembers] at h
      cases hv : v.reread with
      | error f => rw [hv] at h; cases h
      | ok w =>
          rw [hv] at h
          cases hrest : Json.rereadMembers rest with
          | error f => rw [hrest] at h; cases h
          | ok later =>
              rw [hrest] at h
              cases h
              rw [Json.lookup_cons, Json.lookup_cons]
              by_cases hn : name = n
              · rw [if_pos hn, if_pos hn]
                exact hv
              · rw [if_neg hn, if_neg hn]
                exact ih hrest

/-- Fields that are read as fields of a record are read as those of the
same record. -/
theorem ofFields?_reread {a b c d e f g a' b' c' d' e' f' g' : Json} {r r' : FileRecord}
    (h : ofFields? [a, b, c, d, e, f, g] = some r)
    (ha : a.reread = .ok a') (hb : b.reread = .ok b') (hc : c.reread = .ok c')
    (hd : d.reread = .ok d') (he : e.reread = .ok e') (hf : f.reread = .ok f')
    (hg : g.reread = .ok g')
    (h' : ofFields? [a', b', c', d', e', f', g'] = some r') : r' = r := by
  unfold ofFields? at h h'
  simp only [Option.bind_eq_bind, Option.bind_eq_some_iff, Option.some.injEq] at h h'
  obtain ⟨hash, hhash, url, hurl, egg, hegg, date, hdate, size, hsize, type, htype, length, hlength,
    rfl⟩ := h
  obtain ⟨hash', hhash', url', hurl', egg', hegg', date', hdate', size', hsize', type', htype',
    length', hlength', rfl⟩ := h'
  rw [text?_reread hhash ha] at hhash'
  rw [text?_reread hurl hb] at hurl'
  rw [text?_reread hegg hc] at hegg'
  rw [text?_reread hdate hd] at hdate'
  rw [text?_reread htype hf] at htype'
  rw [text?_reread hlength hg] at hlength'
  cases hhash'
  cases hurl'
  cases hegg'
  cases hdate'
  cases htype'
  cases hlength'
  rw [size?_reread hsize he hsize']

/-- A value that holds no others. -/
def IsFlat (v : Json) : Prop := v.depth = 0 ∧ v.Ordered

theorem flat_members {members : List (String × Json)} (h : ∀ m ∈ members, IsFlat m.2) :
    Json.membersDepth members = 0 ∧ Json.OrderedMembers members := by
  induction members with
  | nil => exact ⟨rfl, trivial⟩
  | cons m rest ih =>
      obtain ⟨n, v⟩ := m
      obtain ⟨hdepth, hordered⟩ := h (n, v) (List.mem_cons_self ..)
      obtain ⟨hrest, hrestOrdered⟩ := ih fun m hm => h m (List.mem_cons_of_mem _ hm)
      refine ⟨?_, hordered, hrestOrdered⟩
      rw [Json.membersDepth, hdepth, hrest]
      rfl

theorem flat_fields (r : FileRecord) : ∀ f ∈ r.fields, ∀ v, f.2 = some v → IsFlat v := by
  intro f hf v hv
  unfold fields at hf
  simp only [List.mem_cons, List.not_mem_nil, or_false] at hf
  obtain rfl | rfl | rfl | rfl | rfl | rfl | rfl := hf <;>
    obtain ⟨_, -, rfl⟩ := Option.map_eq_some_iff.1 hv <;> exact ⟨rfl, trivial⟩

/-- The JSON of a record is not deep, and in order. -/
theorem shallow_toJson (r : FileRecord) : r.toJson.depth ≤ Json.maxDepth ∧ r.toJson.Ordered := by
  have hflat : ∀ m ∈ r.members, IsFlat m.2 := by
    intro m hm
    rcases Json.mem_foldl_setMember hm with hm | hm
    · obtain ⟨f, hf, heq⟩ := List.mem_filterMap.1 hm
      obtain ⟨v, hv, rfl⟩ := Option.map_eq_some_iff.1 heq
      exact r.flat_fields f hf v hv
    · cases hm
  obtain ⟨hdepth, hordered⟩ := flat_members hflat
  rw [toJson_eq, Json.depth, hdepth]
  exact ⟨by decide, Json.inOrder_foldl_setMember _ List.Pairwise.nil, hordered⟩

/-- What is read from the text of a record is the record. -/
theorem eq_of_read {r r' : FileRecord} {v : Json} (h : Json.read r.toJson.compact = .ok v)
    (h' : ofJson? v = some r') : r' = r := by
  obtain ⟨hdepth, hordered⟩ := r.shallow_toJson
  rw [Json.read_compact hdepth hordered, toJson_eq, Json.reread] at h
  cases hmembers : Json.rereadMembers r.members with
  | error f => rw [hmembers] at h; cases h
  | ok read =>
      rw [hmembers] at h
      cases h
      have hlookup := lookup_rereadMembers hmembers
      have hfields := r.ofFields?_values
      rw [← map_lookup_members] at hfields
      exact ofFields?_reread hfields (hlookup _) (hlookup _) (hlookup _) (hlookup _) (hlookup _)
        (hlookup _) (hlookup _) h'

/-- A size that is counted in 64 bits. -/
def Counted (r : FileRecord) : Prop := ∀ n, r.size = some n → n ≤ Json.Reader.maxGathered

theorem exact_members {members : List (String × Json)} (h : ∀ m ∈ members, m.2.Exact) :
    Json.ExactMembers members := by
  induction members with
  | nil => trivial
  | cons m rest ih =>
      exact ⟨h m (List.mem_cons_self ..), ih fun m hm => h m (List.mem_cons_of_mem _ hm)⟩

/-- A record with such a size is read from its text. -/
theorem Counted.read_compact {r : FileRecord} (h : r.Counted) :
    Json.read r.toJson.compact = .ok r.toJson := by
  obtain ⟨hdepth, hordered⟩ := r.shallow_toJson
  refine Json.Lasting.read_compact ⟨hdepth, hordered, ?_⟩
  rw [toJson_eq]
  refine exact_members fun m hm => ?_
  rcases Json.mem_foldl_setMember hm with hm | hm
  · obtain ⟨f, hf, heq⟩ := List.mem_filterMap.1 hm
    obtain ⟨v, hv, rfl⟩ := Option.map_eq_some_iff.1 heq
    unfold fields at hf
    simp only [List.mem_cons, List.not_mem_nil, or_false] at hf
    obtain rfl | rfl | rfl | rfl | rfl | rfl | rfl := hf <;>
      obtain ⟨x, hx, rfl⟩ := Option.map_eq_some_iff.1 hv
    case inr.inr.inr.inr.inl =>
      exact Json.rereadNumber_int (by omega) (Int.ofNat_le.2 (h x hx))
    all_goals trivial
  · cases hm

end FileRecord

end Depot
