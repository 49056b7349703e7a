/-
The fields of a document, one by one. `Document.compose` puts a document
together from what was learnt of a project, and `getElem?_compose` says what
it has under a key: of the values that the key is given, the last one, unless
it says nothing and the key is one that is left out then.
-/
import Mathlib.Algebra.Order.Field.Rat
import Depot.Indexing.Document
import Depot.Proofs.Text.Keys

namespace Depot

-- ===================================================== values that say nothing

/-- The number that a double stands for. -/
def Decimal.Double.toRat (x : Double) : ℚ :=
  (if x.negative then -1 else 1) * x.mantissa * 2 ^ x.exponent

/-- The number that a number of a JSON text stands for. -/
def Json.Number.toRat : Number → ℚ
  | int n => n
  | float x => x.toRat

theorem Decimal.Double.toRat_eq_zero_iff (x : Double) : x.toRat = 0 ↔ x.mantissa = 0 := by
  have hsign : (if x.negative then -1 else 1 : ℚ) ≠ 0 := by split <;> decide
  have hpower : (2 : ℚ) ^ x.exponent ≠ 0 := zpow_ne_zero _ (by decide)
  unfold toRat
  rw [mul_eq_zero_iff_right hpower, mul_eq_zero_iff_left hsign, Nat.cast_eq_zero]

namespace Indexing

variable {σ : Type}

namespace Document

/-- The values that say nothing. -/
inductive SaysNothing : Json → Prop
  | null : SaysNothing .null
  | no : SaysNothing (.bool false)
  | zero {n : Json.Number} (h : n.toRat = 0) : SaysNothing (.num n)
  | empty : SaysNothing (.str "")
  | unknown : SaysNothing (.str "UNKNOWN")
  | noItems : SaysNothing (.arr [])
  | noMembers : SaysNothing (.obj [])

theorem isZero_iff (n : Json.Number) : n.isZero = true ↔ n.toRat = 0 := by
  cases n with
  | int n => simp [Json.Number.isZero, Json.Number.toRat]
  | float x =>
      show (x.mantissa == 0) = true ↔ x.toRat = 0
      rw [x.toRat_eq_zero_iff, beq_iff_eq]

theorem isBlank_iff (value : Json) : isBlank value = true ↔ SaysNothing value := by
  constructor
  · intro h
    cases value with
    | null => exact .null
    | bool b =>
        cases b with
        | false => exact .no
        | true => cases h
    | num n => exact .zero ((isZero_iff n).1 h)
    | str s =>
        rcases Bool.or_eq_true_iff.1 h with h | h
        · rw [of_decide_eq_true h]
          exact .empty
        · rw [of_decide_eq_true h]
          exact .unknown
    | arr items =>
        rw [List.isEmpty_iff.1 h]
        exact .noItems
    | obj members =>
        rw [List.isEmpty_iff.1 h]
        exact .noMembers
  · rintro (_ | _ | h | _ | _ | _ | _)
    case zero => exact (isZero_iff _).2 h
    all_goals rfl

-- ===================================================== fields

/-- A field that is set is found. -/
theorem getElem?_insert (fields : Fields) (k key : String) (value : Json) :
    (fields.insert k value)[key]? = if key = k then some value else fields[key]? := by
  rw [Std.ExtTreeMap.getElem?_insert]
  by_cases h : key = k
  · rw [if_pos h, if_pos (h ▸ Std.ReflCmp.compare_self)]
  · rw [if_neg h, if_neg fun heq => h (Std.LawfulEqCmp.eq_of_compare heq).symm]

/-- What is set over fields is found first. -/
theorem getElem?_extend (fields more : Fields) (key : String) :
    (extend fields more)[key]? = more[key]?.or fields[key]? := by
  have hinsert : ∀ (pairs : List (String × Json)) (fields : Fields),
      pairs.foldl (fun fields pair => fields.insert pair.1 pair.2) fields
        = fields.insertMany pairs := by
    intro pairs
    induction pairs with
    | nil => intro fields; rw [Std.ExtTreeMap.insertMany_nil]; rfl
    | cons pair pairs ih =>
        intro fields
        rw [List.foldl_cons, ih, Std.ExtTreeMap.insertMany_cons]
  unfold extend
  rw [Std.ExtTreeMap.foldl_eq_foldl_toList, hinsert]
  cases hmore : more[key]? with
  | none =>
      refine Std.ExtTreeMap.getElem?_insertMany_list_of_contains_eq_false ?_
      rw [Std.ExtTreeMap.map_fst_toList_eq_keys, List.contains_eq_mem, decide_eq_false_iff_not,
        Std.ExtTreeMap.mem_keys, Std.ExtTreeMap.mem_iff_isSome_getElem?, hmore]
      exact Bool.false_ne_true
  | some value =>
      exact Std.ExtTreeMap.getElem?_insertMany_list_of_mem Std.ReflCmp.compare_self
        more.distinct_keys_toList (Std.ExtTreeMap.mem_toList_iff_getElem?_eq_some.2 hmore)

/-- One key leaves its own field out, if this says nothing. -/
theorem getElem?_leaveOut (fields : Fields) (k key : String) (value : Json) :
    (if fields[k]?.any isBlank then fields.erase k else fields)[key]? = some value
      ↔ fields[key]? = some value ∧ ¬ (key = k ∧ SaysNothing value) := by
  rw [← isBlank_iff]
  by_cases hkey : key = k
  · subst hkey
    cases hfield : fields[key]? with
    | none => simp [hfield]
    | some found =>
        cases hblank : isBlank found with
        | true =>
            simp only [Option.any_some, hblank, if_true, Std.ExtTreeMap.getElem?_erase_self,
              true_and]
            refine iff_of_false (by simp) ?_
            rintro ⟨hsome, hnot⟩
            exact hnot (Option.some.inj hsome ▸ hblank)
        | false =>
            simp only [Option.any_some, hblank, Bool.false_eq_true, if_false, true_and, hfield]
            refine ⟨fun hsome => ⟨hsome, ?_⟩, And.left⟩
            rw [← Option.some.inj hsome, hblank]
            exact Bool.false_ne_true
  · simp only [hkey, false_and, not_false_eq_true, and_true]
    split
    · rw [Std.ExtTreeMap.getElem?_erase, if_neg]
      exact fun heq => hkey (Std.LawfulEqCmp.eq_of_compare heq).symm
    · rfl

/-- A field is left out if its key is listed and it says nothing. -/
theorem getElem?_strip (fields : Fields) (keys : List String) (key : String) (value : Json) :
    (strip fields keys)[key]? = some value
      ↔ fields[key]? = some value ∧ ¬ (key ∈ keys ∧ SaysNothing value) := by
  unfold strip
  induction keys generalizing fields with
  | nil => simp
  | cons k keys ih =>
      rw [List.foldl_cons, ih, getElem?_leaveOut, List.mem_cons, or_and_right, not_or, and_assoc]

-- ===================================================== a document

/-- Fields with the version whose documentation counts. -/
def withDocs (user index project : String) (fields : Fields) (documented : Option String) :
    Document where
  fields := match documented with
    | some version => fields.insert "doc_version" (.str version)
    | none => fields
  docs := documented.map fun version => ⟨stageName user index, project, version⟩

/-- The document of a project: what is said of its newest version is set
over its name, the version whose documentation counts over this, and the
place of the project over all; then what says nothing is left out. -/
def compose (user index project : String) (newest : Fields) (documented : Option String)
    (keys : List String) : Document :=
  let doc := withDocs user index project
    (extend ((∅ : Fields).insert "name" (.str project)) newest) documented
  { doc with
    fields := strip ((doc.fields.insert "user" (.str user)).insert "index" (.str index)) keys }

/-- The last value that a document is given under a key. -/
def given (user index project : String) (newest : Fields) (documented : Option String)
    (key : String) : Option Json :=
  if key = "index" then some (.str index)
  else if key = "user" then some (.str user)
  else
    (if key = "doc_version" then documented.map .str else none).or <|
      newest[key]?.or <| if key = "name" then some (.str project) else none

/-- A document has the last value that it is given under a key, unless this
is left out. -/
theorem getElem?_compose (user index project : String) (newest : Fields)
    (documented : Option String) (keys : List String) (key : String) (value : Json) :
    (compose user index project newest documented keys).fields[key]? = some value
      ↔ given user index project newest documented key = some value
        ∧ ¬ (key ∈ keys ∧ SaysNothing value) := by
  refine (getElem?_strip _ keys key value).trans (and_congr_left fun _ => ?_)
  rw [getElem?_insert, getElem?_insert]
  unfold given
  -- each field is asked for in the order in which the later ones were set
  refine iff_of_eq (congrArg (· = some value) ?_)
  by_cases hindex : key = "index"
  · rw [if_pos hindex, if_pos hindex]
  by_cases huser : key = "user"
  · rw [if_neg hindex, if_neg hindex, if_pos huser, if_pos huser]
  rw [if_neg hindex, if_neg hindex, if_neg huser, if_neg huser]
  have hnamed : (extend ((∅ : Fields).insert "name" (.str project)) newest)[key]?
      = newest[key]?.or (if key = "name" then some (.str project) else none) := by
    rw [getElem?_extend, getElem?_insert, Std.ExtTreeMap.getElem?_empty]
  cases documented with
  | none =>
      rw [Option.map_none, ite_self, Option.none_or]
      exact hnamed
  | some version =>
      dsimp only [withDocs]
      rw [getElem?_insert, hnamed]
      by_cases hversion : key = "doc_version"
      · rw [if_pos hversion, if_pos hversion]
        rfl
      · rw [if_neg hversion, if_neg hversion, Option.none_or]

/-- As JSON, a document has the place of its documentation under a key of
its own, over what was said under this key. -/
theorem member?_toJson (doc : Document) : Json.member? docsKey doc.toJson
    = match doc.docs with
      | some docs => some (docsJson docs)
      | none => doc.fields[docsKey]? := by
  show List.lookup docsKey (Std.ExtTreeMap.toList _) = _
  rw [lookup_toList]
  cases doc.docs with
  | none => rfl
  | some docs => exact Std.ExtTreeMap.getElem?_insert_self

end Document

end Indexing

end Depot
