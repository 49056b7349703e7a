/-
When names are one project. Normalizing a name respells it: the blanks at its
ends go, its letters are in lower case, and each longest run of separators is
one `-` (`normalize_eq_respell`). What comes out is `Normal`, and the normal
names are those that stay as they are (`normalize_eq_self_iff`); so all
spellings of a project have one name in common.
-/
import Mathlib.Data.List.SplitBy
import Depot.Proofs.Project.Name

namespace Depot.Project

open Text

-- ===================================================== runs

/-- The text with one `-` for each longest run of separators. -/
def hyphenate (chars : List Char) : List Char :=
  (chars.splitBy fun a b => isSeparator a && isSeparator b).flatMap fun part =>
    if part.all isSeparator then ['-'] else part

/-- What is no separator is a part of its own. -/
theorem hyphenate_cons {c : Char} (h : isSeparator c = false) (rest : List Char) :
    hyphenate (c :: rest) = c :: hyphenate rest := by
  have hapart : ∀ x ∈ [c].getLast?, ∀ y ∈ rest.head?,
      (isSeparator x && isSeparator y) = false := by
    rintro x hx y -
    cases hx
    show (isSeparator c && isSeparator y) = false
    rw [h, Bool.false_and]
  have hpart : ¬[c].all isSeparator = true := by
    rw [List.all_cons, h, Bool.false_and]
    exact Bool.false_ne_true
  unfold hyphenate
  rw [show c :: rest = [c] ++ rest from rfl, List.splitBy_append hapart, List.flatMap_append,
    List.splitBy_of_isChain (List.cons_ne_nil c []) (List.isChain_singleton c),
    List.flatMap_singleton, if_neg hpart]
  rfl

/-- A separator and those that follow it are one part. -/
theorem hyphenate_run {c : Char} (h : isSeparator c = true) (rest : List Char) :
    hyphenate (c :: rest) = '-' :: hyphenate (rest.dropWhile isSeparator) := by
  have hsplit : c :: rest
      = (c :: rest.takeWhile isSeparator) ++ rest.dropWhile isSeparator := by
    rw [List.cons_append, List.takeWhile_append_dropWhile]
  have hrun : ∀ d ∈ c :: rest.takeWhile isSeparator, isSeparator d = true := by
    intro d hd
    rcases List.mem_cons.1 hd with rfl | hd
    · exact h
    · exact List.mem_takeWhile_imp hd
  have hchain : (c :: rest.takeWhile isSeparator).IsChain fun a b =>
      (isSeparator a && isSeparator b) = true := by
    refine (List.pairwise_of_forall_mem_list fun a ha b hb => ?_).isChain
    rw [hrun a ha, hrun b hb, Bool.and_self]
  -- what the run stops at is no separator
  have hapart : ∀ x ∈ (c :: rest.takeWhile isSeparator).getLast?,
      ∀ y ∈ (rest.dropWhile isSeparator).head?, (isSeparator x && isSeparator y) = false := by
    intro x _ y hy
    have hnot := List.head?_dropWhile_not isSeparator rest
    rw [hy] at hnot
    rw [show isSeparator y = false from hnot, Bool.and_false]
  unfold hyphenate
  rw [hsplit, List.splitBy_append hapart, List.flatMap_append,
    List.splitBy_of_isChain (List.cons_ne_nil _ _) hchain, List.flatMap_singleton,
    if_pos (List.all_eq_true.2 hrun)]
  rfl

theorem collapse_word {c : Char} (h : isSeparator c = false) (inRun : Bool) (rest : List Char) :
    collapse inRun (c :: rest) = c.toLower :: collapse false rest :=
  if_neg (Bool.eq_false_iff.1 h)

theorem collapse_run {c : Char} (h : isSeparator c = true) (inRun : Bool) (rest : List Char) :
    collapse inRun (c :: rest)
      = if inRun then collapse true rest else '-' :: collapse true rest :=
  if_pos h

/-- Collapsing a text writes each run in it as one `-`. If a separator stands
in front, the run that it begins has been written. -/
theorem collapse_eq_hyphenate (inRun : Bool) (chars : List Char) :
    collapse inRun chars = hyphenate
      (if inRun then (chars.map Char.toLower).dropWhile isSeparator
        else chars.map Char.toLower) := by
  induction chars generalizing inRun with
  | nil => cases inRun <;> rfl
  | cons c rest ih =>
      have hlower := isSeparator_toLower c
      rw [List.map_cons]
      cases hc : isSeparator c with
      | true =>
          rw [hc] at hlower
          have hafter : collapse true rest
              = hyphenate ((rest.map Char.toLower).dropWhile isSeparator) := ih true
          rw [collapse_run hc, hafter, List.dropWhile_cons_of_pos hlower]
          cases inRun with
          | true => rfl
          | false => exact (hyphenate_run hlower _).symm
      | false =>
          rw [hc] at hlower
          have hafter : collapse false rest = hyphenate (rest.map Char.toLower) := ih false
          rw [collapse_word hc, hafter, List.dropWhile_cons_of_neg (Bool.eq_false_iff.1 hlower),
            ite_self, hyphenate_cons hlower]

-- ===================================================== spellings

/-- A name without the blanks at its ends, in lower case, with one `-` for
each longest run of separators. -/
def respell (name : String) : String :=
  String.ofList (hyphenate ((trim name.toList).map Char.toLower))

theorem normalize_eq_respell (name : String) : normalize name = respell name :=
  congrArg String.ofList (collapse_eq_hyphenate false (trim name.toList))

-- ===================================================== normal names

/-- Whether one of two characters is no hyphen. -/
def Apart (a b : Char) : Prop := ¬(a = '-' ∧ b = '-')

/-- A name in the spelling that stands for the others. -/
structure Normal (name : String) : Prop where
  underscore : '_' ∉ name.toList
  point : '.' ∉ name.toList
  hyphens : name.toList.IsChain Apart
  upper : ∀ c ∈ name.toList, c.isUpper = false
  trimmed : Trimmed name.toList

/-- What is collapsed has no separators but hyphens, and is in lower case. -/
theorem of_mem_collapse {inRun : Bool} {chars : List Char} {c : Char}
    (h : c ∈ collapse inRun chars) : c = '-' ∨ isSeparator c = false ∧ c.toLower = c := by
  induction chars generalizing inRun with
  | nil => cases h
  | cons d rest ih =>
      cases hd : isSeparator d with
      | true =>
          rw [collapse_run hd] at h
          cases inRun with
          | true => exact ih h
          | false =>
              rcases List.mem_cons.1 h with rfl | h
              · exact .inl rfl
              · exact ih h
      | false =>
          rw [collapse_word hd] at h
          rcases List.mem_cons.1 h with rfl | h
          · rw [isSeparator_toLower, toLower_toLower]
            exact .inr ⟨hd, rfl⟩
          · exact ih h

/-- No two hyphens follow each other, nor does one follow the separator that
stands in front. -/
theorem isChain_collapse (inRun : Bool) (chars : List Char) :
    ((if inRun then ['-'] else []) ++ collapse inRun chars).IsChain Apart := by
  induction chars generalizing inRun with
  | nil => cases inRun <;> simp [collapse]
  | cons c rest ih =>
      cases hc : isSeparator c with
      | true =>
          have hafter : ('-' :: collapse true rest).IsChain Apart := ih true
          rw [collapse_run hc]
          cases inRun <;> exact hafter
      | false =>
          have hne : c.toLower ≠ '-' := by
            intro heq
            have hlower := isSeparator_toLower c
            rw [heq, hc] at hlower
            cases hlower
          have hafter : (c.toLower :: collapse false rest).IsChain Apart :=
            (ih false).cons fun _ _ h => hne h.1
          rw [collapse_word hc]
          cases inRun with
          | false => exact hafter
          | true => exact hafter.cons (by rintro _ ⟨⟩ h; exact hne h.2)

/-- A text like that stays as it is. -/
theorem collapse_eq_self {inRun : Bool} {chars : List Char}
    (hplain : ∀ c ∈ chars, c = '-' ∨ isSeparator c = false ∧ c.toLower = c)
    (hchain : ((if inRun then ['-'] else []) ++ chars).IsChain Apart) :
    collapse inRun chars = chars := by
  induction chars generalizing inRun with
  | nil => rfl
  | cons c rest ih =>
      have hrest := fun d hd => hplain d (List.mem_cons_of_mem c hd)
      rcases hplain c List.mem_cons_self with rfl | ⟨hc, hlower⟩
      · cases inRun with
        | true => exact absurd ⟨rfl, rfl⟩ (List.isChain_cons_cons.1 hchain).1
        | false =>
            have hafter : collapse true rest = rest := ih hrest hchain
            rw [collapse_run rfl, hafter]
            rfl
      · have htail : rest.IsChain Apart := by
          cases inRun with
          | true => exact hchain.tail.tail
          | false => exact hchain.tail
        have hafter : collapse false rest = rest := ih hrest htail
        rw [collapse_word hc, hlower, hafter]

theorem normal_normalize (name : String) : Normal (normalize name) := by
  have hlist : (normalize name).toList = collapse false (trim name.toList) :=
    String.toList_ofList
  have hmem : ∀ c ∈ (normalize name).toList, c = '-' ∨ isSeparator c = false ∧ c.toLower = c := by
    rw [hlist]
    exact fun c => of_mem_collapse
  constructor
  · intro h
    rcases hmem _ h with h | ⟨h, -⟩ <;> revert h <;> decide
  · intro h
    rcases hmem _ h with h | ⟨h, -⟩ <;> revert h <;> decide
  · rw [hlist]
    exact isChain_collapse false _
  · intro c hc
    rcases hmem c hc with rfl | ⟨-, h⟩
    · rfl
    · exact toLower_eq_self_iff.1 h
  · rw [hlist]
    exact trimmed_collapse (trimmed_trim _)

/-- The names that stay as they are are the normal ones. -/
theorem normalize_eq_self_iff (name : String) : normalize name = name ↔ Normal name := by
  refine ⟨fun h => h ▸ normal_normalize name, fun h => ?_⟩
  unfold normalize
  rw [trim_eq_self h.trimmed, collapse_eq_self (fun c hc => ?_) h.hyphens, String.ofList_toList]
  by_cases hhyphen : c = '-'
  · exact .inl hhyphen
  · refine .inr ⟨?_, toLower_eq_self_iff.2 (h.upper c hc)⟩
    have hunderscore : c ≠ '_' := fun heq => h.underscore (heq ▸ hc)
    have hpoint : c ≠ '.' := fun heq => h.point (heq ▸ hc)
    unfold isSeparator
    simp only [hhyphen, hunderscore, hpoint, decide_false, Bool.or_self]

/-- Every name has a normal form, which is its own, and the normal names are
those that are their own. Two names have one normal form just if they are the
same without the blanks at their ends, in lower case, and with one `-` for
each longest run of `-`, `_` and `.`. -/
theorem one_normal_form :
    (∀ name, normalize (normalize name) = normalize name ∧ Normal (normalize name))
      ∧ (∀ name, Normal name ↔ normalize name = name)
      ∧ ∀ a b, normalize a = normalize b ↔ respell a = respell b := by
  refine ⟨fun name => ⟨normalize_normalize name, normal_normalize name⟩,
    fun name => (normalize_eq_self_iff name).symm, fun a b => ?_⟩
  rw [normalize_eq_respell, normalize_eq_respell]

/-- Runs at the ends of a name stay, as one `-`. -/
example : normalize "\t_Zope.-_Interface. " = "-zope-interface-" := by decide

end Depot.Project
