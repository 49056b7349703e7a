/-
Names under normalization. A normalized name is its own normal form
(`normalize_normalize`): it is collapsed already, and neither of its ends is
blank.
-/
import Mathlib.Data.List.DropRight
import Depot.Project.Name
import Depot.Proofs.Text.Ascii

namespace Depot

namespace Text

/-- The ends of a text are no blanks. -/
structure Trimmed (s : List Char) : Prop where
  first : ∀ c ∈ s.head?, isBlank c = false
  last : ∀ c ∈ s.getLast?, isBlank c = false

theorem trim_eq_self {s : List Char} (h : Trimmed s) : trim s = s := by
  have hfirst : s.dropWhile isBlank = s := by
    cases s with
    | nil => rfl
    | cons c s => exact List.dropWhile_cons_of_neg (by simp [h.first c rfl])
  unfold trim
  rw [hfirst]
  refine List.rdropWhile_eq_self_iff.2 fun hne => ?_
  simp [h.last _ (List.getLast?_eq_some_getLast hne)]

theorem trimmed_trim (s : List Char) : Trimmed (trim s) := by
  constructor
  · intro c hc
    obtain ⟨rest, happend⟩ := List.rdropWhile_prefix isBlank (l := s.dropWhile isBlank)
    have hhead : (s.dropWhile isBlank).head? = some c := by
      rw [← happend, List.head?_append, show (List.rdropWhile _ _).head? = some c from hc]
      rfl
    have hnot := List.head?_dropWhile_not isBlank s
    rw [hhead] at hnot
    exact hnot
  · intro c hc
    obtain ⟨hne, rfl⟩ := List.mem_getLast?_eq_getLast hc
    exact Bool.eq_false_iff.2 (List.rdropWhile_last_not isBlank _ hne)

end Text

namespace Project

open Text

theorem isSeparator_toLower (c : Char) : isSeparator c.toLower = isSeparator c := by
  rcases toLower_cases c with hsame | ⟨hlow, hhigh, hlower⟩
  · rw [hsame]
  · have hne : ∀ sep : Char, sep.toNat < 65 ∨ 90 < sep.toNat ∧ sep.toNat < 97 →
        c ≠ sep ∧ c.toLower ≠ sep := by
      rintro sep hsep
      constructor
      all_goals
        rintro rfl
        omega
    unfold isSeparator
    simp only [hne '-' (by decide), hne '_' (by decide), hne '.' (by decide)]

/-- What is collapsed stays as it is. -/
theorem collapse_collapse (inRun : Bool) (chars : List Char) :
    collapse inRun (collapse inRun chars) = collapse inRun chars := by
  induction chars generalizing inRun with
  | nil => rfl
  | cons c rest ih =>
      cases hc : isSeparator c with
      | false =>
          have hlower : isSeparator c.toLower = false := (isSeparator_toLower c).trans hc
          simp only [collapse, hc, hlower, Bool.false_eq_true, if_false, toLower_toLower, ih]
      | true =>
          cases inRun with
          | true =>
              simp only [collapse, hc, if_true]
              exact ih true
          | false =>
              have hdash : isSeparator '-' = true := rfl
              simp only [collapse, hc, hdash, if_true, Bool.false_eq_true, if_false, ih]

/-- What is collapsed ends in a blank only if the text does. -/
theorem getLast?_collapse (inRun : Bool) {chars : List Char}
    (h : ∀ c ∈ chars.getLast?, isBlank c = false) :
    ∀ c ∈ (collapse inRun chars).getLast?, isBlank c = false := by
  induction chars generalizing inRun with
  | nil => exact nofun
  | cons c rest ih =>
      have hrest : ∀ inRun, ∀ d ∈ (collapse inRun rest).getLast?, isBlank d = false :=
        fun inRun => ih inRun fun d hd => h d (List.mem_getLast?_cons hd)
      unfold collapse
      cases hc : isSeparator c with
      | true =>
          cases inRun with
          | true => exact hrest true
          | false =>
              show ∀ d ∈ ('-' :: collapse true rest).getLast?, isBlank d = false
              rw [List.getLast?_cons]
              rintro d ⟨⟩
              cases hlast : (collapse true rest).getLast? with
              | none => rfl
              | some d => exact hrest true d hlast
      | false =>
          show ∀ d ∈ (c.toLower :: collapse false rest).getLast?, isBlank d = false
          rw [List.getLast?_cons]
          rintro d ⟨⟩
          cases hlast : (collapse false rest).getLast? with
          | some d => exact hrest false d hlast
          | none =>
              have hend : rest = [] := by
                cases rest with
                | nil => rfl
                | cons d tail =>
                    unfold collapse at hlast
                    split at hlast <;> simp at hlast
              rw [Option.getD_none, isBlank_toLower]
              exact h c (by rw [hend]; rfl)

theorem trimmed_collapse {chars : List Char} (h : Trimmed chars) :
    Trimmed (collapse false chars) := by
  refine ⟨?_, getLast?_collapse false h.last⟩
  cases chars with
  | nil => exact nofun
  | cons c rest =>
      unfold collapse
      cases hc : isSeparator c with
      | true =>
          rintro _ ⟨⟩
          rfl
      | false =>
          rintro _ ⟨⟩
          rw [isBlank_toLower]
          exact h.first c rfl

/-- A normalized name is its own normal form. -/
theorem normalize_normalize (name : String) : normalize (normalize name) = normalize name := by
  unfold normalize
  rw [String.toList_ofList, trim_eq_self (trimmed_collapse (trimmed_trim _)), collapse_collapse]

end Project

end Depot
