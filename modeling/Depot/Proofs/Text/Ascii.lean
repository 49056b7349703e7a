/-
Text in lower case. A character is in lower case already or one of the
letters `A` to `Z` (`toLower_cases`), and whatever is said of characters that
are no letters survives the change of case.
-/
import Depot.Text.Ascii
import Depot.Text.Blank

namespace Depot.Text

/-- What a change of case does. -/
theorem toLower_cases (c : Char) :
    c.toLower = c ∨ 65 ≤ c.toNat ∧ c.toNat ≤ 90 ∧ c.toLower.toNat = c.toNat + 32 := by
  by_cases hupper : 'A'.val ≤ c.val ∧ c.val ≤ 'Z'.val
  · have hval : c.toLower.val = c.val + ('a'.val - 'A'.val) :=
      congrArg Char.val (show c.toLower = _ from dif_pos hupper)
    have hlow : 65 ≤ c.val.toNat := UInt32.le_iff_toNat_le.1 hupper.1
    have hhigh : c.val.toNat ≤ 90 := UInt32.le_iff_toNat_le.1 hupper.2
    refine .inr ⟨hlow, hhigh, ?_⟩
    show c.toLower.val.toNat = c.val.toNat + 32
    rw [hval, UInt32.toNat_add]
    exact Nat.mod_eq_of_lt (by show c.val.toNat + 32 < 2 ^ 32; omega)
  · exact .inl (dif_neg hupper)

/-- The characters that change are the letters in upper case. -/
theorem toLower_eq_self_iff {c : Char} : c.toLower = c ↔ c.isUpper = false := by
  refine Iff.trans ⟨fun hsame hupper => ?_, fun hnot => dif_neg hnot⟩ decide_eq_false_iff_not.symm
  have hval : c.toLower.val = c.val + ('a'.val - 'A'.val) :=
    congrArg Char.val (show c.toLower = _ from dif_pos hupper)
  rw [hsame] at hval
  exact absurd (UInt32.left_eq_add.1 hval) (by decide)

theorem toLower_toLower (c : Char) : c.toLower.toLower = c.toLower := by
  rcases toLower_cases c with hsame | ⟨hlow, hhigh, hlower⟩
  · rw [hsame, hsame]
  · rcases toLower_cases c.toLower with hsame | ⟨-, hle, -⟩
    · exact hsame
    · omega

theorem lower_lower (s : String) : lower (lower s) = lower s := by
  unfold lower
  rw [String.toList_ofList, List.map_map]
  exact congrArg String.ofList (List.map_congr_left fun c _ => toLower_toLower c)

theorem toList_lower (s : String) : (lower s).toList = s.toList.map Char.toLower := by
  unfold lower
  rw [String.toList_ofList]

theorem lower_append (a b : String) : lower (a ++ b) = lower a ++ lower b := by
  rw [← String.toList_inj, String.toList_append]
  simp only [toList_lower, String.toList_append, List.map_append]

/-- Hexadecimal digits, by their numbers. -/
theorem isHexDigit_iff {c : Char} : isHexDigit c = true ↔
    (48 ≤ c.toNat ∧ c.toNat ≤ 57) ∨ (97 ≤ c.toNat ∧ c.toNat ≤ 102)
      ∨ (65 ≤ c.toNat ∧ c.toNat ≤ 70) := by
  have hle : ∀ a b : Char, a ≤ b ↔ a.toNat ≤ b.toNat := fun _ _ => UInt32.le_iff_toNat_le
  have hdigit : c.isDigit = true ↔ 48 ≤ c.toNat ∧ c.toNat ≤ 57 := by
    unfold Char.isDigit
    rw [Bool.and_eq_true, decide_eq_true_eq, decide_eq_true_eq]
    exact and_congr UInt32.le_iff_toNat_le UInt32.le_iff_toNat_le
  unfold isHexDigit
  simp only [Bool.or_eq_true, Bool.and_eq_true, decide_eq_true_eq, hdigit, hle, or_assoc]
  rfl

/-- They are such digits in either case. -/
theorem isHexDigit_toLower (c : Char) : isHexDigit c.toLower = isHexDigit c := by
  rcases toLower_cases c with hsame | ⟨hlow, hhigh, hlower⟩
  · rw [hsame]
  · rw [Bool.eq_iff_iff, isHexDigit_iff, isHexDigit_iff]
    omega

/-- No letter is blank. -/
theorem isBlank_toLower (c : Char) : isBlank c.toLower = isBlank c := by
  rcases toLower_cases c with hsame | ⟨hlow, hhigh, hlower⟩
  · rw [hsame]
  · unfold isBlank
    rw [hlower]
    grind

end Depot.Text
