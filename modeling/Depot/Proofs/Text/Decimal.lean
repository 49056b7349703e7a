/-
Decimals and the digits they are written with: what is printed of a
number is read as that number, by every reader of digits in the library.
-/
import Depot.Text.Natural

namespace Depot.Text

/-- Digits that follow never make a number smaller. -/
theorem le_ofDigitChars (ds : List Char) (n : Nat) : n ≤ Nat.ofDigitChars 10 ds n := by
  rw [Nat.ofDigitChars_eq_ofDigitChars_zero]
  have hpow : 0 < 10 ^ ds.length := Nat.pow_pos (by decide)
  exact Nat.le_trans (Nat.le_mul_of_pos_left n hpow) (Nat.le_add_right ..)

/-- A decimal has no leading zero, unless it is zero. -/
theorem head_toDigits {n : Nat} (hn : 0 < n) : (Nat.toDigits 10 n).head? ≠ some '0' := by
  induction n using Nat.strongRecOn with
  | _ n ih =>
      by_cases hlt : n < 10
      · rw [Nat.toDigits_of_lt_base hlt]
        intro h
        have h' : n.digitChar = '0' := by simpa using h
        rw [Nat.digitChar_eq_zero] at h'
        omega
      · obtain ⟨d, ds, heq⟩ :=
          List.exists_cons_of_ne_nil (Nat.toDigits_ne_nil (n := n / 10) (b := 10))
        have hrec := ih (n / 10) (by omega) (by omega)
        rw [Nat.toDigits_of_base_le (by decide) (by omega), heq]
        rwa [heq] at hrec

/-- Digits that fit are read to the end. -/
theorem digits_of_le :
    ∀ (ds : List Char) (n : Nat), (∀ c ∈ ds, c.isDigit = true) →
      Nat.ofDigitChars 10 ds n ≤ maxNatural → digits n ds = .ok (Nat.ofDigitChars 10 ds n) := by
  intro ds
  induction ds with
  | nil => intro n _ _; rw [Nat.ofDigitChars_nil]; rfl
  | cons d ds ih =>
      intro n hds h
      have hd : d.isDigit = true := hds d (List.mem_cons_self ..)
      rw [Nat.ofDigitChars_cons, Nat.mul_comm] at h
      have hnext := le_ofDigitChars ds (n * 10 + (d.toNat - '0'.toNat))
      unfold digits digitValue?
      rw [if_pos hd]
      dsimp only
      rw [if_neg (by omega), ih _ (fun c hc => hds c (List.mem_cons_of_mem _ hc)) h,
        Nat.ofDigitChars_cons, Nat.mul_comm 10 n]

/-- A number that fits is read from its decimal. -/
theorem natural?_toString {n : Nat} (h : n ≤ maxNatural) :
    natural? (toString n).toList = some n := by
  rw [show (toString n).toList = Nat.toDigits 10 n from Nat.toList_repr]
  have hdigits : ∀ c ∈ Nat.toDigits 10 n, c.isDigit = true :=
    fun c hc => Nat.isDigit_of_mem_toDigits (by decide) (by decide) hc
  have hread : digits 0 (Nat.toDigits 10 n) = .ok n := by
    rw [digits_of_le _ _ hdigits (by rwa [Nat.ofDigitChars_ten_toDigits]),
      Nat.ofDigitChars_ten_toDigits]
  obtain ⟨d, ds, heq⟩ := List.exists_cons_of_ne_nil (Nat.toDigits_ne_nil (n := n) (b := 10))
  have hd : d ≠ '+' := by
    intro heq
    subst heq
    exact absurd (hdigits '+' (heq ▸ List.mem_cons_self ..)) (by decide)
  rw [heq] at hread ⊢
  have hnatural : natural (d :: ds) = digits 0 (d :: ds) := by
    unfold natural
    split
    · next h => cases h
    · next h => exact absurd (List.cons.inj h).1 hd
    · next h => exact absurd (List.cons.inj h).1 hd
    · rfl
  unfold natural?
  rw [hnatural, hread]

end Depot.Text
