/-
The order of byte strings. UTF-8 keeps the order of texts: the characters
decide in the order of their numbers, and so do the octets of their UTF-8
forms (`ofText_lt`).
-/
import Depot.Bytes

namespace Depot.Bytes

/-- Octets decide by their numbers, the first that differ. -/
theorem ofNat_cons_lt {x y : Nat} (hx : x < 256) (hy : y < 256) {s t : Bytes} :
    UInt8.ofNat x :: s < UInt8.ofNat y :: t ↔ x < y ∨ x = y ∧ s < t := by
  rw [List.cons_lt_cons_iff, UInt8.ofNat_lt_iff_lt hx hy, ← UInt8.toNat_inj,
    UInt8.toNat_ofNat_of_lt' hx, UInt8.toNat_ofNat_of_lt' hy]

/-- No character's octets are the beginning of another's, so what comes
behind them does not matter. -/
theorem utf8EncodeChar_append_lt {c d : Char} (h : c < d) (s t : Bytes) :
    String.utf8EncodeChar c ++ s < String.utf8EncodeChar d ++ t := by
  have hlt : c.val.toNat < d.val.toNat := h
  have hvalid : d.val.toNat < 0x110000 := by
    have hd := d.valid
    unfold UInt32.isValidChar Nat.isValidChar at hd
    omega
  unfold String.utf8EncodeChar
  dsimp only
  generalize c.val.toNat = v, d.val.toNat = w at hlt hvalid
  -- where the upper bits do not decide, the lowest six do
  have hsix : ∀ m n : Nat, m < n → m / 64 < n / 64 ∨ m / 64 = n / 64 ∧ m % 64 < n % 64 := by omega
  have hlow := hsix v w hlt
  have hmiddle := hsix (v / 64) (w / 64)
  have hhigh := hsix (v / 4096) (w / 4096)
  rw [Nat.div_div_eq_div_mul, Nat.div_div_eq_div_mul] at hmiddle hhigh
  have hv : v / 262144 % 8 = v / 262144 := by omega
  have hw : w / 262144 % 8 = w / 262144 := by omega
  -- by how many octets each of them has
  repeat' split
  all_goals
    simp only [List.cons_append, List.nil_append]
    repeat rw [ofNat_cons_lt (by omega) (by omega)]
    omega

/-- A text before another has a UTF-8 form before the other's. -/
theorem ofText_lt {a b : String} (h : a < b) : ofText a < ofText b := by
  rw [String.lt_iff] at h
  unfold ofText
  generalize a.toList = s, b.toList = t at h
  induction h with
  | nil =>
      rw [List.flatMap_nil, List.flatMap_cons]
      cases hoctets : String.utf8EncodeChar _ with
      | nil => exact absurd hoctets String.utf8EncodeChar_ne_nil
      | cons => exact List.Lex.nil
  | rel hlt =>
      rw [List.flatMap_cons, List.flatMap_cons]
      exact utf8EncodeChar_append_lt hlt _ _
  | cons _ ih =>
      rw [List.flatMap_cons, List.flatMap_cons]
      exact List.append_left_lt ih

end Depot.Bytes
