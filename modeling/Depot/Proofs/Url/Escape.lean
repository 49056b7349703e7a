/-
Escaped text. What has no character that is escaped is written as it is
(`encode_eq_self`). Text that is decoded to points is made of points and
their escapes (`decode_point`), as no other octet spells a point
(`Bytes.lead_point`).
-/
import Depot.Url.Escape

namespace Depot

-- ===================================================== octets

namespace Bytes

theorem ofNat_eq_point {n : Nat} (h : Char.ofNat n = '.') : n = 0x2e := by
  unfold Char.ofNat at h
  by_cases hvalid : n.isValidChar
  · rw [dif_pos hvalid] at h
    exact congrArg Char.toNat h
  · rw [dif_neg hvalid] at h
    cases h

/-- The octet after the first of three or four is large enough, where the
first says nothing of the number. -/
theorem secondOk_low {b x : UInt8} (h : secondOk b x = true) :
    (b.toNat = 0xE0 → 32 ≤ tailBits x) ∧ (b.toNat = 0xF0 → 16 ≤ tailBits x) := by
  have hbounds : ∀ lo hi : UInt8, (lo ≤ x && x ≤ hi) = true →
      lo.toNat ≤ x.toNat ∧ x.toNat ≤ hi.toNat := by
    intro lo hi hx
    rw [Bool.and_eq_true, decide_eq_true_eq, decide_eq_true_eq] at hx
    exact ⟨UInt8.le_iff_toNat_le.1 hx.1, UInt8.le_iff_toNat_le.1 hx.2⟩
  unfold tailBits
  constructor
  · intro hb
    obtain rfl : b = 0xE0 := UInt8.toNat_inj.1 hb
    have := hbounds 0xA0 0xBF h
    have : (0xA0 : UInt8).toNat = 160 ∧ (0xBF : UInt8).toNat = 191 := ⟨rfl, rfl⟩
    omega
  · intro hb
    obtain rfl : b = 0xF0 := UInt8.toNat_inj.1 hb
    have := hbounds 0x90 0xBF h
    have : (0x90 : UInt8).toNat = 144 ∧ (0xBF : UInt8).toNat = 191 := ⟨rfl, rfl⟩
    omega

/-- A sequence of more than one octet spells a number from 0x80 on. -/
theorem lead_char {b : UInt8} {rest : Bytes} {c : Char} {n : Nat} (h : lead b rest = .char c n) :
    (c = Char.ofNat b.toNat ∧ n = 1) ∨ ∃ v, 0x80 ≤ v ∧ c = Char.ofNat v := by
  have hrange : ∀ lo hi : UInt8, (lo ≤ b && b ≤ hi) = true →
      lo.toNat ≤ b.toNat ∧ b.toNat ≤ hi.toNat := by
    intro lo hi hb
    rw [Bool.and_eq_true, decide_eq_true_eq, decide_eq_true_eq] at hb
    exact ⟨UInt8.le_iff_toNat_le.1 hb.1, UInt8.le_iff_toNat_le.1 hb.2⟩
  unfold lead at h
  split at h
  · cases h
    exact .inl ⟨rfl, rfl⟩
  · right
    split at h
    · next hb =>
      have := hrange _ _ hb
      have : (0xC2 : UInt8).toNat = 194 ∧ (0xDF : UInt8).toNat = 223 := ⟨rfl, rfl⟩
      split at h
      · split at h
        · cases h
          exact ⟨_, by omega, rfl⟩
        · cases h
      · cases h
    · split at h
      · next hb =>
        have := hrange _ _ hb
        have : (0xE0 : UInt8).toNat = 224 ∧ (0xEF : UInt8).toNat = 239 := ⟨rfl, rfl⟩
        split at h
        · split at h
          · cases h
          · next hx =>
            have := (secondOk_low (by simpa using hx)).1
            split at h
            · cases h
              exact ⟨_, by omega, rfl⟩
            · cases h
        · split at h <;> cases h
        · cases h
      · split at h
        · next hb =>
          have := hrange _ _ hb
          have : (0xF0 : UInt8).toNat = 240 ∧ (0xF4 : UInt8).toNat = 244 := ⟨rfl, rfl⟩
          split at h
          · split at h
            · cases h
            · next hx =>
              have := (secondOk_low (by simpa using hx)).2
              split at h
              · cases h
              · split at h
                · cases h
                  exact ⟨_, by omega, rfl⟩
                · cases h
          · split at h
            · cases h
            · split at h <;> cases h
          · split at h <;> cases h
          · cases h
        · cases h

/-- Only one octet spells a point. -/
theorem lead_point {b : UInt8} {rest : Bytes} {n : Nat} (h : lead b rest = .char '.' n) :
    b = 0x2e ∧ n = 1 := by
  rcases lead_char h with ⟨hb, hn⟩ | ⟨v, hv, hc⟩
  · exact ⟨UInt8.toNat_inj.1 (ofNat_eq_point hb.symm), hn⟩
  · have := ofNat_eq_point hc.symm
    omega

/-- What is scanned as points are points. -/
theorem scan_points {n fuel : Nat} {bytes : Bytes} (hfuel : bytes.length ≤ fuel)
    (h : scan fuel bytes = List.replicate n (some '.')) : bytes = List.replicate n 0x2e := by
  induction n generalizing fuel bytes with
  | zero =>
      cases bytes with
      | nil => rfl
      | cons b rest =>
          cases fuel with
          | zero => simp at hfuel
          | succ fuel =>
              unfold scan at h
              split at h <;> cases h
  | succ n ih =>
      rw [List.replicate_succ] at h
      cases fuel with
      | zero => cases h
      | succ fuel => cases bytes with
        | nil => cases h
        | cons b rest =>
            unfold scan at h
            split at h
            · next c length hlead =>
              injection h with hc hrest
              cases hc
              obtain ⟨rfl, rfl⟩ := lead_point hlead
              change scan fuel rest = _ at hrest
              rw [ih (Nat.le_of_succ_le_succ hfuel) hrest, List.replicate_succ]
            · cases h

/-- Text that is decoded to points is made of points. -/
theorem decodeLossy_points {n : Nat} {bytes : Bytes}
    (h : (decodeLossy bytes).toList = List.replicate n '.') : bytes = List.replicate n 0x2e := by
  have hpoint : ∀ c : Option Char, c.getD '\uFFFD' = '.' → c = some '.' := by
    intro c hc
    cases c with
    | none => cases hc
    | some c => exact congrArg some hc
  unfold decodeLossy at h
  rw [String.toList_ofList, List.eq_replicate_iff, List.length_map] at h
  refine scan_points (Nat.le_refl _) (List.eq_replicate_iff.2 ⟨h.1, fun c hc => ?_⟩)
  exact hpoint c (h.2 _ (List.mem_map_of_mem hc))

end Bytes

namespace Url

-- ===================================================== escapes

theorem encode_eq_self {set : Char → Bool} {s : List Char} (h : ∀ c ∈ s, set c = false) :
    encode set s = s := by
  unfold encode
  induction s with
  | nil => rfl
  | cons c s ih =>
      obtain ⟨hc, hs⟩ := List.forall_mem_cons.1 h
      rw [List.flatMap_cons, hc, ih hs]
      rfl

/-- A digit of a value is the one that it is written with, in lower or
upper case. -/
theorem hexValue?_eq_some {c : Char} {v : Nat} (h : Text.hexValue? c = some v) :
    v < 16 ∧ (c = Text.hexDigit v ∨ c = (Text.hexDigit v).toUpper) := by
  have hupper : ∀ v < 16, 10 ≤ v →
      (Text.hexDigit v).toUpper = Char.ofNat ('A'.toNat + (v - 10)) := by
    decide
  have hnat : ∀ lo hi : Char, (lo ≤ c && c ≤ hi) = true →
      lo.toNat ≤ c.toNat ∧ c.toNat ≤ hi.toNat := by
    intro lo hi hc
    rw [Bool.and_eq_true, decide_eq_true_eq, decide_eq_true_eq] at hc
    exact ⟨UInt32.le_iff_toNat_le.1 hc.1, UInt32.le_iff_toNat_le.1 hc.2⟩
  have h0 : '0'.toNat = 48 ∧ '9'.toNat = 57 := ⟨rfl, rfl⟩
  have ha : 'a'.toNat = 97 ∧ 'f'.toNat = 102 := ⟨rfl, rfl⟩
  have hA : 'A'.toNat = 65 ∧ 'F'.toNat = 70 := ⟨rfl, rfl⟩
  rw [← Char.ofNat_toNat c]
  unfold Text.hexValue? at h
  split at h
  · next hdigit =>
    have hc := hnat '0' '9' hdigit
    cases h
    refine ⟨by omega, .inl ?_⟩
    unfold Text.hexDigit
    rw [if_pos (by omega)]
    congr 1
    omega
  · split at h
    · next hletter =>
      have hc := hnat 'a' 'f' hletter
      cases h
      refine ⟨by omega, .inl ?_⟩
      unfold Text.hexDigit
      rw [if_neg (by omega)]
      congr 1
      omega
    · split at h
      · next hletter =>
        have hc := hnat 'A' 'F' hletter
        cases h
        refine ⟨by omega, .inr ?_⟩
        rw [hupper _ (by omega) (by omega)]
        congr 1
        omega
      · cases h

theorem utf8EncodeChar_point {c : Char} {rest rest' : Bytes}
    (h : String.utf8EncodeChar c ++ rest = 0x2e :: rest') : c = '.' ∧ rest = rest' := by
  -- the first octet of a longer sequence is larger
  have hlarge : ∀ v : Nat, 0x80 ≤ v → v < 256 → UInt8.ofNat v ≠ 0x2e := by
    intro v hv hv' heq
    have hnat := congrArg UInt8.toNat heq
    rw [UInt8.toNat_ofNat', show (0x2e : UInt8).toNat = 46 from rfl] at hnat
    omega
  unfold String.utf8EncodeChar at h
  dsimp only at h
  split at h
  · next hv =>
    injection h with hb hrest
    have hnat := congrArg UInt8.toNat hb
    rw [UInt8.toNat_ofNat', show (0x2e : UInt8).toNat = 46 from rfl] at hnat
    refine ⟨Char.ext (UInt32.toNat_inj.1 ?_), hrest⟩
    rw [show '.'.val.toNat = 46 from rfl]
    omega
  · exfalso
    split at h
    · injection h with hb
      exact hlarge _ (by omega) (by omega) hb
    · split at h
      · injection h with hb
        exact hlarge _ (by omega) (by omega) hb
      · injection h with hb
        exact hlarge _ (by omega) (by omega) hb

theorem decode_eq_nil {s : List Char} (h : decode s = []) : s = [] := by
  unfold decode at h
  split at h
  · rfl
  · split at h <;> cases h
  · next c more hno =>
    have hlen := congrArg List.length (List.append_eq_nil_iff.1 h).1
    rw [String.length_utf8EncodeChar] at hlen
    exact absurd hlen (Nat.ne_of_gt c.utf8Size_pos)

/-- A point is written as itself or as its escape. -/
theorem decode_point {s : List Char} {rest : Bytes} (h : decode s = 0x2e :: rest) :
    ∃ point more, s = point ++ more ∧ decode more = rest
      ∧ point ∈ [['.'], ['%', '2', 'e'], ['%', '2', 'E']] := by
  unfold decode at h
  split at h
  · cases h
  · next a b more =>
    split at h
    · next x y hx hy =>
      injection h with hb hrest
      obtain ⟨hx16, ha⟩ := hexValue?_eq_some hx
      obtain ⟨hy16, hb'⟩ := hexValue?_eq_some hy
      have hvalue : x * 16 + y = 0x2e := by
        have hnat := congrArg UInt8.toNat hb
        rw [UInt8.toNat_ofNat'] at hnat
        have : (0x2e : UInt8).toNat = 46 := rfl
        omega
      obtain ⟨rfl, rfl⟩ : x = 2 ∧ y = 14 := by omega
      refine ⟨['%', a, b], more, rfl, hrest, ?_⟩
      rcases ha with rfl | rfl <;> rcases hb' with rfl | rfl <;> decide
    · cases h
  · next c more hno =>
    obtain ⟨rfl, hmore⟩ := utf8EncodeChar_point h
    exact ⟨['.'], more, rfl, hmore, by decide⟩

end Url

end Depot
