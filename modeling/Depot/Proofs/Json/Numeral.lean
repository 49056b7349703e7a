/-
Numbers as the reader takes them out of a longer text. A number that was
printed is taken whole and alone, whatever follows it inside a value
(`number_numberText`), and an integer that is read from the digits of a
number is that number.
-/
import Depot.Json.Printer
import Depot.Json.Reader
import Depot.Proofs.Text.Decimal
import Mathlib.Data.List.TakeDrop

namespace Depot.Json

/-- What may follow a value inside a text. -/
def Ends (rest : List Char) : Prop :=
  ∀ c, rest.head? = some c → c = ',' ∨ c = ']' ∨ c = '}'

theorem ends_nil : Ends [] := by
  intro c h
  cases h

/-- A reader that takes all of `s` and nothing of what follows. -/
def Takes {α : Type} (reader : Reader α) (s : List Char) (out : Except Fault α) : Prop :=
  ∀ rest, Ends rest → reader (s ++ rest) = out.map (·, rest)

/-- A reader that takes `s` whole, whatever follows. -/
def Local {α : Type} (reader : Reader α) (s : List Char) : Prop := ∃ out, Takes reader s out

/-- All of them decimal digits, and at least one. -/
def IsDigits (ds : List Char) : Prop := ds ≠ [] ∧ ∀ c ∈ ds, c.isDigit = true

namespace Reader

@[simp] theorem bind_apply {α β : Type} (x : Reader α) (f : α → Reader β) (s : List Char) :
    (x >>= f) s = match x s with
      | .ok (a, s') => f a s'
      | .error e => .error e := by
  show Except.bind (x s) _ = _
  cases x s <;> rfl

@[simp] theorem pure_apply {α : Type} (a : α) (s : List Char) :
    (pure a : Reader α) s = .ok (a, s) := rfl

@[simp] theorem fail_apply {α : Type} (f : Fault) (s : List Char) :
    (fail f : Reader α) s = .error f := rfl

@[simp] theorem front_apply (s : List Char) : front s = .ok (s.head?, s) := rfl

@[simp] theorem take_apply (s : List Char) : take s = .ok ((), s.tail) := rfl

@[simp] theorem set_apply (s t : List Char) : (set t : Reader PUnit) s = .ok ((), t) := rfl

@[simp] theorem get_apply (s : List Char) : (get : Reader (List Char)) s = .ok (s, s) := rfl

theorem spanDigits_append {ds rest : List Char} (h : ∀ c ∈ ds, c.isDigit = true)
    (hrest : ∀ c, rest.head? = some c → c.isDigit = false) :
    spanDigits (ds ++ rest) = (ds, rest) := by
  unfold spanDigits
  rw [List.span_eq_takeWhile_dropWhile, List.takeWhile_append_of_pos h,
    List.dropWhile_append_of_pos h]
  cases rest with
  | nil => simp
  | cons c rest => simp [hrest c rfl]

/-- What follows a value is no part of a number. -/
theorem ends_head {rest : List Char} (h : Ends rest) (c : Char) (hc : rest.head? = some c) :
    c.isDigit = false ∧ c ≠ '.' ∧ c ≠ 'e' ∧ c ≠ 'E' := by
  rcases h c hc with rfl | rfl | rfl <;> decide

/-- A reader that goes on as another once it has taken `s`. -/
theorem local_of_eq {α : Type} {reader : Reader α} (next : Reader α) {s : List Char} (t : List Char)
    (h : ∀ rest, Ends rest → reader (s ++ rest) = next (t ++ rest)) (hn : Local next t) :
    Local reader s := by
  obtain ⟨out, hout⟩ := hn
  exact ⟨out, fun rest hrest => (h rest hrest).trans (hout rest hrest)⟩

theorem local_pure {α : Type} (a : α) : Local (pure a : Reader α) [] :=
  ⟨.ok a, fun _ _ => rfl⟩

theorem local_fail {α : Type} (f : Fault) (s : List Char) : Local (fail f : Reader α) s :=
  ⟨.error f, fun _ _ => rfl⟩

variable {negative : Bool}

/-- Scaling takes nothing. -/
theorem scaledNumber_local (n : Nat) (e : Int) : Local (scaledNumber negative n e) [] := by
  unfold scaledNumber
  split
  · exact local_pure _
  · exact local_fail _ _

/-- An integer takes nothing after its digits. -/
theorem integer_local (n : Nat) : Local (integer negative n) [] := by
  unfold integer
  split
  · exact local_pure _
  · split
    · exact local_pure _
    · exact scaledNumber_local n 0

/-- An exponent, from its letter on. -/
def IsPower (s : List Char) : Prop :=
  ∃ sign ds, (sign = '+' ∨ sign = '-') ∧ IsDigits ds ∧ s = 'e' :: sign :: ds

/-- What is read once the digits of an exponent are taken. -/
def afterPower (negative : Bool) (n : Nat) (e : Int) (ds : List Char) (down : Bool) :
    Reader Number :=
  match gather maxExponent 0 0 ds with
  | (k, _, []) => scaledNumber negative n (if down then e - k else e + k)
  | _ => if n ≠ 0 ∧ (!down) = true then fail .malformed else pure (.float (.zero negative))

theorem afterPower_local (n : Nat) (e : Int) (ds : List Char) (down : Bool) :
    Local (afterPower negative n e ds down) [] := by
  unfold afterPower
  split
  · exact scaledNumber_local _ _
  · split
    · exact local_fail _ _
    · exact local_pure _

/-- An exponent is taken whole. -/
theorem exponent_local (n : Nat) (e : Int) {s : List Char} (h : IsPower s) :
    Local (exponent negative n e) s := by
  obtain ⟨sign, ds, hsign, hds, rfl⟩ := h
  obtain ⟨d, ds', rfl⟩ := List.exists_cons_of_ne_nil hds.1
  have hd : d.isDigit = true := hds.2 d (List.mem_cons_self ..)
  have hspan : ∀ rest, Ends rest → spanDigits (d :: (ds' ++ rest)) = (d :: ds', rest) :=
    fun rest hrest => spanDigits_append hds.2 fun c hc => (ends_head hrest c hc).1
  refine local_of_eq (afterPower negative n e (d :: ds') (sign = '-')) [] ?_
    (afterPower_local n e _ _)
  intro rest hrest
  unfold exponent
  rcases hsign with rfl | rfl
  all_goals
    simp only [bind_apply, take_apply, front_apply, List.cons_append, List.tail_cons,
      List.head?_cons, pure_apply, hd, if_true, get_apply, set_apply, hspan rest hrest]
    rfl

/-- After the digits there is an exponent or nothing. -/
theorem exponentOrEnd_local (n : Nat) (e : Int) {s : List Char} (h : s = [] ∨ IsPower s) :
    Local (exponentOrEnd negative n e) s := by
  rcases h with rfl | h
  · refine local_of_eq (scaledNumber negative n e) [] ?_ (scaledNumber_local n e)
    intro rest hrest
    unfold exponentOrEnd
    rw [bind_apply, front_apply]
    cases rest with
    | nil => rfl
    | cons c rest =>
        obtain rfl | rfl | rfl := hrest c rfl <;> rfl
  · refine local_of_eq (exponent negative n e) s ?_ (exponent_local n e h)
    intro rest _
    obtain ⟨sign, ds, -, -, rfl⟩ := h
    rfl

/-- A fraction, from its point on, and an exponent after it if there is
one. -/
def IsFraction (s : List Char) : Prop :=
  ∃ ds power, IsDigits ds ∧ (power = [] ∨ IsPower power) ∧ s = '.' :: (ds ++ power)

/-- No digit comes directly after digits. -/
theorem power_head {power rest : List Char} (h : power = [] ∨ IsPower power) (hrest : Ends rest)
    (c : Char) (hc : (power ++ rest).head? = some c) : c.isDigit = false := by
  rcases h with rfl | ⟨sign, ds, -, -, rfl⟩
  · exact (ends_head hrest c hc).1
  · obtain rfl : 'e' = c := by simpa using hc
    rfl

/-- A fraction is taken whole. -/
theorem fraction_local (n : Nat) (e : Int) {s : List Char} (h : IsFraction s) :
    Local (fraction negative n e) s := by
  obtain ⟨ds, power, hds, hpower, rfl⟩ := h
  obtain ⟨d, ds', rfl⟩ := List.exists_cons_of_ne_nil hds.1
  have hd : d.isDigit = true := hds.2 d (List.mem_cons_self ..)
  have hspan : ∀ rest, Ends rest →
      spanDigits (d :: (ds' ++ power ++ rest)) = (d :: ds', power ++ rest) := by
    intro rest hrest
    rw [List.append_assoc]
    exact spanDigits_append hds.2 (power_head hpower hrest)
  let scaled := gather maxGathered n 0 (d :: ds')
  refine local_of_eq (exponentOrEnd negative scaled.1 (e - scaled.2.1)) power ?_
    (exponentOrEnd_local _ _ hpower)
  intro rest hrest
  unfold fraction
  simp only [bind_apply, take_apply, front_apply, List.cons_append, List.tail_cons,
    List.head?_cons, hd, if_true, get_apply, set_apply, hspan rest hrest]
  rfl

/-- What may follow the digits of a number. -/
def IsTail (s : List Char) : Prop := s = [] ∨ IsPower s ∨ IsFraction s

theorem tail_head {tail rest : List Char} (h : IsTail tail) (hrest : Ends rest)
    (c : Char) (hc : (tail ++ rest).head? = some c) : c.isDigit = false := by
  rcases h with h | h | ⟨ds, power, -, -, rfl⟩
  · exact power_head (.inl h) hrest c hc
  · exact power_head (.inr h) hrest c hc
  · obtain rfl : '.' = c := by simpa using hc
    rfl

/-- What a number goes on with after its digits. -/
def afterDigits (negative : Bool) (d : Char) (ds : List Char) : Reader Number := do
  if d = '0' ∧ 1 < (d :: ds).length then fail .malformed
  else
    match gather maxGathered 0 0 (d :: ds) with
    | (n, _, []) =>
        match ← front with
        | some '.' => fraction negative n 0
        | some 'e' | some 'E' => exponent negative n 0
        | _ => integer negative n
    | (n, _, dropped) =>
        match ← front with
        | some '.' => fraction negative n dropped.length
        | _ => exponentOrEnd negative n dropped.length

theorem unsigned_append (negative : Bool) {d : Char} {ds s : List Char} (hds : IsDigits (d :: ds))
    (hs : ∀ c, s.head? = some c → c.isDigit = false) :
    unsigned negative (d :: (ds ++ s)) = afterDigits negative d ds s := by
  have hd : d.isDigit = true := hds.2 d (List.mem_cons_self ..)
  have hspan : spanDigits (d :: (ds ++ s)) = (d :: ds, s) := spanDigits_append hds.2 hs
  unfold unsigned afterDigits
  rw [bind_apply, front_apply, List.head?_cons]
  dsimp only
  rw [if_pos hd, bind_apply, get_apply]
  dsimp only
  rw [hspan]
  dsimp only
  by_cases hzero : d = '0' ∧ 1 < (d :: ds).length
  · rw [if_pos hzero, if_pos hzero]
    rfl
  · rw [if_neg hzero, if_neg hzero, bind_apply, set_apply]
    dsimp only
    obtain ⟨n, _, dropped⟩ := gather maxGathered 0 0 (d :: ds)
    cases dropped <;> rfl

/-- What follows the digits is taken whole. -/
theorem afterDigits_local (d : Char) (ds : List Char) {tail : List Char} (h : IsTail tail) :
    Local (afterDigits negative d ds) tail := by
  unfold afterDigits
  split
  · exact local_fail _ _
  split
  · next n _ _ =>
    rcases h with rfl | h | h
    · refine local_of_eq (integer negative n) [] ?_ (integer_local n)
      intro rest hrest
      rw [bind_apply, front_apply]
      cases rest with
      | nil => rfl
      | cons c rest => obtain rfl | rfl | rfl := hrest c rfl <;> rfl
    · refine local_of_eq (exponent negative n 0) tail ?_ (exponent_local n 0 h)
      intro rest _
      obtain ⟨sign, xs, -, -, rfl⟩ := h
      rfl
    · refine local_of_eq (fraction negative n 0) tail ?_ (fraction_local n 0 h)
      intro rest _
      obtain ⟨xs, power, -, -, rfl⟩ := h
      rfl
  · next n _ dropped _ _ =>
    rcases h with h | h | h
    · refine local_of_eq (exponentOrEnd negative n dropped.length) tail ?_
        (exponentOrEnd_local n _ (.inl h))
      subst h
      intro rest hrest
      rw [bind_apply, front_apply]
      cases rest with
      | nil => rfl
      | cons c rest => obtain rfl | rfl | rfl := hrest c rfl <;> rfl
    · refine local_of_eq (exponentOrEnd negative n dropped.length) tail ?_
        (exponentOrEnd_local n _ (.inr h))
      intro rest _
      obtain ⟨sign, xs, -, -, rfl⟩ := h
      rfl
    · refine local_of_eq (fraction negative n dropped.length) tail ?_
        (fraction_local n _ h)
      intro rest _
      obtain ⟨xs, power, -, -, rfl⟩ := h
      rfl

/-- The text of a number: perhaps a minus sign, digits, and what may
follow them. -/
def IsNumeral (s : List Char) : Prop :=
  ∃ ds tail, IsDigits ds ∧ IsTail tail ∧ (s = ds ++ tail ∨ s = '-' :: (ds ++ tail))

theorem number_unsigned {s : List Char} (h : s.head? ≠ some '-') : number s = unsigned false s := by
  unfold number
  rw [bind_apply, front_apply]
  refine congrFun (g := unsigned false) ?_ s
  split
  · next hc => exact absurd hc h
  · rfl

/-- A number is taken whole. -/
theorem number_local {s : List Char} (h : IsNumeral s) : Local number s := by
  obtain ⟨ds, tail, hds, htail, h⟩ := h
  obtain ⟨d, ds, rfl⟩ := List.exists_cons_of_ne_nil hds.1
  have hd : d ≠ '-' := by
    intro heq
    subst heq
    exact absurd (hds.2 '-' (List.mem_cons_self ..)) (by decide)
  have next : ∀ negative rest, Ends rest → unsigned negative (d :: (ds ++ tail) ++ rest)
      = afterDigits negative d ds (tail ++ rest) := by
    intro negative rest hrest
    rw [List.cons_append, List.append_assoc]
    exact unsigned_append negative hds (tail_head htail hrest)
  rcases h with rfl | rfl
  · refine local_of_eq (afterDigits false d ds) tail ?_ (afterDigits_local d ds htail)
    intro rest hrest
    rw [← next false rest hrest]
    exact number_unsigned (by simpa using hd)
  · refine local_of_eq (afterDigits true d ds) tail ?_ (afterDigits_local d ds htail)
    intro rest hrest
    rw [← next true rest hrest]
    rfl

-- ===================================================== printed numbers

/-- The digits of a natural number. -/
theorem isDigits_toDigits (n : Nat) : IsDigits (Nat.toDigits 10 n) :=
  ⟨Nat.toDigits_ne_nil, fun _ hc => Nat.isDigit_of_mem_toDigits (by decide) (by decide) hc⟩

theorem isNumeral_nat (n : Nat) : IsNumeral (toString n).toList := by
  refine ⟨Nat.toDigits 10 n, [], isDigits_toDigits n, .inl rfl, .inl ?_⟩
  rw [List.append_nil]
  exact Nat.toList_repr

theorem toString_negSucc (n : Nat) :
    (toString (Int.negSucc n)).toList = '-' :: Nat.toDigits 10 (n + 1) := by
  show ("-" ++ (n + 1).repr).toList = _
  rw [String.toList_append, Nat.toList_repr]
  rfl

theorem isNumeral_int (n : Int) : IsNumeral (toString n).toList := by
  cases n with
  | ofNat n => exact isNumeral_nat n
  | negSucc n =>
      refine ⟨Nat.toDigits 10 (n + 1), [], isDigits_toDigits _, .inl rfl, .inr ?_⟩
      rw [List.append_nil]
      exact toString_negSucc n

/-- A power is written with its sign. -/
theorem isPower_powerText (n : Int) : IsPower ('e' :: powerText n) := by
  refine ⟨if n < 0 then '-' else '+', Nat.toDigits 10 n.natAbs, ?_, isDigits_toDigits _, ?_⟩
  · split <;> simp
  · unfold powerText
    rw [show (toString n.natAbs).toList = Nat.toDigits 10 n.natAbs from Nat.toList_repr]

theorem isDigits_append_zeros {ds : List Char} (h : IsDigits ds) (n : Nat) :
    IsDigits (ds ++ List.replicate n '0') := by
  refine ⟨by simp [h.1], fun c hc => ?_⟩
  rcases List.mem_append.1 hc with hc | hc
  · exact h.2 c hc
  · rw [List.eq_of_mem_replicate hc]
    rfl

/-- A decimal is a number without a sign, wherever its point stands. -/
theorem exists_decimalText (s : Decimal.Scaled) :
    ∃ ds tail, IsDigits ds ∧ IsTail tail ∧ decimalText s = ds ++ tail := by
  have hds : IsDigits (Decimal.digitsOf s.digits) := isDigits_toDigits s.digits
  unfold decimalText
  generalize Decimal.digitsOf s.digits = ds at hds
  dsimp only
  split
  · refine ⟨_, ['.', '0'], isDigits_append_zeros hds _,
      .inr (.inr ⟨['0'], [], ?_, .inl rfl, rfl⟩), rfl⟩
    exact ⟨by simp, by simp⟩
  split
  · next h =>
    have hlen : 0 < (ds.length + s.exponent).toNat
        ∧ (ds.length + s.exponent).toNat < ds.length := by
      omega
    refine ⟨ds.take (ds.length + s.exponent).toNat, '.' :: ds.drop (ds.length + s.exponent).toNat,
      ⟨?_, fun c hc => hds.2 c (List.mem_of_mem_take hc)⟩,
      .inr (.inr ⟨ds.drop (ds.length + s.exponent).toNat, [],
        ⟨?_, fun c hc => hds.2 c (List.mem_of_mem_drop hc)⟩, .inl rfl, by simp⟩), rfl⟩
    · simp [hds.1]
      omega
    · simp
      omega
  split
  · let fs := List.replicate (-(ds.length + s.exponent)).toNat '0' ++ ds
    refine ⟨['0'], '.' :: fs, ⟨by simp, by simp⟩,
      .inr (.inr ⟨fs, [], ⟨by simp [fs, hds.1], fun c hc => ?_⟩, .inl rfl, by simp⟩), by simp [fs]⟩
    rcases List.mem_append.1 hc with hc | hc
    · rw [List.eq_of_mem_replicate hc]
      rfl
    · exact hds.2 c hc
  · cases ds with
    | nil => exact absurd rfl hds.1
    | cons d ds =>
        have hd : IsDigits [d] := ⟨by simp, by simpa using hds.2 d (List.mem_cons_self ..)⟩
        cases ds with
        | nil =>
            exact ⟨[d], _, hd, .inr (.inl (isPower_powerText _)), rfl⟩
        | cons d' ds =>
            refine ⟨[d], _, hd, .inr (.inr ⟨d' :: ds, _, ⟨by simp, fun c hc => ?_⟩,
              .inr (isPower_powerText _), rfl⟩), rfl⟩
            exact hds.2 c (List.mem_cons_of_mem _ hc)

/-- A double is printed as a number. -/
theorem isNumeral_double (x : Decimal.Double) : IsNumeral (doubleText x) := by
  have hsize : ∃ ds tail, IsDigits ds ∧ IsTail tail ∧
      (if x.isZero then ['0', '.', '0'] else decimalText (Decimal.shortest x)) = ds ++ tail := by
    split
    · exact ⟨['0'], ['.', '0'], ⟨by simp, by simp⟩,
        .inr (.inr ⟨['0'], [], ⟨by simp, by simp⟩, .inl rfl, rfl⟩), rfl⟩
    · exact exists_decimalText _
  obtain ⟨ds, tail, hds, htail, heq⟩ := hsize
  refine ⟨ds, tail, hds, htail, ?_⟩
  unfold doubleText
  dsimp only
  rw [heq]
  split
  · exact .inr rfl
  · exact .inl rfl

/-- Every number is printed as a number. -/
theorem isNumeral_numberText (n : Number) : IsNumeral (numberText n) := by
  cases n with
  | int n => exact isNumeral_int n
  | float x => exact isNumeral_double x

-- ===================================================== integers

/-- Digits that are together within the limit are gathered to the end. -/
theorem gather_of_le {limit : Nat} :
    ∀ (ds : List Char) (n taken : Nat), Nat.ofDigitChars 10 ds n ≤ limit →
      gather limit n taken ds = (Nat.ofDigitChars 10 ds n, taken + ds.length, []) := by
  intro ds
  induction ds with
  | nil => intro n taken _; rw [Nat.ofDigitChars_nil]; rfl
  | cons d ds ih =>
      intro n taken h
      rw [Nat.ofDigitChars_cons, Nat.mul_comm] at h
      have hnext := Text.le_ofDigitChars ds (n * 10 + (d.toNat - '0'.toNat))
      unfold gather
      dsimp only
      rw [if_neg (by omega), ih _ _ h, Nat.ofDigitChars_cons, Nat.mul_comm 10 n, List.length_cons]
      congr 2
      omega

/-- Digits that are together above the limit are not all gathered. -/
theorem gather_of_lt (limit : Nat) :
    ∀ (ds : List Char) (n taken : Nat), n ≤ limit → limit < Nat.ofDigitChars 10 ds n →
      (gather limit n taken ds).2.2 ≠ [] := by
  intro ds
  induction ds with
  | nil => intro n taken hn h; rw [Nat.ofDigitChars_nil] at h; omega
  | cons d ds ih =>
      intro n taken hn h
      rw [Nat.ofDigitChars_cons, Nat.mul_comm] at h
      unfold gather
      dsimp only
      split
      · simp
      · next hle => exact ih _ _ (by omega) h

/-- The digits of a natural number are read as an integer if they are
within 64 bits, and as a double if not. -/
theorem unsigned_toDigits (negative : Bool) (n : Nat) :
    unsigned negative (Nat.toDigits 10 n) =
      if n ≤ maxGathered then integer negative n []
      else
        let scaled := gather maxGathered 0 0 (Nat.toDigits 10 n)
        scaledNumber negative scaled.1 scaled.2.2.length [] := by
  have hds := isDigits_toDigits n
  obtain ⟨d, ds, heq⟩ := List.exists_cons_of_ne_nil hds.1
  have hvalue : Nat.ofDigitChars 10 (d :: ds) 0 = n := by
    rw [← heq, Nat.ofDigitChars_ten_toDigits]
  have hzero : ¬(d = '0' ∧ 1 < (d :: ds).length) := by
    intro h
    obtain ⟨rfl, hlen⟩ := h
    rcases Nat.eq_zero_or_pos n with rfl | hn
    · rw [Nat.toDigits_zero] at heq
      rw [← heq] at hlen
      exact absurd hlen (by decide)
    · exact Text.head_toDigits hn (by rw [heq]; rfl)
  rw [heq] at hds ⊢
  have hunsigned := unsigned_append negative (s := []) hds (by simp)
  rw [List.append_nil] at hunsigned
  rw [hunsigned]
  unfold afterDigits
  rw [if_neg hzero]
  split
  · next hle =>
    rw [gather_of_le _ _ _ (by rwa [hvalue]), hvalue]
    rfl
  · next hgt =>
    have hdropped := gather_of_lt maxGathered (d :: ds) 0 0 (by decide) (by omega)
    revert hdropped
    generalize gather maxGathered 0 0 (d :: ds) = scaled
    intro hdropped
    obtain ⟨k, t, dropped⟩ := scaled
    cases dropped with
    | nil => exact absurd rfl hdropped
    | cons _ _ => rfl

end Reader

/-- The number that the text of a number is read as. -/
def rereadNumber (n : Number) : Except Fault Number :=
  (Reader.number (numberText n)).map Prod.fst

/-- In a longer text, a number is read as it is read alone. -/
theorem number_numberText (n : Number) {rest : List Char} (h : Ends rest) :
    Reader.number (numberText n ++ rest) = (rereadNumber n).map (·, rest) := by
  obtain ⟨out, hout⟩ := Reader.number_local (Reader.isNumeral_numberText n)
  have halone : Reader.number (numberText n) = out.map (·, []) := by
    simpa using hout [] ends_nil
  rw [hout rest h, rereadNumber, halone]
  cases out <;> rfl

theorem number_toDigits (n : Nat) :
    Reader.number (Nat.toDigits 10 n) = Reader.unsigned false (Nat.toDigits 10 n) := by
  apply Reader.number_unsigned
  intro h
  obtain ⟨hne, hdigits⟩ := Reader.isDigits_toDigits n
  exact absurd (hdigits '-' (List.mem_of_mem_head? h)) (by decide)

/-- What scaling reads is a double. -/
theorem ne_int_of_scaledNumber {negative : Bool} {n : Nat} {e m : Int} {s rest : List Char} :
    Reader.scaledNumber negative n e s ≠ .ok (.int m, rest) := by
  unfold Reader.scaledNumber
  cases Reader.scaled? n e with
  | none => exact nofun
  | some x => exact nofun

/-- Digits that are read as an integer are its digits. -/
theorem eq_of_unsigned_toDigits (negative : Bool) {n : Nat} {m : Int} {rest : List Char}
    (h : Reader.unsigned negative (Nat.toDigits 10 n) = .ok (.int m, rest)) :
    m = if negative then -(n : Int) else n := by
  rw [Reader.unsigned_toDigits] at h
  split at h
  · unfold Reader.integer at h
    cases negative with
    | false => cases h; rfl
    | true =>
        rw [if_neg (by decide)] at h
        split at h
        · cases h; rfl
        · exact absurd h ne_int_of_scaledNumber
  · exact absurd h ne_int_of_scaledNumber

/-- An integer that is read as an integer is read as itself. -/
theorem eq_of_rereadNumber {n m : Int} (h : rereadNumber (.int n) = .ok (.int m)) : m = n := by
  obtain ⟨rest, hread⟩ : ∃ rest, Reader.number (numberText (.int n)) = .ok (.int m, rest) := by
    unfold rereadNumber at h
    cases hread : Reader.number (numberText (.int n)) with
    | error f => rw [hread] at h; cases h
    | ok found =>
        obtain ⟨k, rest⟩ := found
        rw [hread] at h
        cases h
        exact ⟨rest, rfl⟩
  cases n with
  | ofNat n =>
      rw [show numberText (.int (Int.ofNat n)) = Nat.toDigits 10 n from Nat.toList_repr,
        number_toDigits] at hread
      exact eq_of_unsigned_toDigits false hread
  | negSucc n =>
      rw [show numberText (.int (Int.negSucc n)) = '-' :: Nat.toDigits 10 (n + 1)
          from Reader.toString_negSucc n] at hread
      exact eq_of_unsigned_toDigits true hread

/-- An integer of 64 bits, signed or not, is read as itself. -/
theorem rereadNumber_int {n : Int} (hlow : -9223372036854775808 ≤ n)
    (hhigh : n ≤ Reader.maxGathered) :
    rereadNumber (.int n) = .ok (.int n) := by
  unfold rereadNumber
  cases n with
  | ofNat n =>
      have hn : n ≤ Reader.maxGathered := Int.ofNat_le.1 hhigh
      rw [show numberText (.int (Int.ofNat n)) = Nat.toDigits 10 n from Nat.toList_repr,
        number_toDigits, Reader.unsigned_toDigits, if_pos hn]
      rfl
  | negSucc n =>
      have hn : n + 1 ≤ 9223372036854775808 := by omega
      rw [show numberText (.int (Int.negSucc n)) = '-' :: Nat.toDigits 10 (n + 1)
          from Reader.toString_negSucc n]
      show (Reader.unsigned true (Nat.toDigits 10 (n + 1))).map Prod.fst = _
      rw [Reader.unsigned_toDigits, if_pos (by unfold Reader.maxGathered; omega)]
      unfold Reader.integer
      rw [if_neg (by decide), if_pos ⟨by omega, hn⟩]
      rfl

end Depot.Json
