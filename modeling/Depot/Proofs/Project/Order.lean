/-
The order of versions, which mixes two. Each of them is an order: the plain
one (`comparePlain`), and that of compact versions (`compareCompact`). They
differ on two compact versions only if one of these is a development
release and the other a pre-release of the same numbers (`Parted`).

Mixed, they are an order no more. A version that is not compact is compared
by the plain order, and it may stand between a development release and a
pre-release which are compared the other way round (`Torn`). There is no
other trouble: `isLE_trans_of_whole` says that the mixed order is transitive
on versions of which no three are torn.
-/
import Depot.Project.Version

namespace Depot.Project

/-- Words come before numbers, each kind in its own order. -/
instance : Std.TransCmp LocalSegment.compare where
  eq_swap {a b} := by
    cases a with
    | number m =>
        cases b with
        | number n => exact (Std.OrientedCmp.eq_swap : compare m n = (compare n m).swap)
        | word => rfl
    | word s =>
        cases b with
        | number => rfl
        | word t => exact (Std.OrientedCmp.eq_swap : compare s t = (compare t s).swap)
  isLE_trans {a b c} hab hbc := by
    cases b with
    | number m =>
        cases c with
        | word => cases hbc
        | number n =>
            cases a with
            | word => rfl
            | number k =>
                have htrans : (compare k n).isLE = true := Std.TransCmp.isLE_trans hab hbc
                exact htrans
    | word s =>
        cases a with
        | number => cases hab
        | word r =>
            cases c with
            | number => rfl
            | word t =>
                have htrans : (compare r t).isLE = true := Std.TransCmp.isLE_trans hab hbc
                exact htrans

namespace Version

-- ===================================================== release numbers

/-- Zeros behind lists of one length decide nothing. -/
theorem compare_append {xs ys : List Nat} (h : xs.length = ys.length) (zs : List Nat) :
    Ord.compare (xs ++ zs) (ys ++ zs) = Ord.compare xs ys := by
  induction xs generalizing ys with
  | nil =>
      cases ys with
      | nil => exact Std.ReflCmp.compare_self
      | cons => cases h
  | cons x xs ih =>
      cases ys with
      | nil => cases h
      | cons y ys =>
          rw [List.cons_append, List.cons_append, List.compare_cons_cons, List.compare_cons_cons,
            ih (Nat.succ.inj h)]

/-- Release numbers may be compared at any length that holds both. -/
theorem compareRelease_eq {a b : List Nat} {n : Nat} (ha : a.length ≤ n) (hb : b.length ≤ n) :
    compareRelease a b = Ord.compare (padded n a) (padded n b) := by
  let m := max a.length b.length
  have hpad : ∀ r : List Nat, r.length ≤ m →
      padded n r = padded m r ++ List.replicate (n - m) 0 := by
    intro r hr
    unfold padded
    rw [List.append_assoc, List.replicate_append_replicate]
    congr 2
    omega
  have hlength : (padded m a).length = (padded m b).length := by
    simp only [padded, List.length_append, List.length_replicate]
    omega
  rw [hpad a (by omega), hpad b (by omega), compare_append hlength]
  rfl

instance : Std.TransCmp compareRelease where
  eq_swap {a b} := by
    rw [compareRelease_eq (Nat.le_max_left a.length b.length) (Nat.le_max_right ..),
      compareRelease_eq (Nat.le_max_right a.length b.length) (Nat.le_max_left ..)]
    exact Std.OrientedCmp.eq_swap
  isLE_trans {a b c} hab hbc := by
    let n := a.length + b.length + c.length
    have ha : a.length ≤ n := by omega
    have hb : b.length ≤ n := by omega
    have hc : c.length ≤ n := by omega
    rw [compareRelease_eq ha hb] at hab
    rw [compareRelease_eq hb hc] at hbc
    rw [compareRelease_eq ha hc]
    exact Std.TransCmp.isLE_trans hab hbc

/-- Labels are compared segment by segment. -/
theorem compareLabel_eq (a b : List LocalSegment) :
    compareLabel a b = List.compareLex LocalSegment.compare a b := by
  induction a generalizing b with
  | nil => cases b <;> rfl
  | cons x a ih =>
      cases b with
      | nil => rfl
      | cons y b => rw [compareLabel, List.compareLex_cons_cons, ih]

instance : Std.TransCmp compareLabel := by
  rw [show compareLabel = List.compareLex LocalSegment.compare from
    funext fun a => funext fun b => compareLabel_eq a b]
  infer_instance

-- ===================================================== two orders

/-- The plain order of versions. -/
def comparePlain (a b : Version) : Ordering :=
  (Ord.compare a.epoch b.epoch).then <|
    (compareRelease a.release b.release).then <|
      (Ord.compare a.rank b.rank).then (compareLabel a.label b.label)

/-- The order of compact versions. -/
def compareCompact (a b : Version) : Ordering :=
  (compareRelease a.release b.release).then (Ord.compare a.compactRank b.compactRank)

/-- What is compared by a part of it is in the order of the parts. -/
theorem transCmp_on {α β : Type} (part : α → β) {cmp : β → β → Ordering} [Std.TransCmp cmp] :
    Std.TransCmp fun a b => cmp (part a) (part b) where
  eq_swap := Std.OrientedCmp.eq_swap
  isLE_trans := Std.TransCmp.isLE_trans

instance : Std.TransCmp comparePlain :=
  have : Std.TransCmp fun a b : Version => compareRelease a.release b.release :=
    transCmp_on release
  have : Std.TransCmp fun a b : Version => compareLabel a.label b.label := transCmp_on label
  inferInstanceAs <| Std.TransCmp <| compareLex (compareOn epoch) <|
    compareLex (fun a b => compareRelease a.release b.release) <|
      compareLex (compareOn rank) fun a b => compareLabel a.label b.label

instance : Std.TransCmp compareCompact :=
  have : Std.TransCmp fun a b : Version => compareRelease a.release b.release :=
    transCmp_on release
  inferInstanceAs <| Std.TransCmp <|
    compareLex (fun a b => compareRelease a.release b.release) (compareOn compactRank)

/-- Two versions that are both compact are compared as such, all others by
the plain order. -/
theorem compare_eq (a b : Version) : a.compare b
    = if a.isCompact && b.isCompact then compareCompact a b else comparePlain a b := rfl

instance : Std.OrientedCmp Version.compare where
  eq_swap {a b} := by
    rw [compare_eq, compare_eq, Bool.and_comm]
    split <;> exact Std.OrientedCmp.eq_swap

-- ===================================================== where they part

/-- Whether a version is a development release and nothing else. -/
def IsDevelopment (v : Version) : Prop := v.pre = none ∧ v.post = none ∧ v.dev ≠ none

/-- A development release and a pre-release of the same numbers, both
compact. The plain order has the development release first, that of compact
versions the pre-release. -/
structure Parted (dev pre : Version) : Prop where
  dev_compact : dev.isCompact = true
  pre_compact : pre.isCompact = true
  development : dev.IsDevelopment
  prerelease : pre.pre ≠ none
  same : compareRelease dev.release pre.release = .eq

/-- What a compact version has behind its release. -/
inductive Part where
  | development
  | pre (kind : PreKind)
  | nothing
  | post
deriving DecidableEq

namespace Part

/-- The place of a part in the plain order. -/
def place : Part → Nat
  | development => 0
  | pre kind => kind.rank
  | nothing => 4
  | post => 5

/-- The place of a part in the order of compact versions. -/
def compactPlace : Part → Nat
  | pre kind => kind.rank
  | development => 4
  | nothing => 5
  | post => 6

/-- What the number of a part is among, in the plain order. -/
def around (n : Nat) : Part → List Nat
  | development => [0, 0, n]
  | pre _ => [n, 0, lastDev]
  | nothing => [0, 0, n]
  | post => [0, n + 1, lastDev]

/-- Each part has a place of its own. -/
theorem place_inj {p q : Part} : p.place = q.place ↔ p = q := by
  rcases p with _ | (_ | _ | _) | _ | _ <;> rcases q with _ | (_ | _ | _) | _ | _ <;> decide

/-- Only a development release and a pre-release change places. -/
theorem compare_place {p q : Part} (hpq : p = .development → ∀ kind, q ≠ .pre kind)
    (hqp : q = .development → ∀ kind, p ≠ .pre kind) :
    Ord.compare p.place q.place = Ord.compare p.compactPlace q.compactPlace := by
  cases p with
  | development =>
      cases q with
      | pre kind => exact absurd rfl (hpq rfl kind)
      | _ => rfl
  | pre kind =>
      cases q with
      | development => exact absurd rfl (hqp rfl kind)
      | pre => rfl
      | nothing => cases kind <;> rfl
      | post => cases kind <;> rfl
  | nothing =>
      cases q with
      | pre kind => cases kind <;> rfl
      | _ => rfl
  | post =>
      cases q with
      | pre kind => cases kind <;> rfl
      | _ => rfl

/-- Numbers are compared as they are, whatever is around them. -/
theorem compare_around (p : Part) (m n : Nat) :
    Ord.compare (p.around m) (p.around n) = Ord.compare m n := by
  have hsucc : Ord.compare (m + 1) (n + 1) = Ord.compare m n := by
    simp only [Nat.compare_eq_ite_lt, Nat.add_lt_add_iff_right]
  cases p <;> simp [around, List.compare_cons_cons, hsucc]

end Part

/-- The part and its number that a compact version has. -/
structure Has (v : Version) (part : Part) (n : Nat) : Prop where
  rank : v.rank = part.place :: part.around n
  compactRank : v.compactRank = [part.compactPlace, n]
  development : v.IsDevelopment ↔ part = .development
  prerelease : v.pre ≠ none ↔ ∃ kind, part = .pre kind

/-- A compact version has no epoch and no label, and at most one part. -/
theorem has_of_isCompact {v : Version} (h : v.isCompact = true) :
    v.epoch = 0 ∧ v.label = [] ∧ ∃ part n, v.Has part n := by
  obtain ⟨epoch, release, pre, post, dev, label⟩ := v
  simp only [isCompact, Bool.and_eq_true, beq_iff_eq, List.isEmpty_iff] at h
  obtain ⟨⟨⟨⟨⟨hepoch, hlabel⟩, -⟩, -⟩, -⟩, hparts⟩ := h
  refine ⟨hepoch, hlabel, ?_⟩
  match pre, post, dev with
  | none, none, none => exact ⟨.nothing, 0, rfl, rfl, by simp [IsDevelopment], by simp⟩
  | some (kind, n), none, none =>
      exact ⟨.pre kind, n, rfl, rfl, by simp [IsDevelopment], by simp⟩
  | none, some n, none => exact ⟨.post, n, rfl, rfl, by simp [IsDevelopment], by simp⟩
  | none, none, some n => exact ⟨.development, n, rfl, rfl, by simp [IsDevelopment], by simp⟩

/-- What comes first decides, and what comes behind only where it does
not. -/
theorem then_congr {first second second' : Ordering} (h : first = .eq → second = second') :
    first.then second = first.then second' := by
  cases first with
  | lt => rfl
  | gt => rfl
  | eq => exact h rfl

variable {a b c : Version} {p q : Part} {m n : Nat}

theorem Has.compare_rank (ha : a.Has p m) (hb : b.Has q n) :
    Ord.compare a.rank b.rank = (Ord.compare p.place q.place).then (Ord.compare m n) := by
  rw [ha.rank, hb.rank, List.compare_cons_cons]
  refine then_congr fun h => ?_
  rw [Part.place_inj.1 (Nat.compare_eq_eq.1 h)]
  exact Part.compare_around q m n

theorem Has.compare_compactRank (ha : a.Has p m) (hb : b.Has q n) :
    Ord.compare a.compactRank b.compactRank
      = (Ord.compare p.compactPlace q.compactPlace).then (Ord.compare m n) := by
  rw [ha.compactRank, hb.compactRank, List.compare_cons_cons, List.compare_cons_cons]
  simp

/-- On compact versions the plain order looks at numbers and parts only. -/
theorem comparePlain_of_isCompact (ha : a.isCompact = true) (hb : b.isCompact = true) :
    comparePlain a b = (compareRelease a.release b.release).then (Ord.compare a.rank b.rank) := by
  unfold comparePlain
  rw [(has_of_isCompact ha).1, (has_of_isCompact hb).1, (has_of_isCompact ha).2.1,
    (has_of_isCompact hb).2.1]
  simp [compareLabel]

/-- The two orders agree on compact versions, unless these are parted. -/
theorem compact_cases (ha : a.isCompact = true) (hb : b.isCompact = true) :
    compareCompact a b = comparePlain a b ∨ Parted a b ∨ Parted b a := by
  by_cases hab : Parted a b
  · exact .inr (.inl hab)
  by_cases hba : Parted b a
  · exact .inr (.inr hba)
  obtain ⟨-, -, p, m, hp⟩ := has_of_isCompact ha
  obtain ⟨-, -, q, n, hq⟩ := has_of_isCompact hb
  rw [comparePlain_of_isCompact ha hb]
  refine .inl (then_congr fun hsame => ?_)
  rw [hp.compare_rank hq, hp.compare_compactRank hq, Part.compare_place]
  · intro hdev kind hpre
    exact hab ⟨ha, hb, hp.development.2 hdev, hq.prerelease.2 ⟨kind, hpre⟩, hsame⟩
  · intro hdev kind hpre
    exact hba ⟨hb, ha, hq.development.2 hdev, hp.prerelease.2 ⟨kind, hpre⟩,
      Std.OrientedCmp.eq_symm hsame⟩

/-- Of versions that are parted, the development release is the newer one
to one order and the older one to the other. -/
theorem Parted.compare_eq (h : Parted a b) :
    compareCompact a b = .gt ∧ comparePlain a b = .lt := by
  obtain ⟨-, -, p, m, hp⟩ := has_of_isCompact h.dev_compact
  obtain ⟨-, -, q, n, hq⟩ := has_of_isCompact h.pre_compact
  obtain rfl := hp.development.1 h.development
  obtain ⟨kind, rfl⟩ := hq.prerelease.1 h.prerelease
  rw [comparePlain_of_isCompact h.dev_compact h.pre_compact, compareCompact, h.same,
    hp.compare_rank hq, hp.compare_compactRank hq]
  cases kind <;> exact ⟨rfl, rfl⟩

-- ===================================================== the mixed order

/-- Versions that the mixed order leaves in no order: one that is not
compact is neither older than a development release nor newer than a
pre-release, but the development release is the newer one of these two. -/
structure Torn (dev other pre : Version) : Prop where
  parted : Parted dev pre
  not_compact : other.isCompact = false
  above : (dev.compare other).isLE = true
  below : (other.compare pre).isLE = true

/-- No three of the versions are torn. -/
def Whole (versions : List Version) : Prop :=
  ∀ dev ∈ versions, ∀ other ∈ versions, ∀ pre ∈ versions, ¬ Torn dev other pre

theorem compare_of_compact (ha : a.isCompact = true) (hb : b.isCompact = true) :
    a.compare b = compareCompact a b := by
  rw [compare_eq, ha, hb]
  rfl

theorem compare_of_not_compact (h : ¬ (a.isCompact = true ∧ b.isCompact = true)) :
    a.compare b = comparePlain a b := by
  rw [compare_eq, if_neg (by rwa [Bool.and_eq_true])]

theorem Torn.older (h : Torn a b c) : c.compare a = .lt := by
  rw [compare_of_compact h.parted.pre_compact h.parted.dev_compact]
  exact Std.OrientedCmp.lt_of_gt h.parted.compare_eq.1

/-- Torn versions are three. -/
theorem Torn.ne (h : Torn a b c) : c ≠ b ∧ c ≠ a ∧ b ≠ a := by
  refine ⟨?_, ?_, ?_⟩
  · rintro rfl
    exact absurd h.parted.pre_compact (by simp [h.not_compact])
  · rintro rfl
    exact h.parted.prerelease h.parted.development.1
  · rintro rfl
    exact absurd h.parted.dev_compact (by simp [h.not_compact])

/-- What the mixed order says the plain one says too, but of parted
versions. -/
theorem isLE_plain_or_parted (h : (a.compare b).isLE = true) :
    (comparePlain a b).isLE = true ∨ Parted b a := by
  by_cases hcompact : a.isCompact = true ∧ b.isCompact = true
  · rw [compare_of_compact hcompact.1 hcompact.2] at h
    rcases compact_cases hcompact.1 hcompact.2 with heq | hparted | hparted
    · exact .inl (heq ▸ h)
    · rw [hparted.compare_eq.1] at h
      cases h
    · exact .inr hparted
  · rw [compare_of_not_compact hcompact] at h
    exact .inl h

/-- What the plain order says the mixed one says too, but of parted
versions. -/
theorem isLE_or_parted_of_plain (h : (comparePlain a b).isLE = true) :
    (a.compare b).isLE = true ∨ Parted a b := by
  by_cases hcompact : a.isCompact = true ∧ b.isCompact = true
  · rw [compare_of_compact hcompact.1 hcompact.2]
    rcases compact_cases hcompact.1 hcompact.2 with heq | hparted | hparted
    · exact .inl (heq ▸ h)
    · exact .inr hparted
    · refine .inl ?_
      rw [Std.OrientedCmp.lt_of_gt hparted.compare_eq.1]
      rfl
  · rw [compare_of_not_compact hcompact]
    exact .inl h

/-- A version is not newer than another just if the other is not older. -/
theorem isLE_iff : (a.compare b).isLE = true ↔ b.compare a ≠ .lt := by
  rw [Ordering.isLE_iff_ne_gt]
  exact not_congr ⟨Std.OrientedCmp.lt_of_gt, Std.OrientedCmp.gt_of_lt⟩

/-- The mixed order is transitive where nothing is torn. -/
theorem isLE_trans_of_whole {versions : List Version} (hwhole : Whole versions)
    (ha : a ∈ versions) (hb : b ∈ versions) (hc : c ∈ versions)
    (hab : (a.compare b).isLE = true) (hbc : (b.compare c).isLE = true) :
    (a.compare c).isLE = true := by
  by_cases hcompact : a.isCompact = true ∧ b.isCompact = true ∧ c.isCompact = true
  · obtain ⟨hacompact, hbcompact, hccompact⟩ := hcompact
    rw [compare_of_compact hacompact hbcompact] at hab
    rw [compare_of_compact hbcompact hccompact] at hbc
    rw [compare_of_compact hacompact hccompact]
    exact Std.TransCmp.isLE_trans hab hbc
  refine Decidable.byContradiction fun hnot => ?_
  have hca : (c.compare a).isLE = true := by
    rw [isLE_iff, Decidable.not_not] at hnot
    rw [hnot]
    rfl
  -- wherever two of them are parted, the third is what tears them
  rcases isLE_plain_or_parted hab with hab' | hparted
  · rcases isLE_plain_or_parted hbc with hbc' | hparted
    · rcases isLE_or_parted_of_plain (Std.TransCmp.isLE_trans hab' hbc') with hac | hparted
      · exact hnot hac
      · refine hwhole a ha b hb c hc ⟨hparted, ?_, hab, hbc⟩
        simpa [hparted.dev_compact, hparted.pre_compact] using hcompact
    · refine hwhole c hc a ha b hb ⟨hparted, ?_, hca, hab⟩
      simpa [hparted.dev_compact, hparted.pre_compact] using hcompact
  · refine hwhole b hb c hc a ha ⟨hparted, ?_, hbc, hca⟩
    simpa [hparted.dev_compact, hparted.pre_compact] using hcompact

end Version

end Depot.Project
