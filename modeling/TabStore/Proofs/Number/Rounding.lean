import Mathlib.Algebra.Order.Ring.Nat
import Mathlib.Algebra.Ring.Parity
import TabStore.Number.Binary64

/-!
# Integers as double-precision numbers

An integer is compared as the double-precision number nearest to it. Here this number is described
by the integer alone: it has 53 significant bits, and if two are equally near, its last bit is zero.

Results:
1. `isNearest_roundQuotient`, `IsNearest.mono`: the quotient that is rounded to is a nearest one, and
   a greater numerator is never rounded to a smaller one;
2. `RoundsTo.distance_le`, `RoundsTo.unique`, `exists_roundsTo`, `RoundsTo.mono`: each number is
   rounded to one number with 53 bits; none is nearer, and the order of numbers is not reversed;
3. `roundsTo_self`: numbers with 53 bits stay as they are, up to 2^53 all of them;
4. `roundUnits_eq`, `rank_ofInt`: in units of 2^-1074 the same number is found;
5. `lt_iff_of_not_sameDouble`, `SameDouble.eq_or_great`: integers keep their order unless they have
   the same nearest number, which other integers than one have only from 2^53 on.
-/

namespace TabStore.Number

/-! ## Quotients -/

/-- No integer is nearer to the quotient, and if another is equally near, this one is even. -/
structure IsNearest (numerator denominator quotient : Nat) : Prop where
  notAbove : 2 * (quotient * denominator) ≤ 2 * numerator + denominator
  notBelow : 2 * numerator ≤ 2 * (quotient * denominator) + denominator
  even : 2 * (quotient * denominator) = 2 * numerator + denominator ∨
    2 * numerator = 2 * (quotient * denominator) + denominator → Even quotient

section Quotients

variable {a b d q r : Nat}

theorem isNearest_of_exact (q d : Nat) (pos : 0 < d) : IsNearest (q * d) d q := by
  refine ⟨Nat.le_add_right _ _, Nat.le_add_right _ _, fun tie => ?_⟩
  omega

theorem isNearest_roundQuotient (a : Nat) (pos : 0 < d) :
    IsNearest a d (Binary64.roundQuotient a d) := by
  have parts : a / d * d + a % d = a := Nat.div_add_mod' a d
  have small : a % d < d := Nat.mod_lt a pos
  unfold Binary64.roundQuotient
  dsimp only
  split
  · next down =>
    refine ⟨by omega, by omega, fun tie => ?_⟩
    rw [Nat.even_iff]
    omega
  · next up =>
    have next : (a / d + 1) * d = a / d * d + d := Nat.succ_mul _ _
    refine ⟨by omega, by omega, fun tie => ?_⟩
    rw [Nat.even_iff]
    omega

theorem IsNearest.mono (pos : 0 < d) (le : a ≤ b) (first : IsNearest a d q)
    (second : IsNearest b d r) : q ≤ r := by
  by_contra less
  have next : (r + 1) * d ≤ q * d := Nat.mul_le_mul_right d (by omega)
  have expanded : (r + 1) * d = r * d + d := Nat.succ_mul r d
  have above := first.notAbove
  have below := second.notBelow
  -- There is no room between them: both are ties, of two numbers one behind the other.
  have same : q * d = (r + 1) * d := by omega
  have consecutive : q = r + 1 := Nat.eq_of_mul_eq_mul_right pos same
  have evenLeft := first.even (.inl (by omega))
  have evenRight := second.even (.inr (by omega))
  rw [consecutive, Nat.even_add_one] at evenLeft
  exact evenLeft evenRight

theorem IsNearest.unique (pos : 0 < d) (first : IsNearest a d q) (second : IsNearest a d r) :
    q = r :=
  Nat.le_antisymm (first.mono pos (Nat.le_refl a) second) (second.mono pos (Nat.le_refl a) first)

/-- How far apart two numbers are. -/
def distance (a b : Int) : Nat := (a - b).natAbs

theorem IsNearest.distance_le (h : IsNearest a d q) (other : Nat) :
    distance a (q * d : Nat) ≤ distance a (other * d : Nat) := by
  obtain ⟨notAbove, notBelow, -⟩ := h
  unfold distance
  rcases Nat.lt_trichotomy other q with less | rfl | greater
  · have gap : (other + 1) * d ≤ q * d := Nat.mul_le_mul_right d less
    rw [Nat.succ_mul] at gap
    omega
  · exact Nat.le_refl _
  · have gap : (q + 1) * d ≤ other * d := Nat.mul_le_mul_right d greater
    rw [Nat.succ_mul] at gap
    omega

theorem IsNearest.scale {c : Nat} (pos : 0 < c) (h : IsNearest a d q) :
    IsNearest (a * c) (d * c) q := by
  have quotient : 2 * (q * (d * c)) = 2 * (q * d) * c := by rw [Nat.mul_assoc, Nat.mul_assoc]
  have numerator : 2 * (a * c) = 2 * a * c := (Nat.mul_assoc 2 a c).symm
  have above : 2 * (a * c) + d * c = (2 * a + d) * c := by rw [numerator, Nat.add_mul]
  have below : 2 * (q * (d * c)) + d * c = (2 * (q * d) + d) * c := by rw [quotient, Nat.add_mul]
  refine ⟨?_, ?_, fun tie => h.even (tie.imp (fun tie => ?_) fun tie => ?_)⟩
  · rw [quotient, above]
    exact Nat.mul_le_mul_right c h.notAbove
  · rw [numerator, below]
    exact Nat.mul_le_mul_right c h.notBelow
  · rw [quotient, above] at tie
    exact Nat.eq_of_mul_eq_mul_right pos tie
  · rw [numerator, below] at tie
    exact Nat.eq_of_mul_eq_mul_right pos tie

end Quotients

/-! ## Numbers with 53 bits -/

/-- A number rounded to 53 significant bits: to a nearest multiple of the power of two that leaves so
many bits of it, and a tie to the even multiple. Smaller numbers keep their ones. -/
def RoundsTo (n r : Nat) : Prop :=
  ∃ place quotient, r = quotient * 2 ^ place ∧ n < 2 ^ (53 + place) ∧
    (place = 0 ∨ 2 ^ (52 + place) ≤ n) ∧ IsNearest n (2 ^ place) quotient

section RoundsTo

variable {n m r s k : Nat}

theorem two_pow_add_mul (j k : Nat) : 2 ^ (j + k) = 2 ^ j * 2 ^ k := Nat.pow_add 2 j k

/-- In each range between two powers of two, numbers are rounded to that range and its end. -/
theorem quotient_le {place q : Nat} (less : n < 2 ^ (53 + place))
    (nearest : IsNearest n (2 ^ place) q) : q ≤ 2 ^ 53 := by
  have pos : 0 < 2 ^ place := Nat.two_pow_pos place
  rw [two_pow_add_mul] at less
  exact nearest.mono pos (Nat.le_of_lt less) (isNearest_of_exact _ _ pos)

theorem le_quotient {place q : Nat} (le : 2 ^ (52 + place) ≤ n)
    (nearest : IsNearest n (2 ^ place) q) : 2 ^ 52 ≤ q := by
  have pos : 0 < 2 ^ place := Nat.two_pow_pos place
  rw [two_pow_add_mul] at le
  exact (isNearest_of_exact _ _ pos).mono pos le nearest

theorem RoundsTo.mono (le : n ≤ m) (first : RoundsTo n r) (second : RoundsTo m s) : r ≤ s := by
  obtain ⟨place, q, rfl, less, least, nearest⟩ := first
  obtain ⟨place', q', rfl, less', least', nearest'⟩ := second
  rcases Nat.lt_trichotomy place place' with lower | rfl | higher
  · -- A power of two stands between both ranges.
    have least' := least'.resolve_left (by omega)
    calc q * 2 ^ place
      _ ≤ 2 ^ 53 * 2 ^ place := Nat.mul_le_mul_right _ (quotient_le less nearest)
      _ = 2 ^ (53 + place) := (two_pow_add_mul 53 place).symm
      _ ≤ 2 ^ (52 + place') := Nat.pow_le_pow_right Nat.two_pos (by omega)
      _ = 2 ^ 52 * 2 ^ place' := two_pow_add_mul 52 place'
      _ ≤ q' * 2 ^ place' := Nat.mul_le_mul_right _ (le_quotient least' nearest')
  · exact Nat.mul_le_mul_right _ (nearest.mono (Nat.two_pow_pos place) le nearest')
  · have least := least.resolve_left (by omega)
    have apart : 2 ^ (53 + place') ≤ 2 ^ (52 + place) :=
      Nat.pow_le_pow_right Nat.two_pos (by omega)
    omega

theorem RoundsTo.unique (first : RoundsTo n r) (second : RoundsTo n s) : r = s :=
  Nat.le_antisymm (first.mono (Nat.le_refl n) second) (second.mono (Nat.le_refl n) first)

/-- No number with 53 bits is nearer. -/
theorem RoundsTo.distance_le (h : RoundsTo n r) {q : Nat} (bits : q ≤ 2 ^ 53) (place : Nat) :
    distance n r ≤ distance n (q * 2 ^ place : Nat) := by
  obtain ⟨place', quotient, rfl, -, least, nearest⟩ := h
  by_cases finer : place < place'
  · -- A number with smaller units is not above the power of two where the units of `n` start.
    have least := least.resolve_left (by omega)
    have below : q * 2 ^ place ≤ 2 ^ (52 + place') :=
      calc q * 2 ^ place
        _ ≤ 2 ^ 53 * 2 ^ place := Nat.mul_le_mul_right _ bits
        _ = 2 ^ (53 + place) := (two_pow_add_mul 53 place).symm
        _ ≤ 2 ^ (52 + place') := Nat.pow_le_pow_right Nat.two_pos (by omega)
    have nearer := nearest.distance_le (2 ^ 52)
    rw [← two_pow_add_mul] at nearer
    refine nearer.trans ?_
    unfold distance
    omega
  · have same : q * 2 ^ place = q * 2 ^ (place - place') * 2 ^ place' := by
      rw [Nat.mul_assoc, ← two_pow_add_mul, Nat.sub_add_cancel (Nat.not_lt.mp finer)]
    rw [same]
    exact nearest.distance_le _

/-- The power of two that leaves 53 bits is found by the logarithm. -/
theorem roundsTo_of_isNearest {quotient : Nat}
    (nearest : IsNearest n (2 ^ (n.log2 - 52)) quotient) :
    RoundsTo n (quotient * 2 ^ (n.log2 - 52)) := by
  refine ⟨n.log2 - 52, quotient, rfl, ?_, ?_, nearest⟩
  · exact Nat.lt_of_lt_of_le Nat.lt_log2_self (Nat.pow_le_pow_right Nat.two_pos (by omega))
  · by_cases small : n.log2 ≤ 52
    · exact .inl (by omega)
    · have some : n ≠ 0 := by
        rintro rfl
        exact small (by decide)
      refine .inr ?_
      rw [show 52 + (n.log2 - 52) = n.log2 by omega]
      exact Nat.log2_self_le some

theorem exists_roundsTo (n : Nat) : ∃ r, RoundsTo n r :=
  ⟨_, roundsTo_of_isNearest (isNearest_roundQuotient n (Nat.two_pow_pos _))⟩

theorem roundsTo_of_dvd {place : Nat} (less : n < 2 ^ (53 + place)) (dvd : 2 ^ place ∣ n) :
    RoundsTo n n := by
  rcases Nat.eq_zero_or_pos n with rfl | some
  · exact ⟨0, 0, rfl, by decide, .inl rfl, isNearest_of_exact 0 1 Nat.one_pos⟩
  · have bits : n.log2 < 53 + place := (Nat.log2_lt (Nat.ne_of_gt some)).mpr less
    have lower : 2 ^ (n.log2 - 52) ∣ 2 ^ place := Nat.pow_dvd_pow 2 (by omega)
    obtain ⟨quotient, same⟩ := lower.trans dvd
    rw [Nat.mul_comm] at same
    have exact := isNearest_of_exact quotient (2 ^ (n.log2 - 52)) (Nat.two_pow_pos _)
    rw [← same] at exact
    have rounded := roundsTo_of_isNearest exact
    rwa [← same] at rounded

/-- Numbers with 53 bits stay as they are. -/
theorem roundsTo_self {q : Nat} (le : q ≤ 2 ^ 53) (place : Nat) :
    RoundsTo (q * 2 ^ place) (q * 2 ^ place) := by
  rcases Nat.lt_or_eq_of_le le with less | rfl
  · refine roundsTo_of_dvd ?_ (Nat.dvd_mul_left (2 ^ place) q)
    rw [two_pow_add_mul]
    exact Nat.mul_lt_mul_of_pos_right less (Nat.two_pow_pos place)
  · -- The next power of two has one bit only.
    rw [← two_pow_add_mul]
    refine @roundsTo_of_dvd _ (place + 1) (Nat.pow_lt_pow_right (by decide) (by omega)) ?_
    exact Nat.pow_dvd_pow 2 (by omega)

theorem roundsTo_of_le (le : n ≤ 2 ^ 53) : RoundsTo n n := by
  have self := roundsTo_self le 0
  rwa [Nat.pow_zero, Nat.mul_one] at self

/-- Rounding does not depend on the unit, if that is a power of two. -/
theorem RoundsTo.scale (h : RoundsTo n r) (k : Nat) : RoundsTo (n * 2 ^ k) (r * 2 ^ k) := by
  obtain ⟨place, q, rfl, less, least, nearest⟩ := h
  rcases least with rfl | least
  · have exact : IsNearest n (2 ^ 0) n := by
      have self := isNearest_of_exact n (2 ^ 0) (Nat.two_pow_pos 0)
      rwa [Nat.pow_zero, Nat.mul_one] at self
    rw [nearest.unique (Nat.two_pow_pos 0) exact, Nat.pow_zero, Nat.mul_one]
    exact roundsTo_self (Nat.le_of_lt less) k
  · refine ⟨place + k, q, ?_, ?_, .inr ?_, ?_⟩
    · rw [two_pow_add_mul, Nat.mul_assoc]
    · rw [← Nat.add_assoc, two_pow_add_mul]
      exact Nat.mul_lt_mul_of_pos_right less (Nat.two_pow_pos k)
    · rw [← Nat.add_assoc, two_pow_add_mul]
      exact Nat.mul_le_mul_right _ least
    · rw [two_pow_add_mul]
      exact nearest.scale (Nat.two_pow_pos k)

end RoundsTo

/-! ## Units -/

/-- How many units one is. -/
def unitsOfOne : Nat := Nat.pow 2 1074

-- The powers are too great to be computed, so their exponents are generalized.

theorem unitsOfOne_pos : 0 < unitsOfOne := by
  unfold unitsOfOne
  generalize 1074 = k
  exact Nat.two_pow_pos k

theorem roundsTo_two_pow (k : Nat) : RoundsTo (Nat.pow 2 k) (Nat.pow 2 k) := by
  have self := @roundsTo_self 1 (by decide) k
  rwa [Nat.one_mul] at self

theorem mul_two_pow_le {n j k l : Nat} (le : n ≤ 2 ^ j) (room : j + k ≤ l) :
    n * Nat.pow 2 k ≤ Nat.pow 2 l :=
  calc n * 2 ^ k
    _ ≤ 2 ^ j * 2 ^ k := Nat.mul_le_mul_right _ le
    _ = 2 ^ (j + k) := (two_pow_add_mul j k).symm
    _ ≤ 2 ^ l := Nat.pow_le_pow_right Nat.two_pos room

/-- In units, the same number is found. -/
theorem roundUnits_eq {n r k : Nat} (rounded : RoundsTo n r)
    (finite : n * Nat.pow 2 k ≤ Binary64.infiniteUnits) :
    Binary64.roundUnits (n * Nat.pow 2 k) 1 = r * Nat.pow 2 k := by
  have scaled : RoundsTo (n * Nat.pow 2 k) (r * Nat.pow 2 k) := rounded.scale k
  have largest : RoundsTo Binary64.infiniteUnits Binary64.infiniteUnits := by
    unfold Binary64.infiniteUnits
    generalize 2098 = k
    exact roundsTo_two_pow k
  have found : Binary64.roundQuotient (n * Nat.pow 2 k)
      (Nat.pow 2 ((n * Nat.pow 2 k).log2 - 52)) * Nat.pow 2 ((n * Nat.pow 2 k).log2 - 52) =
        r * Nat.pow 2 k :=
    (roundsTo_of_isNearest (isNearest_roundQuotient _ (Nat.two_pow_pos _))).unique scaled
  unfold Binary64.roundUnits
  dsimp only
  rw [Nat.div_one, Nat.one_mul, found]
  exact Nat.min_eq_left (scaled.mono finite largest)

/-! ## Integers -/

/-- An integer rounded to 53 significant bits, away from its sign. -/
def IntRoundsTo (i r : Int) : Prop :=
  ∃ m, RoundsTo i.natAbs m ∧ r = if i < 0 then -(m : Int) else m

section Integers

variable {i j r s : Int}

theorem exists_intRoundsTo (i : Int) : ∃ r, IntRoundsTo i r := by
  obtain ⟨m, rounded⟩ := exists_roundsTo i.natAbs
  exact ⟨_, m, rounded, rfl⟩

/-- No integer with 53 bits is nearer. -/
theorem IntRoundsTo.distance_le (h : IntRoundsTo i r) {q : Int} (bits : q.natAbs ≤ 2 ^ 53)
    (place : Nat) : distance i r ≤ distance i (q * (2 ^ place : Nat)) := by
  obtain ⟨m, rounded, rfl⟩ := h
  have nearest := rounded.distance_le bits place
  have size : (q * (2 ^ place : Nat)).natAbs = q.natAbs * 2 ^ place := by
    rw [Int.natAbs_mul, Int.natAbs_natCast]
  rw [← size] at nearest
  generalize q * (2 ^ place : Nat) = other at nearest
  unfold distance at nearest ⊢
  split <;> omega

theorem IntRoundsTo.mono (le : i ≤ j) (first : IntRoundsTo i r) (second : IntRoundsTo j s) :
    r ≤ s := by
  obtain ⟨m, rounded, rfl⟩ := first
  obtain ⟨m', rounded', rfl⟩ := second
  by_cases negative : i < 0
  · by_cases negative' : j < 0
    · have nearer := rounded'.mono (by omega) rounded
      rw [if_pos negative, if_pos negative']
      omega
    · rw [if_pos negative, if_neg negative']
      omega
  · have further := rounded.mono (by omega) rounded'
    rw [if_neg negative, if_neg (by omega)]
    omega

theorem IntRoundsTo.unique (first : IntRoundsTo i r) (second : IntRoundsTo i s) : r = s :=
  Int.le_antisymm (first.mono (Int.le_refl i) second) (second.mono (Int.le_refl i) first)

theorem intRoundsTo_of_le (least : -0x20000000000000 ≤ i) (greatest : i ≤ 0x20000000000000) :
    IntRoundsTo i i := by
  refine ⟨i.natAbs, roundsTo_of_le (by omega), ?_⟩
  split <;> omega

/-- Two integers with the same nearest double-precision number. -/
def SameDouble (i j : Int) : Prop := ∃ r, IntRoundsTo i r ∧ IntRoundsTo j r

theorem SameDouble.symm (h : SameDouble i j) : SameDouble j i := by
  obtain ⟨r, first, second⟩ := h
  exact ⟨r, second, first⟩

theorem sameDouble_iff (first : IntRoundsTo i r) (second : IntRoundsTo j s) :
    SameDouble i j ↔ r = s := by
  constructor
  · rintro ⟨r', first', second'⟩
    rw [first.unique first', second.unique second']
  · rintro rfl
    exact ⟨r, first, second⟩

theorem lt_iff_of_not_sameDouble (apart : ¬ SameDouble i j) (first : IntRoundsTo i r)
    (second : IntRoundsTo j s) : r < s ↔ i < j := by
  rw [sameDouble_iff first second] at apart
  constructor
  · intro less
    by_contra notLess
    exact absurd (second.mono (Int.not_lt.mp notLess) first) (by omega)
  · intro less
    have notGreater := first.mono (Int.le_of_lt less) second
    omega

/-- The neighbours of an integer between -2^53 and 2^53 stay as they are, so that no other integer is
rounded to it. -/
theorem SameDouble.eq_of_small (h : SameDouble i j) (small : i.natAbs < 0x20000000000000) :
    i = j := by
  obtain ⟨r, first, second⟩ := h
  cases first.unique (intRoundsTo_of_le (by omega) (by omega))
  rcases Int.lt_trichotomy j i with less | same | greater
  · have below := second.mono (Int.le_sub_one_of_lt less)
      (intRoundsTo_of_le (by omega) (by omega))
    omega
  · exact same.symm
  · have above := (@intRoundsTo_of_le (i + 1) (by omega) (by omega)).mono greater second
    omega

/-- Integers with the same nearest number differ only where numbers are further apart than one. -/
theorem SameDouble.eq_or_great (h : SameDouble i j) :
    i = j ∨ 0x20000000000000 ≤ i.natAbs ∧ 0x20000000000000 ≤ j.natAbs := by
  by_cases small : i.natAbs < 0x20000000000000
  · exact .inl (h.eq_of_small small)
  · by_cases small' : j.natAbs < 0x20000000000000
    · exact .inl (h.symm.eq_of_small small').symm
    · exact .inr ⟨Nat.not_lt.mp small, Nat.not_lt.mp small'⟩

/-- An integer of 64 bits is ordered by the number that it is rounded to. -/
theorem rank_ofInt (rounded : IntRoundsTo i r) (least : -0x8000000000000000 ≤ i)
    (greatest : i ≤ 0x7FFFFFFFFFFFFFFF) : (Binary64.ofInt i).rank = r * unitsOfOne := by
  obtain ⟨m, rounded, rfl⟩ := rounded
  have finite : i.natAbs * Nat.pow 2 1074 ≤ Binary64.infiniteUnits := by
    unfold Binary64.infiniteUnits
    have room : 63 + 1074 ≤ 2098 := by decide
    revert room
    generalize 1074 = k, 2098 = l
    exact mul_two_pow_le (by omega)
  have units : (Binary64.ofInt i).units = m * unitsOfOne := by
    revert finite
    unfold Binary64.ofInt unitsOfOne
    generalize 1074 = k
    exact roundUnits_eq rounded
  have sign : (Binary64.ofInt i).negative = decide (i < 0) := rfl
  rw [Binary64.rank, units, sign, Int.natCast_mul]
  by_cases negative : i < 0
  · rw [decide_eq_true negative, if_pos rfl, if_pos negative, Int.neg_mul]
  · rw [decide_eq_false negative, if_neg Bool.false_ne_true, if_neg negative]

end Integers

end TabStore.Number
