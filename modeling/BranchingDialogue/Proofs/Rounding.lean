import Mathlib.Algebra.Order.Ring.Int
import BranchingDialogue.Number.Basic

/-! Differences of whole numbers. They are exact up to 53 bits and rounded above, and rounding never turns the
order of two numbers round. -/
namespace BranchingDialogue.Number

section
variable {a b d k n q w : Nat}

theorem roundDiv_mul (hd : 0 < d) (q : Nat) : roundDiv (q * d) d = q := by
  have hdiv : q * d / d = q := Nat.mul_div_cancel q hd
  simp only [roundDiv, hdiv, Nat.mul_mod_left]
  simp
  omega

/-- A common factor of a quotient has no say in rounding. -/
theorem roundDiv_mul_mul (hk : 0 < k) (n d : Nat) : roundDiv (n * k) (d * k) = roundDiv n d := by
  have hgt : 2 * (n % d * k) > d * k ↔ 2 * (n % d) > d := by
    rw [← Nat.mul_assoc]
    exact Nat.mul_lt_mul_right hk
  have heq : 2 * (n % d * k) = d * k ↔ 2 * (n % d) = d := by
    rw [← Nat.mul_assoc]
    exact Nat.mul_right_cancel_iff hk
  simp only [roundDiv, Nat.mul_div_mul_right n d hk, Nat.mul_mod_mul_right, hgt, Bool.beq_eq_decide_eq, heq]

theorem le_roundDiv (n d : Nat) : n / d ≤ roundDiv n d := by
  simp only [roundDiv]
  split <;> omega

theorem roundDiv_le (n d : Nat) : roundDiv n d ≤ n / d + 1 := by
  simp only [roundDiv]
  split <;> omega

/-- Rounding keeps the order of quotients. -/
theorem roundDiv_mono (hab : a ≤ b) (d : Nat) : roundDiv a d ≤ roundDiv b d := by
  rcases Nat.eq_or_lt_of_le (Nat.div_le_div_right (c := d) hab) with hq | hq
  · -- of two quotients with the same whole part, the remainders decide
    have hr : a % d ≤ b % d := by
      have ha := Nat.div_add_mod a d
      have hb := Nat.div_add_mod b d
      rw [hq] at ha
      omega
    simp only [roundDiv, hq, Bool.or_eq_true, Bool.and_eq_true, decide_eq_true_eq, beq_iff_eq]
    split <;> split <;> omega
  · calc roundDiv a d ≤ a / d + 1 := roundDiv_le a d
      _ ≤ b / d := hq
      _ ≤ roundDiv b d := le_roundDiv b d

theorem roundDiv_le_of_le_mul (hd : 0 < d) (h : n ≤ q * d) : roundDiv n d ≤ q := by
  calc roundDiv n d ≤ roundDiv (q * d) d := roundDiv_mono h d
    _ = q := roundDiv_mul hd q

theorem log2_le_of_le_mul (hn : n ≠ 0) (h : n ≤ (2 ^ 53 - 1) * 2 ^ k) : n.log2 ≤ 52 + k := by
  have hpow := Nat.two_pow_pos k
  have hlt : n < 2 ^ (53 + k) := by
    rw [Nat.pow_add]
    omega
  have hlog := (Nat.log2_lt hn).mpr hlt
  omega

/-- The number of bits that a whole number has too many. -/
def excess (n : Nat) : Nat := n.log2 - 52

def lack (n : Nat) : Nat := 52 - n.log2

/-- The nearest whole number that has no more than 53 bits before its zeros; half-way goes to the even one. -/
def nearest (n : Nat) : Nat := roundDiv n (2 ^ excess n) * 2 ^ excess n

theorem nearest_of_lt (h : n < 2 ^ 53) : nearest n = n := by
  have hexcess : excess n = 0 := by
    rcases Nat.eq_zero_or_pos n with rfl | hpos
    · rfl
    · have hlog := (Nat.log2_lt (by omega)).mpr h
      rw [excess]
      omega
  have hround := roundDiv_mul Nat.one_pos n
  rw [Nat.mul_one] at hround
  rw [nearest, hexcess, Nat.pow_zero, hround, Nat.mul_one]

theorem nearest_le (n : Nat) : nearest n ≤ 2 ^ (n.log2 + 1) := by
  rcases Nat.lt_or_ge n (2 ^ 53) with h | h
  · rw [nearest_of_lt h]
    exact Nat.le_of_lt Nat.lt_log2_self
  · have hlog : 53 ≤ n.log2 := (Nat.le_log2 (by omega)).mpr h
    have hsplit : n.log2 + 1 = 53 + excess n := by
      rw [excess]
      omega
    have hquot : n / 2 ^ excess n < 2 ^ 53 := by
      rw [Nat.div_lt_iff_lt_mul (Nat.two_pow_pos _), ← Nat.pow_add, ← hsplit]
      exact Nat.lt_log2_self
    have hround := roundDiv_le n (2 ^ excess n)
    rw [nearest, hsplit, Nat.pow_add]
    exact Nat.mul_le_mul_right _ (by omega)

theorem le_nearest (h : n ≠ 0) : 2 ^ n.log2 ≤ nearest n := by
  rcases Nat.lt_or_ge n (2 ^ 53) with hlt | hge
  · rw [nearest_of_lt hlt]
    exact Nat.log2_self_le h
  · have hlog : 53 ≤ n.log2 := (Nat.le_log2 h).mpr hge
    have hsplit : n.log2 = 52 + excess n := by
      rw [excess]
      omega
    have hquot : 2 ^ 52 ≤ n / 2 ^ excess n := by
      rw [Nat.le_div_iff_mul_le (Nat.two_pow_pos _), ← Nat.pow_add, ← hsplit]
      exact Nat.log2_self_le h
    have hround := le_roundDiv n (2 ^ excess n)
    rw [nearest, hsplit, Nat.pow_add]
    exact Nat.mul_le_mul_right _ (Nat.le_trans hquot hround)

/-- Rounding keeps the order of whole numbers, also of such with different numbers of bits. -/
theorem nearest_mono (hab : a ≤ b) : nearest a ≤ nearest b := by
  rcases Nat.eq_zero_or_pos a with rfl | hpos
  · exact Nat.zero_le _
  · have hlog : a.log2 ≤ b.log2 := by
      apply (Nat.le_log2 (by omega)).mpr
      exact Nat.le_trans (Nat.log2_self_le (by omega)) hab
    rcases Nat.eq_or_lt_of_le hlog with heq | hlt
    · have hexcess : excess a = excess b := by rw [excess, excess, heq]
      rw [nearest, nearest, hexcess]
      exact Nat.mul_le_mul_right _ (roundDiv_mono hab _)
    · calc nearest a ≤ 2 ^ (a.log2 + 1) := nearest_le a
        _ ≤ 2 ^ b.log2 := Nat.pow_le_pow_right Nat.two_pos hlt
        _ ≤ nearest b := le_nearest (by omega)

end

def greatestExcess : Nat := 971

def greatest : Nat := (2 ^ 53 - 1) * 2 ^ greatestExcess

theorem le_greatest {n : Nat} (h : n < 2 ^ 53) : n ≤ greatest :=
  Nat.le_trans (by omega) (Nat.le_mul_of_pos_right (2 ^ 53 - 1) (Nat.two_pow_pos greatestExcess))

def IsWhole : Number → Int → Prop
  | .finite s m e, z => (if s then -1 else 1) * (m : Int) * 2 ^ e.toNat = z * 2 ^ (-e).toNat
  | _, _ => False

section
variable {x : Number} {k m n w : Nat} {e z : Int} {negative : Bool}

theorem isWhole_finite_false : (finite false m e).IsWhole n ↔ m * 2 ^ e.toNat = n * 2 ^ (-e).toNat := by
  simp only [IsWhole, Bool.false_eq_true, if_false, Int.one_mul]
  norm_cast

theorem isWhole_ofNat (n : Nat) : (ofNat n).IsWhole n :=
  isWhole_finite_false.mpr rfl

theorem isNegative_iff_of_isWhole (h : x.IsWhole z) : x.isNegative = true ↔ z < 0 := by
  cases x with
  | infinite s => cases h
  | nan => cases h
  | finite s m e =>
    have hpow : (0 : Int) < 2 ^ e.toNat := Int.pow_pos (by decide)
    have hpow' : (0 : Int) < 2 ^ (-e).toNat := Int.pow_pos (by decide)
    have hsign : z < 0 ↔ (if s then -1 else 1) * (m : Int) < 0 :=
      calc z < 0 ↔ z * 2 ^ (-e).toNat < 0 * 2 ^ (-e).toNat := (Int.mul_lt_mul_right hpow').symm
        _ ↔ (if s then -1 else 1) * (m : Int) * 2 ^ e.toNat < 0 * 2 ^ e.toNat := by
          rw [h, Int.zero_mul, Int.zero_mul]
        _ ↔ (if s then -1 else 1) * (m : Int) < 0 := Int.mul_lt_mul_right hpow
    rw [hsign, isNegative]
    cases s with
    | false => simp
    | true =>
      rw [Bool.true_and, bne_iff_ne, if_pos rfl]
      omega

/-- A number that is a natural number is found to be it, in whatever way it is held. -/
theorem toNat?_of_isWhole (h : x.IsWhole n) : x.toNat? = some n := by
  have hneg : ¬ x.isNegative = true := by
    rw [isNegative_iff_of_isWhole h]
    omega
  cases x with
  | infinite s => cases h
  | nan => cases h
  | finite s m e =>
    have hpos : 0 < 2 ^ (-e).toNat := Nat.two_pow_pos _
    rw [toNat?]
    split
    next hm =>
      subst hm
      have hn : (n : Int) * 2 ^ (-e).toNat = 0 := by
        rw [← h]
        simp
      have hzero : n * 2 ^ (-e).toNat = 0 := by exact_mod_cast hn
      rcases Nat.mul_eq_zero.mp hzero with rfl | hpow
      · rfl
      · omega
    next hm =>
      have hs : s = false := by simpa [isNegative, hm] using hneg
      subst hs
      rw [isWhole_finite_false] at h
      rw [if_neg Bool.false_ne_true]
      split
      next he =>
        have hzero : (-e).toNat = 0 := by omega
        rw [hzero, Nat.pow_zero, Nat.mul_one] at h
        rw [Nat.shiftLeft_eq, h]
      next he =>
        have hzero : e.toNat = 0 := by omega
        have habs : e.natAbs = (-e).toNat := by omega
        rw [hzero, Nat.pow_zero, Nat.mul_one] at h
        rw [habs, Nat.shiftLeft_eq, Nat.shiftRight_eq_div_pow, h, Nat.mul_div_cancel n hpos, if_pos rfl]

theorem log2_mul_two_pow (hw : w ≠ 0) (k : Nat) : (w * 2 ^ k).log2 = w.log2 + k := by
  have hpow := Nat.two_pow_pos k
  have hne : w * 2 ^ k ≠ 0 := Nat.mul_ne_zero hw (by omega)
  rw [Nat.log2_eq_iff hne, Nat.add_right_comm, Nat.pow_add, Nat.pow_add]
  constructor
  · exact Nat.mul_le_mul_right _ (Nat.log2_self_le hw)
  · exact Nat.mul_lt_mul_of_pos_right Nat.lt_log2_self hpow

/-- A whole number over one, written with any power of two: it is brought to 53 bits before the point. -/
theorem scale_whole (w k : Nat) : scale (w * 2 ^ k) (2 ^ k) (-((w.log2 : Int) - 52)) =
    (w * 2 ^ lack w * 2 ^ k, 2 ^ excess w * 2 ^ k) := by
  rw [scale]
  split
  next h =>
    have hlack : lack w = 0 := by
      rw [lack]
      omega
    have habs : (-((w.log2 : Int) - 52)).natAbs = excess w := by
      rw [excess]
      omega
    rw [hlack, habs, Nat.pow_zero, Nat.mul_one, Nat.shiftLeft_eq, Nat.mul_comm (2 ^ k)]
  next h =>
    have hexcess : excess w = 0 := by
      rw [excess]
      omega
    have hnat : (-((w.log2 : Int) - 52)).toNat = lack w := by
      rw [lack]
      omega
    rw [hexcess, hnat, Nat.pow_zero, Nat.one_mul, Nat.shiftLeft_eq, Nat.mul_right_comm]

/-- The 53 bits of a whole number, after rounding. -/
def significand (w : Nat) : Nat := roundDiv (w * 2 ^ lack w) (2 ^ excess w)

theorem le_quotient (hw : w ≠ 0) : 2 ^ 52 ≤ w * 2 ^ lack w / 2 ^ excess w := by
  have hsum : 52 + excess w = w.log2 + lack w := by
    rw [excess, lack]
    omega
  rw [Nat.le_div_iff_mul_le (Nat.two_pow_pos _), ← Nat.pow_add, hsum, Nat.pow_add]
  exact Nat.mul_le_mul_right _ (Nat.log2_self_le hw)

theorem quotient_lt (w : Nat) : w * 2 ^ lack w / 2 ^ excess w < 2 ^ 53 := by
  have hsum : 53 + excess w = w.log2 + 1 + lack w := by
    rw [excess, lack]
    omega
  rw [Nat.div_lt_iff_lt_mul (Nat.two_pow_pos _), ← Nat.pow_add, hsum, Nat.pow_add]
  exact Nat.mul_lt_mul_of_pos_right Nat.lt_log2_self (Nat.two_pow_pos _)

theorem significand_mul (w : Nat) : significand w * 2 ^ excess w = nearest w * 2 ^ lack w := by
  rcases Nat.le_total w.log2 52 with h | h
  · have hexcess : excess w = 0 := Nat.sub_eq_zero_of_le h
    have hround (a : Nat) : roundDiv a 1 = a := by
      have hmul := roundDiv_mul Nat.one_pos a
      rwa [Nat.mul_one] at hmul
    simp only [significand, nearest, hexcess, Nat.pow_zero, hround, Nat.mul_one]
  · have hlack : lack w = 0 := Nat.sub_eq_zero_of_le h
    simp only [significand, nearest, hlack, Nat.pow_zero, Nat.mul_one]

theorem exponentOf_whole (hw : w ≠ 0) (k : Nat) :
    exponentOf (w * 2 ^ k) (2 ^ k) = (w.log2 : Int) - 52 := by
  have hguess : ((w * 2 ^ k).log2 : Int) - ((2 ^ k).log2 : Int) - 52 = (w.log2 : Int) - 52 := by
    rw [log2_mul_two_pow hw, Nat.log2_two_pow]
    omega
  have hquot : ¬ w * 2 ^ lack w * 2 ^ k / (2 ^ excess w * 2 ^ k) < 1 <<< 52 := by
    rw [Nat.mul_div_mul_right _ _ (Nat.two_pow_pos k), Nat.shiftLeft_eq, Nat.one_mul]
    exact Nat.not_lt.mpr (le_quotient hw)
  simp only [exponentOf, hguess, scale_whole, if_neg hquot]
  omega

/-- The nearest number to a whole number is made of its 53 bits, unless it is too great. -/
theorem ofRatio_whole (hw : w ≠ 0) (negative : Bool) (k : Nat) :
    ofRatio negative (w * 2 ^ k) (2 ^ k) =
      if (significand w).log2 + ((w.log2 : Int) - 52) ≥ 1024 then .infinite negative
      else if significand w = 2 ^ 53 then .finite negative (2 ^ 52) ((w.log2 : Int) - 52 + 1)
      else .finite negative (significand w) ((w.log2 : Int) - 52) := by
  have hne : w * 2 ^ k ≠ 0 := Nat.mul_ne_zero hw (by have := Nat.two_pow_pos k; omega)
  simp only [ofRatio, if_neg hne, exponentOf_whole hw, scale_whole, roundDiv_mul_mul (Nat.two_pow_pos k),
    Nat.shiftLeft_eq, Nat.one_mul]
  rfl

theorem isWhole_of_mul (h : m * 2 ^ e.toNat = n * 2 ^ (-e).toNat) (negative : Bool) :
    (finite negative m e).IsWhole ((if negative then -1 else 1) * n) := by
  rw [IsWhole, Int.mul_assoc, Int.mul_assoc]
  congr 1
  exact_mod_cast h

theorem significand_le (w : Nat) : significand w ≤ 2 ^ 53 :=
  Nat.le_trans (roundDiv_le _ _) (quotient_lt w)

/-- Only a number with more than 53 bits can get one more by rounding. -/
theorem lack_eq_zero (h : significand w = 2 ^ 53) : lack w = 0 := by
  refine Decidable.byContradiction fun hlack => ?_
  have hexcess : excess w = 0 := by
    rw [lack] at hlack
    rw [excess]
    omega
  have hlt := quotient_lt w
  have hround := roundDiv_mul Nat.one_pos (w * 2 ^ lack w)
  rw [Nat.mul_one] at hround
  rw [hexcess, Nat.pow_zero, Nat.div_one] at hlt
  rw [significand, hexcess, Nat.pow_zero, hround] at h
  omega

/-- No whole number up to the greatest finite one is rounded to more than that. -/
theorem significand_log2_lt (hw : w ≠ 0) (hle : w ≤ greatest) :
    (significand w).log2 + ((w.log2 : Int) - 52) < 1024 := by
  have hpos := Nat.le_trans (le_quotient hw) (le_roundDiv _ _)
  rw [← significand] at hpos
  have hne : significand w ≠ 0 := by omega
  have htop : greatestExcess = 971 := rfl
  rcases Nat.eq_or_lt_of_le (log2_le_of_le_mul hw hle) with heq | hlt
  · have hlack : lack w = 0 := by
      rw [lack, heq]
      omega
    have hexcess : excess w = greatestExcess := by
      rw [excess, heq]
      omega
    have hbits : significand w ≤ 2 ^ 53 - 1 := by
      rw [significand, hlack, hexcess, Nat.pow_zero, Nat.mul_one]
      exact roundDiv_le_of_le_mul (Nat.two_pow_pos _) hle
    have hlog := (Nat.log2_lt hne).mpr (Nat.lt_of_le_of_lt hbits (by decide : 2 ^ 53 - 1 < 2 ^ 53))
    omega
  · have hbits := Nat.lt_of_le_of_lt (significand_le w) (by decide : 2 ^ 53 < 2 ^ 54)
    have hlog := (Nat.log2_lt hne).mpr hbits
    omega

/-- The nearest number to a whole number that is not too great is a whole number again. -/
theorem isWhole_ofRatio (hle : w ≤ greatest) (negative : Bool) (k : Nat) :
    (ofRatio negative (w * 2 ^ k) (2 ^ k)).IsWhole ((if negative then -1 else 1) * (nearest w : Int)) := by
  rcases Nat.eq_zero_or_pos w with rfl | hpos
  · rw [nearest_of_lt (by decide), Nat.zero_mul, ofRatio, if_pos rfl]
    exact isWhole_of_mul (by simp) negative
  · have hw : w ≠ 0 := by omega
    have hmul := significand_mul w
    rw [ofRatio_whole hw, if_neg (Int.not_le.mpr (significand_log2_lt hw hle))]
    split
    next htop =>
      have hlack := lack_eq_zero htop
      have hnat : ((w.log2 : Int) - 52 + 1).toNat = excess w + 1 := by
        rw [lack] at hlack
        rw [excess]
        omega
      have hneg : (-((w.log2 : Int) - 52 + 1)).toNat = 0 := by
        rw [lack] at hlack
        omega
      apply isWhole_of_mul
      rw [hnat, hneg, Nat.pow_succ']
      rw [htop, hlack] at hmul
      omega
    next =>
      have hnat : ((w.log2 : Int) - 52).toNat = excess w := by
        rw [excess]
        omega
      have hneg : (-((w.log2 : Int) - 52)).toNat = lack w := by
        rw [lack]
        omega
      apply isWhole_of_mul
      rw [hnat, hneg, hmul]

theorem isNegative_ofRatio (hw : w ≠ 0) (k : Nat) : (ofRatio true (w * 2 ^ k) (2 ^ k)).isNegative = true := by
  have hpos := Nat.le_trans (le_quotient hw) (le_roundDiv _ _)
  rw [← significand] at hpos
  rw [ofRatio_whole hw]
  split
  next => rfl
  next =>
    split
    next => rfl
    next =>
      simp [isNegative]
      omega

theorem scale_one (n : Nat) (e : Int) : scale n 1 (min e 0) = (n, 2 ^ (-e).toNat) := by
  rw [scale]
  split
  next h =>
    have habs : (min e 0).natAbs = (-e).toNat := by omega
    rw [habs, Nat.shiftLeft_eq, Nat.one_mul]
  next h =>
    have hup : (min e 0).toNat = 0 := by omega
    have hdown : (-e).toNat = 0 := by omega
    rw [hup, hdown, Nat.shiftLeft_zero, Nat.pow_zero]

/-- The difference to a natural number is taken exactly, and rounded once. -/
theorem exists_sub_ofNat (h : x.IsWhole z) (n : Nat) :
    ∃ k, x.sub (ofNat n) = ofRatio (decide (z < n)) ((z - n).natAbs * 2 ^ k) (2 ^ k) := by
  cases x with
  | infinite s => cases h
  | nan => cases h
  | finite s m e =>
    refine ⟨(-e).toNat, ?_⟩
    have hpow : (0 : Int) < 2 ^ (-e).toNat := Int.pow_pos (by decide)
    have hup : (e - min e 0).toNat = e.toNat := by omega
    have hdown : (0 - min e 0).toNat = (-e).toNat := by omega
    have hleft : (if s then -1 else 1) * ((m <<< e.toNat : Nat) : Int) = z * 2 ^ (-e).toNat := by
      rw [← h, Nat.shiftLeft_eq, Int.mul_assoc]
      norm_cast
    have hright : (1 : Int) * ((n <<< (-e).toNat : Nat) : Int) = n * 2 ^ (-e).toNat := by
      rw [Nat.shiftLeft_eq, Int.one_mul]
      norm_cast
    have hsign : z * 2 ^ (-e).toNat - n * 2 ^ (-e).toNat < 0 ↔ z < n := by
      rw [← Int.sub_mul, ← Int.zero_mul (2 ^ (-e).toNat), Int.mul_lt_mul_right hpow]
      omega
    have habs : (z * 2 ^ (-e).toNat - n * 2 ^ (-e).toNat).natAbs = (z - n).natAbs * 2 ^ (-e).toNat := by
      rw [← Int.sub_mul, Int.natAbs_mul]
      simp
    simp only [sub, ofNat, hup, hdown, hleft, Bool.false_eq_true, if_false, hright, hsign, habs, scale_one]

end
end BranchingDialogue.Number
