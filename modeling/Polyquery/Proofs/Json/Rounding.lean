import Mathlib
import Polyquery.Memory.Order
import Polyquery.Proofs.Json.Same

/-!
# Floating-Point Numbers in Order

Numbers of different kinds meet as floating-point numbers, so that a whole number is
rounded to the closest one when it is compared with a fraction. What has to be known
of this is little: that there is always a number to compare with, and that rounding
puts nothing out of order. Both are shown here for every whole number, also for those
that are too large and are rounded to infinity.

A floating-point number is compared by its sign, its exponent and its mantissa, in
that order. `FloatValue.rank` puts the three together, so that a comparison of numbers
is one of ranks (`compareFloats_eq`) and inherits the laws of a linear order. This
way of comparing is only right for mantissas that fill their bits, and rounding has
to be followed to see that they do.

A natural number is rounded by shifting bits out of its mantissa, where the last bit
out and the ones before it are kept to decide in which direction to round. `weight`
adds these bits to the mantissa. It is kept in order by each single shift, and that
is the whole reason why rounding is monotone as long as two numbers are shifted by
the same amount. Two that are not are far enough apart (`closest_mono`).

## Main definitions

* `FloatValue.rank`: The place of a number among all numbers.
* `Rounding.leading`, `Rounding.normal`: A shifted and rounded mantissa.
* `Rounding.closest`, `Rounding.closestInt`: The number that a whole number is
  rounded to.
* `Rounding.Canonical`: The numbers that keep their form when packed.

## Theorems

* `compareFloats_eq`: Comparing floating-point numbers.
* `round_scaled`: Rounding, whatever power of two is taken out beforehand.
* `unpack_pack_canonical`: Packing loses nothing.
* `floatValue_ofInt`, `rank_closestInt_mono`: Whole numbers are rounded in order.
-/

namespace Polyquery

open Float.Model Float.Model.UnpackedFloat

section Ranks

/-- The place of a number among all numbers: its sign first, and then what tells the numbers of
    one sign apart. -/
def FloatValue.rank : FloatValue → ℤ ×ₗ ℤ ×ₗ ℤ
  | .zero => toLex (0, toLex (0, 0))
  | .infinity .positive => toLex (2, toLex (0, 0))
  | .infinity .negative => toLex (-2, toLex (0, 0))
  | .finite .positive mantissa exponent => toLex (1, toLex (exponent, mantissa))
  | .finite .negative mantissa exponent => toLex (-1, toLex (-exponent, -mantissa))

/-- A number with the other sign. -/
def FloatValue.neg : FloatValue → FloatValue
  | .zero => .zero
  | .infinity sign => .infinity (-sign)
  | .finite sign mantissa exponent => .finite (-sign) mantissa exponent

theorem compare_neg (a b : ℤ) : compare (-a) (-b) = (compare a b).swap := by
  rw [Int.compare_swap, Int.compare_eq_ite_lt, Int.compare_eq_ite_lt]
  simp only [Int.neg_lt_neg_iff]

theorem compare_natCast (a b : ℕ) : compare (a : ℤ) (b : ℤ) = compare a b := by
  rw [Int.compare_eq_ite_lt, Nat.compare_eq_ite_lt]
  simp only [Int.ofNat_lt]

theorem finiteCompare_eq (s t : Sign) (m n : ℕ) (e f : ℤ) (hm : 0 < m) (hn : 0 < n) :
    (UnpackedFloat.finite s m e hm).compare (.finite t n f hn) =
      some (compare (FloatValue.finite s m e).rank (FloatValue.finite t n f).rank) := by
  cases s <;> cases t
  case negative.negative =>
    change some ((compare e f).then (compare m n)).swap =
      some ((compare (-1 : ℤ) (-1)).then ((compare (-e) (-f)).then (compare (-(m : ℤ)) (-(n : ℤ)))))
    rw [compare_neg e f, compare_neg m n, compare_natCast, Ordering.swap_then]
    rfl
  case positive.positive =>
    change some ((compare e f).then (compare m n)) =
      some ((compare (1 : ℤ) 1).then ((compare e f).then (compare (m : ℤ) (n : ℤ))))
    rw [compare_natCast]
    rfl
  all_goals rfl

theorem unpackedCompare_eq (u v : UnpackedFloat) :
    u.compare v = (unpackedValue u).bind fun a =>
      (unpackedValue v).map fun b => compare a.rank b.rank := by
  cases u with
  | notANumber => rfl
  | infinity s =>
      cases v with
      | finite t => cases s <;> cases t <;> rfl
      | infinity t => cases s <;> cases t <;> rfl
      | _ => cases s <;> rfl
  | zero s =>
      cases v with
      | finite t => cases t <;> rfl
      | infinity t => cases t <;> rfl
      | _ => rfl
  | finite s m e hm =>
      cases v with
      | finite t n f hn => exact finiteCompare_eq s t m n e f hm hn
      | infinity t => cases s <;> cases t <;> rfl
      | _ => cases s <;> rfl

/-- Floating-point numbers are compared by their ranks, and what is no number is in no order. -/
theorem compareFloats_eq (x y : Float) :
    compareFloats x y = (floatValue x).bind fun a =>
      (floatValue y).map fun b => compare a.rank b.rank := by
  have hlt (x y : Float) :
      x < y ↔ (x.toModel.unpack.compare y.toModel.unpack == some .lt) = true :=
    decide_eq_true_iff
  have hbeq : (x == y) = (x.toModel.unpack.compare y.toModel.unpack == some .eq) := rfl
  rw [compareFloats]
  simp only [hlt, hbeq, unpackedCompare_eq]
  change _ = (unpackedValue x.toModel.unpack).bind fun a =>
    (unpackedValue y.toModel.unpack).map fun b => compare a.rank b.rank
  -- What is not a number compares with nothing.
  cases unpackedValue x.toModel.unpack with
  | none => cases unpackedValue y.toModel.unpack <;> rfl
  | some a =>
      cases unpackedValue y.toModel.unpack with
      | none => rfl
      | some b =>
          simp only [Option.bind_some, Option.map_some, beq_iff_eq, Option.some.injEq]
          rw [show compare b.rank a.rank = (compare a.rank b.rank).swap from
            Std.OrientedCmp.eq_swap]
          cases compare a.rank b.rank <;> rfl

theorem toLex_le (a b c a' b' c' : ℤ) :
    toLex (a, toLex (b, c)) ≤ toLex (a', toLex (b', c')) ↔
      a < a' ∨ a = a' ∧ (b < b' ∨ b = b' ∧ c ≤ c') := by
  rw [Prod.Lex.toLex_le_toLex, Prod.Lex.toLex_le_toLex]

theorem rank_neg (a : FloatValue) :
    ∃ kind exponent mantissa : ℤ, a.rank = toLex (kind, toLex (exponent, mantissa)) ∧
      a.neg.rank = toLex (-kind, toLex (-exponent, -mantissa)) := by
  rcases a with _ | sign | ⟨sign, mantissa, exponent⟩
  · exact ⟨0, 0, 0, rfl, rfl⟩
  · cases sign
    · exact ⟨-2, 0, 0, rfl, rfl⟩
    · exact ⟨2, 0, 0, rfl, rfl⟩
  · cases sign
    · refine ⟨-1, -exponent, -mantissa, rfl, ?_⟩
      rw [Int.neg_neg exponent, Int.neg_neg (mantissa : ℤ)]
      rfl
    · exact ⟨1, exponent, mantissa, rfl, rfl⟩

/-- The other sign turns the order around. -/
theorem rank_neg_le (a b : FloatValue) (h : a.rank ≤ b.rank) : b.neg.rank ≤ a.neg.rank := by
  rcases rank_neg a with ⟨i, e, m, ha, haneg⟩
  rcases rank_neg b with ⟨j, f, n, hb, hbneg⟩
  rw [ha, hb, toLex_le] at h
  rw [haneg, hbneg, toLex_le]
  omega

end Ranks

namespace Rounding

section Shifting

/-- A mantissa with the bits that have been shifted out of it. -/
def weight (em : ExtendedMantissa) : Nat :=
  4 * em.mantissa + 2 * em.roundBit.toNat + em.stickyBit.toNat

theorem weight_shiftRightOne {a b : ExtendedMantissa} (h : weight a ≤ weight b) :
    weight a.shiftRightOne ≤ weight b.shiftRightOne := by
  rcases a with ⟨m, r, s⟩
  rcases b with ⟨n, t, u⟩
  have hbit (k : Nat) : (k % 2 != 0).toNat = k % 2 := by
    rcases Nat.mod_two_eq_zero_or_one k with h | h <;> rw [h] <;> rfl
  simp only [weight, ExtendedMantissa.shiftRightOne, hbit] at h ⊢
  cases r <;> cases s <;> cases t <;> cases u <;>
    simp only [Bool.toNat_false, Bool.toNat_true, Bool.or_true, Bool.or_false] at h ⊢ <;>
    omega

theorem shiftRight_succ (em : ExtendedMantissa) (k : Nat) :
    em >>> (k + 1) = (em >>> k).shiftRightOne := rfl

theorem shiftRight_add (em : ExtendedMantissa) (j k : Nat) : em >>> (j + k) = em >>> j >>> k := by
  induction k with
  | zero => rfl
  | succ k ih => rw [← Nat.add_assoc, shiftRight_succ, shiftRight_succ, ih]

/-- Shifting keeps the order. -/
theorem weight_shiftRight {a b : ExtendedMantissa} (h : weight a ≤ weight b) (k : Nat) :
    weight (a >>> k) ≤ weight (b >>> k) := by
  induction k with
  | zero => exact h
  | succ k ih => exact weight_shiftRightOne ih

theorem mantissa_shiftRight (em : ExtendedMantissa) (k : Nat) :
    (em >>> k).mantissa = em.mantissa / 2 ^ k := by
  induction k with
  | zero => exact (Nat.div_one _).symm
  | succ k ih =>
      rw [shiftRight_succ, ExtendedMantissa.shiftRightOne, ih, Nat.div_div_eq_div_mul,
        Nat.pow_succ]

/-- Nothing but zeros is shifted out of a multiple. -/
theorem shiftRight_scale (m t : Nat) :
    ExtendedMantissa.mk (m * 2 ^ t) false false >>> t = ExtendedMantissa.mk m false false := by
  induction t generalizing m with
  | zero => rw [Nat.pow_zero, Nat.mul_one]; rfl
  | succ t ih =>
      have heven : (m * 2 % 2 != 0) = false := by
        rw [Nat.mul_mod_left]
        rfl
      rw [shiftRight_succ, Nat.pow_succ', ← Nat.mul_assoc, ih, ExtendedMantissa.shiftRightOne,
        heven, Nat.mul_div_left m (by decide), Bool.or_false]

theorem roundedMantissa_mono {a b : ExtendedMantissa} (h : weight a ≤ weight b) :
    a.roundedMantissa ≤ b.roundedMantissa := by
  rcases a with ⟨m, r, s⟩
  rcases b with ⟨n, t, u⟩
  simp only [weight] at h
  cases r <;> cases s <;> cases t <;> cases u <;>
    simp only [Bool.toNat_false, Bool.toNat_true, ExtendedMantissa.roundedMantissa,
      ExtendedMantissa.accuracy, Accuracy.roundToNearestEven] at h ⊢ <;>
    omega

theorem roundedMantissa_bounds (em : ExtendedMantissa) :
    em.mantissa ≤ em.roundedMantissa ∧ em.roundedMantissa ≤ em.mantissa + 1 := by
  rcases em with ⟨m, r, s⟩
  cases r <;> cases s <;>
    simp only [ExtendedMantissa.roundedMantissa,
      ExtendedMantissa.accuracy, Accuracy.roundToNearestEven] <;>
    omega

/-- A mantissa that is shifted and then rounded. -/
def leading (m shift : Nat) : Nat :=
  (ExtendedMantissa.mk m false false >>> shift).roundedMantissa

theorem leading_mono {m n : Nat} (h : m ≤ n) (shift : Nat) : leading m shift ≤ leading n shift := by
  apply roundedMantissa_mono
  apply weight_shiftRight
  simp only [weight, Bool.toNat_false]
  omega

theorem leading_scale (m shift t : Nat) : leading (m * 2 ^ t) (t + shift) = leading m shift := by
  rw [leading, shiftRight_add, shiftRight_scale, leading]

/-- A number that is shifted to 53 bits has 53 bits after rounding, or it is the next power of
    two. -/
theorem leading_bounds (m shift : Nat) (hm : m ≠ 0) (h : m.log2 = shift + 52) :
    2 ^ 52 ≤ leading m shift ∧ leading m shift ≤ 2 ^ 53 := by
  have hbounds := roundedMantissa_bounds (ExtendedMantissa.mk m false false >>> shift)
  rw [mantissa_shiftRight] at hbounds
  have hlow : 2 ^ 52 ≤ m / 2 ^ shift := by
    rw [Nat.le_div_iff_mul_le (Nat.two_pow_pos shift), ← Nat.pow_add, Nat.add_comm, ← h]
    exact Nat.log2_self_le hm
  have hhigh : m / 2 ^ shift < 2 ^ 53 := by
    rw [Nat.div_lt_iff_lt_mul (Nat.two_pow_pos shift), ← Nat.pow_add]
    have hlt := Nat.lt_log2_self (n := m)
    rwa [h, show shift + 52 + 1 = 53 + shift by omega] at hlt
  exact ⟨hlow.trans hbounds.1, hbounds.2.trans hhigh⟩

theorem log2_scale (m t : Nat) (hm : m ≠ 0) : (m * 2 ^ t).log2 = m.log2 + t := by
  induction t with
  | zero => rw [Nat.pow_zero, Nat.mul_one, Nat.add_zero]
  | succ t ih =>
      rw [Nat.pow_succ', Nat.mul_left_comm,
        Nat.log2_two_mul (Nat.mul_ne_zero hm (Nat.ne_of_gt (Nat.two_pow_pos t))), ih, Nat.add_assoc]

end Shifting

section Closest

/-- A mantissa and its exponent, where the mantissa may be the power of two that has one bit too
    many. -/
def normal (m : Nat) (e : Int) : Nat × Int :=
  if m < 2 ^ 53 then (m, e) else (2 ^ 52, e + 1)

theorem normal_bounds {m : Nat} (e : Int) (h : 2 ^ 52 ≤ m) :
    2 ^ 52 ≤ (normal m e).1 ∧ (normal m e).1 < 2 ^ 53 ∧ e ≤ (normal m e).2 := by
  by_cases hm : m < 2 ^ 53
  · rw [normal, if_pos hm]
    exact ⟨h, hm, Int.le_refl e⟩
  · rw [normal, if_neg hm]
    exact ⟨Nat.le_refl _, Nat.pow_lt_pow_right (by decide) (by decide), by omega⟩

theorem normal_mono {m n : Nat} (e : Int) (h : m ≤ n) :
    (normal m e).2 < (normal n e).2 ∨
      (normal m e).2 = (normal n e).2 ∧ (normal m e).1 ≤ (normal n e).1 := by
  by_cases hn : n < 2 ^ 53
  · rw [normal, normal, if_pos (Nat.lt_of_le_of_lt h hn), if_pos hn]
    exact .inr ⟨rfl, h⟩
  · by_cases hm : m < 2 ^ 53
    · rw [normal, normal, if_pos hm, if_neg hn]
      exact .inl (Int.lt_succ e)
    · rw [normal, normal, if_neg hm, if_neg hn]
      exact .inr ⟨rfl, Nat.le_refl _⟩

theorem target_eq (m : Nat) (e : Int) (h : -1022 ≤ (m.log2 : Int) + e) :
    Format.binary64.targetExponent (totalExponent m e) = m.log2 + e - 52 := by
  simp only [Format.targetExponent, totalExponent, Format.mantissaBits, Format.minExponent]
  omega

theorem shiftToTargetExponent_eq (m : Nat) (e : Int) (shift : Nat) (h : m.log2 = shift + 52)
    (he : -1022 ≤ (m.log2 : Int) + e) :
    shiftToTargetExponent Format.binary64 m e .exact =
      (ExtendedMantissa.mk m false false >>> shift, e + shift) := by
  have hshift : (Format.binary64.targetExponent (totalExponent m e) - e).toNat = shift := by
    rw [target_eq m e he]
    omega
  rw [shiftToTargetExponent, shiftToExponent, hshift]
  rfl

theorem roundWithAccuracy_eq {m : Nat} {e f g : Int} {first last : ExtendedMantissa}
    (hfirst : shiftToTargetExponent Format.binary64 m e .exact = (first, f))
    (hlast : shiftToTargetExponent Format.binary64 first.roundedMantissa f .exact = (last, g))
    (hpos : 0 < last.mantissa) :
    roundWithAccuracy Format.binary64 .positive m e .exact =
      .finite .positive last.mantissa g hpos := by
  rw [roundWithAccuracy]
  simp only [hfirst, hlast]
  rw [dif_neg (Nat.ne_of_gt hpos)]

/-- Rounding shifts a mantissa to 53 bits, and once more if rounding has made it a bit longer. -/
theorem round_eq (m : Nat) (e : Int) (shift : Nat) (hm : m ≠ 0) (h : m.log2 = shift + 52)
    (he : -1022 ≤ (m.log2 : Int) + e) :
    ∃ hpos, roundWithAccuracy Format.binary64 .positive m e .exact =
      .finite .positive (normal (leading m shift) (e + shift)).1
        (normal (leading m shift) (e + shift)).2 hpos := by
  have hbounds := leading_bounds m shift hm h
  have hfirst := shiftToTargetExponent_eq m e shift h he
  -- Rounding up may carry into one more bit, and then the mantissa is shifted once more.
  by_cases hlt : leading m shift < 2 ^ 53
  · have hlog : (leading m shift).log2 = 0 + 52 :=
      (Nat.log2_eq_iff (by omega)).mpr ⟨hbounds.1, hlt⟩
    have hlast := shiftToTargetExponent_eq (leading m shift) (e + shift) 0 hlog (by omega)
    rw [Int.natCast_zero, Int.add_zero] at hlast
    rw [normal, if_pos hlt]
    exact ⟨_, roundWithAccuracy_eq hfirst hlast (Nat.lt_of_lt_of_le (by decide) hbounds.1)⟩
  · have hcarry : leading m shift = 2 ^ 53 := by omega
    have hlog : (leading m shift).log2 = 1 + 52 := by
      rw [hcarry, Nat.log2_two_pow]
    have hlast := shiftToTargetExponent_eq (leading m shift) (e + shift) 1 hlog (by omega)
    have hpos : 0 < (ExtendedMantissa.mk (leading m shift) false false >>> 1).mantissa := by
      rw [mantissa_shiftRight, hcarry]
      decide
    have hrounded := roundWithAccuracy_eq hfirst hlast hpos
    simp only [mantissa_shiftRight, hcarry] at hrounded
    rw [normal, if_neg hlt]
    exact ⟨_, hrounded⟩

/-- The mantissa and the exponent of the number that a natural number is rounded to. -/
def closest (n : Nat) : Nat × Int :=
  normal (leading (n * 2 ^ 52) n.log2) (n.log2 - 52)

/-- A natural number is rounded to the same number from wherever its mantissa is shifted. -/
theorem round_scaled (n k : Nat) (hn : n ≠ 0) (hk : 52 ≤ n.log2 + k) :
    ∃ hpos, roundWithAccuracy Format.binary64 .positive (n * 2 ^ k) (-k) .exact =
      .finite .positive (closest n).1 (closest n).2 hpos := by
  obtain ⟨shift, hshift⟩ := Nat.exists_eq_add_of_le hk
  have hlog := log2_scale n k hn
  have hround := round_eq (n * 2 ^ k) (-k) shift
    (Nat.mul_ne_zero hn (Nat.ne_of_gt (Nat.two_pow_pos k))) (by omega) (by omega)
  have hleading : leading (n * 2 ^ k) shift = leading (n * 2 ^ 52) n.log2 := by
    rw [← leading_scale (n * 2 ^ k) shift 52, ← leading_scale (n * 2 ^ 52) n.log2 k,
      Nat.mul_right_comm, ← hshift, Nat.add_comm k]
  have hexponent : -(k : Int) + shift = n.log2 - 52 := by omega
  rwa [hleading, hexponent] at hround

theorem closest_bounds {n : Nat} (hn : n ≠ 0) :
    2 ^ 52 ≤ (closest n).1 ∧ (closest n).1 < 2 ^ 53 ∧ (n.log2 : Int) - 52 ≤ (closest n).2 := by
  have hne : n * 2 ^ 52 ≠ 0 := Nat.mul_ne_zero hn (by decide)
  exact normal_bounds _ (leading_bounds _ _ hne (log2_scale n 52 hn)).1

/-- Rounding keeps the order, by exponents first and then by mantissas. -/
theorem closest_mono {m n : Nat} (hm : m ≠ 0) (h : m ≤ n) :
    (closest m).2 < (closest n).2 ∨
      (closest m).2 = (closest n).2 ∧ (closest m).1 ≤ (closest n).1 := by
  have hle : m.log2 ≤ n.log2 := (Nat.le_log2 (by omega)).mpr ((Nat.log2_self_le hm).trans h)
  rcases Nat.eq_or_lt_of_le hle with hlog | hlog
  · rw [closest, closest, hlog]
    exact normal_mono _ (leading_mono (Nat.mul_le_mul_right _ h) _)
  -- The longer number has the greater exponent, unless the shorter one is rounded up to a power
  -- of two. Then no mantissa is smaller.
  · have hbounds := closest_bounds (n := n) (by omega)
    rw [closest, normal]
    split
    · exact .inl (by omega)
    · rcases Int.lt_or_eq_of_le (show (m.log2 : Int) - 52 + 1 ≤ (closest n).2 by omega)
        with hlt | heq
      · exact .inl hlt
      · exact .inr ⟨heq, hbounds.1⟩

end Closest

section Packing

theorem unpack_pack_infinity (s : Sign) :
    UnpackedFloat.unpack Format.binary64 (UnpackedFloat.pack Format.binary64 (.infinity s)) =
      .infinity s := by
  cases s <;> rfl

theorem unpack_pack_zero (s : Sign) :
    UnpackedFloat.unpack Format.binary64 (UnpackedFloat.pack Format.binary64 (.zero s)) =
      .zero s := by
  cases s <;> rfl

theorem toNat_implicit (m : Nat) (hlow : 2 ^ 52 ≤ m) (hhigh : m < 2 ^ 53) :
    (1#1 ++ BitVec.ofNat 52 m).toNat = m := by
  rw [BitVec.toNat_append, ← Nat.shiftLeft_add_eq_or_of_lt (BitVec.isLt _), BitVec.toNat_ofNat,
    Nat.shiftLeft_eq, BitVec.toNat_ofNat]
  omega

theorem ofNat_ne {a b : Nat} (ha : a < 2 ^ 11) (hb : b < 2 ^ 11) (h : a ≠ b) :
    BitVec.ofNat 11 a ≠ BitVec.ofNat 11 b := by
  intro heq
  have hnat := congrArg BitVec.toNat heq
  rw [BitVec.toNat_ofNat, BitVec.toNat_ofNat, Nat.mod_eq_of_lt ha, Nat.mod_eq_of_lt hb] at hnat
  exact h hnat

/-- A number with a full mantissa is kept as it is, or it is too large and becomes infinite. -/
theorem unpack_pack_finite (s : Sign) (m : Nat) (e : Int) (hm : 0 < m) (hlow : 2 ^ 52 ≤ m)
    (hhigh : m < 2 ^ 53) (he : -1074 ≤ e) :
    UnpackedFloat.unpack Format.binary64 (UnpackedFloat.pack Format.binary64 (.finite s m e hm)) =
      if e ≤ 971 then .finite s m e hm else .infinity s := by
  -- The mantissa has its leading bit where the format leaves it out.
  have hlog : m.log2 = 52 := (Nat.log2_eq_iff (by omega)).mpr ⟨hlow, hhigh⟩
  have hbias : (e + (Format.binary64.exponentBias : Int) +
      (Format.binary64.mantissaBitsWithoutImplicit : Int)).toNat = (e + 1075).toNat := by
    simp only [Format.exponentBias]
    omega
  rw [UnpackedFloat.pack]
  simp only [hlog, hbias]
  by_cases hfits : e ≤ 971
  · -- The biased exponent is neither all zeros nor all ones, so it is read as a normal number.
    have hzero : BitVec.ofNat 11 (e + 1075).toNat ≠ 0#11 :=
      ofNat_ne (by omega) (by omega) (by omega)
    have hones : BitVec.ofNat 11 (e + 1075).toNat ≠ -1#11 :=
      ofNat_ne (b := 2047) (by omega) (by omega) (by omega)
    have hexponent : ((BitVec.ofNat 11 (e + 1075).toNat).toNat : Int) -
        ((Format.binary64.exponentBias : Int) + ((52 : Nat) : Int)) = e := by
      rw [BitVec.toNat_ofNat, Nat.mod_eq_of_lt (by omega)]
      simp only [Format.exponentBias]
      omega
    rw [if_neg (by omega), if_pos (show 52 + 1 = Format.binary64.mantissaBits from rfl),
      if_pos hfits, UnpackedFloat.unpack]
    simp only [unpackMantissa_packComponents, unpackExponent_packComponents,
      unpackSign_packComponents, Sign.ofBitVec_toBitVec, toNat_implicit m hlow hhigh, if_neg hones,
      if_neg hzero]
    rw [hexponent]
  · -- A larger exponent does not fit, and an infinity takes its place.
    rw [if_pos (by omega), if_neg hfits]
    exact unpack_pack_infinity s

/-- The numbers that keep their form when packed, but for the smallest ones. -/
def Canonical : UnpackedFloat → Prop
  | .notANumber => False
  | .zero _ => True
  | .infinity _ => True
  | .finite _ m e _ => 2 ^ 52 ≤ m ∧ m < 2 ^ 53 ∧ -1074 ≤ e ∧ e ≤ 971

theorem unpack_pack_canonical (u : UnpackedFloat) (h : Canonical u) :
    (Float.Model.pack u).unpack = u := by
  change UnpackedFloat.unpack Format.binary64 (UnpackedFloat.pack Format.binary64 u) = u
  cases u with
  | notANumber => exact h.elim
  | zero s => exact unpack_pack_zero s
  | infinity s => exact unpack_pack_infinity s
  | finite s m e hm =>
      rcases h with ⟨hlow, hhigh, he, hfits⟩
      rw [unpack_pack_finite s m e hm hlow hhigh he, if_pos hfits]

theorem canonical_neg (u : UnpackedFloat) (h : Canonical u) : Canonical u.neg := by
  cases u <;> exact h

theorem unpackedValue_neg (u : UnpackedFloat) :
    unpackedValue u.neg = (unpackedValue u).map FloatValue.neg := by
  cases u <;> rfl

end Packing

section WholeNumbers

/-- The number that a natural number is rounded to. -/
def closestNat (n : Nat) : FloatValue :=
  if n = 0 then .zero
  else if (closest n).2 ≤ 971 then .finite .positive (closest n).1 (closest n).2
  else .infinity .positive

/-- The number that a whole number is rounded to. -/
def closestInt : Int → FloatValue
  | .ofNat n => closestNat n
  | .negSucc n => (closestNat (n + 1)).neg

/-- A floating-point number stands for a number, in a form that is kept. -/
def Stands (x : Float) (value : FloatValue) : Prop :=
  Canonical x.toModel.unpack ∧ floatValue x = some value

theorem stands_rounded (n k : Nat) (hn : n ≠ 0) (hk : 52 ≤ n.log2 + k) :
    Stands (Float.ofModel (Float.Model.pack
      (roundWithAccuracy Format.binary64 .positive (n * 2 ^ k) (-k) .exact))) (closestNat n) := by
  rcases round_scaled n k hn hk with ⟨hpos, hround⟩
  rcases closest_bounds hn with ⟨hlow, hhigh, hexp⟩
  have hunpack :=
    unpack_pack_finite .positive (closest n).1 (closest n).2 hpos hlow hhigh (by omega)
  rw [hround, Stands, floatValue, closestNat, if_neg hn]
  change Canonical (UnpackedFloat.unpack Format.binary64 (UnpackedFloat.pack Format.binary64 _)) ∧
    unpackedValue (UnpackedFloat.unpack Format.binary64 (UnpackedFloat.pack Format.binary64 _)) = _
  rw [hunpack]
  by_cases hfits : (closest n).2 ≤ 971
  · rw [if_pos hfits, if_pos hfits]
    exact ⟨⟨hlow, hhigh, by omega, hfits⟩, rfl⟩
  · rw [if_neg hfits, if_neg hfits]
    exact ⟨trivial, rfl⟩

theorem stands_neg (x : Float) (value : FloatValue) (h : Stands x value) :
    Stands x.neg value.neg := by
  have hunpack : x.neg.toModel.unpack = x.toModel.unpack.neg :=
    unpack_pack_canonical _ (canonical_neg _ h.1)
  refine ⟨?_, ?_⟩
  · rw [hunpack]
    exact canonical_neg _ h.1
  · have hvalue : unpackedValue x.toModel.unpack = some value := h.2
    rw [floatValue, hunpack, unpackedValue_neg, hvalue, Option.map_some]

theorem ofNat_eq (n : Nat) : Float.ofNat n = Float.ofScientific n false 0 := rfl

theorem ofScientific_eq (n : Nat) (hn : n ≠ 0) :
    UnpackedFloat.ofScientific Format.binary64 n 0 =
      roundWithAccuracy Format.binary64 .positive (n * 2 ^ 53) (-(53 : Nat)) .exact := by
  have hhigh : ¬ (0 : Int) > 2 ^ Format.binary64.exponentBits := by decide
  have hlow : ¬ (0 : Int) < -((2 ^ Format.binary64.exponentBits : Int) + n.log2) := by
    change ¬ (0 : Int) < -((2 : Int) ^ 11 + n.log2)
    omega
  have hbits : Format.binary64.mantissaBits = 53 := rfl
  rw [UnpackedFloat.ofScientific, dif_neg hn, if_neg hhigh, if_neg hlow,
    if_pos (Int.le_refl 0)]
  simp only [UnpackedFloat.mul, hbits, Nat.shiftLeft_eq, Int.toNat_zero, Nat.pow_zero, Nat.mul_one,
    Int.add_zero]
  rfl

/-- Numbers with more than 53 bits are rounded. -/
theorem stands_large (n : Nat) (h : 2 ^ 53 ≤ n) : Stands (Float.ofNat n) (closestNat n) := by
  have hn : n ≠ 0 := by omega
  rw [ofNat_eq, Float.ofScientific, dif_neg (by omega)]
  simp only [Bool.false_eq_true, if_false]
  change Stands (Float.ofModel (Float.Model.pack
    (UnpackedFloat.ofScientific Format.binary64 n 0))) _
  rw [ofScientific_eq n hn]
  exact stands_rounded n 53 hn (by omega)

theorem ofUInt64_eq (n : Nat) (hn : n ≠ 0) (h : n < 2 ^ 64) :
    UnpackedFloat.ofUInt64 Format.binary64 n.toUInt64 =
      roundWithAccuracy Format.binary64 .positive (n * 2 ^ (52 - n.log2))
        (-(52 - n.log2 : Nat)) .exact := by
  have hcompare : compare (n : Int) 0 = .gt := Int.compare_eq_gt.mpr (by omega)
  have hnat : n.toUInt64.toNat = n := UInt64.toNat_ofNat_of_lt h
  have hshift : (-Format.binary64.targetExponent (totalExponent n 0)).toNat = 52 - n.log2 := by
    rw [target_eq n 0 (by omega)]
    omega
  rw [UnpackedFloat.ofUInt64, UnpackedFloat.ofNat, UnpackedFloat.ofInt, UnpackedFloat.normalize,
    hnat, hcompare]
  simp only [Int.toNat_natCast, UnpackedFloat.round, decreaseExponent, Nat.shiftLeft_eq,
    Int.zero_sub, hshift]

theorem unpack_toFloat (n : Nat) (hn : n ≠ 0) (h : n < 2 ^ 53) :
    ∃ hpos, n.toUInt64.toFloat.toModel.unpack =
      .finite .positive (n * 2 ^ (52 - n.log2)) (-(52 - n.log2 : Nat)) hpos := by
  have hlog : n.log2 ≤ 52 := Nat.lt_succ_iff.mp ((Nat.log2_lt hn).mpr h)
  have hscaled : n * 2 ^ (52 - n.log2) ≠ 0 :=
    Nat.mul_ne_zero hn (Nat.ne_of_gt (Nat.two_pow_pos _))
  have hlog2 : (n * 2 ^ (52 - n.log2)).log2 = 0 + 52 := by
    rw [log2_scale n _ hn]
    omega
  have hbounds := (Nat.log2_eq_iff hscaled).mp hlog2
  have hpos : 0 < n * 2 ^ (52 - n.log2) := Nat.pos_of_ne_zero hscaled
  -- There is nothing to be shifted out.
  have hleading : leading (n * 2 ^ (52 - n.log2)) 0 = n * 2 ^ (52 - n.log2) := rfl
  rcases round_eq _ (-(52 - n.log2 : Nat)) 0 hscaled hlog2 (by omega) with ⟨hround, heq⟩
  have hfits : -((52 - n.log2 : Nat) : Int) ≤ 971 := by omega
  change ∃ hpos, UnpackedFloat.unpack Format.binary64 (UnpackedFloat.pack Format.binary64
    (UnpackedFloat.ofUInt64 Format.binary64 n.toUInt64)) = _
  rw [ofUInt64_eq n hn (by omega), heq]
  simp only [hleading, normal, if_pos hbounds.2, Int.natCast_zero, Int.add_zero]
  rw [unpack_pack_finite .positive _ _ hpos hbounds.1 hbounds.2 (by omega), if_pos hfits]
  exact ⟨hpos, rfl⟩

theorem unpack_one : (Float.exactlyRepresentablePowersOfTen[0]).toModel.unpack =
    .finite .positive (2 ^ 52) (-52) (by decide) := by
  rfl

/-- Numbers with up to 53 bits are multiplied by one, and that rounds them once more. -/
theorem stands_small (n : Nat) (hn : n ≠ 0) (h : n < 2 ^ 53) :
    Stands (Float.ofNat n) (closestNat n) := by
  have hlog : n.log2 ≤ 52 := Nat.lt_succ_iff.mp ((Nat.log2_lt hn).mpr h)
  rcases unpack_toFloat n hn h with ⟨hpos, hfloat⟩
  rw [ofNat_eq, Float.ofScientific, dif_pos (by omega)]
  simp only [Bool.false_eq_true, if_false]
  change Stands (Float.ofModel (Float.Model.pack (UnpackedFloat.mul Format.binary64
    n.toUInt64.toFloat.toModel.unpack
    (Float.exactlyRepresentablePowersOfTen[0]).toModel.unpack))) _
  rw [hfloat, unpack_one]
  change Stands (Float.ofModel (Float.Model.pack (roundWithAccuracy Format.binary64 .positive
    (n * 2 ^ (52 - n.log2) * 2 ^ 52) (-(52 - n.log2 : Nat) + -52) .exact))) _
  have hexponent : -((52 - n.log2 : Nat) : Int) + -52 = -((52 - n.log2 + 52 : Nat) : Int) := by
    omega
  rw [Nat.mul_assoc, ← Nat.pow_add, hexponent]
  exact stands_rounded n _ hn (by omega)

theorem stands_ofNat (n : Nat) : Stands (Float.ofNat n) (closestNat n) := by
  by_cases hn : n = 0
  · subst hn
    exact ⟨trivial, rfl⟩
  · by_cases h : n < 2 ^ 53
    · exact stands_small n hn h
    · exact stands_large n (by omega)

/-- There is a number next to every whole number. -/
theorem floatValue_ofInt (n : Int) : floatValue (Float.ofInt n) = some (closestInt n) := by
  cases n with
  | ofNat n => exact (stands_ofNat n).2
  | negSucc n => exact (stands_neg _ _ (stands_ofNat (n + 1))).2

theorem rank_closestNat {n : Nat} (hn : n ≠ 0) : (closestNat n).rank =
    if (closest n).2 ≤ 971 then toLex (1, toLex ((closest n).2, ((closest n).1 : ℤ)))
    else toLex (2, toLex (0, 0)) := by
  rw [closestNat, if_neg hn]
  split <;> rfl

theorem rank_closestNat_mono {m n : Nat} (h : m ≤ n) :
    (closestNat m).rank ≤ (closestNat n).rank := by
  by_cases hm : m = 0
  · subst hm
    by_cases hn : n = 0
    · rw [hn]
    · rw [rank_closestNat hn, closestNat, if_pos rfl, FloatValue.rank]
      split <;> rw [toLex_le] <;> omega
  · have hmono := closest_mono hm h
    rw [rank_closestNat hm, rank_closestNat (by omega)]
    split <;> split <;> rw [toLex_le] <;> omega

/-- Rounding whole numbers puts nothing out of order. -/
theorem rank_closestInt_mono {m n : Int} (h : m ≤ n) :
    (closestInt m).rank ≤ (closestInt n).rank := by
  cases n with
  | ofNat n =>
      cases m with
      | ofNat m => exact rank_closestNat_mono (Int.ofNat_le.mp h)
      | negSucc m =>
          have hzero : (closestNat (m + 1)).neg.rank ≤ FloatValue.zero.rank :=
            rank_neg_le .zero _ (rank_closestNat_mono (Nat.zero_le _))
          exact hzero.trans (rank_closestNat_mono (Nat.zero_le n))
  | negSucc n =>
      cases m with
      | ofNat m => exact absurd ((Int.natCast_nonneg m).trans h) (Int.negSucc_not_nonneg n).mp
      | negSucc m => exact rank_neg_le _ _ (rank_closestNat_mono (by omega))

end WholeNumbers

end Rounding

end Polyquery
