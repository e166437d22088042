import ElasticPool.Binary64.Exact
import Mathlib

namespace ElasticPool.Binary64

open Float.Model Float.Model.UnpackedFloat

def value? : UnpackedFloat → Option Rat
  | .infinity _ | .notANumber => none
  | .zero _ => some 0
  | .finite sign mantissa exponent _ => some (sign.apply mantissa * (2 : Rat) ^ exponent)

theorem scaled_eq (n : Nat) (e : Int) : scaled n e = n * (2 : Rat) ^ e := by
  unfold scaled
  split
  · rename_i he
    obtain ⟨k, rfl⟩ := Int.eq_ofNat_of_zero_le he
    simp [Nat.shiftLeft_eq]
  · rename_i he
    obtain ⟨k, hk⟩ := Int.eq_ofNat_of_zero_le (show 0 ≤ -e by omega)
    obtain rfl : e = -k := by omega
    rw [Rat.mkRat_eq_div]
    simp [Nat.shiftLeft_eq, div_eq_mul_inv]

theorem leastNormal_eq : leastNormal = 2 ^ 52 := by decide

theorem toNat_unpackMantissa (w : UInt64) :
    (@unpackMantissa .binary64 w.toBitVec).toNat = w.toNat % leastNormal := by
  simp [unpackMantissa, leastNormal_eq]

theorem toNat_unpackExponent (w : UInt64) :
    (@unpackExponent .binary64 w.toBitVec).toNat = w.toNat / leastNormal % 2048 := by
  simp [unpackExponent, Nat.shiftRight_eq_div_pow, leastNormal_eq]

theorem toNat_one_append (b : BitVec 52) : (1#1 ++ b).toNat = leastNormal + b.toNat := by
  rw [BitVec.toNat_append, ← Nat.shiftLeft_add_eq_or_of_lt b.isLt]
  rfl

def signOf (negative : Bool) : Sign := if negative then .negative else .positive

theorem ofBitVec_unpackSign (w : UInt64) :
    Sign.ofBitVec (@unpackSign .binary64 w.toBitVec) = signOf (w.toNat.testBit 63) := by
  have hzero : @unpackSign .binary64 w.toBitVec = 0#1 ↔ w.toNat.testBit 63 = false := by
    rw [← BitVec.toNat_inj]
    simp [unpackSign, Nat.shiftRight_eq_div_pow, Nat.testBit_eq_decide_div_mod_eq]
  cases hbit : w.toNat.testBit 63 <;> simp [Sign.ofBitVec, hzero, hbit, signOf]

/-- How a word is unpacked, by what its exponent field holds. -/
inductive Unpacks (sign : Sign) (biased fraction : Nat) : UnpackedFloat → Prop
  | special {u : UnpackedFloat} (hmax : biased = 2047) (hvalue : value? u = none) :
      Unpacks sign biased fraction u
  | zero (hmin : biased = 0) (hfraction : fraction = 0) :
    Unpacks sign biased fraction (.zero sign)
  | subnormal (hmin : biased = 0) (hpos : 0 < fraction) :
      Unpacks sign biased fraction (.finite sign fraction (-1074) hpos)
  | normal (hmin : biased ≠ 0) (hmax : biased ≠ 2047) (hpos : 0 < leastNormal + fraction) :
      Unpacks sign biased fraction (.finite sign (leastNormal + fraction) (biased - 1075) hpos)

theorem unpacks (w : UInt64) :
    Unpacks (signOf (w.toNat.testBit 63)) (w.toNat / leastNormal % 2048) (w.toNat % leastNormal)
      (UnpackedFloat.unpack .binary64 w.toBitVec) := by
  unfold UnpackedFloat.unpack
  simp only [ofBitVec_unpackSign]
  rw [← toNat_unpackMantissa, ← toNat_unpackExponent]
  split
  · rename_i hmax
    rw [hmax]
    split <;> exact .special rfl rfl
  · rename_i hmax
    split
    · rename_i hmin
      rw [hmin]
      split
      · rename_i hzero
        rw [hzero]
        exact .zero rfl rfl
      · exact .subnormal rfl _
    · rename_i hmin
      simp only [toNat_one_append]
      exact .normal (fun h => hmin (BitVec.eq_of_toNat_eq h))
        (fun h => hmax (BitVec.eq_of_toNat_eq h)) (Nat.add_pos_left (by decide) _)

theorem Parts.value_eq (p : Parts) :
    p.value = (signOf p.negative).apply p.significand * (2 : Rat) ^ p.exponent := by
  unfold Parts.value
  rw [scaled_eq]
  cases p.negative <;> simp [signOf, Sign.apply]

theorem toRat?_eq (x : Float) : toRat? x = value? x.toModel.unpack := by
  obtain ⟨⟨w, hvalid⟩⟩ := x
  have h := unpacks w
  show (parts? ⟨⟨w, hvalid⟩⟩).map Parts.value = value? (UnpackedFloat.unpack .binary64 w.toBitVec)
  have hparts : parts? ⟨⟨w, hvalid⟩⟩ =
      if w.toNat / leastNormal % 2048 = 2047 then none
      else if w.toNat / leastNormal % 2048 = 0 then
        some ⟨w.toNat.testBit 63, w.toNat % leastNormal, -1074⟩
      else some ⟨w.toNat.testBit 63, leastNormal + w.toNat % leastNormal,
        (w.toNat / leastNormal % 2048 : Nat) - 1075⟩ := rfl
  rw [hparts]
  generalize UnpackedFloat.unpack .binary64 w.toBitVec = u at h
  generalize w.toNat / leastNormal % 2048 = biased at h
  generalize w.toNat % leastNormal = fraction at h
  cases h with
  | special hmax hvalue => simp [hmax, hvalue]
  | zero hmin hfraction =>
    simp [hmin, hfraction, value?, Parts.value_eq]
    cases w.toNat.testBit 63 <;> simp [signOf, Sign.apply]
  | subnormal hmin hpos => simp [hmin, value?, Parts.value_eq]
  | normal hmin hmax hpos => simp [hmin, hmax, value?, Parts.value_eq]

def Canonical : UnpackedFloat → Prop
  | .finite _ mantissa exponent _ =>
      mantissa < 2 ^ 53 ∧ -1074 ≤ exponent ∧ (2 ^ 52 ≤ mantissa ∨ exponent = -1074)
  | .infinity _ | .notANumber | .zero _ => True

theorem canonical_unpack (x : Float.Model) : Canonical x.unpack := by
  have h := unpacks x.toBits
  have hfraction : x.toBits.toNat % leastNormal < 2 ^ 52 := Nat.mod_lt _ (by decide)
  unfold Float.Model.unpack
  generalize UnpackedFloat.unpack .binary64 x.toBits.toBitVec = u at h
  cases h with
  | @special u hmax hvalue =>
      cases u <;> simp_all [value?, Canonical]
  | zero hmin hfraction => trivial
  | subnormal hmin hpos => exact ⟨by omega, by omega, .inr rfl⟩
  | normal hmin hmax hpos =>
      have hleast := leastNormal_eq
      refine ⟨?_, ?_, .inl ?_⟩ <;> omega

theorem lt_of_exponent_lt {m n : Nat} {e f : Int} (hm : m < 2 ^ 53) (hn : 2 ^ 52 ≤ n)
    (hlt : e < f) : (m : Rat) * 2 ^ e < n * 2 ^ f := by
  have hm' : (m : Rat) < 2 ^ (53 : Int) := by exact_mod_cast hm
  have hn' : (2 : Rat) ^ (52 : Int) ≤ n := by exact_mod_cast hn
  calc (m : Rat) * 2 ^ e < 2 ^ (53 : Int) * 2 ^ e := by gcongr
    _ = 2 ^ (53 + e) := (zpow_add₀ (by norm_num) _ _).symm
    _ ≤ 2 ^ (52 + f) := zpow_le_zpow_right₀ (by norm_num) (by omega)
    _ = 2 ^ (52 : Int) * 2 ^ f := zpow_add₀ (by norm_num) _ _
    _ ≤ n * 2 ^ f := by gcongr

theorem compare_magnitudes {m n : Nat} {e f : Int} (hm : m < 2 ^ 53) (hn : n < 2 ^ 53)
    (hnormal : 2 ^ 52 ≤ m ∨ e = -1074) (hnormal' : 2 ^ 52 ≤ n ∨ f = -1074)
    (he : -1074 ≤ e) (hf : -1074 ≤ f) :
    (compare e f).then (compare m n) = compare ((m : Rat) * 2 ^ e) (n * 2 ^ f) := by
  rcases lt_trichotomy e f with hlt | rfl | hgt
  · have hvalue := lt_of_exponent_lt hm (hnormal'.resolve_right (by omega)) hlt
    rw [compare_lt_iff_lt.mpr hlt, compare_lt_iff_lt.mpr hvalue]
    rfl
  · have hpos : (0 : Rat) < 2 ^ e := by positivity
    rw [compare_eq_iff_eq.mpr rfl, Ordering.then]
    rcases lt_trichotomy m n with hlt | rfl | hgt
    · have hvalue : (m : Rat) * 2 ^ e < n * 2 ^ e := by gcongr
      rw [compare_lt_iff_lt.mpr hlt, compare_lt_iff_lt.mpr hvalue]
    · rw [compare_eq_iff_eq.mpr rfl, compare_eq_iff_eq.mpr rfl]
    · have hvalue : (n : Rat) * 2 ^ e < m * 2 ^ e := by gcongr
      rw [compare_gt_iff_gt.mpr hgt, compare_gt_iff_gt.mpr hvalue]
  · have hvalue := lt_of_exponent_lt hn (hnormal.resolve_right (by omega)) hgt
    rw [compare_gt_iff_gt.mpr hgt, compare_gt_iff_gt.mpr hvalue]
    rfl

theorem compare_neg (a b : Rat) : compare (-a) (-b) = (compare a b).swap := by
  rcases lt_trichotomy a b with hlt | rfl | hgt
  · rw [compare_lt_iff_lt.mpr hlt, compare_gt_iff_gt.mpr (neg_lt_neg hlt)]
    rfl
  · rw [compare_eq_iff_eq.mpr rfl, compare_eq_iff_eq.mpr rfl]
    rfl
  · rw [compare_gt_iff_gt.mpr hgt, compare_lt_iff_lt.mpr (neg_lt_neg hgt)]
    rfl

theorem compare_eq {u v : UnpackedFloat} (hu : Canonical u) (hv : Canonical v) {a b : Rat}
    (ha : value? u = some a) (hb : value? v = some b) : u.compare v = some (compare a b) := by
  have hpos (m : Nat) (e : Int) (hm : 0 < m) : (0 : Rat) < m * 2 ^ e := by positivity
  have hlt {a b : Rat} (h : a < b) : some .lt = some (compare a b) := by
    rw [compare_lt_iff_lt.mpr h]
  have hgt {a b : Rat} (h : b < a) : some .gt = some (compare a b) := by
    rw [compare_gt_iff_gt.mpr h]
  rcases u with _ | _ | s | ⟨s, m, e, hm⟩ <;> rcases v with _ | _ | s' | ⟨s', n, f, hn⟩ <;>
    simp only [value?, Option.some.injEq, reduceCtorEq] at ha hb
  · subst ha hb
    rfl
  · subst ha hb
    have hn := hpos n f hn
    cases s'
    · exact hgt (by simpa [Sign.apply] using hn)
    · exact hlt (by simpa [Sign.apply] using hn)
  · subst ha hb
    have hm := hpos m e hm
    cases s
    · exact hlt (by simpa [Sign.apply] using hm)
    · exact hgt (by simpa [Sign.apply] using hm)
  · have h := compare_magnitudes hu.1 hv.1 hu.2.2 hv.2.2 hu.2.1 hv.2.1
    have hm := hpos m e hm
    have hn := hpos n f hn
    subst ha hb
    cases s <;> cases s' <;>
      simp only [UnpackedFloat.compare, Sign.apply, Int.cast_neg, Int.cast_natCast, neg_mul]
    · rw [h, compare_neg]
    · exact hlt (by linarith)
    · exact hgt (by linarith)
    · rw [h]

theorem lt_iff {x y : Float} {a b : Rat} (ha : toRat? x = some a) (hb : toRat? y = some b) :
    x < y ↔ a < b := by
  rw [toRat?_eq] at ha hb
  have h := compare_eq (canonical_unpack _) (canonical_unpack _) ha hb
  show (decide ((x.toModel.unpack.compare y.toModel.unpack == some .lt) = true)) = true ↔ _
  rw [h]
  simp [compare_lt_iff_lt]

theorem le_iff {x y : Float} {a b : Rat} (ha : toRat? x = some a) (hb : toRat? y = some b) :
    x ≤ y ↔ a ≤ b := by
  rw [toRat?_eq] at ha hb
  have h := compare_eq (canonical_unpack _) (canonical_unpack _) ha hb
  show (decide (((x.toModel.unpack.compare y.toModel.unpack).any (·.isLE)) = true)) = true ↔ _
  rw [h]
  simp [Ordering.isLE_iff_ne_gt, compare_gt_iff_gt]

theorem beq_iff {x y : Float} {a b : Rat} (ha : toRat? x = some a) (hb : toRat? y = some b) :
    (x == y) ↔ a = b := by
  rw [toRat?_eq] at ha hb
  have h := compare_eq (canonical_unpack _) (canonical_unpack _) ha hb
  show (x.toModel.unpack.compare y.toModel.unpack == some .eq) = true ↔ _
  rw [h]
  simp

theorem toRat?_of_beq {x y : Float} {b : Rat} (hequal : x == y) (hb : toRat? y = some b) :
    toRat? x = some b := by
  rcases ha : toRat? x with _ | a
  · rw [toRat?_eq] at ha hb
    have h : x.toModel.unpack.compare y.toModel.unpack = some .eq := by
      change (x.toModel.unpack.compare y.toModel.unpack == some .eq) = true at hequal
      simpa using hequal
    generalize x.toModel.unpack = u at ha h
    generalize y.toModel.unpack = v at hb h
    cases u with
    | zero | finite => simp [value?] at ha
    | notANumber => simp [UnpackedFloat.compare] at h
    | infinity sign =>
        cases v with
        | infinity | notANumber => simp [value?] at hb
        | zero | finite => cases sign <;> simp [UnpackedFloat.compare] at h
  · rw [(beq_iff ha hb).mp hequal]

/-- What lies between two finite floats is finite and lies between their values. -/
theorem toRat?_of_mem {x y z : Float} {b c : Rat} (hlow : y ≤ x) (hhigh : x ≤ z)
    (hy : toRat? y = some b) (hz : toRat? z = some c) :
    ∃ a, toRat? x = some a ∧ b ≤ a ∧ a ≤ c := by
  have hbelow : ((y.toModel.unpack.compare x.toModel.unpack).any (·.isLE)) = true :=
    of_decide_eq_true hlow
  have habove : ((x.toModel.unpack.compare z.toModel.unpack).any (·.isLE)) = true :=
    of_decide_eq_true hhigh
  rcases hx : toRat? x with _ | a
  · rw [toRat?_eq] at hx hy hz
    generalize x.toModel.unpack = u, y.toModel.unpack = v, z.toModel.unpack = w at *
    cases u with
    | notANumber => cases habove
    | zero | finite => simp [value?] at hx
    | infinity sign =>
        cases sign with
        | positive => cases w <;> first | cases habove | simp [value?] at hz
        | negative => cases v <;> first | cases hbelow | simp [value?] at hy
  · exact ⟨a, rfl, (le_iff hy hx).mp hlow, (le_iff hx hz).mp hhigh⟩

theorem lt_of_lt_of_value_le {x y z : Float} {a b : Rat} (hlt : x < y) (hy : toRat? y = some a)
    (hz : toRat? z = some b) (hle : a ≤ b) : x < z := by
  rcases hx : toRat? x with _ | c
  · rw [toRat?_eq] at hx hy hz
    have hbelow : (x.toModel.unpack.compare y.toModel.unpack == some .lt) = true :=
      of_decide_eq_true hlt
    show (decide ((x.toModel.unpack.compare z.toModel.unpack == some .lt) = true)) = true
    generalize x.toModel.unpack = u, y.toModel.unpack = v, z.toModel.unpack = w at *
    cases u with
    | notANumber => cases hbelow
    | zero | finite => simp [value?] at hx
    | infinity sign =>
        cases sign with
        | positive => cases v <;> first | cases hbelow | simp [value?] at hy
        | negative => cases w <;> first | rfl | simp [value?] at hz
  · exact (lt_iff hx hz).mpr (((lt_iff hx hy).mp hlt).trans_le hle)

theorem toRat?_zero : toRat? 0 = some 0 := by decide

theorem toRat?_one : toRat? 1 = some 1 := by decide

theorem isFinite_iff (x : Float) : x.isFinite ↔ (toRat? x).isSome := by
  rw [toRat?_eq]
  show x.toModel.unpack.isFinite ↔ _
  cases x.toModel.unpack <;> simp [UnpackedFloat.isFinite, value?]

end ElasticPool.Binary64
