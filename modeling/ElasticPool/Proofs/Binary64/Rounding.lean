import ElasticPool.Proofs.Binary64.Decoding
/-!
A result is rounded by shifting its mantissa to the exponent of the format, where
two bits keep what falls off.  They hold enough for the mantissa to come out as the
scaled number rounded half to even, which is an increasing function of the number.
-/

namespace ElasticPool.Binary64

open Float.Model Float.Model.UnpackedFloat

theorem roundHalfEven_of_floor {q : Rat} {n : Int} (hfloor : ⌊q⌋ = n) :
    roundHalfEven q = if q < n + 1 / 2 then n else if n + 1 / 2 < q then n + 1
      else if n % 2 = 0 then n else n + 1 := by
  have h : q.floor = n := hfloor
  simp only [roundHalfEven, h, sub_lt_iff_lt_add', lt_sub_iff_add_lt']

theorem roundHalfEven_bounds (q : Rat) : ⌊q⌋ ≤ roundHalfEven q ∧ roundHalfEven q ≤ ⌊q⌋ + 1 := by
  rw [roundHalfEven_of_floor rfl]
  split_ifs <;> omega

theorem roundHalfEven_intCast (n : Int) : roundHalfEven n = n := by
  have hlt : (n : Rat) < n + 1 / 2 := by linarith
  rw [roundHalfEven_of_floor (Int.floor_intCast n), if_pos hlt]

theorem roundHalfEven_mono {p q : Rat} (hle : p ≤ q) : roundHalfEven p ≤ roundHalfEven q := by
  have hp := roundHalfEven_bounds p
  have hq := roundHalfEven_bounds q
  rcases (Int.floor_mono hle).lt_or_eq with hlt | heq
  · omega
  · rw [roundHalfEven_of_floor rfl, roundHalfEven_of_floor heq.symm]
    split_ifs <;> first | omega | linarith

/-- The mantissa is the whole part of a number, and the bits tell how the rest of it compares
with one half. -/
def Holds : ExtendedMantissa → Rat → Prop
  | ⟨m, false, false⟩, x => x = m
  | ⟨m, false, true⟩, x => m < x ∧ x < m + 1 / 2
  | ⟨m, true, false⟩, x => x = m + 1 / 2
  | ⟨m, true, true⟩, x => m + 1 / 2 < x ∧ x < m + 1

namespace Holds

variable {em : ExtendedMantissa} {x : Rat}

theorem floor_eq (h : Holds em x) : ⌊x⌋ = em.mantissa := by
  obtain ⟨m, round, sticky⟩ := em
  rw [Int.floor_eq_iff]
  cases round <;> cases sticky <;> simp only [Holds, Int.cast_natCast] at h ⊢ <;>
    constructor <;> linarith

theorem shiftRightOne (h : Holds em x) : Holds em.shiftRightOne (x / 2) := by
  obtain ⟨m, round, sticky⟩ := em
  obtain ⟨n, rfl | rfl⟩ : ∃ n, m = 2 * n ∨ m = 2 * n + 1 := ⟨m / 2, by omega⟩
  · have heven : (2 * n % 2 != 0) = false := by simp
    simp only [ExtendedMantissa.shiftRightOne, heven, Nat.mul_div_cancel_left n two_pos]
    cases round <;> cases sticky <;>
      simp only [Holds, Bool.or, Nat.cast_mul, Nat.cast_ofNat] at h ⊢ <;>
      first | linarith | constructor <;> linarith
  · have hodd : ((2 * n + 1) % 2 != 0) = true := by simp [Nat.add_mod]
    have hhalf : (2 * n + 1) / 2 = n := by omega
    simp only [ExtendedMantissa.shiftRightOne, hodd, hhalf]
    cases round <;> cases sticky <;>
      simp only [Holds, Bool.or, Nat.cast_add, Nat.cast_mul, Nat.cast_ofNat, Nat.cast_one]
        at h ⊢ <;>
      first | linarith | constructor <;> linarith

theorem shiftRight (h : Holds em x) (k : Nat) : Holds (em >>> k) (x / 2 ^ k) := by
  induction k with
  | zero =>
      rw [pow_zero, div_one]
      exact h
  | succ k ih =>
      have hnext := ih.shiftRightOne
      rw [div_div, ← pow_succ] at hnext
      exact hnext

theorem roundedMantissa_eq (h : Holds em x) : (em.roundedMantissa : Int) = roundHalfEven x := by
  have hfloor := h.floor_eq
  obtain ⟨m, round, sticky⟩ := em
  rw [roundHalfEven_of_floor hfloor]
  cases round <;> cases sticky <;>
    simp only [Holds, ExtendedMantissa.roundedMantissa, ExtendedMantissa.accuracy,
      Accuracy.roundToNearestEven, Int.cast_natCast] at h ⊢
  · rw [if_pos (by linarith)]
  · rw [if_pos h.2]
  · rw [if_neg (by linarith), if_neg (by linarith)]
    split_ifs <;> omega
  · rw [if_neg (by linarith), if_pos h.1]
    simp

end Holds

/-- The exponent of the last digit that floats near a number keep. -/
def gridExponent (q : Rat) : Int := max (Int.log 2 q - 52) (-1074)

/-- The float nearest to a number that is neither negative nor too large, the one with the
even significand of two that are equally near. -/
def nearest (q : Rat) : Rat := roundHalfEven (q / 2 ^ gridExponent q) * 2 ^ gridExponent q

theorem nearest_zero : nearest 0 = 0 := by
  have h : roundHalfEven 0 = 0 := roundHalfEven_intCast 0
  rw [nearest, zero_div, h, Int.cast_zero, zero_mul]

theorem nearest_nonneg {q : Rat} (hq : 0 ≤ q) : 0 ≤ nearest q := by
  have h : 0 ≤ q / 2 ^ gridExponent q := by positivity
  have hround : 0 ≤ roundHalfEven (q / 2 ^ gridExponent q) :=
    calc 0 = roundHalfEven ((0 : Int) : Rat) := (roundHalfEven_intCast 0).symm
      _ ≤ roundHalfEven (q / 2 ^ gridExponent q) := roundHalfEven_mono h
  unfold nearest
  positivity

variable {p q : Rat}

theorem log_le_gridExponent (q : Rat) : Int.log 2 q ≤ 52 + gridExponent q := by
  have h : Int.log 2 q - 52 ≤ gridExponent q := le_max_left _ _
  omega

theorem gridExponent_mono (hpos : 0 < p) (hle : p ≤ q) : gridExponent p ≤ gridExponent q :=
  max_le_max_right _ (sub_le_sub_right (Int.log_mono_right hpos hle) _)

theorem lt_zpow_grid (q : Rat) : q < 2 ^ (53 + gridExponent q) := by
  have hlog := log_le_gridExponent q
  calc q < 2 ^ (Int.log 2 q + 1) := Int.lt_zpow_succ_log_self (by norm_num) q
    _ ≤ 2 ^ (53 + gridExponent q) := zpow_le_zpow_right₀ (by norm_num) (by omega)

theorem significand_le (q : Rat) : roundHalfEven (q / 2 ^ gridExponent q) ≤ 2 ^ 53 := by
  have hgrid : (0 : Rat) < 2 ^ gridExponent q := by positivity
  have hq := lt_zpow_grid q
  rw [zpow_add₀ (by norm_num)] at hq
  have h : q / 2 ^ gridExponent q ≤ ((2 ^ 53 : Int) : Rat) := by
    rw [div_le_iff₀ hgrid]
    exact_mod_cast hq.le
  calc roundHalfEven (q / 2 ^ gridExponent q) ≤ roundHalfEven ((2 ^ 53 : Int) : Rat) :=
        roundHalfEven_mono h
    _ = 2 ^ 53 := roundHalfEven_intCast _

theorem le_significand (hpos : 0 < q) (hnormal : -1074 < gridExponent q) :
    2 ^ 52 ≤ roundHalfEven (q / 2 ^ gridExponent q) := by
  have hlog : Int.log 2 q = 52 + gridExponent q := by
    unfold gridExponent at hnormal ⊢
    omega
  have hgrid : (0 : Rat) < 2 ^ gridExponent q := by positivity
  have hq := Int.zpow_log_le_self (b := 2) (by norm_num) hpos
  rw [hlog, Nat.cast_ofNat, zpow_add₀ (by norm_num)] at hq
  have h : ((2 ^ 52 : Int) : Rat) ≤ q / 2 ^ gridExponent q := by
    rw [le_div_iff₀ hgrid]
    exact_mod_cast hq
  calc 2 ^ 52 = roundHalfEven ((2 ^ 52 : Int) : Rat) := (roundHalfEven_intCast _).symm
    _ ≤ roundHalfEven (q / 2 ^ gridExponent q) := roundHalfEven_mono h

theorem nearest_mono (hpos : 0 < p) (hle : p ≤ q) : nearest p ≤ nearest q := by
  rcases (gridExponent_mono hpos hle).lt_or_eq with hlt | heq
  · have hmin : -1074 ≤ gridExponent p := le_max_right _ _
    have hp : (roundHalfEven (p / 2 ^ gridExponent p) : Rat) ≤ 2 ^ (53 : Int) := by
      exact_mod_cast significand_le p
    have hq : (2 : Rat) ^ (52 : Int) ≤ roundHalfEven (q / 2 ^ gridExponent q) := by
      exact_mod_cast le_significand (hpos.trans_le hle) (by omega)
    calc nearest p ≤ 2 ^ (53 : Int) * 2 ^ gridExponent p := by
          unfold nearest
          gcongr
      _ = 2 ^ (53 + gridExponent p) := (zpow_add₀ (by norm_num) _ _).symm
      _ ≤ 2 ^ (52 + gridExponent q) := zpow_le_zpow_right₀ (by norm_num) (by omega)
      _ = 2 ^ (52 : Int) * 2 ^ gridExponent q := zpow_add₀ (by norm_num) _ _
      _ ≤ nearest q := by
          unfold nearest
          gcongr
  · unfold nearest
    rw [heq]
    have h : p / 2 ^ gridExponent q ≤ q / 2 ^ gridExponent q := by gcongr
    have hround : (roundHalfEven (p / 2 ^ gridExponent q) : Rat) ≤
        roundHalfEven (q / 2 ^ gridExponent q) := by exact_mod_cast roundHalfEven_mono h
    gcongr

theorem nearest_of_exact {m : Nat} {e : Int} (hpos : 0 < m) (hm : m < 2 ^ 53) (he : -1074 ≤ e) :
    nearest (m * 2 ^ e) = m * 2 ^ e := by
  have hgrid : gridExponent (m * 2 ^ e) ≤ e := by
    have hlog : Int.log 2 ((m : Rat) * 2 ^ e) < 53 + e := by
      rw [← Int.lt_zpow_iff_log_lt (b := 2) (by norm_num) (by positivity), Nat.cast_ofNat,
        zpow_add₀ (by norm_num)]
      have h : (m : Rat) < 2 ^ (53 : Int) := by exact_mod_cast hm
      gcongr
    exact max_le (by omega) he
  obtain ⟨k, hk⟩ := Int.eq_ofNat_of_zero_le (sub_nonneg.mpr hgrid)
  have hwhole : (m : Rat) * 2 ^ e / 2 ^ gridExponent (m * 2 ^ e) = ((m * 2 ^ k : Int) : Rat) := by
    rw [mul_div_assoc, ← zpow_sub₀ (by norm_num), hk]
    norm_num
  rw [nearest, hwhole, roundHalfEven_intCast, ← hwhole]
  exact div_mul_cancel₀ _ (by positivity)

theorem nearest_natCast {n : Nat} (hn : n < 2 ^ 53) : nearest n = n := by
  rcases n.eq_zero_or_pos with rfl | hpos
  · exact nearest_zero
  · have h := nearest_of_exact (e := 0) hpos hn (by norm_num)
    rwa [zpow_zero, mul_one] at h

variable {m : Nat} {e : Int} {acc : Accuracy}

theorem log_eq_of_bounds (hlow : (2 : Rat) ^ e ≤ q) (hhigh : q < 2 ^ (e + 1)) :
    Int.log 2 q = e := by
  have hpos : 0 < q := lt_of_lt_of_le (by positivity) hlow
  have h₁ := (Int.zpow_le_iff_le_log (b := 2) (by norm_num) hpos).mp hlow
  have h₂ := (Int.lt_zpow_iff_log_lt (b := 2) (by norm_num) hpos).mp hhigh
  omega

theorem targetExponent_eq (hpos : 0 < q) (hfloor : ⌊q / 2 ^ e⌋ = m)
    (hdigits : 0 < m ∨ e ≤ gridExponent q) :
    Format.binary64.targetExponent (totalExponent m e) = gridExponent q := by
  have hscale : (0 : Rat) < 2 ^ e := by positivity
  obtain ⟨hlow, hhigh⟩ := Int.floor_eq_iff.mp hfloor
  rw [Int.cast_natCast, le_div_iff₀ hscale] at hlow
  rw [Int.cast_natCast, div_lt_iff₀ hscale] at hhigh
  show max ((m.log2 + 1 + e) - 53) (-1074) = gridExponent q
  unfold gridExponent at hdigits ⊢
  rcases m.eq_zero_or_pos with rfl | hm
  · have hlog : Int.log 2 q < e := by
      rw [← Int.lt_zpow_iff_log_lt (b := 2) (by norm_num) hpos]
      simpa using hhigh
    rw [Nat.log2_zero]
    omega
  · have h₁ : ((2 : Rat) ^ m.log2) ≤ m := by exact_mod_cast Nat.log2_self_le hm.ne'
    have h₂ : (m : Rat) + 1 ≤ 2 ^ (m.log2 + 1) := by exact_mod_cast Nat.lt_log2_self
    have hlog : Int.log 2 q = m.log2 + e := by
      apply log_eq_of_bounds
      · calc (2 : Rat) ^ (m.log2 + e : Int) = 2 ^ m.log2 * 2 ^ e := by
              rw [zpow_add₀ (by norm_num), zpow_natCast]
          _ ≤ m * 2 ^ e := by gcongr
          _ ≤ q := hlow
      · calc q < (m + 1) * 2 ^ e := hhigh
          _ ≤ 2 ^ (m.log2 + 1) * 2 ^ e := by gcongr
          _ = 2 ^ (m.log2 + e + 1 : Int) := by
              rw [← zpow_natCast, ← zpow_add₀ (by norm_num)]
              congr 1
              push_cast
              ring
    omega

theorem shift_to_grid (hpos : 0 < q) (h : Holds (.ofMantissaAndAccuracy m acc) (q / 2 ^ e))
    (he : e ≤ gridExponent q) :
    ∃ em, shiftToTargetExponent .binary64 m e acc = (em, gridExponent q) ∧
      Holds em (q / 2 ^ gridExponent q) := by
  have hm : (ExtendedMantissa.ofMantissaAndAccuracy m acc).mantissa = m := by
    cases acc with
    | exact => rfl
    | inexact relative => cases relative <;> rfl
  have htarget := targetExponent_eq hpos (hm ▸ h.floor_eq) (.inr he)
  obtain ⟨k, hk⟩ := Int.eq_ofNat_of_zero_le (sub_nonneg.mpr he)
  refine ⟨_, Prod.ext rfl ?_, ?_⟩
  · show e + ((Format.binary64.targetExponent (totalExponent m e) - e).toNat : Int) = _
    rw [htarget]
    omega
  · show Holds (ExtendedMantissa.ofMantissaAndAccuracy m acc >>>
      (Format.binary64.targetExponent (totalExponent m e) - e).toNat) _
    have hshift := h.shiftRight k
    rw [htarget, hk, Int.toNat_natCast]
    rwa [div_div, ← zpow_natCast, ← zpow_add₀ (by norm_num), ← hk, add_sub_cancel] at hshift

/-- Rounding up can add a digit, which the second shift takes away again. -/
theorem shift_rounded (hm : m ≤ 2 ^ 53) (he : -1074 ≤ e) (hnormal : 2 ^ 52 ≤ m ∨ e = -1074) :
    ∃ n f, shiftToTargetExponent .binary64 m e .exact = (⟨n, false, false⟩, f) ∧
      (n : Rat) * 2 ^ f = m * 2 ^ e ∧ n < 2 ^ 53 ∧ -1074 ≤ f ∧ (2 ^ 52 ≤ n ∨ f = -1074) := by
  have hshift (k : Nat) (hk : (max ((m.log2 + 1 + e) - 53) (-1074) - e).toNat = k) :
      shiftToTargetExponent .binary64 m e .exact =
        ((⟨m, false, false⟩ : ExtendedMantissa) >>> k, e + k) := by
    subst hk
    rfl
  rcases hm.lt_or_eq with hlt | rfl
  · have hlog : m.log2 ≤ 52 := by
      rcases m.eq_zero_or_pos with rfl | hpos
      · simp
      · exact Nat.le_of_lt_succ ((Nat.log2_lt hpos.ne').mpr hlt)
    refine ⟨m, e, ?_, rfl, hlt, he, hnormal⟩
    rw [hshift 0 (by omega), Nat.cast_zero, add_zero]
    rfl
  · refine ⟨2 ^ 52, e + 1, ?_, ?_, by norm_num, by omega, .inl le_rfl⟩
    · rw [hshift 1 (by rw [Nat.log2_two_pow]; omega)]
      rfl
    · rw [zpow_add₀ (by norm_num)]
      push_cast
      ring

structure Rounds (u : UnpackedFloat) (q : Rat) : Prop where
  value : value? u = some (nearest q)
  canonical : Canonical u

theorem rounds_of_holds (hpos : 0 < q) (h : Holds (.ofMantissaAndAccuracy m acc) (q / 2 ^ e))
    (he : e ≤ gridExponent q) : Rounds (roundWithAccuracy .binary64 .positive m e acc) q := by
  obtain ⟨em, hfirst, hem⟩ := shift_to_grid hpos h he
  have hrounded := hem.roundedMantissa_eq
  have hle := significand_le q
  have hmin : -1074 ≤ gridExponent q := le_max_right _ _
  have hnormal : 2 ^ 52 ≤ em.roundedMantissa ∨ gridExponent q = -1074 := by
    rcases hmin.lt_or_eq with hlt | heq
    · have := le_significand hpos hlt
      exact .inl (by omega)
    · exact .inr heq.symm
  obtain ⟨n, f, hsecond, hvalue, hn, hf, hcanonical⟩ :=
    shift_rounded (by omega : em.roundedMantissa ≤ 2 ^ 53) hmin hnormal
  have hnearest : nearest q = n * 2 ^ f := by
    rw [nearest, ← hrounded, Int.cast_natCast, hvalue]
  unfold roundWithAccuracy
  simp only [hfirst, hsecond]
  split
  · rename_i hzero
    subst hzero
    refine ⟨?_, trivial⟩
    rw [hnearest, Nat.cast_zero, zero_mul]
    rfl
  · refine ⟨?_, hn, hf, hcanonical⟩
    rw [hnearest]
    rfl

end ElasticPool.Binary64
