import ElasticPool.Proofs.Binary64.Arithmetic

namespace ElasticPool.Binary64

open Float.Model Float.Model.UnpackedFloat

def IsInfinite (x : Float) : Prop := x.toModel.unpack = .infinity .positive

/-- The float that comes of a number: the nearest one, or infinity. -/
def RoundsTo (x : Float) (q : Rat) : Prop :=
  if nearest q < 2 ^ 1024 then toRat? x = some (nearest q) else IsInfinite x

variable {x y : Float} {a b q : Rat} {u v : UnpackedFloat} {m n : Nat} {e f : Int}

theorem apply_mul_zpow_lt (sign : Sign) {m : Nat} {e : Int} (hm : m < 2 ^ 53) (he : e ≤ 971) :
    (sign.apply m : Rat) * 2 ^ e < 2 ^ 1024 := by
  have hsign : ((sign.apply m : Int) : Rat) ≤ m := by
    have h : sign.apply m ≤ (m : Int) := by cases sign <;> simp [Sign.apply]
    exact_mod_cast h
  have hmantissa : (m : Rat) < 2 ^ (53 : Int) := by exact_mod_cast hm
  calc (sign.apply m : Rat) * 2 ^ e ≤ m * 2 ^ e := by gcongr
    _ < 2 ^ (53 : Int) * 2 ^ e := by gcongr
    _ ≤ 2 ^ (53 : Int) * 2 ^ (971 : Int) := by gcongr; norm_num
    _ = 2 ^ 1024 := by
        rw [← zpow_add₀ two_ne_zero]
        exact zpow_natCast 2 1024

/-- No float is as large as the numbers that are rounded to infinity. -/
theorem toRat?_lt (hx : toRat? x = some a) : a < 2 ^ 1024 := by
  rw [toRat?_eq] at hx
  have h := unpacks x.toModel.toBits
  have hfraction : x.toModel.toBits.toNat % leastNormal < 2 ^ 52 := Nat.mod_lt _ (by decide)
  have hleast := leastNormal_eq
  unfold Float.Model.unpack at hx
  generalize UnpackedFloat.unpack .binary64 x.toModel.toBits.toBitVec = u at h hx
  cases h with
  | special hmax hvalue => simp [hx] at hvalue
  | zero hmin hzero =>
      obtain rfl : 0 = a := by simpa [value?] using hx
      positivity
  | subnormal hmin hpos =>
      obtain rfl := Option.some.inj hx
      exact apply_mul_zpow_lt _ (by omega) (by norm_num)
  | normal hmin hmax hpos =>
      obtain rfl := Option.some.inj hx
      exact apply_mul_zpow_lt _ (by omega) (by omega)

theorem unpack_packedInfinity (sign : Sign) :
    UnpackedFloat.unpack .binary64 (packedInfinity .binary64 sign) = .infinity sign := by
  simp [UnpackedFloat.unpack, packedInfinity]

theorem unpack_packedNaN :
    UnpackedFloat.unpack .binary64 (packedNaN .binary64) = .notANumber := by
  simp [UnpackedFloat.unpack, packedNaN]

theorem isInfinite_pack (hpos : 0 < m) (hlarge : 972 ≤ e) :
    IsInfinite (.ofModel (.pack (.finite .positive m e hpos))) := by
  have hpack : pack .binary64 (.finite .positive m e hpos) =
      packedInfinity .binary64 .positive := by
    show (if 2 ^ 11 ≤ (e + (1023 : Nat) + (52 : Nat)).toNat + 1 then _ else _) = _
    rw [if_pos (by omega)]
  show UnpackedFloat.unpack .binary64 (pack .binary64 (.finite .positive m e hpos)) = _
  rw [hpack, unpack_packedInfinity]

theorem Rounds.roundsTo (h : Rounds u q) (hq : 0 ≤ q) : RoundsTo (.ofModel (.pack u)) q := by
  unfold RoundsTo
  split
  · rename_i hfits
    exact h.toRat?_pack hq hfits
  · rename_i hlarge
    rcases eq_zero_or_positive h.value (nearest_nonneg hq) with
      ⟨sign, -, hzero⟩ | ⟨m, e, hpos, rfl, hvalue⟩
    · rw [hzero] at hlarge
      exact absurd (by positivity) hlarge
    · apply isInfinite_pack hpos
      have hm : (m : Rat) < 2 ^ (53 : Int) := by exact_mod_cast h.canonical.1
      have hexponent : (2 : Rat) ^ (1024 : Int) < 2 ^ (53 + e) :=
        calc (2 : Rat) ^ (1024 : Int) ≤ m * 2 ^ e := hvalue ▸ not_lt.mp hlarge
          _ < 2 ^ (53 : Int) * 2 ^ e := by gcongr
          _ = 2 ^ (53 + e) := (zpow_add₀ (by norm_num) _ _).symm
      have h := (zpow_lt_zpow_iff_right₀ (by norm_num : (1 : Rat) < 2)).mp hexponent
      omega

theorem RoundsTo.toRat?_eq (h : RoundsTo x q) (hfits : nearest q < 2 ^ 1024) :
    toRat? x = some (nearest q) := by
  rwa [RoundsTo, if_pos hfits] at h

theorem RoundsTo.eq_nearest (h : RoundsTo x q) (hx : toRat? x = some a) : a = nearest q := by
  unfold RoundsTo at h
  split at h
  · exact Option.some.inj (hx.symm.trans h)
  · rw [Binary64.toRat?_eq, h] at hx
    cases hx

theorem rounds_self (hu : Canonical u) (hvalue : value? u = some a) (ha : 0 ≤ a) :
    Rounds u a := by
  rcases eq_zero_or_positive hvalue ha with ⟨sign, rfl, rfl⟩ | ⟨m, e, hpos, rfl, rfl⟩
  · exact rounds_zero sign
  · exact ⟨by rw [nearest_of_exact hpos hu.1 hu.2.1, hvalue], hu⟩

theorem shiftLeft_mul_zpow (m : Nat) (hle : f ≤ e) :
    ((m <<< (e - f).toNat : Nat) : Rat) * 2 ^ f = m * 2 ^ e := by
  obtain ⟨k, hk⟩ := Int.eq_ofNat_of_zero_le (sub_nonneg.mpr hle)
  obtain rfl : e = k + f := by omega
  rw [hk, Int.toNat_natCast, Nat.shiftLeft_eq, zpow_add₀ (by norm_num), zpow_natCast]
  push_cast
  ring

theorem rounds_add (hm : 0 < m) (hn : 0 < n) :
    Rounds (UnpackedFloat.add .binary64 (.finite .positive m e hm) (.finite .positive n f hn))
      (m * 2 ^ e + n * 2 ^ f) := by
  have hsum := rounds_normalize
    (m <<< (e - min e f).toNat + n <<< (f - min e f).toNat) (min e f)
  rw [Nat.cast_add (R := Rat), add_mul, shiftLeft_mul_zpow m (min_le_left e f),
    shiftLeft_mul_zpow n (min_le_right e f), Nat.cast_add] at hsum
  exact hsum

theorem rounds_sub (hm : 0 < m) (hn : 0 < n) (hle : (n : Rat) * 2 ^ f ≤ m * 2 ^ e) :
    Rounds (UnpackedFloat.sub .binary64 (.finite .positive m e hm) (.finite .positive n f hn))
      (m * 2 ^ e - n * 2 ^ f) := by
  have hm' := shiftLeft_mul_zpow m (min_le_left e f)
  have hn' := shiftLeft_mul_zpow n (min_le_right e f)
  rw [← hm', ← hn', mul_le_mul_iff_left₀ (by positivity), Nat.cast_le] at hle
  have hdifference := rounds_normalize
    (m <<< (e - min e f).toNat - n <<< (f - min e f).toNat) (min e f)
  rw [Nat.cast_sub (R := Rat) hle, sub_mul, hm', hn', Nat.cast_sub hle] at hdifference
  exact hdifference

theorem rounds_add_of_value (hu : Canonical u) (hv : Canonical v) (hx : value? u = some a)
    (hy : value? v = some b) (ha : 0 ≤ a) (hb : 0 ≤ b) :
    Rounds (UnpackedFloat.add .binary64 u v) (a + b) := by
  have hself := rounds_self hu hx ha
  have hself' := rounds_self hv hy hb
  rcases eq_zero_or_positive hx ha with ⟨sign, rfl, rfl⟩ | ⟨m, e, hm, rfl, rfl⟩
  · rcases eq_zero_or_positive hy hb with ⟨sign', rfl, rfl⟩ | ⟨n, f, hn, rfl, rfl⟩
    · rw [add_zero]
      show Rounds (if sign == sign' then .zero sign else .zero .positive) 0
      split <;> exact rounds_zero _
    · rw [zero_add]
      exact hself'
  · rcases eq_zero_or_positive hy hb with ⟨sign', rfl, rfl⟩ | ⟨n, f, hn, rfl, rfl⟩
    · rw [add_zero]
      exact hself
    · exact rounds_add hm hn

theorem rounds_sub_of_value (hu : Canonical u) (hx : value? u = some a) (hy : value? v = some b)
    (hb : 0 ≤ b) (hle : b ≤ a) : Rounds (UnpackedFloat.sub .binary64 u v) (a - b) := by
  have ha : 0 ≤ a := hb.trans hle
  have hself := rounds_self hu hx ha
  rcases eq_zero_or_positive hx ha with ⟨sign, rfl, rfl⟩ | ⟨m, e, hm, rfl, rfl⟩
  · rcases eq_zero_or_positive hy hb with ⟨sign', rfl, rfl⟩ | ⟨n, f, hn, rfl, rfl⟩
    · rw [sub_zero]
      show Rounds (if sign == -sign' then .zero sign else .zero .positive) 0
      split <;> exact rounds_zero _
    · exact absurd hle (not_le.mpr (by positivity))
  · rcases eq_zero_or_positive hy hb with ⟨sign', rfl, rfl⟩ | ⟨n, f, hn, rfl, rfl⟩
    · rw [sub_zero]
      exact hself
    · exact rounds_sub hm hn hle

theorem roundsTo_add (hx : toRat? x = some a) (hy : toRat? y = some b) (ha : 0 ≤ a)
    (hb : 0 ≤ b) : RoundsTo (x + y) (a + b) := by
  rw [toRat?_eq] at hx hy
  exact (rounds_add_of_value (canonical_unpack _) (canonical_unpack _) hx hy ha hb).roundsTo
    (add_nonneg ha hb)

theorem roundsTo_sub (hx : toRat? x = some a) (hy : toRat? y = some b) (hb : 0 ≤ b)
    (hle : b ≤ a) : RoundsTo (x - y) (a - b) := by
  rw [toRat?_eq] at hx hy
  exact (rounds_sub_of_value (canonical_unpack _) hx hy hb hle).roundsTo (sub_nonneg.mpr hle)

theorem roundsTo_mul (hx : toRat? x = some a) (hy : toRat? y = some b) (ha : 0 ≤ a)
    (hb : 0 ≤ b) : RoundsTo (x * y) (a * b) := by
  rw [toRat?_eq] at hx hy
  exact (rounds_mul_of_value (canonical_unpack _) (canonical_unpack _) hx hy ha hb).roundsTo
    (mul_nonneg ha hb)

theorem roundsTo_div (hx : toRat? x = some a) (hy : toRat? y = some b) (ha : 0 ≤ a)
    (hb : 0 < b) : RoundsTo (x / y) (a / b) := by
  rw [toRat?_eq] at hx hy
  exact (rounds_div_of_value hx hy ha hb).roundsTo (div_nonneg ha hb.le)

theorem toRat?_div_zero (hx : toRat? x = some a) (hy : toRat? y = some 0) :
    toRat? (x / y) = none := by
  rw [toRat?_eq] at hx hy ⊢
  show value? (UnpackedFloat.unpack .binary64 (pack .binary64
    (UnpackedFloat.div .binary64 x.toModel.unpack y.toModel.unpack))) = none
  generalize x.toModel.unpack = u at hx
  generalize y.toModel.unpack = v at hy
  rcases eq_zero_or_positive hy le_rfl with ⟨sign, rfl, -⟩ | ⟨n, f, hn, rfl, hzero⟩
  · cases u with
    | infinity | notANumber => simp [value?] at hx
    | zero sign' =>
        show value? (UnpackedFloat.unpack .binary64 (packedNaN .binary64)) = none
        rw [unpack_packedNaN]
        rfl
    | finite sign' m e hm =>
        show value? (UnpackedFloat.unpack .binary64 (packedInfinity .binary64 (sign' / sign))) = _
        rw [unpack_packedInfinity]
        rfl
  · exact absurd hzero (by positivity)

theorem roundsTo_toFloat (n : UInt64) : RoundsTo n.toFloat n.toNat :=
  (rounds_ofNat n.toNat).roundsTo n.toNat.cast_nonneg

theorem roundsTo_ofNat (n : Nat) : RoundsTo (Float.ofNat n) n := by
  rcases lt_or_ge n (2 ^ 53) with hsmall | hlarge
  · have hfits : nearest (n : Rat) < 2 ^ 1024 := by
      rw [nearest_natCast hsmall]
      exact natCast_lt_overflow hsmall
    rw [RoundsTo, if_pos hfits, nearest_natCast hsmall]
    exact toRat?_ofNat hsmall
  -- a numeral that is longer than a mantissa is multiplied by one, shifted to the left before
  · have hpos : 0 < n := by omega
    have hshifted : 0 < n <<< 53 := by
      rw [Nat.shiftLeft_eq]
      positivity
    have hvalue : ((n <<< 53 : Nat) : Rat) * 2 ^ (-53 : Int) *
        ((1 : Nat) * 2 ^ (0 : Int)) = n := by
      rw [Nat.shiftLeft_eq]
      push_cast
      field_simp
      norm_num
    have hgrid : (-53 : Int) + 0 ≤ gridExponent n := by
      apply le_gridExponent (by positivity) (.inl _)
      have hone : (1 : Rat) ≤ n := by exact_mod_cast hpos
      norm_num
      linarith
    have hfloat : Float.ofNat n = .ofModel (.pack (UnpackedFloat.mul .binary64
        (.finite .positive (n <<< 53) (-53) hshifted) (.finite .positive 1 0 one_pos))) := by
      show Float.ofScientific n false 0 = _
      unfold Float.ofScientific
      rw [dif_neg (by omega)]
      show Float.ofModel (.pack (UnpackedFloat.ofScientific .binary64 n 0)) = _
      unfold UnpackedFloat.ofScientific
      have hexponents : (2 : Int) ^ Format.binary64.exponentBits = 2048 := rfl
      rw [dif_neg hpos.ne', hexponents, if_neg (by norm_num), if_neg (by omega), if_pos le_rfl]
      rfl
    have hmul := rounds_mul_of_le hshifted one_pos (hvalue.symm ▸ hgrid)
    rw [hvalue] at hmul
    rw [hfloat]
    exact hmul.roundsTo n.cast_nonneg

end ElasticPool.Binary64
