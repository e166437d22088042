import ElasticPool.Proofs.Binary64.Rounding

namespace ElasticPool.Binary64

open Float.Model Float.Model.UnpackedFloat

theorem unpack_normal {sign : Sign} {m : Nat} {e : Int} (hpos : 0 < m) (hlow : 2 ^ 52 ≤ m)
    (hhigh : m < 2 ^ 53) (hmin : -1074 ≤ e) (hmax : e ≤ 971) :
    UnpackedFloat.unpack .binary64 (pack .binary64 (.finite sign m e hpos)) =
      .finite sign m e hpos := by
  have hlog : m.log2 = 52 := by
    apply Nat.le_antisymm
    · exact Nat.le_of_lt_succ ((Nat.log2_lt hpos.ne').mpr hhigh)
    · exact (Nat.le_log2 hpos.ne').mpr hlow
  obtain ⟨biased, rfl⟩ : ∃ biased : Nat, e = biased - 1075 := ⟨(e + 1075).toNat, by omega⟩
  have hpack : pack .binary64 (.finite sign m (biased - 1075) hpos) =
      packComponents .binary64 sign (BitVec.ofNat _ biased) (BitVec.ofNat _ m) := by
    have hbiased : ((biased - 1075 : Int) + (1023 : Nat) + (52 : Nat)).toNat = biased := by omega
    show (if 2 ^ 11 ≤ ((biased - 1075 : Int) + (1023 : Nat) + (52 : Nat)).toNat + 1 then _
      else if m.log2 + 1 = 53 then packComponents .binary64 sign
        (BitVec.ofNat _ ((biased - 1075 : Int) + (1023 : Nat) + (52 : Nat)).toNat) _ else _) = _
    rw [hbiased, if_neg (by omega), if_pos (by omega)]
  have hexponent : (BitVec.ofNat 11 biased).toNat = biased := by
    rw [BitVec.toNat_ofNat, Nat.mod_eq_of_lt (by omega)]
  have hmantissa : (1#1 ++ BitVec.ofNat 52 m).toNat = m := by
    rw [toNat_one_append, BitVec.toNat_ofNat, leastNormal_eq]
    omega
  rw [hpack]
  unfold UnpackedFloat.unpack
  simp only [unpackMantissa_packComponents, unpackExponent_packComponents,
    unpackSign_packComponents, Sign.ofBitVec_toBitVec, hexponent, hmantissa]
  rw [if_neg, if_neg]
  · rfl
  · intro h
    rw [h] at hexponent
    simp at hexponent
    omega
  · intro h
    rw [h] at hexponent
    simp at hexponent
    omega

theorem unpack_subnormal {sign : Sign} {m : Nat} (hpos : 0 < m) (hhigh : m < 2 ^ 52) :
    UnpackedFloat.unpack .binary64 (pack .binary64 (.finite sign m (-1074) hpos)) =
      .finite sign m (-1074) hpos := by
  have hlog : m.log2 < 52 := (Nat.log2_lt hpos.ne').mpr hhigh
  have hpack : pack .binary64 (.finite sign m (-1074) hpos) =
      packComponents .binary64 sign 0#_ (BitVec.ofNat _ m) := by
    show (if 2 ^ 11 ≤ 2 then packedInfinity .binary64 sign
      else if m.log2 + 1 = 53 then packComponents .binary64 sign 1#_ (BitVec.ofNat _ m)
      else packComponents .binary64 sign 0#_ (BitVec.ofNat _ m)) = _
    rw [if_neg (by norm_num), if_neg (by omega)]
  have hmantissa : (BitVec.ofNat 52 m).toNat = m := by
    rw [BitVec.toNat_ofNat, Nat.mod_eq_of_lt hhigh]
  rw [hpack]
  unfold UnpackedFloat.unpack
  simp only [unpackMantissa_packComponents, unpackExponent_packComponents,
    unpackSign_packComponents, Sign.ofBitVec_toBitVec, hmantissa]
  rw [if_neg (by decide), if_pos trivial, dif_neg]
  · rfl
  · intro h
    rw [h] at hmantissa
    simp at hmantissa
    omega

theorem toRat?_pack {u : UnpackedFloat} {a : Rat} (hu : Canonical u) (hvalue : value? u = some a)
    (hfits : |a| < 2 ^ 1024) : toRat? (.ofModel (.pack u)) = some a := by
  have hunpack : UnpackedFloat.unpack .binary64 (pack .binary64 u) = u := by
    rcases u with _ | _ | sign | ⟨sign, m, e, hpos⟩
    · simp [value?] at hvalue
    · simp [value?] at hvalue
    · exact unpack_packedZero
    · obtain ⟨hhigh, hmin, hlow | rfl⟩ := hu
      · apply unpack_normal hpos hlow hhigh hmin
        by_contra hmax
        apply hfits.not_ge
        have ha : |a| = m * 2 ^ e := by
          simp only [value?, Option.some.injEq] at hvalue
          rw [← hvalue, abs_mul, abs_of_pos (by positivity : (0 : Rat) < 2 ^ e)]
          cases sign <;> simp [Sign.apply]
        have hm : (2 : Rat) ^ (52 : Int) ≤ m := by exact_mod_cast hlow
        calc (2 : Rat) ^ 1024 = 2 ^ (52 : Int) * 2 ^ (972 : Int) := by
              rw [← zpow_add₀ (by norm_num)]
              rfl
          _ ≤ m * 2 ^ e := by
              gcongr
              · norm_num
              · omega
          _ = |a| := ha.symm
      · rcases lt_or_ge m (2 ^ 52) with hm | hm
        · exact unpack_subnormal hpos hm
        · exact unpack_normal hpos hm hhigh (by norm_num) (by norm_num)
  rw [toRat?_eq]
  show value? (UnpackedFloat.unpack .binary64 (pack .binary64 u)) = some a
  rw [hunpack, hvalue]

theorem rounds_zero (sign : Sign) : Rounds (.zero sign) 0 := by
  refine ⟨?_, trivial⟩
  rw [nearest_zero]
  rfl

theorem rounds_normalize (m : Nat) (e : Int) :
    Rounds (normalize .binary64 m e .positive) (m * 2 ^ e) := by
  rcases m with _ | m
  · rw [Nat.cast_zero (R := Rat), zero_mul]
    exact rounds_zero .positive
  set t := Format.binary64.targetExponent (totalExponent (m + 1) e) with ht
  have htarget : t = gridExponent ((m + 1 : Nat) * 2 ^ e) := by
    apply targetExponent_eq (by positivity) _ (.inl m.succ_pos)
    rw [mul_div_cancel_right₀ _ (by positivity)]
    exact Int.floor_natCast _
  show Rounds (roundWithAccuracy .binary64 .positive ((m + 1) <<< (e - t).toNat)
    (e - ((e - t).toNat : Int)) .exact) _
  apply rounds_of_holds (by positivity)
  · show (_ / _ : Rat) = _
    rw [zpow_sub₀ (by norm_num), zpow_natCast, Nat.shiftLeft_eq]
    push_cast
    field_simp
  · omega

theorem rounds_ofNat (n : Nat) : Rounds (UnpackedFloat.ofNat .binary64 n) n := by
  have h := rounds_normalize n 0
  rwa [zpow_zero, mul_one] at h

theorem natCast_lt_overflow {n : Nat} (hn : n < 2 ^ 53) : (n : Rat) < 2 ^ 1024 := by
  exact_mod_cast hn.trans (Nat.pow_lt_pow_right (by norm_num) (by norm_num))

theorem toRat?_toFloat {n : UInt64} (hn : n.toNat < 2 ^ 53) :
    toRat? n.toFloat = some (n.toNat : Rat) := by
  rcases n.toNat.eq_zero_or_pos with hzero | hpos
  · obtain rfl : n = 0 := UInt64.toNat_inj.mp hzero
    rfl
  · have hrounds := rounds_ofNat n.toNat
    have hvalue := hrounds.value
    rw [nearest_natCast hn] at hvalue
    apply toRat?_pack hrounds.canonical hvalue
    rw [Nat.abs_cast]
    exact natCast_lt_overflow hn

variable {u v : UnpackedFloat} {a b q : Rat} {e : Int}

theorem eq_zero_or_positive (hvalue : value? u = some a) (hpos : 0 ≤ a) :
    (∃ sign, u = .zero sign ∧ a = 0) ∨
      ∃ m e h, u = .finite .positive m e h ∧ a = m * 2 ^ e := by
  rcases u with _ | _ | sign | ⟨sign, m, e, hm⟩ <;>
    simp only [value?, Option.some.injEq, reduceCtorEq] at hvalue
  · exact .inl ⟨sign, rfl, hvalue.symm⟩
  · cases sign with
    | positive => exact .inr ⟨m, e, hm, rfl, hvalue.symm⟩
    | negative =>
        have h : (0 : Rat) < m * 2 ^ e := by positivity
        simp only [Sign.apply, Int.cast_neg, Int.cast_natCast] at hvalue
        linarith

theorem Rounds.toRat?_pack (h : Rounds u q) (hq : 0 ≤ q) (hfits : nearest q < 2 ^ 1024) :
    toRat? (.ofModel (.pack u)) = some (nearest q) := by
  apply Binary64.toRat?_pack h.canonical h.value
  rwa [abs_of_nonneg (nearest_nonneg hq)]

theorem le_gridExponent (hpos : 0 < q) (h : (2 : Rat) ^ (52 + e) ≤ q ∨ e ≤ -1074) :
    e ≤ gridExponent q := by
  unfold gridExponent
  rcases h with h | h
  · have hlog := (Int.zpow_le_iff_le_log (b := 2) (by norm_num) hpos).mp h
    omega
  · omega

theorem rounds_mul_of_le {m n : Nat} {e f : Int} (hm : 0 < m) (hn : 0 < n)
    (hle : e + f ≤ gridExponent (m * 2 ^ e * (n * 2 ^ f))) :
    Rounds (UnpackedFloat.mul .binary64 (.finite .positive m e hm) (.finite .positive n f hn))
      (m * 2 ^ e * (n * 2 ^ f)) := by
  have hproduct : (m : Rat) * 2 ^ e * (n * 2 ^ f) = (m * n : Nat) * 2 ^ (e + f) := by
    rw [zpow_add₀ (by norm_num)]
    push_cast
    ring
  apply rounds_of_holds (by positivity) _ hle
  rw [hproduct]
  show (_ / _ : Rat) = _
  exact mul_div_cancel_right₀ _ (by positivity)

theorem rounds_mul {m n : Nat} {e f : Int} (hm : 0 < m) (hn : 0 < n)
    (hu : Canonical (.finite .positive m e hm)) (hv : Canonical (.finite .positive n f hn)) :
    Rounds (UnpackedFloat.mul .binary64 (.finite .positive m e hm) (.finite .positive n f hn))
      (m * 2 ^ e * (n * 2 ^ f)) := by
  apply rounds_mul_of_le
  apply le_gridExponent (by positivity)
  obtain ⟨-, he, hm'⟩ := hu
  obtain ⟨-, hf, hn'⟩ := hv
  have hlarge (h : 2 ^ 52 ≤ m * n) :
      (2 : Rat) ^ (52 + (e + f)) ≤ m * 2 ^ e * (n * 2 ^ f) := by
    have h' : (2 : Rat) ^ (52 : Int) ≤ (m * n : Nat) := by exact_mod_cast h
    calc (2 : Rat) ^ (52 + (e + f)) = 2 ^ (52 : Int) * (2 ^ e * 2 ^ f) := by
          rw [zpow_add₀ (by norm_num), zpow_add₀ (by norm_num)]
      _ ≤ (m * n : Nat) * (2 ^ e * 2 ^ f) := by gcongr
      _ = m * 2 ^ e * (n * 2 ^ f) := by
          push_cast
          ring
  rcases hm' with hm' | rfl
  · exact .inl (hlarge (hm'.trans (Nat.le_mul_of_pos_right _ hn)))
  · rcases hn' with hn' | rfl
    · exact .inl (hlarge (hn'.trans (Nat.le_mul_of_pos_left _ hm)))
    · exact .inr (by norm_num)

/-- The remainder tells how the rest of a quotient compares with one half. -/
theorem holds_quotient {n d : Nat} (hd : 0 < d) :
    Holds (.ofMantissaAndAccuracy (n / d) (accuracyOfFraction (n % d) d)) ((n : Rat) / d) := by
  have hd' : (0 : Rat) < d := by exact_mod_cast hd
  have hrest : (n : Rat) / d = (n / d : Nat) + (n % d : Nat) / (d : Rat) := by
    have h : ((d * (n / d) + n % d : Nat) : Rat) = n := by rw [Nat.div_add_mod]
    push_cast at h ⊢
    field_simp
    linarith
  rw [hrest]
  have hlt : ((n % d : Nat) : Rat) / d < 1 := by
    rw [div_lt_one hd']
    exact_mod_cast Nat.mod_lt n hd
  unfold accuracyOfFraction
  split
  · rename_i hzero
    rw [hzero]
    show _ = _
    simp
  · rename_i hne
    have hpos : (0 : Rat) < (n % d : Nat) / d := by
      have := Nat.pos_of_ne_zero hne
      positivity
    -- The accuracy compares twice the remainder with the divisor.
    rcases lt_trichotomy (2 * (n % d)) d with h | h | h
    · rw [compare_lt_iff_lt.mpr h]
      have hhalf : ((n % d : Nat) : Rat) / d < 1 / 2 := by
        rw [div_lt_iff₀ hd']
        have h' : (2 : Rat) * (n % d : Nat) < d := by exact_mod_cast h
        linarith
      constructor <;> linarith
    · rw [compare_eq_iff_eq.mpr h]
      have h' : (2 : Rat) * (n % d : Nat) = d := by exact_mod_cast h
      have hhalf : ((n % d : Nat) : Rat) / d = 1 / 2 := by
        rw [div_eq_iff hd'.ne']
        linarith
      show _ = _
      rw [hhalf]
    · rw [compare_gt_iff_gt.mpr h]
      have hhalf : 1 / 2 < ((n % d : Nat) : Rat) / d := by
        rw [lt_div_iff₀ hd']
        have h' : (d : Rat) < 2 * (n % d : Nat) := by exact_mod_cast h
        linarith
      constructor <;> linarith

theorem rounds_div {m n : Nat} {e f : Int} (hm : 0 < m) (hn : 0 < n) :
    Rounds (UnpackedFloat.div .binary64 (.finite .positive m e hm) (.finite .positive n f hn))
      (m * 2 ^ e / (n * 2 ^ f)) := by
  set q : Rat := m * 2 ^ e / (n * 2 ^ f) with hq
  have hpos : 0 < q := by positivity
  set t : Int := min (e - f) (max (m.log2 + 1 + e - (n.log2 + 1 + f) - 53) (-1074)) with ht
  obtain ⟨k, hk⟩ := Int.eq_ofNat_of_zero_le (show 0 ≤ e - f - t by omega)
  have hdiv : UnpackedFloat.div .binary64 (.finite .positive m e hm) (.finite .positive n f hn) =
      roundWithAccuracy .binary64 .positive ((m <<< k) / n) t
        (accuracyOfFraction ((m <<< k) % n) n) := by
    show roundWithAccuracy .binary64 .positive ((m <<< (e - f - t).toNat) / n) t
      (accuracyOfFraction ((m <<< (e - f - t).toNat) % n) n) = _
    rw [hk, Int.toNat_natCast]
  rw [hdiv]
  apply rounds_of_holds hpos
  · have hscaled : q / 2 ^ t = (m <<< k : Nat) / n := by
      have he : e = k + t + f := by omega
      rw [hq, Nat.shiftLeft_eq]
      nth_rewrite 1 [he]
      rw [zpow_add₀ (by norm_num), zpow_add₀ (by norm_num), zpow_natCast]
      push_cast
      field_simp
    rw [hscaled]
    exact holds_quotient hn
  · have hlog : m.log2 + e - (n.log2 + 1 + f) ≤ Int.log 2 q := by
      rw [← Int.zpow_le_iff_le_log (b := 2) (by norm_num) hpos, hq, le_div_iff₀ (by positivity)]
      have h₁ : (2 : Rat) ^ (m.log2 : Int) ≤ m := by exact_mod_cast Nat.log2_self_le hm.ne'
      have h₂ : (n : Rat) ≤ 2 ^ (n.log2 + 1 : Int) := by exact_mod_cast Nat.lt_log2_self.le
      calc ((2 : Nat) : Rat) ^ (m.log2 + e - (n.log2 + 1 + f) : Int) * (n * 2 ^ f)
          ≤ 2 ^ (m.log2 + e - (n.log2 + 1 + f) : Int) * (2 ^ (n.log2 + 1 : Int) * 2 ^ f) := by
            rw [Nat.cast_ofNat]
            gcongr
        _ = 2 ^ (m.log2 : Int) * 2 ^ e := by
            rw [← zpow_add₀ (by norm_num), ← zpow_add₀ (by norm_num), ← zpow_add₀ (by norm_num)]
            congr 1
            ring
        _ ≤ m * 2 ^ e := by gcongr
    unfold gridExponent
    omega

theorem rounds_mul_of_value (hu : Canonical u) (hv : Canonical v) (hx : value? u = some a)
    (hy : value? v = some b) (ha : 0 ≤ a) (hb : 0 ≤ b) :
    Rounds (UnpackedFloat.mul .binary64 u v) (a * b) := by
  rcases eq_zero_or_positive hx ha with ⟨sign, rfl, rfl⟩ | ⟨m, e, hm, rfl, rfl⟩
  · rw [zero_mul]
    rcases eq_zero_or_positive hy hb with ⟨sign', rfl, -⟩ | ⟨n, f, hn, rfl, -⟩ <;>
      exact rounds_zero _
  · rcases eq_zero_or_positive hy hb with ⟨sign', rfl, rfl⟩ | ⟨n, f, hn, rfl, rfl⟩
    · rw [mul_zero]
      exact rounds_zero _
    · exact rounds_mul hm hn hu hv

theorem rounds_div_of_value (hx : value? u = some a) (hy : value? v = some b) (ha : 0 ≤ a)
    (hb : 0 < b) : Rounds (UnpackedFloat.div .binary64 u v) (a / b) := by
  rcases eq_zero_or_positive hy hb.le with ⟨sign, rfl, rfl⟩ | ⟨n, f, hn, rfl, rfl⟩
  · exact absurd rfl hb.ne
  · rcases eq_zero_or_positive hx ha with ⟨sign, rfl, rfl⟩ | ⟨m, e, hm, rfl, rfl⟩
    · rw [zero_div]
      exact rounds_zero _
    · exact rounds_div hm hn

theorem toRat?_mul {x y : Float} (hx : toRat? x = some a) (hy : toRat? y = some b) (ha : 0 ≤ a)
    (hb : 0 ≤ b) (hfits : nearest (a * b) < 2 ^ 1024) :
    toRat? (x * y) = some (nearest (a * b)) := by
  rw [toRat?_eq] at hx hy
  exact (rounds_mul_of_value (canonical_unpack _) (canonical_unpack _) hx hy ha hb).toRat?_pack
    (mul_nonneg ha hb) hfits

theorem toRat?_div {x y : Float} (hx : toRat? x = some a) (hy : toRat? y = some b) (ha : 0 ≤ a)
    (hb : 0 < b) (hfits : nearest (a / b) < 2 ^ 1024) :
    toRat? (x / y) = some (nearest (a / b)) := by
  rw [toRat?_eq] at hx hy
  exact (rounds_div_of_value hx hy ha hb).toRat?_pack (div_nonneg ha hb.le) hfits

theorem toRat?_ofNat {n : Nat} (hn : n < 2 ^ 53) : toRat? (Float.ofNat n) = some (n : Rat) := by
  have hword : n.toUInt64.toNat = n := by
    rw [Nat.toUInt64_eq, UInt64.toNat_ofNat']
    omega
  have hfloat : Float.ofNat n = n.toUInt64.toFloat * Float.ofBits 0x3FF0000000000000 := by
    show Float.ofScientific n false 0 = _
    unfold Float.ofScientific
    rw [dif_pos ⟨hn, by norm_num⟩]
    rfl
  have hone : toRat? (Float.ofBits 0x3FF0000000000000) = some 1 := by decide
  have hn' := toRat?_toFloat (n := n.toUInt64) (by omega)
  rw [hword] at hn'
  rw [hfloat]
  have hproduct := toRat?_mul hn' hone n.cast_nonneg zero_le_one (by
    rw [mul_one, nearest_natCast hn]
    exact natCast_lt_overflow hn)
  rwa [mul_one, nearest_natCast hn] at hproduct

variable {k n : Nat}

theorem nearest_share_le_one (hle : k ≤ n) : nearest (k / n : Rat) ≤ 1 := by
  rcases k.eq_zero_or_pos with rfl | hpos
  · rw [Nat.cast_zero, zero_div, nearest_zero]
    exact zero_le_one
  · have hn : (0 : Rat) < n := by exact_mod_cast hpos.trans_le hle
    have hshare : (k / n : Rat) ≤ 1 := by
      rw [div_le_one hn]
      exact_mod_cast hle
    calc nearest (k / n : Rat) ≤ nearest (1 : Nat) := by
          rw [Nat.cast_one]
          exact nearest_mono (by positivity) hshare
      _ = 1 := by rw [nearest_natCast (by norm_num), Nat.cast_one]

/-- No share is so small that it rounds to zero. -/
theorem nearest_share_pos (hpos : 0 < k) (hn : 0 < n) (hsize : n < 2 ^ 53) :
    0 < nearest (k / n : Rat) := by
  have hn' : (0 : Rat) < n := by exact_mod_cast hn
  have hsize' : (n : Rat) ≤ 2 ^ (53 : Int) := by exact_mod_cast hsize.le
  have hk : (1 : Rat) ≤ k := by exact_mod_cast hpos
  have hleast : nearest ((1 : Nat) * 2 ^ (-53 : Int)) = (1 : Nat) * 2 ^ (-53 : Int) :=
    nearest_of_exact (by norm_num) (by norm_num) (by norm_num)
  have hshare : ((1 : Nat) * 2 ^ (-53 : Int) : Rat) ≤ k / n := by
    rw [le_div_iff₀ hn', Nat.cast_one, one_mul, zpow_neg]
    calc ((2 : Rat) ^ (53 : Int))⁻¹ * n ≤ ((2 : Rat) ^ (53 : Int))⁻¹ * 2 ^ (53 : Int) := by gcongr
      _ = 1 := inv_mul_cancel₀ (by positivity)
      _ ≤ k := hk
  calc (0 : Rat) < (1 : Nat) * 2 ^ (-53 : Int) := by positivity
    _ = nearest ((1 : Nat) * 2 ^ (-53 : Int)) := hleast.symm
    _ ≤ nearest (k / n) := nearest_mono (by positivity) hshare

theorem nearest_share_eq_zero_iff (hle : k ≤ n) (hsize : n < 2 ^ 53) :
    nearest (k / n : Rat) = 0 ↔ k = 0 := by
  constructor
  · intro hzero
    by_contra hne
    have hpos := Nat.pos_of_ne_zero hne
    exact (nearest_share_pos hpos (hpos.trans_le hle) hsize).ne' hzero
  · rintro rfl
    rw [Nat.cast_zero, zero_div, nearest_zero]

end ElasticPool.Binary64
