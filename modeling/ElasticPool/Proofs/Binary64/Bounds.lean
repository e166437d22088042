import ElasticPool.Proofs.Binary64.Overflow

namespace ElasticPool.Binary64

open Float.Model Float.Model.UnpackedFloat

variable {x y : Float} {a b p q : Rat}

theorem nearest_le_nearest (hp : 0 ≤ p) (hle : p ≤ q) : nearest p ≤ nearest q := by
  rcases hp.lt_or_eq with hpos | rfl
  · exact nearest_mono hpos hle
  · rw [nearest_zero]
    exact nearest_nonneg hle

theorem nearest_two_pow (n : Nat) : nearest (2 ^ n) = 2 ^ n := by
  have h := nearest_of_exact (m := 1) (e := n) one_pos (by norm_num) (by omega)
  rwa [Nat.cast_one, one_mul, zpow_natCast] at h

theorem toRat?_ofNat_of_le {n : Nat} (hn : n ≤ 2 ^ 53) :
    toRat? (Float.ofNat n) = some (n : Rat) := by
  rcases hn.lt_or_eq with hlt | rfl
  · exact toRat?_ofNat hlt
  · have hlargest := (roundsTo_ofNat (2 ^ 53)).toRat?_eq
    rw [Nat.cast_pow, Nat.cast_ofNat, nearest_two_pow] at hlargest
    rw [hlargest (pow_lt_pow_right₀ (by norm_num) (by norm_num)), Nat.cast_pow, Nat.cast_ofNat]

theorem toRat?_share {k n : Nat} (hle : k ≤ n) (hn : 0 < n) (hsize : n ≤ 2 ^ 53) :
    toRat? (Float.ofNat k / Float.ofNat n) = some (nearest (k / n)) := by
  have hn' : (0 : Rat) < n := by exact_mod_cast hn
  apply toRat?_div (toRat?_ofNat_of_le (hle.trans hsize)) (toRat?_ofNat_of_le hsize)
    k.cast_nonneg hn'
  exact (nearest_share_le_one hle).trans_lt (one_lt_pow₀ (by norm_num) (by norm_num))

theorem nearest_toNat_le (n : UInt64) : nearest n.toNat ≤ 2 ^ 64 :=
  (nearest_le_nearest n.toNat.cast_nonneg (by exact_mod_cast n.toNat_lt.le)).trans_eq
    (nearest_two_pow 64)

theorem toRat?_toFloat_eq_nearest (n : UInt64) : toRat? n.toFloat = some (nearest n.toNat) := by
  have hfits : (2 ^ 64 : Rat) < 2 ^ 1024 := pow_lt_pow_right₀ (by norm_num) (by norm_num)
  exact (roundsTo_toFloat n).toRat?_eq ((nearest_toNat_le n).trans_lt hfits)

theorem nearest_eq_self (hx : toRat? x = some a) (ha : 0 ≤ a) : nearest a = a := by
  rw [toRat?_eq] at hx
  exact Option.some.inj ((rounds_self (canonical_unpack _) hx ha).value.symm.trans hx)

theorem one_le_nearest (hq : 1 ≤ q) : 1 ≤ nearest q :=
  (nearest_eq_self toRat?_one zero_le_one).symm.trans_le (nearest_le_nearest zero_le_one hq)

theorem le_roundHalfEven (q : Rat) : q - 1 / 2 ≤ roundHalfEven q := by
  have hfloor := Int.lt_floor_add_one q
  rw [roundHalfEven_of_floor rfl]
  split_ifs <;> push_cast <;> linarith

theorem le_nearest_add_half (q : Rat) : q ≤ nearest q + 2 ^ gridExponent q / 2 := by
  have hgrid : (0 : Rat) < 2 ^ gridExponent q := by positivity
  have hround := le_roundHalfEven (q / 2 ^ gridExponent q)
  calc q = (q / 2 ^ gridExponent q - 1 / 2) * 2 ^ gridExponent q + 2 ^ gridExponent q / 2 := by
        field_simp
        ring
    _ ≤ nearest q + 2 ^ gridExponent q / 2 := by
        unfold nearest
        gcongr

theorem half_grid_le (hpos : 0 < q) (hnormal : -1074 < gridExponent q) :
    (2 : Rat) ^ gridExponent q / 2 ≤ q / 2 ^ 53 := by
  have hlog : Int.log 2 q = 52 + gridExponent q := by
    unfold gridExponent at hnormal ⊢
    omega
  have hq := Int.zpow_log_le_self (b := 2) (by norm_num) hpos
  rw [hlog, Nat.cast_ofNat, zpow_add₀ (by norm_num)] at hq
  norm_num at hq ⊢
  linarith

/-- What rounding takes away from a number, at most. -/
theorem le_nearest_add (hpos : 0 < q) :
    q * (1 - 1 / 2 ^ 53) ≤ nearest q + 2 ^ (-1075 : Int) := by
  have hround := le_nearest_add_half q
  have hleast : (0 : Rat) < 2 ^ (-1075 : Int) := by positivity
  have hmin : -1074 ≤ gridExponent q := le_max_right _ _
  rcases hmin.lt_or_eq with hnormal | hsubnormal
  · have hhalf := half_grid_le hpos hnormal
    linarith
  · have hhalf : (2 : Rat) ^ gridExponent q / 2 = 2 ^ (-1075 : Int) := by
      rw [← hsubnormal, show (-1075 : Int) = -1074 - 1 by norm_num, zpow_sub₀ (by norm_num),
        zpow_one]
    have hpart : 0 < q / 2 ^ 53 := by positivity
    linarith

/-- A number that is not too small loses a small part of itself only. -/
theorem le_nearest (hnormal : q = 0 ∨ (2 : Rat) ^ (-1021 : Int) ≤ q) :
    q * (1 - 1 / 2 ^ 53) ≤ nearest q := by
  rcases hnormal with rfl | hnormal
  · rw [nearest_zero, zero_mul]
  · have hpos : 0 < q := lt_of_lt_of_le (by positivity) hnormal
    have hlog := (Int.zpow_le_iff_le_log (b := 2) (by norm_num) hpos).mp
      (by rwa [Nat.cast_ofNat])
    have hhalf := half_grid_le hpos (by unfold gridExponent; omega)
    have hround := le_nearest_add_half q
    linarith

theorem leastNormal_le_share : (2 : Rat) ^ (-1021 : Int) ≤ 1 / 2 ^ 60 :=
  calc (2 : Rat) ^ (-1021 : Int) ≤ 2 ^ (-60 : Int) :=
        zpow_le_zpow_right₀ (by norm_num) (by norm_num)
    _ = 1 / 2 ^ 60 := by norm_num

theorem le_nearest_share {k n : Nat} (hn : n ≤ 2 ^ 60) :
    (k / n : Rat) * (1 - 1 / 2 ^ 53) ≤ nearest (k / n) := by
  apply le_nearest
  rcases k.eq_zero_or_pos with rfl | hk
  · exact .inl (by simp)
  rcases n.eq_zero_or_pos with rfl | hpos
  · exact .inl (by simp)
  · have hone : (1 : Rat) ≤ k := by exact_mod_cast hk
    have hsize : (n : Rat) ≤ 2 ^ 60 := by exact_mod_cast hn
    exact .inr (leastNormal_le_share.trans (by gcongr))

/-- A float less than one is apart from it. -/
theorem le_of_lt_one (hx : toRat? x = some a) (ha : a < 1) : a ≤ 1 - 1 / 2 ^ 53 := by
  rcases le_or_gt a (1 / 2) with hsmall | hlarge
  · norm_num
    linarith
  · have hpos : 0 < a := by linarith
    have hnearest := nearest_eq_self hx hpos.le
    have hgrid : gridExponent a = -53 := by
      rw [gridExponent, log_eq_of_bounds (e := -1) (by norm_num; linarith)
        (by norm_num; exact ha)]
      norm_num
    rw [nearest, hgrid] at hnearest
    have hlt : (roundHalfEven (a / 2 ^ (-53 : Int)) : Rat) < (2 ^ 53 : Int) := by
      rw [← hnearest] at ha
      norm_num at ha ⊢
      linarith
    have hle : (roundHalfEven (a / 2 ^ (-53 : Int)) : Rat) ≤ (2 ^ 53 - 1 : Int) := by
      exact_mod_cast Int.le_sub_one_of_lt (Int.cast_lt.mp hlt)
    rw [← hnearest]
    norm_num at hle ⊢
    linarith

def AtLeast (q : Rat) (x : Float) : Prop := IsInfinite x ∨ ∃ a, toRat? x = some a ∧ q ≤ a

theorem atLeast_self (hx : toRat? x = some a) : AtLeast a x := .inr ⟨a, hx, le_rfl⟩

theorem RoundsTo.atLeast (h : RoundsTo x q) : AtLeast (nearest q) x := by
  unfold RoundsTo at h
  split at h
  · exact atLeast_self h
  · exact .inl h

theorem AtLeast.mono (h : AtLeast q x) (hle : p ≤ q) : AtLeast p x := by
  rcases h with hinfinite | ⟨a, ha, hbound⟩
  · exact .inl hinfinite
  · exact .inr ⟨a, ha, hle.trans hbound⟩

theorem unpack_add (x y : Float) : (x + y).toModel.unpack = UnpackedFloat.unpack .binary64
    (pack .binary64 (UnpackedFloat.add .binary64 x.toModel.unpack y.toModel.unpack)) := rfl

theorem unpack_mul (x y : Float) : (x * y).toModel.unpack = UnpackedFloat.unpack .binary64
    (pack .binary64 (UnpackedFloat.mul .binary64 x.toModel.unpack y.toModel.unpack)) := rfl

theorem AtLeast.unpack (h : AtLeast 0 x) : x.toModel.unpack = .infinity .positive ∨
    (∃ sign, x.toModel.unpack = .zero sign) ∨
    ∃ m e hm, x.toModel.unpack = .finite .positive m e hm := by
  rcases h with hinfinite | ⟨a, ha, hbound⟩
  · exact .inl hinfinite
  · rw [toRat?_eq] at ha
    rcases eq_zero_or_positive ha hbound with ⟨sign, hx, -⟩ | ⟨m, e, hm, hx, -⟩
    · exact .inr (.inl ⟨sign, hx⟩)
    · exact .inr (.inr ⟨m, e, hm, hx⟩)

theorem AtLeast.le (h : AtLeast q x) (hy : toRat? y = some q) : y ≤ x := by
  rcases h with hinfinite | ⟨a, ha, hbound⟩
  · rw [toRat?_eq] at hy
    show (decide (((y.toModel.unpack.compare x.toModel.unpack).any (·.isLE)) = true)) = true
    rw [hinfinite]
    generalize y.toModel.unpack = v at hy
    cases v with
    | infinity | notANumber => simp [value?] at hy
    | zero => rfl
    | finite sign => cases sign <;> rfl
  · exact (le_iff hy ha).mpr hbound

theorem isInfinite_add_left (hx : IsInfinite x) (hy : AtLeast 0 y) : IsInfinite (x + y) := by
  rw [IsInfinite, unpack_add, hx]
  rcases hy.unpack with hy | ⟨sign, hy⟩ | ⟨m, e, hm, hy⟩ <;>
    · rw [hy]
      exact unpack_packedInfinity .positive

theorem isInfinite_add_right (hx : AtLeast 0 x) (hy : IsInfinite y) : IsInfinite (x + y) := by
  rw [IsInfinite, unpack_add, hy]
  rcases hx.unpack with hx | ⟨sign, hx⟩ | ⟨m, e, hm, hx⟩ <;>
    · rw [hx]
      exact unpack_packedInfinity .positive

theorem AtLeast.add (hx : AtLeast p x) (hy : AtLeast q y) (hp : 0 ≤ p) (hq : 0 ≤ q) :
    AtLeast (nearest (p + q)) (x + y) := by
  rcases hx with hinfinite | ⟨a, ha, hpa⟩
  · exact .inl (isInfinite_add_left hinfinite (hy.mono hq))
  rcases hy with hinfinite | ⟨b, hb, hqb⟩
  · exact .inl (isInfinite_add_right (.inr ⟨a, ha, hp.trans hpa⟩) hinfinite)
  · exact (roundsTo_add ha hb (hp.trans hpa) (hq.trans hqb)).atLeast.mono
      (nearest_le_nearest (add_nonneg hp hq) (add_le_add hpa hqb))

theorem isInfinite_mul (hx : IsInfinite x) (hy : toRat? y = some b) (hb : 0 < b) :
    IsInfinite (x * y) := by
  rw [toRat?_eq] at hy
  rw [IsInfinite, unpack_mul, hx]
  rcases eq_zero_or_positive hy hb.le with ⟨sign, -, hzero⟩ | ⟨m, e, hm, hy, -⟩
  · exact absurd hzero hb.ne'
  · rw [hy]
    exact unpack_packedInfinity .positive

theorem AtLeast.mul (hx : AtLeast p x) (hy : toRat? y = some b) (hp : 0 ≤ p) (hb : 0 < b) :
    AtLeast (nearest (p * b)) (x * y) := by
  rcases hx with hinfinite | ⟨a, ha, hpa⟩
  · exact .inl (isInfinite_mul hinfinite hy hb)
  · exact (roundsTo_mul ha hy (hp.trans hpa) hb.le).atLeast.mono
      (nearest_le_nearest (mul_nonneg hp hb.le) (mul_le_mul_of_nonneg_right hpa hb.le))

/-- The float is not below zero, or it is no number at all. -/
def Unsigned (x : Float) : Prop := x.toModel.unpack = .notANumber ∨ AtLeast 0 x

theorem AtLeast.unsigned_mul (hx : AtLeast 0 x) (hy : toRat? y = some b) (hb : 0 ≤ b) :
    Unsigned (x * y) := by
  rcases hx with hinfinite | ⟨a, ha, hpos⟩
  · rw [toRat?_eq] at hy
    rcases eq_zero_or_positive hy hb with ⟨sign, hzero, -⟩ | ⟨m, e, hm, hpositive, -⟩
    · left
      rw [unpack_mul, hinfinite, hzero]
      exact unpack_packedNaN
    · right
      left
      rw [IsInfinite, unpack_mul, hinfinite, hpositive]
      exact unpack_packedInfinity .positive
  · exact .inr ((roundsTo_mul ha hy hpos hb).atLeast.mono (nearest_nonneg (mul_nonneg hpos hb)))

theorem Unsigned.add (hy : Unsigned y) (hx : toRat? x = some a) (ha : 0 ≤ a) :
    Unsigned (x + y) := by
  rcases hy with hnone | hy
  · left
    rw [unpack_add, hnone]
    rcases (atLeast_self hx |>.mono ha).unpack with hx | ⟨sign, hx⟩ | ⟨m, e, hm, hx⟩ <;>
      · rw [hx]
        exact unpack_packedNaN
  · right
    exact ((atLeast_self hx).add hy ha le_rfl).mono (nearest_nonneg (add_nonneg ha le_rfl))

theorem Unsigned.toRat?_of_le (h : Unsigned x) (hle : x ≤ y) (hy : toRat? y = some b) :
    ∃ a, toRat? x = some a ∧ 0 ≤ a ∧ a ≤ b := by
  have hcompare : ((x.toModel.unpack.compare y.toModel.unpack).any (·.isLE)) = true :=
    of_decide_eq_true hle
  rcases h with hnone | hinfinite | ⟨a, ha, hpos⟩
  · rw [hnone] at hcompare
    cases hcompare
  · rw [toRat?_eq] at hy
    rw [hinfinite] at hcompare
    generalize y.toModel.unpack = v at hy hcompare
    cases v with
    | infinity | notANumber => simp [value?] at hy
    | zero => cases hcompare
    | finite sign => cases hcompare
  · exact ⟨a, ha, hpos, (le_iff ha hy).mp hle⟩

theorem AtLeast.not_le (h : AtLeast q x) (hq : 0 ≤ q) (hy : toRat? y = some b) (hlt : b < q) :
    ¬x ≤ y := by
  intro hle
  obtain ⟨a, ha, -, hab⟩ := Unsigned.toRat?_of_le (.inr (h.mono hq)) hle hy
  rcases h with hinfinite | ⟨a', ha', hqa⟩
  · rw [toRat?_eq, hinfinite] at ha
    cases ha
  · obtain rfl := Option.some.inj (ha.symm.trans ha')
    linarith

end ElasticPool.Binary64
