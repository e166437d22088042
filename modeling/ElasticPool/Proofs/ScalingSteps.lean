import ElasticPool.Proofs.SlotAccounting
import ElasticPool.Proofs.Binary64.Bounds

namespace ElasticPool

open Binary64

namespace Settings

variable {s : Settings} {m n : UInt64}

theorem le_clamp (hle : m ≤ n) (hmax : m ≤ s.maximum) : m ≤ s.clamp n := by
  unfold clamp
  grind

theorem lt_clamp (hlt : m < n) (hmax : m < s.maximum) : m < s.clamp n := by
  unfold clamp
  grind

theorem clamp_le (hle : n ≤ m) (hmin : s.minimum ≤ m) : s.clamp n ≤ m := by
  unfold clamp
  grind

theorem clamp_lt (hlt : n < m) (hmin : s.minimum < m) : s.clamp n < m := by
  unfold clamp
  grind

end Settings

namespace Scaling

variable {s : Settings} {c : ScalingConfig} {desired current amount : UInt64} {ratio : Float}

theorem toNat_stepSize (desired : UInt64) (ratio : Float) :
    (stepSize desired ratio).toNat = max (ceilWord (desired.toFloat * ratio)).toNat 1 := by
  set share := ceilWord (desired.toFloat * ratio)
  show (if share ≤ 1 then (1 : UInt64) else share).toNat = max share.toNat 1
  split <;> rename_i h <;> rw [UInt64.le_iff_toNat_le, UInt64.toNat_one] at h
  · rw [max_eq_right h, UInt64.toNat_one]
  · rw [max_eq_left (not_le.mp h).le]

theorem toNat_ceilWord_le {x : Float} {q : Rat} {n : Nat} (hx : toRat? x = some q)
    (hle : q ≤ n) : (ceilWord x).toNat ≤ n := by
  have hceil : q.ceil ≤ n := Rat.ceil_le_iff.mpr (by exact_mod_cast hle)
  unfold ceilWord
  rw [hx]
  show (UInt64.ofNat (min q.ceil.toNat (UInt64.size - 1))).toNat ≤ n
  rw [UInt64.toNat_ofNat_of_lt' (by simp [UInt64.size])]
  omega

theorem toNat_stepSize_le (hratio : IsRatio ratio) (hsmall : desired.toNat ≤ 2 ^ 63) :
    (stepSize desired ratio).toNat ≤ 2 ^ 63 := by
  obtain ⟨share, hshare, hpos, hle⟩ :=
    toRat?_of_mem hratio.1 hratio.2 toRat?_zero toRat?_one
  have hfits : (2 ^ 63 : Rat) < 2 ^ 1024 := pow_lt_pow_right₀ (by norm_num) (by norm_num)
  have hconcurrency : nearest desired.toNat ≤ 2 ^ 63 :=
    (nearest_le_nearest desired.toNat.cast_nonneg (by exact_mod_cast hsmall)).trans_eq
    (nearest_two_pow 63)
  have hfloat := (roundsTo_toFloat desired).toRat?_eq (hconcurrency.trans_lt hfits)
  have hnonneg := nearest_nonneg (q := desired.toNat) desired.toNat.cast_nonneg
  have hproduct : nearest (nearest desired.toNat * share) ≤ 2 ^ 63 := by
    refine (nearest_le_nearest (mul_nonneg hnonneg hpos) ?_).trans_eq (nearest_two_pow 63)
    exact (mul_le_of_le_one_right hnonneg hle).trans hconcurrency
  have hstep := toNat_ceilWord_le (n := 2 ^ 63)
    (toRat?_mul hfloat hshare hnonneg hpos (hproduct.trans_lt hfits)) (by exact_mod_cast hproduct)
  rw [toNat_stepSize]
  omega

theorem stepSize_pos (desired : UInt64) (ratio : Float) : 0 < (stepSize desired ratio).toNat := by
  rw [toNat_stepSize]
  omega

theorem add_stepSize_lt (hratio : IsRatio ratio) (hsmall : desired.toNat < 2 ^ 63) :
    desired.toNat + (stepSize desired ratio).toNat < 2 ^ 64 := by
  have hstep := toNat_stepSize_le hratio hsmall.le
  omega

theorem raised?_eq_some_iff {n : UInt64} :
    raised? desired amount = some n ↔ n.toNat = desired.toNat + amount.toNat := by
  have hn := n.toNat_lt
  unfold raised?
  split
  case isTrue hfits =>
      rw [Option.some_inj, ← UInt64.toNat_inj, UInt64.toNat_add, Nat.mod_eq_of_lt hfits]
      exact eq_comm
  case isFalse hlarge =>
      simp only [reduceCtorEq, false_iff]
      intro heq
      exact hlarge (heq ▸ hn)

theorem raised?_eq_none_iff :
    raised? desired amount = none ↔ 2 ^ 64 ≤ desired.toNat + amount.toNat := by
  unfold raised?
  split
  case isTrue hfits => simpa using hfits
  case isFalse hlarge => simpa using hlarge

theorem toNat_lowered (desired amount : UInt64) :
    (lowered desired amount).toNat = desired.toNat - amount.toNat := by
  unfold lowered
  split
  · rename_i hle
    exact UInt64.toNat_sub_of_le _ _ hle
  · rename_i hlt
    rw [UInt64.not_le, UInt64.lt_iff_toNat_lt] at hlt
    rw [UInt64.toNat_zero]
    omega

theorem exists_next?_overloaded (hlow : s.minimum ≤ desired) (current : UInt64) :
    ∃ n, next? s c desired current false = some n ∧ n ≤ desired ∧
      (s.minimum < desired → n < desired) := by
  have hpos : 0 < desired.toNat := by
    have h := UInt64.le_iff_toNat_le.mp (UInt64.le_trans s.one_le_minimum hlow)
    rwa [UInt64.toNat_one] at h
  have hlowered : lowered desired (stepSize desired c.downRatio) < desired := by
    have h := stepSize_pos desired c.downRatio
    rw [UInt64.lt_iff_toNat_lt, toNat_lowered]
    omega
  exact ⟨_, rfl, Settings.clamp_le (UInt64.le_of_lt hlowered) hlow, Settings.clamp_lt hlowered⟩

theorem le_of_next?_idle {n : UInt64} (hhigh : desired ≤ s.maximum)
    (hnext : next? s c desired current true = some n) :
    desired ≤ n ∧ (c.utilization ≤ current.toFloat / desired.toFloat → desired < s.maximum →
      desired < n) := by
  rw [next?, if_pos rfl] at hnext
  split at hnext
  case isTrue =>
      obtain ⟨sum, hsum, rfl⟩ := Option.map_eq_some_iff.mp hnext
      have hstep := stepSize_pos desired c.upRatio
      have hraised : desired < sum := by
        rw [UInt64.lt_iff_toNat_lt, raised?_eq_some_iff.mp hsum]
        omega
      exact ⟨Settings.le_clamp (UInt64.le_of_lt hraised) hhigh,
        fun _ hroom => Settings.lt_clamp hraised hroom⟩
  case isFalse hunused =>
      obtain rfl := Option.some.inj hnext
      exact ⟨UInt64.le_refl _, fun hused => absurd hused hunused⟩

theorem next?_idle_eq_none_iff : next? s c desired current true = none ↔
    c.utilization ≤ current.toFloat / desired.toFloat ∧
      2 ^ 64 ≤ desired.toNat + (stepSize desired c.upRatio).toNat := by
  rw [next?, if_pos rfl, ← raised?_eq_none_iff]
  split
  case isTrue hused => simp [hused]
  case isFalse hunused => simp [hunused]

/-- A tick of an overloaded system lowers the desired concurrency, down to the minimum.  One of
an idle system never lowers it, and raises it up to the maximum if the present one is in use.  It
fails exactly if the sum with the step does not fit into a word, which it does below `2 ^ 63`. -/
theorem next_moves_with_load (hvalid : c.Valid) (hlow : s.minimum ≤ desired)
    (hhigh : desired ≤ s.maximum) (current : UInt64) :
    (∃ n, next? s c desired current false = some n ∧ n ≤ desired ∧
      (s.minimum < desired → n < desired)) ∧
    (∀ n, next? s c desired current true = some n → desired ≤ n ∧
      (c.utilization ≤ current.toFloat / desired.toFloat → desired < s.maximum → desired < n)) ∧
    (next? s c desired current true = none ↔
      c.utilization ≤ current.toFloat / desired.toFloat ∧
        2 ^ 64 ≤ desired.toNat + (stepSize desired c.upRatio).toNat) ∧
    (desired.toNat < 2 ^ 63 → desired.toNat + (stepSize desired c.upRatio).toNat < 2 ^ 64) :=
  ⟨exists_next?_overloaded hlow current, fun _ hnext => le_of_next?_idle hhigh hnext,
    next?_idle_eq_none_iff, add_stepSize_lt hvalid.upRatio⟩

def widest : Settings :=
  { Settings.pair with
    maximum := 18446744073709551615
    desired := 18446744073709551615
    minimum_le_desired := by decide
    desired_le_maximum := by decide }

theorem valid_default : ({} : ScalingConfig).Valid :=
  ScalingConfig.check_eq_ok_iff.mp rfl

/-- The last concurrency whose sum with a step is sure to fit. -/
theorem next_moves_with_load_of_last : ({} : ScalingConfig).Valid ∧
    widest.minimum ≤ 9223372036854775807 ∧ 9223372036854775807 ≤ widest.maximum ∧
      (∃ n, next? widest {} 9223372036854775807 9223372036854775807 false = some n ∧
        n < 9223372036854775807) ∧
      ∃ n, next? widest {} 9223372036854775807 9223372036854775807 true = some n ∧
        9223372036854775807 < n := by
  have hlow : widest.minimum ≤ 9223372036854775807 := by decide
  have hhigh : 9223372036854775807 ≤ widest.maximum := by decide
  obtain ⟨⟨lower, hlower, -, hlowers⟩, hraises, hfails, hfits⟩ :=
    next_moves_with_load valid_default hlow hhigh 9223372036854775807
  refine ⟨valid_default, hlow, hhigh, ⟨lower, hlower, hlowers (by decide)⟩, ?_⟩
  cases hnext : next? widest {} 9223372036854775807 9223372036854775807 true with
  | none => exact absurd (hfails.mp hnext).2 (Nat.not_le.mpr (hfits (by decide)))
  | some higher => exact ⟨higher, rfl, (hraises higher hnext).2 (by decide +kernel) (by decide)⟩

/-- At the largest concurrency, an idle tick fails if all of it is in use. -/
theorem next?_eq_none_of_overflow : ({} : ScalingConfig).Valid ∧
    widest.minimum ≤ widest.desired ∧ widest.desired ≤ widest.maximum ∧
      next? widest {} widest.desired widest.desired true = none :=
  ⟨valid_default, by decide, by decide, by decide +kernel⟩

end Scaling

end ElasticPool
