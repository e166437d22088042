import ElasticPool.Measurement
import ElasticPool.Proofs.Binary64.Bounds

namespace ElasticPool

open Binary64

namespace Reading

variable {size size' limit limit' : UInt64} {tolerance tolerance' : Float}

theorem memoryRatio_zero (size : UInt64) : memoryRatio size 0 = 1 := rfl

theorem one_le_nearest_limit (hlimit : limit ≠ 0) : 1 ≤ nearest limit.toNat := by
  apply one_le_nearest
  have hpos : 0 < limit.toNat := Nat.pos_of_ne_zero fun h => hlimit (UInt64.toNat_inj.mp h)
  exact_mod_cast hpos

theorem toRat?_memoryRatio (size : UInt64) (hlimit : limit ≠ 0) :
    toRat? (memoryRatio size limit) =
      some (nearest (nearest size.toNat / nearest limit.toNat)) := by
  have hleast := one_le_nearest_limit hlimit
  have hsize := nearest_nonneg (q := size.toNat) size.toNat.cast_nonneg
  -- the divisor is one at least, so the quotient does not leave the range of words
  have hquotient : nearest size.toNat / nearest limit.toNat ≤ 2 ^ 64 :=
    (div_le_self hsize hleast).trans (nearest_toNat_le size)
  have hfits : nearest (nearest size.toNat / nearest limit.toNat) < 2 ^ 1024 := by
    calc nearest (nearest size.toNat / nearest limit.toNat) ≤ nearest (2 ^ 64) :=
          nearest_le_nearest (by positivity) hquotient
      _ = 2 ^ 64 := nearest_two_pow 64
      _ < 2 ^ 1024 := pow_lt_pow_right₀ (by norm_num) (by norm_num)
  rw [memoryRatio, if_neg hlimit]
  exact toRat?_div (toRat?_toFloat_eq_nearest size) (toRat?_toFloat_eq_nearest limit) hsize
    (by linarith) hfits

theorem nearest_quotient_mono (hsize : size ≤ size') (hlimit : limit' ≤ limit)
    (hlimit' : limit' ≠ 0) :
    nearest (nearest size.toNat / nearest limit.toNat) ≤
      nearest (nearest size'.toNat / nearest limit'.toNat) := by
  have hleast := one_le_nearest_limit hlimit'
  have hused : nearest (size.toNat : Rat) ≤ nearest size'.toNat :=
    nearest_le_nearest size.toNat.cast_nonneg (by exact_mod_cast UInt64.le_iff_toNat_le.mp hsize)
  have hallowed : nearest (limit'.toNat : Rat) ≤ nearest limit.toNat :=
    nearest_le_nearest limit'.toNat.cast_nonneg
      (by exact_mod_cast UInt64.le_iff_toNat_le.mp hlimit)
  have hpos := nearest_nonneg (q := size.toNat) size.toNat.cast_nonneg
  apply nearest_le_nearest
  · exact div_nonneg hpos (by linarith)
  · gcongr
    linarith

theorem overloaded_memory_iff :
    (memory size limit tolerance).overloaded ↔ tolerance < memoryRatio size limit := by
  simp [overloaded]

theorem overloaded_memory_zero_iff :
    (memory size 0 tolerance).overloaded ↔ tolerance < 1 := by
  rw [overloaded_memory_iff, memoryRatio_zero]

/-- With a limit that is left, a sample is no less overloaded than one that is better off. -/
theorem overloaded_of_limit_ne_zero {p q : Rat} (hp : toRat? tolerance = some p)
    (hq : toRat? tolerance' = some q) (hle : q ≤ p) (hsize : size ≤ size')
    (hlimit : limit' ≤ limit) (hlimit' : limit' ≠ 0)
    (h : (memory size limit tolerance).overloaded) :
    (memory size' limit' tolerance').overloaded := by
  have hpositive : limit ≠ 0 := by
    rintro rfl
    exact hlimit' (UInt64.le_zero_iff.mp hlimit)
  rw [overloaded_memory_iff, lt_iff hp (toRat?_memoryRatio size hpositive)] at h
  rw [overloaded_memory_iff, lt_iff hq (toRat?_memoryRatio size' hlimit')]
  calc q ≤ p := hle
    _ < nearest (nearest size.toNat / nearest limit.toNat) := h
    _ ≤ nearest (nearest size'.toNat / nearest limit'.toNat) :=
        nearest_quotient_mono hsize hlimit hlimit'

/-- Where a sample is overloaded, so is every sample with no less in use, no larger a limit and
no higher a tolerance, but for a limit of zero at a tolerance of one. -/
theorem overloaded_iff_of_worse (htolerance : IsRatio tolerance)
    (htolerance' : IsRatio tolerance') (hsize : size ≤ size') (hlimit : limit' ≤ limit)
    (hlower : tolerance' ≤ tolerance) (h : (memory size limit tolerance).overloaded) :
    (memory size' limit' tolerance').overloaded ↔ limit' ≠ 0 ∨ tolerance' < 1 := by
  obtain ⟨p, hp, -, -⟩ := toRat?_of_mem htolerance.1 htolerance.2 toRat?_zero toRat?_one
  obtain ⟨q, hq, -, -⟩ := toRat?_of_mem htolerance'.1 htolerance'.2 toRat?_zero toRat?_one
  -- A limit of zero counts as used up exactly, whatever is in use.
  rcases eq_or_ne limit' 0 with rfl | hlimit'
  · simp [overloaded_memory_zero_iff]
  · have hoverloaded := overloaded_of_limit_ne_zero hp hq ((le_iff hq hp).mp hlower) hsize hlimit
      hlimit' h
    exact iff_of_true hoverloaded (.inl hlimit')

/-- The limit of an overloaded sample is lost. -/
theorem overloaded_iff_of_worse_of_limitless : (memory 950 1000 0.9).overloaded ∧
    ((memory 950 0 0.9).overloaded ↔ (0 : UInt64) ≠ 0 ∨ (0.9 : Float) < 1) := by
  have hratio : IsRatio 0.9 := by decide +kernel
  have hoverloaded : (memory 950 1000 0.9).overloaded := by decide +kernel
  exact ⟨hoverloaded, overloaded_iff_of_worse hratio hratio (by decide) (by decide)
    (by decide +kernel) hoverloaded⟩

/-- Two bytes are in use at a tolerance of one.  A quarter of four bytes is a limit that they
exceed, and a quarter of three bytes is cut off to a limit of zero that they do not. -/
theorem not_overloaded_of_truncated_limit :
    let c : SamplingConfig := { maxMemoryRatio := 1 }
    let four : Measurement := ⟨0, 2, 4, ⟨0⟩⟩
    let three : Measurement := ⟨0, 2, 3, ⟨0⟩⟩
    c.Valid ∧ four.memorySample c = ⟨memory 2 1 1, ⟨0⟩⟩ ∧
      three.memorySample c = ⟨memory 2 0 1, ⟨0⟩⟩ ∧
      (four.memorySample c).overloaded ∧ ¬(three.memorySample c).overloaded := by
  refine ⟨SamplingConfig.check_eq_ok_iff.mp rfl, ?_, ?_, ?_, ?_⟩
  · rfl
  · rfl
  · decide +kernel
  · decide +kernel

end Reading

end ElasticPool
