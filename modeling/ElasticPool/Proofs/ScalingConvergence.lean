import ElasticPool.Proofs.ScalingSteps

namespace ElasticPool

open Binary64

namespace Scaling

variable {s : Settings} {c : ScalingConfig} {desired current goal : UInt64}
  {ticks : List (Option UInt64 × Bool)}

/-- Rounding keeps the order of two concurrencies, so that their quotient is at least one. -/
theorem utilization_le (hvalid : c.Valid) (hpos : 0 < desired.toNat) (hle : desired ≤ current) :
    c.utilization ≤ current.toFloat / desired.toFloat := by
  obtain ⟨u, hu, -, hone⟩ :=
    toRat?_of_mem hvalid.utilization.1 hvalid.utilization.2 toRat?_zero toRat?_one
  have hdesired : 1 ≤ nearest (desired.toNat : Rat) := one_le_nearest (by exact_mod_cast hpos)
  -- Rounding keeps the order, so the rounded numbers have a quotient of one at least.
  have hcurrent : nearest (desired.toNat : Rat) ≤ nearest current.toNat :=
    nearest_le_nearest desired.toNat.cast_nonneg (by exact_mod_cast UInt64.le_iff_toNat_le.mp hle)
  have hquotient := (roundsTo_div (toRat?_toFloat_eq_nearest current)
    (toRat?_toFloat_eq_nearest desired) (by linarith) (by linarith)).atLeast
  refine (hquotient.mono ?_).le hu
  calc u ≤ 1 := hone
    _ ≤ nearest (nearest current.toNat / nearest desired.toNat) :=
        one_le_nearest ((one_le_div (by linarith)).mpr hcurrent)

theorem exists_next?_idle (hvalid : c.Valid) (hlow : s.minimum ≤ desired)
    (hhigh : desired ≤ s.maximum) (hroom : s.maximum.toNat < 2 ^ 63) (hused : desired ≤ current) :
    ∃ n, next? s c desired current true = some n ∧ desired ≤ n ∧
      (desired < s.maximum → desired < n) := by
  have hpos : 0 < desired.toNat := by
    have h := UInt64.le_iff_toNat_le.mp (UInt64.le_trans s.one_le_minimum hlow)
    rwa [UInt64.toNat_one] at h
  have hfits := add_stepSize_lt hvalid.upRatio
    ((UInt64.le_iff_toNat_le.mp hhigh).trans_lt hroom)
  cases hnext : next? s c desired current true with
  | none => exact absurd (next?_idle_eq_none_iff.mp hnext).2 (Nat.not_le.mpr hfits)
  | some n =>
      obtain ⟨hle, hlt⟩ := le_of_next?_idle hhigh hnext
      exact ⟨n, rfl, hle, hlt (utilization_le hvalid hpos hused)⟩

def Within (s : Settings) (desired : UInt64) : Prop := s.minimum ≤ desired ∧ desired ≤ s.maximum

theorem Within.of_next? {n : UInt64} {idle : Bool} (h : Within s desired)
    (hnext : next? s c desired current idle = some n) : Within s n := next?_mem h hnext

theorem length_of_afterTicks {following : List UInt64}
    (h : afterTicks s c desired ticks = some following) : following.length = ticks.length := by
  induction ticks generalizing desired following with
  | nil => rw [← Option.some.inj h, List.length_nil, List.length_nil]
  | cons tick ticks ih =>
      obtain ⟨n, -, hlater⟩ := Option.bind_eq_some_iff.mp h
      obtain ⟨rest, hrest, rfl⟩ := Option.map_eq_some_iff.mp hlater
      exact congrArg Nat.succ (ih hrest)

/-- A condition on ticks holds of each tick at the concurrency at which it comes. -/
def Along (s : Settings) (c : ScalingConfig) (condition : UInt64 → Option UInt64 × Bool → Prop)
    (desired : UInt64) : List (Option UInt64 × Bool) → Prop
  | [] => True
  | tick :: ticks => condition desired tick ∧
      ∀ n ∈ next? s c desired (tick.1.getD desired) tick.2, Along s c condition n ticks

def FullyUsed (desired : UInt64) (tick : Option UInt64 × Bool) : Prop :=
  tick.2 = true ∧ desired ≤ tick.1.getD desired

theorem along_of_forall {condition : UInt64 → Option UInt64 × Bool → Prop}
    (h : ∀ tick ∈ ticks, ∀ desired, condition desired tick) :
    Along s c condition desired ticks := by
  induction ticks generalizing desired with
  | nil => trivial
  | cons tick ticks ih =>
      exact ⟨h tick List.mem_cons_self desired,
        fun n _ => ih fun t hmem => h t (List.mem_cons_of_mem _ hmem)⟩

/-- The concurrencies after some ticks go one way, they do not go past the goal, and they have
reached it after as many ticks as the distance. -/
structure Approaches (relation : UInt64 → UInt64 → Prop) (goal : UInt64) (distance : Nat)
    (desired : UInt64) (following : List UInt64) : Prop where
  monotone : (desired :: following).Pairwise relation
  bounded : ∀ d ∈ following, relation d goal
  arrives : distance ≤ following.length → following.getLastD desired = goal

/-- Ticks that all go one way, each by one at least until the goal is reached, approach it. -/
theorem approaches_of_steps {relation : UInt64 → UInt64 → Prop} (distance : UInt64 → Nat)
    (condition : UInt64 → Option UInt64 × Bool → Prop)
    (htrans : ∀ a b d, relation a b → relation b d → relation a d)
    (hgoal : ∀ d, Within s d → relation d goal ∧ (distance d = 0 → d = goal))
    (hstep : ∀ d tick, Within s d → condition d tick →
      ∃ n, next? s c d (tick.1.getD d) tick.2 = some n ∧ relation d n ∧
        distance n ≤ distance d - 1)
    (hdesired : Within s desired) (halong : Along s c condition desired ticks) :
    ∃ following, afterTicks s c desired ticks = some following ∧
      Approaches relation goal (distance desired) desired following := by
  induction ticks generalizing desired with
  | nil =>
      refine ⟨[], rfl, List.pairwise_singleton _ _, by simp, fun hnear => ?_⟩
      exact (hgoal desired hdesired).2 (Nat.le_zero.mp hnear)
  | cons tick ticks ih =>
      obtain ⟨n, hnext, hmoves, hcloser⟩ := hstep desired tick hdesired halong.1
      have hwithin : Within s n := hdesired.of_next? hnext
      -- The rest goes the same way from the next concurrency, which is one nearer to the goal.
      obtain ⟨following, hfollowing, hrest⟩ := ih hwithin (halong.2 n hnext)
      refine ⟨n :: following, by simp [afterTicks, hnext, hfollowing], ?_, ?_, fun hnear => ?_⟩
      · refine hrest.monotone.cons ?_
        rintro d (_ | ⟨_, hlater⟩)
        · exact hmoves
        · exact htrans _ _ _ hmoves (List.rel_of_pairwise_cons hrest.monotone hlater)
      · rintro d (_ | ⟨_, hlater⟩)
        · exact (hgoal n hwithin).1
        · exact hrest.bounded d hlater
      · rw [List.length_cons] at hnear
        rw [List.getLastD_cons]
        exact hrest.arrives (by omega)

theorem approaches_minimum (hdesired : Within s desired)
    (hoverloaded : ∀ tick ∈ ticks, tick.2 = false) :
    ∃ following, afterTicks s c desired ticks = some following ∧
      Approaches (· ≥ ·) s.minimum (desired.toNat - s.minimum.toNat) desired following := by
  refine approaches_of_steps (fun d => d.toNat - s.minimum.toNat) (fun _ tick => tick.2 = false)
    (fun _ _ _ hab hbd => UInt64.le_trans hbd hab) (fun d hwithin => ⟨hwithin.1, fun hzero => ?_⟩)
    ?_ hdesired (along_of_forall fun tick hmem _ => hoverloaded tick hmem)
  · have hle : d.toNat ≤ s.minimum.toNat := Nat.sub_eq_zero_iff_le.mp hzero
    exact UInt64.le_antisymm (UInt64.le_iff_toNat_le.mpr hle) hwithin.1
  · rintro d ⟨current?, idle⟩ hwithin rfl
    obtain ⟨n, hnext, hle, hlt⟩ := exists_next?_overloaded hwithin.1 (current?.getD d)
    refine ⟨n, hnext, hle, ?_⟩
    rw [UInt64.lt_iff_toNat_lt, UInt64.lt_iff_toNat_lt] at hlt
    rw [UInt64.le_iff_toNat_le] at hle
    omega

theorem approaches_maximum (hvalid : c.Valid) (hroom : s.maximum.toNat < 2 ^ 63)
    (hdesired : Within s desired) (hused : Along s c FullyUsed desired ticks) :
    ∃ following, afterTicks s c desired ticks = some following ∧
      Approaches (· ≤ ·) s.maximum (s.maximum.toNat - desired.toNat) desired following := by
  refine approaches_of_steps (fun d => s.maximum.toNat - d.toNat) FullyUsed
    (fun _ _ _ => UInt64.le_trans)
    (fun d hwithin => ⟨hwithin.2, fun hzero => ?_⟩) ?_ hdesired hused
  · have hle : s.maximum.toNat ≤ d.toNat := Nat.sub_eq_zero_iff_le.mp hzero
    exact UInt64.le_antisymm hwithin.2 (UInt64.le_iff_toNat_le.mpr hle)
  · rintro d ⟨current?, idle⟩ hwithin ⟨rfl, hused⟩
    obtain ⟨n, hnext, hle, hlt⟩ := exists_next?_idle hvalid hwithin.1 hwithin.2 hroom hused
    refine ⟨n, hnext, hle, ?_⟩
    rw [UInt64.lt_iff_toNat_lt, UInt64.lt_iff_toNat_lt] at hlt
    rw [UInt64.le_iff_toNat_le] at hle
    omega

/-- As long as the system is overloaded the desired concurrency falls, and it is at the minimum
after as many ticks as it was above it.  As long as the system is idle and each tick finds all of
the desired concurrency in use, it rises, and it is at a maximum below `2 ^ 63` after as many
ticks as it was below it.  No tick fails, and at these bounds such ticks leave it as it is. -/
theorem approaches_bounds (hvalid : c.Valid) (hlow : s.minimum ≤ desired)
    (hhigh : desired ≤ s.maximum) (ticks : List (Option UInt64 × Bool)) :
    (∀ following, afterTicks s c desired ticks = some following →
      following.length = ticks.length) ∧
    ((∀ tick ∈ ticks, tick.2 = false) →
      ∃ following, afterTicks s c desired ticks = some following ∧
        Approaches (· ≥ ·) s.minimum (desired.toNat - s.minimum.toNat) desired following) ∧
    (∀ current, next? s c s.minimum current false = some s.minimum) ∧
    (s.maximum.toNat < 2 ^ 63 →
      (Along s c FullyUsed desired ticks →
        ∃ following, afterTicks s c desired ticks = some following ∧
          Approaches (· ≤ ·) s.maximum (s.maximum.toNat - desired.toNat) desired following) ∧
      ∀ current, s.maximum ≤ current → next? s c s.maximum current true = some s.maximum) := by
  have hminimum : Within s s.minimum := ⟨UInt64.le_refl _, s.minimum_le_maximum⟩
  have hmaximum : Within s s.maximum := ⟨s.minimum_le_maximum, UInt64.le_refl _⟩
  refine ⟨fun _ => length_of_afterTicks, approaches_minimum ⟨hlow, hhigh⟩, fun current => ?_,
    fun hroom => ⟨approaches_maximum hvalid hroom ⟨hlow, hhigh⟩, fun current hused => ?_⟩⟩
  · obtain ⟨n, hnext, hle, -⟩ := exists_next?_overloaded hminimum.1 current
    rw [hnext, UInt64.le_antisymm hle (hminimum.of_next? hnext).1]
  · obtain ⟨n, hnext, hle, -⟩ := exists_next?_idle hvalid hmaximum.1 hmaximum.2 hroom hused
    rw [hnext, UInt64.le_antisymm (hmaximum.of_next? hnext).2 hle]

def fiveAtMost : Settings := { Settings.pair with maximum := 5, desired_le_maximum := by decide }

/-- From four down to one, and from two up to five, in three ticks each. -/
theorem approaches_bounds_of_five : ({} : ScalingConfig).Valid ∧
    (fiveAtMost.minimum ≤ 4 ∧ 4 ≤ fiveAtMost.maximum) ∧
    (fiveAtMost.minimum ≤ 2 ∧ 2 ≤ fiveAtMost.maximum) ∧ ∃ lowering raising,
      lowering = [(none, false), (some 0, false), (some 9, false), (none, false)] ∧
      afterTicks fiveAtMost {} 4 lowering = some [3, 2, 1, 1] ∧
      Approaches (· ≥ ·) 1 3 4 [3, 2, 1, 1] ∧
      raising = [(none, true), (some 3, true), (some 9, true), (some 5, true)] ∧
      afterTicks fiveAtMost {} 2 raising = some [3, 4, 5, 5] ∧
      Approaches (· ≤ ·) 5 3 2 [3, 4, 5, 5] := by
  have hfour : fiveAtMost.minimum ≤ 4 ∧ 4 ≤ fiveAtMost.maximum := by decide
  have htwo : fiveAtMost.minimum ≤ 2 ∧ 2 ≤ fiveAtMost.maximum := by decide
  have hlowered : afterTicks fiveAtMost {} 4
      [(none, false), (some 0, false), (some 9, false), (none, false)] = some [3, 2, 1, 1] := by
    decide +kernel
  have hraised : afterTicks fiveAtMost {} 2
      [(none, true), (some 3, true), (some 9, true), (some 5, true)] = some [3, 4, 5, 5] := by
    decide +kernel
  have hfirst : next? fiveAtMost {} 2 2 true = some 3 := by decide +kernel
  have hsecond : next? fiveAtMost {} 3 3 true = some 4 := by decide +kernel
  have hthird : next? fiveAtMost {} 4 9 true = some 5 := by decide +kernel
  have hused : Along fiveAtMost {} FullyUsed 2
      [(none, true), (some 3, true), (some 9, true), (some 5, true)] := by
    simp [Along, FullyUsed, hfirst, hsecond, hthird]
  obtain ⟨-, hfalls, -, -⟩ := approaches_bounds valid_default hfour.1 hfour.2
    [(none, false), (some 0, false), (some 9, false), (none, false)]
  obtain ⟨low, hlow, hfalling⟩ := hfalls (by simp)
  obtain ⟨-, -, -, hrises⟩ := approaches_bounds valid_default htwo.1 htwo.2
    [(none, true), (some 3, true), (some 9, true), (some 5, true)]
  obtain ⟨high, hhigh, hrising⟩ := (hrises (by decide)).1 hused
  obtain rfl := Option.some.inj (hlowered.symm.trans hlow)
  obtain rfl := Option.some.inj (hraised.symm.trans hhigh)
  exact ⟨valid_default, hfour, htwo, _, _, rfl, hlowered, hfalling, rfl, hraised, hrising⟩

end Scaling

end ElasticPool
