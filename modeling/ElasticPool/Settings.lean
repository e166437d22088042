import ElasticPool.Fault

namespace ElasticPool

def AcceptedRate (rate : Float) : Prop := rate.isFinite ∧ 0 < rate

instance (rate : Float) : Decidable (AcceptedRate rate) := inferInstanceAs (Decidable (_ ∧ _))

/-- Concurrency bounds, the concurrency at which each run begins, and an optional
ceiling on the invocations started per minute. -/
structure Settings where
  minimum : UInt64
  maximum : UInt64
  desired : UInt64
  tasksPerMinute : Option Float
  one_le_minimum : 1 ≤ minimum
  minimum_le_desired : minimum ≤ desired
  desired_le_maximum : desired ≤ maximum
  accepted_rate : ∀ rate ∈ tasksPerMinute, AcceptedRate rate

namespace Settings

instance : BEq Settings where
  beq a b :=
    a.minimum == b.minimum && a.maximum == b.maximum && a.desired == b.desired
      && a.tasksPerMinute == b.tasksPerMinute

structure Fields where
  minimum? : Option UInt64 := none
  maximum? : Option UInt64 := none
  desired? : Option UInt64 := none
  tasksPerMinute? : Option Float := none

namespace Fields

def minimum (f : Fields) : UInt64 := f.minimum?.getD 1

def maximum (f : Fields) : UInt64 := f.maximum?.getD 200

def desired (f : Fields) : UInt64 := f.desired?.getD f.minimum

end Fields

/-- The settings that the fields describe.  The first rule that is broken is the
error. -/
def build (f : Fields) : Except ConfigFault Settings :=
  if one_le : 1 ≤ f.minimum then
    if f.minimum ≤ f.maximum then
      if range : f.minimum ≤ f.desired ∧ f.desired ≤ f.maximum then
        match f.tasksPerMinute? with
        | none => .ok ⟨f.minimum, f.maximum, f.desired, none, one_le, range.1, range.2, by simp⟩
        | some rate =>
            if accepted : AcceptedRate rate then
              .ok ⟨f.minimum, f.maximum, f.desired, some rate, one_le, range.1, range.2,
                by simpa using accepted⟩
            else .error (.rateNotPositive rate)
      else .error (.desiredOutOfRange f.desired f.minimum f.maximum)
    else .error (.maximumBelowMinimum f.minimum f.maximum)
  else .error .minimumZero

def standard : Settings :=
  ⟨1, 200, 1, none, by decide, by decide, by decide, by simp⟩

def pair : Settings := ⟨1, 2, 2, none, by decide, by decide, by decide, by simp⟩

theorem acceptedRate_one : AcceptedRate 1 := by
  decide +kernel

def paced : Settings :=
  ⟨1, 2, 2, some 1, by decide, by decide, by decide, by simpa using acceptedRate_one⟩

instance : Inhabited Settings := ⟨standard⟩

def fields (s : Settings) : Fields :=
  ⟨some s.minimum, some s.maximum, some s.desired, s.tasksPerMinute⟩

theorem build_fields (s : Settings) : build s.fields = .ok s := by
  obtain ⟨minimum, maximum, desired, rate?, one_le, low, high, accepted⟩ := s
  have ordered : minimum ≤ maximum := UInt64.le_trans low high
  cases rate? with
  | none => simp [build, fields, Fields.minimum, Fields.maximum, Fields.desired, *]
  | some rate =>
      have accepted : AcceptedRate rate := accepted rate rfl
      simp [build, fields, Fields.minimum, Fields.maximum, Fields.desired, *]

theorem minimum_le_maximum (s : Settings) : s.minimum ≤ s.maximum :=
  UInt64.le_trans s.minimum_le_desired s.desired_le_maximum

/-- The nearest concurrency within the bounds. -/
def clamp (s : Settings) (n : UInt64) : UInt64 :=
  if n < s.minimum then s.minimum else if s.maximum < n then s.maximum else n

theorem minimum_le_clamp (s : Settings) (n : UInt64) : s.minimum ≤ s.clamp n := by
  have := s.minimum_le_maximum
  unfold clamp
  grind

theorem clamp_le_maximum (s : Settings) (n : UInt64) : s.clamp n ≤ s.maximum := by
  have := s.minimum_le_maximum
  unfold clamp
  grind

end Settings

end ElasticPool
