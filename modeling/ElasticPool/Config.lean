import ElasticPool.Fault
import ElasticPool.Time.Span

namespace ElasticPool

def IsRatio (x : Float) : Prop := 0 ≤ x ∧ x ≤ 1

instance (x : Float) : Decidable (IsRatio x) := inferInstanceAs (Decidable (_ ∧ _))

namespace ConfigFault

def requireRatio (field : String) (x : Float) : Except ConfigFault Unit :=
  if IsRatio x then .ok () else .error (.notRatio field x)

def requireNonZero (field : String) (s : Span) : Except ConfigFault Unit :=
  if s.nanos = 0 then .error (.zeroSpan field) else .ok ()

@[simp] theorem requireRatio_eq_ok_iff {field : String} {x : Float} :
    requireRatio field x = .ok () ↔ IsRatio x := by
  simp [requireRatio]

@[simp] theorem requireNonZero_eq_ok_iff {field : String} {s : Span} :
    requireNonZero field s = .ok () ↔ s.nanos ≠ 0 := by
  by_cases h : s.nanos = 0 <;> simp [requireNonZero, h]

theorem bind_eq_ok_iff {first second : Except ConfigFault Unit} :
    (first >>= fun _ => second) = .ok () ↔ first = .ok () ∧ second = .ok () := by
  cases first <;> simp [bind, Except.bind]

end ConfigFault

open ConfigFault

structure SamplingConfig where
  eventLoopInterval : Span := .ofMillis 500
  clientInterval : Span := .ofSeconds 1
  retention : Span := .ofSeconds 30
  maxCpuRatio : Float := 0.95
  maxMemoryRatio : Float := 0.9
  /-- The memory that may be used; a share of the total where none is given. -/
  maxMemory? : Option UInt64 := none
  availableMemoryRatio : Float := 0.25
  maxEventLoopDelay : Span := .ofMillis 50
  maxClientErrors : Nat := 1
  /-- How long after a memory warning the next one of the same episode may come. -/
  warningCooldown : Span := .ofSeconds 10
  deriving BEq

namespace SamplingConfig

/-- The first rule that the tunables break, in the order of the fields. -/
def check (c : SamplingConfig) : Except ConfigFault Unit := do
  requireNonZero "event_loop_snapshot_interval" c.eventLoopInterval
  requireNonZero "client_snapshot_interval" c.clientInterval
  requireNonZero "snapshot_history" c.retention
  requireRatio "max_used_cpu_ratio" c.maxCpuRatio
  requireRatio "max_used_memory_ratio" c.maxMemoryRatio
  requireRatio "available_memory_ratio" c.availableMemoryRatio

structure Valid (c : SamplingConfig) : Prop where
  eventLoopInterval : c.eventLoopInterval.nanos ≠ 0
  clientInterval : c.clientInterval.nanos ≠ 0
  retention : c.retention.nanos ≠ 0
  maxCpuRatio : IsRatio c.maxCpuRatio
  maxMemoryRatio : IsRatio c.maxMemoryRatio
  availableMemoryRatio : IsRatio c.availableMemoryRatio

theorem check_eq_ok_iff {c : SamplingConfig} : c.check = .ok () ↔ c.Valid := by
  simp only [check, bind_eq_ok_iff, requireRatio_eq_ok_iff, requireNonZero_eq_ok_iff]
  exact ⟨fun ⟨a, b, c, d, e, f⟩ => ⟨a, b, c, d, e, f⟩,
    fun ⟨a, b, c, d, e, f⟩ => ⟨a, b, c, d, e, f⟩⟩

end SamplingConfig

structure LoadConfig where
  window : Span := .ofSeconds 5
  cpuThreshold : Float := 0.4
  memoryThreshold : Float := 0.2
  eventLoopThreshold : Float := 0.6
  clientThreshold : Float := 0.3
  deriving BEq

namespace LoadConfig

def check (c : LoadConfig) : Except ConfigFault Unit := do
  requireNonZero "max_snapshot_age" c.window
  requireRatio "cpu_overload_threshold" c.cpuThreshold
  requireRatio "memory_overload_threshold" c.memoryThreshold
  requireRatio "event_loop_overload_threshold" c.eventLoopThreshold
  requireRatio "client_overload_threshold" c.clientThreshold

structure Valid (c : LoadConfig) : Prop where
  window : c.window.nanos ≠ 0
  cpuThreshold : IsRatio c.cpuThreshold
  memoryThreshold : IsRatio c.memoryThreshold
  eventLoopThreshold : IsRatio c.eventLoopThreshold
  clientThreshold : IsRatio c.clientThreshold

theorem check_eq_ok_iff {c : LoadConfig} : c.check = .ok () ↔ c.Valid := by
  simp only [check, bind_eq_ok_iff, requireRatio_eq_ok_iff, requireNonZero_eq_ok_iff]
  exact ⟨fun ⟨a, b, c, d, e⟩ => ⟨a, b, c, d, e⟩,
    fun ⟨a, b, c, d, e⟩ => ⟨a, b, c, d, e⟩⟩

end LoadConfig

structure ScalingConfig where
  autoscaleInterval : Span := .ofSeconds 10
  loggingInterval : Span := .ofSeconds 60
  dispatchWait : Span := .ofMillis 50
  upRatio : Float := 0.05
  downRatio : Float := 0.05
  /-- The share of the desired concurrency that must be in use before it grows. -/
  utilization : Float := 0.95
  deriving BEq

namespace ScalingConfig

def check (c : ScalingConfig) : Except ConfigFault Unit := do
  requireNonZero "autoscale_interval" c.autoscaleInterval
  requireNonZero "logging_interval" c.loggingInterval
  requireNonZero "dispatch_wait" c.dispatchWait
  requireRatio "scale_up_step_ratio" c.upRatio
  requireRatio "scale_down_step_ratio" c.downRatio
  requireRatio "desired_concurrency_ratio" c.utilization

structure Valid (c : ScalingConfig) : Prop where
  autoscaleInterval : c.autoscaleInterval.nanos ≠ 0
  loggingInterval : c.loggingInterval.nanos ≠ 0
  dispatchWait : c.dispatchWait.nanos ≠ 0
  upRatio : IsRatio c.upRatio
  downRatio : IsRatio c.downRatio
  utilization : IsRatio c.utilization

theorem check_eq_ok_iff {c : ScalingConfig} : c.check = .ok () ↔ c.Valid := by
  simp only [check, bind_eq_ok_iff, requireRatio_eq_ok_iff, requireNonZero_eq_ok_iff]
  exact ⟨fun ⟨a, b, c, d, e, f⟩ => ⟨a, b, c, d, e, f⟩,
    fun ⟨a, b, c, d, e, f⟩ => ⟨a, b, c, d, e, f⟩⟩

end ScalingConfig

end ElasticPool
