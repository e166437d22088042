import ElasticPool.Signal

namespace ElasticPool

/-- How often a quantity was recorded, the largest of its values and the last. -/
structure Histogram where
  count : Nat := 0
  max : Float := 0
  last : Float := 0

namespace Histogram

def record (h : Histogram) (x : Float) : Histogram :=
  ⟨h.count + 1, if h.max < x then x else h.max, x⟩

end Histogram

structure SamplingMetrics where
  overloaded : List (Resource × Nat) := Resource.all.map (·, 0)
  loopDelay : Histogram := {}

structure PoolMetrics where
  raised : Nat := 0
  lowered : Nat := 0
  desired : Float := 0
  current : Float := 0

structure Metrics where
  sampling? : Option SamplingMetrics := none
  pool? : Option PoolMetrics := none

namespace Metrics

def observe (m : Metrics) : Signal → Metrics
  | .samplingStarted _ => { m with sampling? := some (m.sampling?.getD {}) }
  | .runStarted .. => { m with pool? := some (m.pool?.getD {}) }
  | .resourceOverloaded kind =>
      { m with sampling? := m.sampling?.map fun s => { s with
          overloaded := s.overloaded.map fun (k, n) => (k, if k = kind then n + 1 else n) } }
  | .loopDelayed delay =>
      { m with sampling? := m.sampling?.map fun s => { s with
          loopDelay := s.loopDelay.record delay.seconds } }
  | .desiredChanged before after =>
      { m with pool? := m.pool?.map fun p =>
          if before < after then { p with raised := p.raised + 1 }
          else { p with lowered := p.lowered + 1 } }
  | .concurrencySampled desired current =>
      { m with pool? := m.pool?.map fun p =>
          { p with desired := desired.toFloat, current := current.toFloat } }
  | _ => m

def counters (m : Metrics) : List (String × Nat) :=
  (m.sampling?.elim [] fun s => s.overloaded.map fun (kind, n) =>
      ("autoscaled_pool_resource_overloaded_total|resource=" ++ kind.name, n)) ++
  (m.pool?.elim [] fun p => [
      ("autoscaled_pool_scaled_total|direction=up", p.raised),
      ("autoscaled_pool_scaled_total|direction=down", p.lowered)])

def gauges (m : Metrics) : List (String × Float) :=
  m.pool?.elim [] fun p => [
    ("autoscaled_pool_desired_concurrency", p.desired),
    ("autoscaled_pool_current_concurrency", p.current)]

def histograms (m : Metrics) : List (String × Histogram) :=
  m.sampling?.elim [] fun s => [("autoscaled_pool_event_loop_delay_seconds", s.loopDelay)]

end Metrics

end ElasticPool
