import ElasticPool.Fault
import ElasticPool.Load

namespace ElasticPool

/-- One reading of CPU and memory.  It may be delivered long after it was taken. -/
structure Measurement where
  cpu : Float
  memory : UInt64
  totalMemory : UInt64
  takenAt : Moment

namespace Measurement

def fault? (m : Measurement) : Option MeasurementFault :=
  if !m.cpu.isFinite || m.cpu < 0 then
    some (.invalidMeasurement ("cpu_used_ratio is " ++ Binary64.text m.cpu))
  else if m.totalMemory = 0 then some (.invalidMeasurement "memory_total_size is 0")
  else none

/-- The memory that may be used: the configured size, or else a share of the
total, cut off to whole bytes. -/
def memoryLimit (c : SamplingConfig) (m : Measurement) : UInt64 :=
  c.maxMemory?.getD (m.totalMemory.toFloat * c.availableMemoryRatio).toUInt64

def cpuSample (c : SamplingConfig) (m : Measurement) : Sample :=
  ⟨.cpu m.cpu c.maxCpuRatio, m.takenAt⟩

def memorySample (c : SamplingConfig) (m : Measurement) : Sample :=
  ⟨.memory m.memory (m.memoryLimit c) c.maxMemoryRatio, m.takenAt⟩

end Measurement

end ElasticPool
