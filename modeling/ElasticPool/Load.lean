import ElasticPool.Config
import ElasticPool.History

namespace ElasticPool

/-- The share of samples found overloaded beside the share that is tolerated. -/
structure LoadRatio where
  limit : Float
  actual : Float
  deriving BEq

namespace LoadRatio

def overloaded (r : LoadRatio) : Bool := r.limit < r.actual

end LoadRatio

structure SystemLoad where
  cpu : LoadRatio
  memory : LoadRatio
  eventLoop : LoadRatio
  client : LoadRatio
  takenAt : Moment
  deriving BEq

namespace SystemLoad

def ratio (l : SystemLoad) : Resource → LoadRatio
  | .cpu => l.cpu
  | .memory => l.memory
  | .eventLoop => l.eventLoop
  | .client => l.client

def idle (l : SystemLoad) : Bool :=
  !l.cpu.overloaded && !l.memory.overloaded && !l.eventLoop.overloaded && !l.client.overloaded

end SystemLoad

def LoadConfig.threshold (c : LoadConfig) : Resource → Float
  | .cpu => c.cpuThreshold
  | .memory => c.memoryThreshold
  | .eventLoop => c.eventLoopThreshold
  | .client => c.clientThreshold

/-- The overloaded share of the samples, zero if there are none. -/
def overloadedShare (samples : List Sample) : Float :=
  if samples.isEmpty then 0
  else Float.ofNat (samples.countP (·.overloaded)) / Float.ofNat samples.length

/-- One if the latest sample is overloaded, else zero. -/
def latestRatio (samples : List Sample) : Float :=
  if samples.getLast?.any (·.overloaded) then 1 else 0

namespace LoadConfig

def load (c : LoadConfig) (now : Moment) (ratioOf : Resource → Float) : SystemLoad where
  cpu := ⟨c.threshold .cpu, ratioOf .cpu⟩
  memory := ⟨c.threshold .memory, ratioOf .memory⟩
  eventLoop := ⟨c.threshold .eventLoop, ratioOf .eventLoop⟩
  client := ⟨c.threshold .client, ratioOf .client⟩
  takenAt := now

def currentLoad (c : LoadConfig) (h : History) (now : Moment) : SystemLoad :=
  c.load now fun kind => latestRatio (h.get kind now none)

def windowLoad (c : LoadConfig) (h : History) (now : Moment) : SystemLoad :=
  c.load now fun kind => overloadedShare (h.get kind now (some c.window))

end LoadConfig

end ElasticPool
