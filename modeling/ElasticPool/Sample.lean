import ElasticPool.Time.Moment

namespace ElasticPool

inductive Resource
  | cpu
  | memory
  | eventLoop
  | client
  deriving DecidableEq, Repr

namespace Resource

def all : List Resource := [cpu, memory, eventLoop, client]

def index : Resource → Nat
  | cpu => 0
  | memory => 1
  | eventLoop => 2
  | client => 3

def name : Resource → String
  | cpu => "cpu"
  | memory => "memory"
  | eventLoop => "event_loop"
  | client => "client"

end Resource

/-- What was measured of one resource, with the limit that held at that time. -/
inductive Reading
  | cpu (used limit : Float)
  | memory (size limit : UInt64) (limitRatio : Float)
  | eventLoop (delay limit : Span)
  | client (errors limit : Nat)
  deriving BEq

namespace Reading

def kind : Reading → Resource
  | cpu .. => .cpu
  | memory .. => .memory
  | eventLoop .. => .eventLoop
  | client .. => .client

/-- The share of the memory limit in use.  Nothing is left of a limit of zero. -/
def memoryRatio (size limit : UInt64) : Float :=
  if limit = 0 then 1 else size.toFloat / limit.toFloat

/-- Whether the reading lies strictly above its limit. -/
def overloaded : Reading → Bool
  | cpu used limit => limit < used
  | memory size limit limitRatio => limitRatio < memoryRatio size limit
  | eventLoop delay limit => limit < delay
  | client errors limit => limit < errors

end Reading

structure Sample where
  reading : Reading
  takenAt : Moment
  deriving BEq

namespace Sample

def kind (s : Sample) : Resource := s.reading.kind

def overloaded (s : Sample) : Bool := s.reading.overloaded

end Sample

end ElasticPool
