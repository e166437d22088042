import ElasticPool.Bus
import ElasticPool.Measurement
import ElasticPool.Signal.Line

namespace ElasticPool.Bus

structure Session where
  bus : Bus Measurement
  names : List (String × Nat) := []

inductive Step
  /-- Makes a subscription.  The one that had the name before is dropped after it. -/
  | subscribe (name : String)
  | unsubscribe (name : String)
  | emit (measurements : List Measurement)
  | receive (name : String)
  | count
  | close

inductive Reply
  | done
  | existed (answer : Bool)
  | event (m : Measurement)
  /-- Nothing is waiting, and more may come. -/
  | pending
  /-- Nothing is waiting, and nothing will come. -/
  | closed
  | live (count : Nat)

namespace Session

def start? (capacity : Nat) : Option (Session × List Signal) :=
  if capacity = 0 then none else some ({ bus := .ofCapacity capacity }, [.busCreated capacity])

def forget (s : Session) (name : String) : Session × List Signal :=
  match s.names.lookup name with
  | none => (s, [])
  | some subscription =>
      (⟨s.bus.unsubscribe subscription, s.names.filter (·.1 ≠ name)⟩, [.released])

def perform (s : Session) : Step → Reply × Session × List Signal
  | .subscribe name =>
      let (subscription, bus) := s.bus.subscribe
      let (s, signals) := { s with bus }.forget name
      (.done, { s with names := (name, subscription) :: s.names },
        .subscribed bus.live :: signals)
  | .unsubscribe name =>
      let (after, signals) := s.forget name
      (.existed (s.names.lookup name).isSome, after, signals)
  | .emit measurements =>
      (.done, { s with bus := measurements.foldl emit s.bus }, measurements.map fun _ => .emitted)
  | .receive name =>
      match (s.names.lookup name).map s.bus.receive with
      | none => (.closed, s, [])
      | some (⟨skipped, some m⟩, bus) =>
          (.event m, { s with bus }, if skipped = 0 then [] else [.lagged skipped])
      | some (⟨_, none⟩, bus) => (if bus.closed then .closed else .pending, { s with bus }, [])
  | .count => (.live s.bus.live, s, [])
  | .close => (.done, { s with bus := s.bus.close }, [])

/-- The replies to a sequence of steps, each with the lines that the log keeps.  The
signals given before the first step belong to it. -/
def records (verbosity? : Option LogLevel) (before : List Signal) (s : Session) :
    List Step → List (Reply × List LogLine)
  | [] => []
  | step :: steps =>
      let (reply, s, signals) := s.perform step
      let lines := ((before ++ signals).map Signal.line).filter (·.kept verbosity?)
      (reply, lines) :: s.records verbosity? [] steps

end Session

def session? (capacity : Nat) (verbosity? : Option LogLevel) (steps : List Step) :
    Option (List (Reply × List LogLine)) :=
  (Session.start? capacity).map fun (s, signals) => s.records verbosity? signals steps

end ElasticPool.Bus
