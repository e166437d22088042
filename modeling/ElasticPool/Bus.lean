/-!
A publish/subscribe bus that keeps a bounded number of events.

Events are numbered in the order in which they are published.  A subscription
holds the number of the event that it receives next.  The bus keeps the latest
events only, and a subscription that has fallen behind them skips to the oldest
one kept.
-/

namespace ElasticPool

structure Bus (ε : Type) where
  slots : Nat
  emitted : Nat := 0
  retained : List ε := []
  /-- The live subscriptions, each with the number of its next event. -/
  cursors : List (Nat × Nat) := []
  subscriptions : Nat := 0
  closed : Bool := false

namespace Bus

variable {ε : Type}

/-- A bus that keeps at least `capacity` events, rounded up to a power of two. -/
def ofCapacity (capacity : Nat) : Bus ε := { slots := capacity.nextPowerOfTwo }

/-- The number of the oldest event kept. -/
def oldest (b : Bus ε) : Nat := b.emitted - b.retained.length

def live (b : Bus ε) : Nat := b.cursors.length

def emit (b : Bus ε) (e : ε) : Bus ε :=
  let events := b.retained ++ [e]
  { b with emitted := b.emitted + 1, retained := events.drop (events.length - b.slots) }

@[simp] theorem emitted_emit (b : Bus ε) (e : ε) : (b.emit e).emitted = b.emitted + 1 := rfl

/-- A new subscription.  It receives what is published from now on. -/
def subscribe (b : Bus ε) : Nat × Bus ε :=
  (b.subscriptions, { b with
    cursors := b.cursors ++ [(b.subscriptions, b.emitted)]
    subscriptions := b.subscriptions + 1 })

@[simp] theorem live_subscribe (b : Bus ε) : b.subscribe.2.live = b.live + 1 := by
  simp [subscribe, live]

def unsubscribe (b : Bus ε) (subscription : Nat) : Bus ε :=
  { b with cursors := b.cursors.filter (·.1 ≠ subscription) }

def next? (b : Bus ε) (subscription : Nat) : Option Nat := b.cursors.lookup subscription

def moveTo (b : Bus ε) (subscription next : Nat) : Bus ε :=
  { b with cursors := b.cursors.map fun c => if c.1 = subscription then (c.1, next) else c }

structure Receipt (ε : Type) where
  /-- The events that were lost since the last one received. -/
  skipped : Nat
  event? : Option ε

def receive (b : Bus ε) (subscription : Nat) : Receipt ε × Bus ε :=
  match b.next? subscription with
  | none => (⟨0, none⟩, b)
  | some next =>
      let first := max next b.oldest
      match b.retained[first - b.oldest]? with
      | some e => (⟨first - next, some e⟩, b.moveTo subscription (first + 1))
      | none => (⟨0, none⟩, b)

def close (b : Bus ε) : Bus ε := { b with closed := true }

end Bus

end ElasticPool
