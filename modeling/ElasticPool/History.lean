import ElasticPool.Sample

namespace ElasticPool

structure History where
  cpu : List Sample := []
  memory : List Sample := []
  eventLoop : List Sample := []
  client : List Sample := []
  deriving BEq

namespace History

def empty : History := {}

def series (h : History) : Resource → List Sample
  | .cpu => h.cpu
  | .memory => h.memory
  | .eventLoop => h.eventLoop
  | .client => h.client

def modify (h : History) (kind : Resource) (f : List Sample → List Sample) : History :=
  match kind with
  | .cpu => { h with cpu := f h.cpu }
  | .memory => { h with memory := f h.memory }
  | .eventLoop => { h with eventLoop := f h.eventLoop }
  | .client => { h with client := f h.client }

@[simp] theorem series_empty (kind : Resource) : empty.series kind = [] := by
  cases kind <;> rfl

@[simp] theorem series_modify (h : History) (kind other : Resource)
    (f : List Sample → List Sample) :
    (h.modify kind f).series other =
      if other = kind then f (h.series kind) else h.series other := by
  cases kind <;> cases other <;> rfl

/-- Places a sample behind all that were not taken later. -/
def place (s : Sample) (samples : List Sample) : List Sample :=
  samples.takeWhile (·.takenAt ≤ s.takenAt) ++ s :: samples.dropWhile (·.takenAt ≤ s.takenAt)

def insert (h : History) (s : Sample) : History := h.modify s.kind (place s)

@[simp] theorem series_insert (h : History) (s : Sample) (kind : Resource) :
    (h.insert s).series kind =
      if kind = s.kind then place s (h.series kind) else h.series kind := by
  by_cases same : kind = s.kind <;> simp [insert, same]

/-- Drops the samples of one kind that are older than the retention.  A retention
that reaches beyond the first moment drops none. -/
def prune (h : History) (kind : Resource) (now : Moment) (retention : Span) : History :=
  match now.sub? retention with
  | none => h
  | some cutoff => h.modify kind (·.dropWhile (·.takenAt < cutoff))

theorem series_prune_of_ne (h : History) {kind other : Resource} (ne : other ≠ kind)
    (now : Moment) (retention : Span) :
    (h.prune kind now retention).series other = h.series other := by
  unfold prune
  split <;> simp [ne]

/-- Whether a moment lies in the window that ends now.  A window that reaches
beyond the first moment has no beginning. -/
def inWindow (now : Moment) (window : Span) (m : Moment) : Bool :=
  (now.sub? window).all (· ≤ m) && m ≤ now

def get (h : History) (kind : Resource) (now : Moment) : Option Span → List Sample
  | none => h.series kind
  | some window => (h.series kind).filter fun s => inWindow now window s.takenAt

def record (h : History) (s : Sample) (now : Moment) (retention : Span) : History :=
  (h.insert s).prune s.kind now retention

end History

end ElasticPool
