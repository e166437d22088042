import ElasticPool.History

namespace ElasticPool.History

inductive Step
  | insert (sample : Sample)
  | prune (kind : Resource) (now : Moment) (retention : Span)
  | get (kind : Resource) (now : Moment) (window? : Option Span)

inductive Reply
  /-- The number of samples that there are now of the kind that was added. -/
  | size (samples : Nat)
  /-- Whether the history differs from the one before, and the moments of the samples
  of the kind that are left.  A history with a NaN in it equals no history. -/
  | pruned (changed : Bool) (left : List Moment)
  | samples (list : List Sample)

def perform (h : History) : Step → Reply × History
  | .insert sample =>
      let after := h.insert sample
      (.size (after.series sample.kind).length, after)
  | .prune kind now retention =>
      let after := h.prune kind now retention
      (.pruned (after != h) ((after.series kind).map (·.takenAt)), after)
  | .get kind now window? => (.samples (h.get kind now window?), h)

def replies (h : History) : List Step → List Reply
  | [] => []
  | step :: steps =>
      let (reply, h) := h.perform step
      reply :: h.replies steps

end ElasticPool.History
