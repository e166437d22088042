import ElasticPool.Proofs.DesiredBounds
import ElasticPool.Proofs.StartRate
import ElasticPool.Proofs.TickSeries

namespace ElasticPool

open Journal
open Ticker (Tick)

variable {α : Type}

namespace Pool

namespace Step

end Step

variable {i : Nat} {steps : List (Step α)} {e : Step α}

def scaleTickerAt (c : ScalingConfig) (start : Moment) : Ticker :=
  ⟨momentAfter start c.autoscaleInterval, c.autoscaleInterval, .delay⟩

/-- What the evaluations of a call have come to, with the beginning of its run. -/
structure Evaluated (c : ScalingConfig) (p : Pool α) (i : Nat) (began? : Option Moment)
    (ticks : List Tick) : Prop where
  unbegun : p.Unbegun i → began? = none
  idle : began? = none → ticks = [] ∧ p.active? i = none
  running : ∀ start, began? = some start → ∃ last, (scaleTickerAt c start).Takes ticks last ∧
    ∀ run, p.active? i = some run → run.scaleTicker = last

section

variable {c : ScalingConfig} {p q : Pool α} {m : Move} {effects : List Effect}
  {began? : Option Moment} {ticks : List Tick}

theorem Evaluated.of_kept (h : Evaluated c p i began? ticks)
    (hunbegun : q.Unbegun i → p.Unbegun i) (hkept : ∀ run', q.active? i = some run' →
      ∃ run, p.active? i = some run ∧ run'.scaleTicker = run.scaleTicker) :
    Evaluated c q i began? ticks where
  unbegun hafter := h.unbegun (hunbegun hafter)
  idle hbegan := by
    obtain ⟨hticks, hinactive⟩ := h.idle hbegan
    refine ⟨hticks, Option.eq_none_iff_forall_ne_some.mpr ?_⟩
    rintro run' hactive'
    obtain ⟨run, hactive, -⟩ := hkept run' hactive'
    simp [hinactive] at hactive
  running start hbegan := by
    obtain ⟨last, htakes, hlast⟩ := h.running start hbegan
    refine ⟨last, htakes, ?_⟩
    intro run' hactive'
    obtain ⟨run, hactive, hsame⟩ := hkept run' hactive'
    exact hsame.trans (hlast run hactive)

variable [Scalar α]

namespace Evaluated

end Evaluated

end

section

variable [Scalar α] {s : Settings} {c : ScalingConfig} {p : Pool α}

end

end Pool

end ElasticPool
