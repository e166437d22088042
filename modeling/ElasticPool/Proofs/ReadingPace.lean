import ElasticPool.Proofs.ProbeExecution

namespace ElasticPool.Probe

open Ticker (Tick)

variable {interval : Span} {steps : List Transition} {m : Probe} {task : Nat}

theorem period_ofInterval (interval : Span) :
    (Probe.ofInterval interval).period.nanos = max interval.nanos shortestPeriod.nanos := by
  have hlt : interval < shortestPeriod ↔ interval.nanos < shortestPeriod.nanos := Iff.rfl
  simp only [Probe.ofInterval, hlt]
  split <;> omega

theorem tolerance_lt_period (interval : Span) :
    Ticker.tolerance < (Probe.ofInterval interval).period := by
  have htolerance : Ticker.tolerance.nanos < shortestPeriod.nanos := by decide
  have hperiod := period_ofInterval interval
  show Ticker.tolerance.nanos < (Probe.ofInterval interval).period.nanos
  omega

/-- A reading taken at the first whole millisecond at which it is due. -/
def Prompt (x : Tick) : Prop := (∃ n, x.takenAt = .ofMillis n) ∧ x.late < .ofMillis 1

theorem takes_of_readings (h : Execution (.ofInterval interval) steps m) (task : Nat)
    (hsome : readings task steps ≠ []) :
    ∃ first last, firstRun? task steps = some first ∧
      (Ticker.start .skip (Probe.ofInterval interval).period first).Takes
        (readings task steps) last := by
  obtain ⟨hnone, hrunning⟩ := takes_of_execution h task
  rcases hfirst : firstRun? task steps with _ | first
  · exact absurd (hnone hfirst) hsome
  · obtain ⟨last, htakes⟩ := hrunning first hfirst
    exact ⟨first, last, rfl, htakes⟩

/-- The next reading is due at the next moment of the schedule, and never before that.  So two
readings keep the shortest period between them unless a stall has made the first of them late by
more than the rest of a period. -/
theorem spacing_of_readings (h : Execution (.ofInterval interval) steps m)
    {earlier later : List Tick} {x y : Tick}
    (hsplit : readings task steps = earlier ++ x :: y :: later) :
    y.due.nanos = x.takenAt.nanos + (⟨max interval.nanos shortestPeriod.nanos -
        x.late.nanos % max interval.nanos shortestPeriod.nanos⟩ : Span).kept.nanos ∧
      y.due ≤ y.takenAt ∧
      (x.late.nanos % max interval.nanos shortestPeriod.nanos + shortestPeriod.nanos ≤
          max interval.nanos shortestPeriod.nanos →
        x.takenAt.nanos + shortestPeriod.nanos ≤ y.takenAt.nanos) ∧
      (Prompt x → (∃ n, y.takenAt = .ofMillis n) →
        x.takenAt.nanos + shortestPeriod.nanos ≤ y.takenAt.nanos) := by
  obtain ⟨first, last, -, htakes⟩ := takes_of_readings h task (by simp [hsplit])
  have hready := htakes.due_le_takenAt
  have hx : x.due ≤ x.takenAt := hready x (by simp [hsplit])
  have hy : y.due ≤ y.takenAt := hready y (by simp [hsplit])
  let rest : Span := ⟨max interval.nanos shortestPeriod.nanos -
    x.late.nanos % max interval.nanos shortestPeriod.nanos⟩
  have hdue : y.due.nanos = x.takenAt.nanos + rest.kept.nanos := by
    rw [htakes.due_eq_dueAfter hsplit,
      Ticker.dueAfter_of_skip rfl (tolerance_lt_period interval) hx]
    simp only [Ticker.start, period_ofInterval, rest]
  have hle : y.due.nanos ≤ y.takenAt.nanos := hy
  have hrest : rest.nanos = max interval.nanos shortestPeriod.nanos -
      x.late.nanos % max interval.nanos shortestPeriod.nanos := rfl
  have hfar : shortestPeriod.nanos ≤ Span.far.nanos := by decide
  have hkept := rest.min_far_le_kept
  refine ⟨hdue, hy, ?_, ?_⟩
  · intro hlate
    omega
  · rintro ⟨⟨k, hk⟩, hlate⟩ ⟨n, hn⟩
    have hlate : x.late.nanos < 1000000 := hlate
    have hshortest : shortestPeriod.nanos = 200 * 1000000 := rfl
    -- The next tick is early by less than a millisecond, which the clock does not show.
    have hsmall : x.late.nanos % max interval.nanos shortestPeriod.nanos = x.late.nanos :=
      Nat.mod_eq_of_lt (by omega)
    rw [hsmall] at hrest
    rw [hn] at hle ⊢
    rw [hk] at hdue ⊢
    simp only [Moment.ofMillis] at hdue hle ⊢
    omega

def stalled : List Move :=
  [.start, .turn 0 ⟨0⟩, .start, .turn 0 (.ofMillis 399), .turn 0 (.ofMillis 400), .stop,
    .turn 0 (.ofMillis 600)]

theorem spacing_of_readings_of_stall : ∃ steps m, Execution (.ofInterval shortestPeriod) steps m ∧
    readings 0 steps =
      [⟨⟨0⟩, ⟨0⟩⟩, ⟨.ofMillis 200, .ofMillis 399⟩, ⟨.ofMillis 400, .ofMillis 400⟩] ∧
    (400000000 : Int) = 399000000 + (⟨200000000 - 199000000 % 200000000⟩ : Span).kept.nanos := by
  obtain ⟨steps, m, hplay, hreadings⟩ : ∃ steps m,
      (Probe.ofInterval shortestPeriod).play stalled [] = some (steps, m) ∧
      readings 0 steps =
        [⟨⟨0⟩, ⟨0⟩⟩, ⟨.ofMillis 200, .ofMillis 399⟩, ⟨.ofMillis 400, .ofMillis 400⟩] :=
    ⟨_, _, rfl, by decide +kernel⟩
  have h : Execution (.ofInterval shortestPeriod) steps m := execution_of_play .start hplay
  have hsplit : readings 0 steps = [⟨⟨0⟩, ⟨0⟩⟩] ++ ⟨.ofMillis 200, .ofMillis 399⟩ ::
      ⟨.ofMillis 400, .ofMillis 400⟩ :: [] := hreadings
  exact ⟨steps, m, h, hreadings, (spacing_of_readings h hsplit).1⟩

/-- With the shortest period, a stall of 399 milliseconds puts two readings next to each other. -/
theorem crowded_of_stall : ¬∀ (interval : Span) (pauses : List Step),
    (∀ pause ∈ pauses, (∃ n, pause = .advance n) ∨ ∃ n, pause = .jump n) →
      (publications { state := .ofInterval interval } (.start :: pauses)).flatten.IsChain
        fun a b : Moment => a.nanos + (shortestPeriod.nanos : Int) ≤ b.nanos := by
  intro hspaced
  have hchain := hspaced shortestPeriod [.jump 399, .advance 1] (by simp)
  have hpublished : (publications { state := .ofInterval shortestPeriod }
      [.start, .jump 399, .advance 1]).flatten = [.ofMillis 0, .ofMillis 399, .ofMillis 400] := by
    decide +kernel
  rw [hpublished] at hchain
  exact absurd hchain (by decide)

end ElasticPool.Probe
