import ElasticPool.Proofs.CallSequence
import ElasticPool.Proofs.SlotAccounting

namespace ElasticPool

open Journal

variable {α : Type}

namespace Pool

/-- No run is active but one that has been told to end. -/
def Halted (p : Pool α) : Prop := ∀ i run, p.active? i = some run → run.cancelled = true

theorem Halted.current_eq_zero {p : Pool α} (hhalted : p.Halted) (hlife : p.Lifecycle) :
    p.current = 0 := by
  by_cases hphase : p.phase = .running
  · obtain ⟨i, run, hactive⟩ := hlife.active_of_running hphase
    exact hlife.current_of_cancelled i run hactive (hhalted i run hactive)
  · exact hlife.current_of_resting hphase

theorem halted_of_cancelled {p : Pool α} (hlife : p.Lifecycle) {i : Nat} {run : Run α}
    (hactive : p.active? i = some run) (hcancelled : run.cancelled = true) : p.Halted := by
  intro j other hother
  obtain rfl : i = j := hlife.eq_of_active hactive hother
  obtain rfl : run = other := Option.some.inj (hactive.symm.trans hother)
  exact hcancelled

section

variable [Scalar α] {s : Settings} {c : ScalingConfig} {p q : Pool α} {m : Move}
  {effects : List Effect} {steps later : List (Step α)} {i : Nat} {run : Run α}

theorem abort_of_active (h : Execution (fresh s c) steps p) (hactive : p.active? i = some run) :
    ∃ q, p.abort = .ok (q, [.report .abortRequested]) ∧
      p.move? .abort = some (q, [.report .abortRequested]) ∧
      q.active? i = some { run with cancelled := true } ∧ q.Halted := by
  have hlife := lifecycle_of_execution h
  have hphase : p.phase = .running := hlife.running_of_active i run hactive
  obtain ⟨⟨q, effects⟩, habort⟩ : ∃ r, p.abort = .ok r := by
    rw [abort, hphase, hlife.abortable_of_active i run hactive]
    exact ⟨_, rfl⟩
  have hmove : p.move? .abort = some (q, effects) := by rw [move?, habort]
  have htransition := transition_of_move hlife hmove
  have hlife' := lifecycle_of_transition hlife htransition
  cases htransition with
  | unaborted hrefused => simp [hrefused] at habort
  | @aborted j run' hactive' =>
      obtain rfl : j = i := hlife.eq_of_active hactive' hactive
      obtain rfl : run' = run := Option.some.inj (hactive'.symm.trans hactive)
      have hcancelled := active?_aborted_self hactive
      exact ⟨_, habort, hmove, hcancelled, halted_of_cancelled hlife' hcancelled rfl⟩

theorem halted_of_transition (hlife : p.Lifecycle) (h : Transition p m q effects)
    (hnone : ¬(⟨p, m, effects, q⟩ : Step α).Begins) (hhalted : p.Halted) : q.Halted := by
  have hlife' : q.Lifecycle := lifecycle_of_transition hlife h
  intro i run hactive
  cases h with
  | called => exact hhalted i run ((p.active?_call i).symm.trans hactive)
  | refused hcall _ | withdrawn hcall =>
      exact hhalted i run ((p.active?_setCall_of_inactive hcall rfl rfl i).symm.trans hactive)
  | unaborted _ | ignored _ => exact hhalted i run hactive
  | entered _ hresting => exact absurd ⟨hresting, rfl⟩ hnone
  | left _ _ | ended _ _ _ _ _ =>
      exact absurd (hlife'.running_of_active i run hactive) (phase_leave_ne_running _ _)
  | dropped _ => exact absurd (hlife'.running_of_active i run hactive) p.phase_release_ne_running
  | moved hearlier hlive _ _ _ =>
      have hcancelled := hhalted _ _ hearlier
      simp [hlive] at hcancelled
  | aborted hearlier =>
      exact halted_of_cancelled hlife' (active?_aborted_self hearlier) rfl i run hactive

theorem halted_of_execution (h : Execution (fresh s c) steps p) (hhalted : p.Halted)
    (hlater : Execution p later q) (hnone : ∀ e ∈ later, ¬e.Begins) : q.Halted :=
  law_of_execution Halted halted_of_transition h hhalted hlater hnone

theorem active?_of_other (hlife : p.Lifecycle) (h : Transition p m q effects)
    (hother : m.call? ≠ some i) (hactive : p.active? i = some run)
    (hcancelled : run.cancelled = true) : q.active? i = some run := by
  cases part_of_transition hlife h i with
  | bystander _ hsame _ => exact hsame.trans hactive
  | @aborted run' hactive' =>
      obtain rfl : run' = run := Option.some.inj (hactive'.symm.trans hactive)
      have hsame : { run' with cancelled := true } = run' := by rw [← hcancelled]
      have hkept := active?_aborted_self hactive
      rw [hsame] at hkept ⊢
      exact hkept
  | begun _ | moved _ _ _ _ _ | ended _ _ _ _ _ | left _ _ | dropped _ => exact absurd rfl hother

theorem active?_of_others (h : Execution (fresh s c) steps p) (hactive : p.active? i = some run)
    (hcancelled : run.cancelled = true) (hlater : Execution p later q)
    (hothers : ∀ e ∈ later, e.move.call? ≠ some i) : q.active? i = some run := by
  refine law_of_execution (fun r => r.active? i = some run) ?_ h hactive hlater hothers
  intro r r' m effects hlife htransition hother hkept
  exact active?_of_other hlife htransition hother hkept hcancelled

/-- The run of the call has been told to end, and its next turn will end it. -/
structure AwaitsEnd (i : Nat) (inFlight : List Nat) (p : Pool α) : Prop where
  running : p.phase = .running
  abort_again : ∃ q, p.abort = .ok (q, [.report .abortRequested])
  others_refused : ∀ j now sampling event?, p.calls[j]? = some .waiting →
    p.turn j now sampling event? = some (p.setCall j (.ended (.error .alreadyRunning)), [])
  ends : ∃ q,
    (∀ now sampling event?,
      p.turn i now sampling event? = some (q, [.cancel inFlight, .report .runAborted])) ∧
    q.calls[i]? = some (.ended (.ok ())) ∧ q.phase = .aborted ∧
    ∀ later r, Execution q later r → (∀ e ∈ later, ¬e.Begins) →
      r.phase = .aborted ∧ r.abort = .error .notRunning

theorem awaitsEnd_of_cancelled (h : Execution (fresh s c) steps p)
    (hactive : p.active? i = some run) (hcancelled : run.cancelled = true) :
    AwaitsEnd i run.inFlight p := by
  have hlife := lifecycle_of_execution h
  have hphase : p.phase = .running := hlife.running_of_active i run hactive
  have hcall : p.calls[i]? = some (.active run) := (p.active?_eq_some_iff).mp hactive
  have hturn := turn_of_cancelled hcall hcancelled
  refine ⟨hphase, ?_, ?_, (p.leave i run .aborted).1, hturn, call_leave_self hcall run .aborted,
    rfl, ?_⟩
  · obtain ⟨q, habort, -⟩ := abort_of_active h hactive
    exact ⟨q, habort⟩
  · intro j now sampling event? hwaiting
    simp [turn, hwaiting, enter, hphase]
  · intro later r hlater hnone
    have hmove : p.move? (.turn i ⟨0⟩ true none) = some (p.leave i run .aborted) :=
      hturn ⟨0⟩ true none
    have hleft : Execution (fresh s c) _ (p.leave i run .aborted).1 := h.next hmove
    have hagrees := agrees_of_execution hleft (phase_leave_ne_running run .aborted) hlater hnone
    have hphase : r.phase = .aborted := hagrees.phase_eq
    exact ⟨hphase, abort_of_resting (by simp [hphase])⟩

/-- A running pool can be aborted at any time.  The current concurrency is zero from then on
until another run begins, and whatever else happens, the next turn of the aborted call ends it
without a fault, over any event or none: the turn cancels what has been started and not been
joined, and does nothing else. -/
theorem abort_ends_run (h : Execution (fresh s c) steps p) (hrunning : p.phase = .running) :
    ∃ i run q, p.active? i = some run ∧
      (∀ k, k ∈ run.inFlight ↔
        .started k ∈ journal i steps ∧ ∀ result, .joined k result ∉ journal i steps) ∧
      p.abort = .ok (q, [.report .abortRequested]) ∧
      ∀ later r, Execution q later r →
        ((∀ e ∈ later, ¬e.Begins) → r.current = 0) ∧
        ((∀ e ∈ later, e.move.call? ≠ some i) → AwaitsEnd i run.inFlight r) := by
  obtain ⟨i, run, hactive⟩ := (lifecycle_of_execution h).active_of_running hrunning
  obtain ⟨q, habort, hmove, hcancelled, hhalted⟩ := abort_of_active h hactive
  have haborted : Execution (fresh s c) _ q := h.next hmove
  refine ⟨i, run, q, hactive, mem_inFlight_of_execution h hactive, habort, ?_⟩
  intro later r hlater
  -- Until a run begins, all that happens comes after the abort in one execution.
  have hwhole := haborted.trans hlater
  constructor
  · intro hnone
    exact (halted_of_execution haborted hhalted hlater hnone).current_eq_zero
      (lifecycle_of_execution hwhole)
  · intro hothers
    have hkept := active?_of_others haborted hcancelled rfl hlater hothers
    have hawaits := awaitsEnd_of_cancelled hwhole hkept rfl
    exact hawaits

/-- Two invocations are in flight when the pool is aborted, and one of them fails just then. -/
theorem abort_ends_run_of_pair : ∃ steps, ∃ p q r : Pool Float,
    Execution (fresh .pair {}) steps p ∧ p.phase = .running ∧ p.current = 2 ∧
      p.abort = .ok (q, [.report .abortRequested]) ∧ q.current = 0 ∧
      q.move? (.join 0 (.error "late")) = some (r, [.cancel [0, 1], .report .runAborted]) ∧
      r.phase = .aborted ∧ r.abort = .error .notRunning := by
  let moves : List Move := [.call, .enter, .answer false, .answer true, .answer true]
  obtain ⟨steps, p, hplay, hphase, hcurrent, first, hfirst, hinFlight⟩ :
      ∃ steps, ∃ p : Pool Float, (fresh .pair {}).play moves = some (steps, p) ∧
        p.phase = .running ∧ p.current = 2 ∧
        ∃ run, p.active? 0 = some run ∧ run.inFlight = [0, 1] :=
    ⟨_, _, rfl, rfl, rfl, _, rfl, rfl⟩
  have h : Execution (fresh .pair {}) steps p := execution_of_play hplay
  obtain ⟨i, run, q, hactive, -, habort, hlater⟩ := abort_ends_run h hphase
  obtain rfl : 0 = i := (lifecycle_of_execution h).eq_of_active hfirst hactive
  obtain rfl : first = run := Option.some.inj (hfirst.symm.trans hactive)
  obtain ⟨hzero, hawaits⟩ := hlater [] q .start
  obtain ⟨r, hturn, -, hended, hresting⟩ := (hawaits (by simp)).ends
  rw [hinFlight] at hturn
  have hmove : q.move? (.join 0 (.error "late")) =
      some (r, [.cancel [0, 1], .report .runAborted]) :=
    hturn ⟨0⟩ true (some (.joined 0 (.error "late")))
  exact ⟨steps, p, q, r, h, hphase, hcurrent, habort, hzero (by simp), hmove, hended,
    (hresting [] r .start (by simp)).2⟩

end

end Pool

end ElasticPool
