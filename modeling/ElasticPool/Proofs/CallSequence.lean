import Mathlib.Logic.ExistsUnique
import ElasticPool.Proofs.LiveRun

namespace ElasticPool

variable {α : Type}

namespace Pool

/-- The second pool differs from the first in its calls at most. -/
structure Agrees (p q : Pool α) : Prop where
  phase_eq : q.phase = p.phase
  abortable?_eq : q.abortable? = p.abortable?
  revoked_eq : q.revoked = p.revoked
  desired_eq : q.desired = p.desired
  current_eq : q.current = p.current

namespace Agrees

variable {p q r : Pool α}

theorem refl (p : Pool α) : Agrees p p := ⟨rfl, rfl, rfl, rfl, rfl⟩

theorem setCall (p : Pool α) (i : Nat) (call : Call α) : Agrees p (p.setCall i call) :=
  ⟨rfl, rfl, rfl, rfl, rfl⟩

theorem trans (hpq : Agrees p q) (hqr : Agrees q r) : Agrees p r where
  phase_eq := hqr.phase_eq.trans hpq.phase_eq
  abortable?_eq := hqr.abortable?_eq.trans hpq.abortable?_eq
  revoked_eq := hqr.revoked_eq.trans hpq.revoked_eq
  desired_eq := hqr.desired_eq.trans hpq.desired_eq
  current_eq := hqr.current_eq.trans hpq.current_eq

end Agrees

theorem abort_of_resting {p : Pool α} (hresting : p.phase ≠ .running) :
    p.abort = .error .notRunning := by
  unfold abort
  split
  · contradiction
  · rfl

theorem not_unbegun_of_active {p : Pool α} {i : Nat} {run : Run α}
    (hactive : p.active? i = some run) : ¬p.Unbegun i := by
  have hcall : p.calls[i]? = some (.active run) := (p.active?_eq_some_iff).mp hactive
  simp [Unbegun, hcall]

section

variable [Scalar α] {s : Settings} {c : ScalingConfig} {p q : Pool α} {m : Move}
  {effects : List Effect} {steps later : List (Step α)} {i : Nat}

theorem agrees_of_transition (hlife : p.Lifecycle) (h : Transition p m q effects)
    (hbefore : p.phase ≠ .running) (hafter : q.phase ≠ .running) : Agrees p q := by
  have hinactive {i : Nat} {run : Run α} (hactive : p.active? i = some run) : False :=
    hbefore (hlife.running_of_active i run hactive)
  cases h with
  | called | unaborted _ | ignored _ => exact ⟨rfl, rfl, rfl, rfl, rfl⟩
  | refused _ _ | withdrawn _ => exact .setCall ..
  | entered _ _ => exact absurd rfl hafter
  | left hactive _ | moved hactive _ _ _ _ | ended hactive _ _ _ _ | aborted hactive
  | dropped hactive => exact (hinactive hactive).elim

/-- A pool without a run keeps everything but its calls until the next run begins. -/
theorem agrees_of_execution (h : Execution (fresh s c) steps p) (hresting : p.phase ≠ .running)
    (hlater : Execution p later q) (hnone : ∀ e ∈ later, ¬e.Begins) : Agrees p q := by
  have hkept : Agrees p q ∧ q.phase ≠ .running := by
    refine law_of_execution (fun r => Agrees p r ∧ r.phase ≠ .running) ?_ h
      ⟨.refl p, hresting⟩ hlater hnone
    rintro r r' m effects hlife htransition hquiet ⟨hagrees, hbefore⟩
    have hafter : r'.phase ≠ .running := fun hrunning => hquiet ⟨hbefore, hrunning⟩
    exact ⟨hagrees.trans (agrees_of_transition hlife htransition hbefore hafter), hafter⟩
  exact hkept.1

/-- The calls that have been told to end have begun, and the active one knows of it. -/
structure Revocations (p : Pool α) : Prop where
  begun_of_revoked : ∀ i ∈ p.revoked, ¬p.Unbegun i
  revoked_iff : ∀ i run, p.active? i = some run → (i ∈ p.revoked ↔ run.cancelled = true)

theorem revoked_of_transition (hlife : p.Lifecycle) (h : Transition p m q effects) :
    q.revoked = p.revoked ∨ ∃ i run, p.active? i = some run ∧ q.revoked = p.revoked ++ [i] := by
  have hreleased {i : Nat} {run : Run α} (hactive : p.active? i = some run) :
      p.release.revoked = p.revoked ++ [i] := by
    rw [release, hlife.abortable_of_active i run hactive]
    rfl
  cases h with
  | called | refused _ _ | entered _ _ | unaborted _ | withdrawn _ | ignored _ => exact .inl rfl
  | moved _ _ _ hreaction _ =>
      left
      rw [setCall, hreaction.pool_eq]
  | left hactive _ => exact .inr ⟨_, _, hactive, hreleased hactive⟩
  | ended hactive _ _ hreaction _ =>
      refine .inr ⟨_, _, hactive, ?_⟩
      rw [← hreleased hactive, leave, hreaction.pool_eq]
      rfl
  | aborted hactive => exact .inr ⟨_, _, hactive, rfl⟩
  | dropped hactive => exact .inr ⟨_, _, hactive, hreleased hactive⟩

theorem revoked_iff_of_transition (hlife : p.Lifecycle) (h : Transition p m q effects)
    (hrevocations : p.Revocations) {run : Run α} (hactive : q.active? i = some run) :
    i ∈ q.revoked ↔ run.cancelled = true := by
  have hlife' : q.Lifecycle := lifecycle_of_transition hlife h
  have hrunning : q.phase = .running := hlife'.running_of_active i run hactive
  have hsame (hrevoked : q.revoked = p.revoked) (hkept : q.active? i = p.active? i) :
      i ∈ q.revoked ↔ run.cancelled = true := by
    rw [hrevoked]
    exact hrevocations.revoked_iff i run (hkept.symm.trans hactive)
  cases h with
  | called => exact hsame rfl (p.active?_call i)
  | refused hcall _ | withdrawn hcall =>
      exact hsame rfl (p.active?_setCall_of_inactive hcall rfl rfl i)
  | unaborted _ | ignored _ => exact hsame rfl rfl
  | @entered j now _ _ hcall hresting =>
      by_cases hij : j = i
      · subst hij
        have hrun := ((p.begun j).active?_setCall_self hcall).symm.trans hactive
        obtain rfl : p.opening now = run := Option.some.inj hrun
        have hunknown : j ∉ p.revoked := fun hmem =>
          hrevocations.begun_of_revoked j hmem (.inr hcall)
        exact iff_of_false hunknown (by simp [opening, Run.fresh])
      · refine hsame rfl ?_
        exact (p.begun j).active?_setCall_of_ne hij _
  | left _ _ | ended _ _ _ _ _ => exact absurd hrunning (phase_leave_ne_running _ _)
  | dropped _ => exact absurd hrunning p.phase_release_ne_running
  | @moved j _ _ _ earlier t hearlier _ _ hreaction _ =>
      have hrevoked : (t.pool.setCall j (.active t.run)).revoked = p.revoked := by
        rw [setCall, hreaction.pool_eq]
      by_cases hij : j = i
      · subst hij
        have hrun := (active?_moved_self hearlier hreaction).symm.trans hactive
        obtain rfl : t.run = run := Option.some.inj hrun
        rw [hrevoked, hreaction.cancelled_eq]
        exact hrevocations.revoked_iff j earlier hearlier
      · refine hsame hrevoked ?_
        exact (t.pool.active?_setCall_of_ne hij _).trans (hreaction.active?_eq i)
  | @aborted j earlier hearlier =>
      obtain rfl : j = i := hlife'.eq_of_active (active?_aborted_self hearlier) hactive
      obtain rfl := Option.some.inj ((active?_aborted_self hearlier).symm.trans hactive)
      exact iff_of_true (by simp) rfl

theorem revocations_of_transition (hlife : p.Lifecycle) (h : Transition p m q effects)
    (hrevocations : p.Revocations) : q.Revocations := by
  refine ⟨fun i hmem hunbegun => ?_, fun i run => revoked_iff_of_transition hlife h hrevocations⟩
  have hearlier : p.Unbegun i := (unbegun_of_transition h hunbegun).1
  rcases revoked_of_transition hlife h with hkept | ⟨j, run, hactive, hadded⟩
  · rw [hkept] at hmem
    exact hrevocations.begun_of_revoked i hmem hearlier
  · rw [hadded, List.mem_append, List.mem_singleton] at hmem
    rcases hmem with hold | rfl
    · exact hrevocations.begun_of_revoked i hold hearlier
    · exact not_unbegun_of_active hactive hearlier

theorem revocations_of_execution (h : Execution (fresh s c) steps p) : p.Revocations := by
  induction h with
  | start => exact ⟨by simp [fresh], by simp [active?, fresh]⟩
  | next hbefore hmove ih =>
      have hlife := lifecycle_of_execution hbefore
      exact revocations_of_transition hlife (transition_of_move hlife hmove) ih

structure Seated (i : Nat) (q : Pool α) : Prop where
  active : ∃ run, q.active? i = some run ∧ run.cancelled = false
  phase_eq : q.phase = .running
  abortable?_eq : q.abortable? = some i
  not_revoked : i ∉ q.revoked
  desired_eq : q.desired = q.settings.desired
  current_eq : q.current = 0

/-- The run of the call is over, by itself or because its call has been given up. -/
structure Vacated (i : Nat) (q : Pool α) : Prop where
  call_over : (∃ outcome : Outcome,
      q.calls[i]? = some (.ended outcome.result) ∧ q.phase = outcome.phase) ∨
    q.calls[i]? = some .dropped ∧ q.phase = .aborted
  phase_ne : q.phase ≠ .running
  abortable?_eq : q.abortable? = none
  revoked : i ∈ q.revoked
  current_eq : q.current = 0

omit [Scalar α] in
theorem vacated_leave {run : Run α} (hactive : p.active? i = some run)
    (habortable : p.abortable? = some i) (run' : Run α) (outcome : Outcome) :
    Vacated i (p.leave i run' outcome).1 where
  call_over := by
    have hcall : p.calls[i]? = some (.active run) := (p.active?_eq_some_iff).mp hactive
    exact .inl ⟨outcome, call_leave_self hcall run' outcome, phase_leave run' outcome⟩
  phase_ne := phase_leave_ne_running run' outcome
  abortable?_eq := rfl
  revoked := by simp [leave, setCall, release, habortable]
  current_eq := rfl

theorem vacated_of_stops (hlife : p.Lifecycle) {run : Run α} (hactive : p.active? i = some run)
    {entries : List Journal.Entry} (hstops : Stops p i run m entries q) : Vacated i q := by
  have habortable : p.abortable? = some i := hlife.abortable_of_active i run hactive
  cases hstops with
  | left _ => exact vacated_leave hactive habortable run .aborted
  | @ended _ _ _ t outcome _ _ hreaction _ =>
      refine vacated_leave ((hreaction.active?_eq i).trans hactive) ?_ t.run outcome
      rw [hreaction.pool_eq]
      exact habortable
  | dropped =>
      have hcall : p.calls[i]? = some (.active run) := (p.active?_eq_some_iff).mp hactive
      have hrunning : p.phase = .running := hlife.running_of_active i run hactive
      have hlt : i < p.calls.length := p.lt_length_of_call hcall
      refine ⟨.inr ⟨?_, ?_⟩, p.phase_release_ne_running, rfl, ?_, rfl⟩
      · simp [setCall, release, hlt]
      · simp [setCall, release, hrunning]
      · simp [setCall, release, habortable]

theorem seated_of_turn (h : Execution (fresh s c) steps p) (hresting : p.phase ≠ .running)
    (hcall : p.calls[i]? = some .waiting) (now : Moment) (event? : Option RunEvent) :
    ∃ q effects, p.move? (.turn i now true event?) = some (q, effects) ∧ Seated i q := by
  obtain ⟨⟨q, effects⟩, hmove⟩ : ∃ r, p.move? (.turn i now true event?) = some r :=
    ⟨_, by rw [move?, turn, hcall]⟩
  refine ⟨q, effects, hmove, ?_⟩
  cases transition_of_move (lifecycle_of_execution h) hmove with
  | refused _ hfault => simp [hresting] at hfault
  | entered _ _ =>
      have hunknown : i ∉ p.revoked := fun hmem =>
        (revocations_of_execution h).begun_of_revoked i hmem (.inr hcall)
      have hactive : ((p.begun i).setCall i (.active (p.opening now))).active? i =
          some (p.opening now) := (p.begun i).active?_setCall_self hcall
      exact ⟨⟨_, hactive, rfl⟩, rfl, rfl, hunknown, rfl, rfl⟩
  | left hactive _ | moved hactive _ _ _ _ | ended hactive _ _ _ _ =>
      simp [active?, hcall] at hactive

structure OneRun (p : Pool α) : Prop where
  running_iff : p.phase = .running ↔ p.abortable?.isSome ∧ ∃! i, (p.active? i).isSome
  eq_of_active : ∀ i j, (p.active? i).isSome → (p.active? j).isSome → i = j
  abortable?_eq : ∀ i run, p.active? i = some run → p.abortable? = some i
  revoked_iff : ∀ i run, p.active? i = some run → (i ∈ p.revoked ↔ run.cancelled = true)

theorem oneRun_of_execution (h : Execution (fresh s c) steps p) : OneRun p := by
  have hlife := lifecycle_of_execution h
  have hsole (i j : Nat) (hi : (p.active? i).isSome) (hj : (p.active? j).isSome) : i = j := by
    obtain ⟨run, hactive⟩ := Option.isSome_iff_exists.mp hi
    obtain ⟨run', hactive'⟩ := Option.isSome_iff_exists.mp hj
    exact hlife.eq_of_active hactive hactive'
  refine ⟨⟨fun hrunning => ?_, ?_⟩, hsole, hlife.abortable_of_active,
    (revocations_of_execution h).revoked_iff⟩
  · obtain ⟨i, run, hactive⟩ := hlife.active_of_running hrunning
    have hi : (p.active? i).isSome := Option.isSome_iff_exists.mpr ⟨run, hactive⟩
    refine ⟨?_, i, hi, fun j hj => hsole j i hj hi⟩
    rw [hlife.abortable_of_active i run hactive]
    rfl
  · rintro ⟨-, i, hi, -⟩
    obtain ⟨run, hactive⟩ := Option.isSome_iff_exists.mp hi
    exact hlife.running_of_active i run hactive

/-- Whatever is called, given up, aborted and moved on in any order, there is one run at a
time.  However it ends, it leaves the pool free.  What is refused leaves everything but its own
call as it was, so that the last outcome stays until the next run begins, and outside a run
every call is let in for which the recorder is active. -/
theorem one_run_at_a_time (h : Execution (fresh s c) steps p) :
    OneRun p ∧
    (∀ m q effects i run, p.move? m = some (q, effects) → p.active? i = some run →
      q.active? i = none → Vacated i q) ∧
    (∀ i now sampling event?, p.calls[i]? = some .waiting →
      p.phase = .running ∨ sampling = false →
      ∃ q, p.move? (.turn i now sampling event?) = some (q, []) ∧ Agrees p q ∧
        q.calls[i]? = some (.ended (.error
          (if p.phase = .running then .alreadyRunning else .recorder .notActive)))) ∧
    (p.phase ≠ .running →
      p.abort = .error .notRunning ∧ p.move? .abort = some (p, []) ∧
      (∀ later q, Execution p later q → (∀ e ∈ later, ¬e.Begins) → Agrees p q) ∧
      ∀ i now event?, p.calls[i]? = some .waiting →
        ∃ q effects, p.move? (.turn i now true event?) = some (q, effects) ∧ Seated i q) := by
  have hlife := lifecycle_of_execution h
  refine ⟨oneRun_of_execution h, ?_, ?_, ?_⟩
  · intro m q effects i run hmove hactive hnone
    have hpart := part_of_execution h hmove i
    exact vacated_of_stops hlife hactive (stops_of_part hpart hactive hnone)
  · intro i now sampling event? hcall hrefused
    have hlt : i < p.calls.length := p.lt_length_of_call hcall
    refine ⟨p.setCall i (.ended (.error
      (if p.phase = .running then .alreadyRunning else .recorder .notActive))), ?_,
      .setCall .., by simp [setCall, hlt]⟩
    rw [move?, turn, hcall]
    by_cases hrunning : p.phase = .running
    · simp [enter, hrunning]
    · obtain rfl : sampling = false := hrefused.resolve_left hrunning
      simp [enter, hrunning]
  · intro hresting
    have hrefused : p.abort = .error .notRunning := abort_of_resting hresting
    refine ⟨hrefused, by rw [move?, hrefused], ?_, ?_⟩
    · intro later q hlater hnone
      exact agrees_of_execution h hresting hlater hnone
    · intro i now event? hcall
      exact seated_of_turn h hresting hcall now event?

/-- A call is refused during a run, and the next one is let in once the run is finished. -/
theorem one_run_at_a_time_of_pair : ∃ steps, ∃ p q : Pool Float, ∃ effects,
    Execution (fresh .pair {}) steps p ∧ p.phase = .running ∧
      p.calls[1]? = some (.ended (.error .alreadyRunning)) ∧
      p.move? (.answer true) = some (q, effects) ∧ Vacated 0 q ∧ q.phase = .finished ∧
      ∃ r effects, q.move? (.turn 2 ⟨0⟩ true none) = some (r, effects) ∧ Seated 2 r := by
  let moves : List Move := [.call, .call, .call, .enter, .turn 1 ⟨0⟩ true none]
  obtain ⟨steps, p, hplay, run, hactive, hphase, hsecond, q, effects, hmove, hended, hfinished,
      hthird⟩ :
      ∃ steps, ∃ p : Pool Float, (fresh .pair {}).play moves = some (steps, p) ∧
        ∃ run, p.active? 0 = some run ∧ p.phase = .running ∧
          p.calls[1]? = some (.ended (.error .alreadyRunning)) ∧
          ∃ q effects, p.move? (.answer true) = some (q, effects) ∧ q.active? 0 = none ∧
            q.phase = .finished ∧ q.calls[2]? = some .waiting :=
    ⟨_, _, rfl, _, rfl, rfl, rfl, _, _, rfl, rfl, rfl, rfl⟩
  have h : Execution (fresh .pair {}) steps p := execution_of_play hplay
  have hresting : q.phase ≠ .running := by simp [hfinished]
  obtain ⟨-, hvacated, -, -⟩ := one_run_at_a_time h
  obtain ⟨-, -, -, hfree⟩ := one_run_at_a_time (h.next hmove)
  obtain ⟨-, -, -, hseated⟩ := hfree hresting
  exact ⟨steps, p, q, effects, h, hphase, hsecond, hmove,
    hvacated _ q effects 0 run hmove hactive hended, hfinished, hseated 2 ⟨0⟩ none hthird⟩

end

end Pool

end ElasticPool
