import ElasticPool.Proofs.SlotAccounting

namespace ElasticPool

variable {α : Type}

def RunEvent.evaluated? : RunEvent → Option SystemLoad
  | scaleTick (.ok load) => some load
  | scaleTick (.error _) | joined .. | statusTick _ | answered _ | waited => none

namespace Pool

def Step.Rescales (e : Step α) (load : SystemLoad) : Prop :=
  ∃ i now sampling run, e.move = .turn i now sampling (some (.scaleTick (.ok load))) ∧
    e.before.active? i = some run ∧ run.cancelled = false

/-- What a step makes of the desired concurrency. -/
inductive Retargets (e : Step α) : Prop
  | begun (hbegins : e.Begins) (hnever : ∀ load, ¬e.Rescales load)
      (hdesired : e.after.desired = e.before.settings.desired)
  | rescaled (load : SystemLoad) (hresumes : ¬e.Begins) (hrescales : e.Rescales load)
      (hdesired : e.after.desired = (e.before.rescaled load).desired)
  | kept (hresumes : ¬e.Begins) (hnever : ∀ load, ¬e.Rescales load)
      (hdesired : e.after.desired = e.before.desired)

theorem Step.Rescales.unique {e : Step α} {load load' : SystemLoad} (h : e.Rescales load)
    (h' : e.Rescales load') : load = load' := by
  obtain ⟨i, now, sampling, run, hmove, -⟩ := h
  obtain ⟨i', now', sampling', run', hmove', -⟩ := h'
  obtain ⟨-, -, -, rfl⟩ : _ ∧ _ ∧ _ ∧ load = load' := by simpa using hmove.symm.trans hmove'
  rfl

section

variable {p q : Pool α} {m : Move} {effects : List Effect} {i : Nat}

theorem not_begins_of_active (hlife : p.Lifecycle) {run : Run α}
    (hactive : p.active? i = some run) : ¬(⟨p, m, effects, q⟩ : Step α).Begins :=
  fun hbegins => hbegins.1 (hlife.running_of_active i run hactive)

theorem not_begins_of_phase_eq (hphase : q.phase = p.phase) :
    ¬(⟨p, m, effects, q⟩ : Step α).Begins :=
  fun hbegins => hbegins.1 (hphase.symm.trans hbegins.2)

theorem not_rescales_of_not_live {now : Moment} {sampling : Bool} {event? : Option RunEvent}
    (hcancelled : ∀ run, p.active? i = some run → run.cancelled = true) (load : SystemLoad) :
    ¬(⟨p, .turn i now sampling event?, effects, q⟩ : Step α).Rescales load := by
  rintro ⟨j, now', sampling', run, hmove, hactive, hlive⟩
  obtain ⟨rfl, -⟩ : i = j ∧ _ := by simpa using hmove
  simp [hcancelled run hactive] at hlive

variable [Scalar α]

theorem overflows_eq_false_of_turn {now : Moment} {sampling : Bool} {event : RunEvent}
    {run : Run α} (hactive : p.active? i = some run) (hlive : run.cancelled = false)
    (h : p.turn i now sampling (some event) = some (q, effects)) : p.overflows event = false := by
  have hcall : p.calls[i]? = some (.active run) := (p.active?_eq_some_iff).mp hactive
  cases hoverflows : p.overflows event with
  | false => rfl
  | true => simp [turn, hcall, hlive, hoverflows] at h

/-- A tick that a live run comes through has not failed. -/
theorem next?_eq_of_rescales {e : Step α} {load : SystemLoad} (hrescales : e.Rescales load)
    (hmove : e.before.move? e.move = some (e.after, e.effects))
    (hdesired : e.after.desired = (e.before.rescaled load).desired) :
    Scaling.next? e.before.settings e.before.config e.before.desired e.before.current load.idle =
      some e.after.desired := by
  obtain ⟨i, now, sampling, run, htick, hactive, hlive⟩ := hrescales
  rw [htick] at hmove
  have hfits := overflows_eq_false_of_turn hactive hlive hmove
  cases hnext : Scaling.next? e.before.settings e.before.config e.before.desired e.before.current
      load.idle with
  | none => simp [overflows, hnext] at hfits
  | some next => rw [hdesired, rescaled, hnext, Option.getD_some]

theorem desired_of_reaction {run : Run α} {now : Moment} {event : RunEvent} {t : RunTurn α}
    (h : run.Reaction p now event t) :
    t.pool.desired = event.evaluated?.elim p.desired fun load => (p.rescaled load).desired := by
  cases h with
  | sought => rw [RunTurn.seekMore_eq]; rfl
  | launched => rw [RunTurn.seekMore_eq]; rfl
  | _ => rfl

theorem retargets_of_reaction (hlife : p.Lifecycle) {now : Moment} {sampling : Bool}
    {event : RunEvent} {run : Run α} {t : RunTurn α} (hactive : p.active? i = some run)
    (hlive : run.cancelled = false) (hreaction : run.Reaction p now event t)
    (hdesired : q.desired = t.pool.desired) :
    Retargets (⟨p, .turn i now sampling (some event), effects, q⟩ : Step α) := by
  have hresumes : ¬(⟨p, .turn i now sampling (some event), effects, q⟩ : Step α).Begins :=
    not_begins_of_active hlife hactive
  rw [desired_of_reaction hreaction] at hdesired
  rcases hload : event.evaluated? with _ | load
  · rw [hload] at hdesired
    refine .kept hresumes ?_ hdesired
    rintro load ⟨j, now', sampling', run', hmove, -⟩
    obtain ⟨-, -, -, rfl⟩ : _ ∧ _ ∧ _ ∧ event = .scaleTick (.ok load) := by simpa using hmove
    simp [RunEvent.evaluated?] at hload
  · rw [hload] at hdesired
    obtain rfl : event = .scaleTick (.ok load) := by
      unfold RunEvent.evaluated? at hload
      split at hload <;> simp_all
    exact .rescaled load hresumes ⟨i, now, sampling, run, rfl, hactive, hlive⟩ hdesired

theorem retargets_of_transition (hlife : p.Lifecycle) (h : Transition p m q effects) :
    Retargets (⟨p, m, effects, q⟩ : Step α) := by
  cases h with
  | called | unaborted _ | withdrawn _ | ignored _ =>
      exact .kept (not_begins_of_phase_eq rfl) (by simp [Step.Rescales]) rfl
  | refused hcall _ =>
      refine .kept (not_begins_of_phase_eq rfl) (not_rescales_of_not_live ?_) rfl
      simp [active?, hcall]
  | entered hcall hphase =>
      refine .begun ⟨hphase, rfl⟩ (not_rescales_of_not_live ?_) rfl
      simp [active?, hcall]
  | left hactive hcancelled =>
      refine .kept (not_begins_of_active hlife hactive) (not_rescales_of_not_live ?_) rfl
      simpa [hactive] using hcancelled
  | moved hactive hlive _ hreaction _ =>
      exact retargets_of_reaction hlife hactive hlive hreaction rfl
  | ended hactive hlive _ hreaction _ =>
      exact retargets_of_reaction hlife hactive hlive hreaction rfl
  | aborted hactive | dropped hactive =>
      exact .kept (not_begins_of_active hlife hactive) (by simp [Step.Rescales]) rfl

end

section

variable [Scalar α] {s : Settings} {c : ScalingConfig} {p q : Pool α} {m : Move}
  {effects : List Effect} {steps : List (Step α)}

theorem retargets_of_execution (h : Execution (fresh s c) steps p)
    (hmove : p.move? m = some (q, effects)) : Retargets (⟨p, m, effects, q⟩ : Step α) := by
  have hlife := lifecycle_of_execution h
  exact retargets_of_transition hlife (transition_of_move hlife hmove)

theorem desired_mem_of_execution (h : Execution (fresh s c) steps p) :
    s.minimum ≤ p.desired ∧ p.desired ≤ s.maximum := by
  induction h with
  | start => exact ⟨s.minimum_le_desired, s.desired_le_maximum⟩
  | @next steps before after m effects hbefore hmove ih =>
      have hsettings := (settings_of_execution hbefore).1
      cases retargets_of_execution hbefore hmove with
      | begun _ _ hdesired =>
          have hsame : after.desired = s.desired := by rw [hdesired, hsettings]
          rw [hsame]
          exact ⟨s.minimum_le_desired, s.desired_le_maximum⟩
      | rescaled load _ _ hdesired =>
          subst hsettings
          rw [hdesired]
          exact rescaled_mem load ih
      | kept _ _ hdesired =>
          rw [hdesired]
          exact ih

/-- The desired concurrency stays within the bounds of the settings.  A run begins with that
of the settings, a tick that evaluates the load applies `Scaling.next?` once, and nothing else
changes it, not even a tick that fails. -/
theorem desired_moves_within_bounds (h : Execution (fresh s c) steps p) :
    (s.minimum ≤ p.desired ∧ p.desired ≤ s.maximum) ∧
    ∀ e ∈ steps,
      (e.Begins → e.after.desired = s.desired) ∧
      (∀ load, e.Rescales load →
        Scaling.next? s c e.before.desired e.before.current load.idle = some e.after.desired) ∧
      (¬e.Begins → (∀ load, ¬e.Rescales load) → e.after.desired = e.before.desired) ∧
      ∀ i now sampling fault run,
        e.move = .turn i now sampling (some (.scaleTick (.error fault))) →
        e.before.active? i = some run → e.after.desired = e.before.desired := by
  refine ⟨desired_mem_of_execution h, fun e hmem => ?_⟩
  obtain ⟨earlier, later, -, hbefore, hmove⟩ := h.of_mem hmem
  obtain ⟨hsettings, hconfig⟩ := settings_of_execution hbefore
  have hretargets := retargets_of_execution hbefore hmove
  have hkept (hresumes : ¬e.Begins) (hnever : ∀ load, ¬e.Rescales load) :
      e.after.desired = e.before.desired := by
    cases hretargets with
    | begun hbegins _ _ => exact absurd hbegins hresumes
    | rescaled load _ hrescales _ => exact absurd hrescales (hnever load)
    | kept _ _ hdesired => exact hdesired
  refine ⟨fun hbegins => ?_, fun load hrescales => ?_, hkept, ?_⟩
  · cases hretargets with
    | begun _ _ hdesired => rw [hdesired, hsettings]
    | rescaled _ hresumes _ _ | kept hresumes _ _ => exact absurd hbegins hresumes
  · cases hretargets with
    | begun _ hnever _ | kept _ hnever _ => exact absurd hrescales (hnever load)
    | rescaled load' _ hrescales' hdesired =>
        obtain rfl := hrescales.unique hrescales'
        rw [← hsettings, ← hconfig]
        exact next?_eq_of_rescales hrescales hmove hdesired
  · intro i now sampling fault run hfailed hactive
    apply hkept (not_begins_of_active (lifecycle_of_execution hbefore) hactive)
    rintro load ⟨j, now', sampling', run', htick, -⟩
    simp [hfailed] at htick

/-- A run begins with two.  The first tick finds the system overloaded and takes one off. -/
theorem desired_moves_within_bounds_of_pair : ∃ steps, ∃ p : Pool Float,
    Execution (fresh .pair {}) steps p ∧ steps.map (·.after.desired) = [2, 2, 1] ∧
      (1 ≤ p.desired ∧ p.desired ≤ 2) ∧ ∀ e ∈ steps, e.Begins → e.after.desired = 2 := by
  let full : LoadRatio := ⟨0, 1⟩
  let load : SystemLoad := ⟨full, full, full, full, ⟨0⟩⟩
  let tick : Move := .turn 0 (.ofMillis 10000) true (some (.scaleTick (.ok load)))
  have hdesired : ((fresh .pair {} : Pool Float).play [.call, .enter, tick]).map
      (fun x => x.1.map (·.after.desired)) = some [2, 2, 1] := by decide +kernel
  obtain ⟨⟨steps, p⟩, hplay, hsteps⟩ := Option.map_eq_some_iff.mp hdesired
  have h := execution_of_play hplay
  obtain ⟨hbounds, hmoves⟩ := desired_moves_within_bounds h
  exact ⟨steps, p, h, hsteps, hbounds, fun e hmem => (hmoves e hmem).1⟩

end

end Pool

end ElasticPool
