import ElasticPool.Proofs.Reaction
/-!
The calls of `run` and the one run that is active among them.

`Pool.Transition` lists what a move can do to a pool.  `Pool.Lifecycle` is what the moves
keep: at most one call is active, the pool is running exactly while one is, and outside a
run the current concurrency is zero.
-/

namespace ElasticPool

variable {α : Type}

theorem modify_eq_set_of_getElem? {β : Type} {l : List β} {i : Nat} {a : β} (f : β → β)
    (h : l[i]? = some a) : l.modify i f = l.set i (f a) := by
  have : Inhabited β := ⟨a⟩
  rw [List.modify_eq_set, h]
  rfl

def Call.run? : Call α → Option (Run α)
  | active run => some run
  | waiting | ended _ | dropped => none

namespace Pool

section

variable (p : Pool α)

theorem active?_eq_some_iff {i : Nat} {run : Run α} :
    p.active? i = some run ↔ p.calls[i]? = some (.active run) := by
  unfold active?
  split
  · simp_all
  · rename_i hother
    constructor
    · simp
    · intro hcall
      exact absurd hcall (hother run)

theorem lt_length_of_call {i : Nat} {call : Call α} (h : p.calls[i]? = some call) :
    i < p.calls.length :=
  (List.getElem?_eq_some_iff.mp h).1

theorem active?_setCall_of_ne {i j : Nat} (h : i ≠ j) (call : Call α) :
    (p.setCall i call).active? j = p.active? j := by
  simp [active?, setCall, h]

theorem active?_setCall_self {i : Nat} {before call : Call α} (h : p.calls[i]? = some before) :
    (p.setCall i call).active? i = call.run? := by
  have hcall : (p.setCall i call).calls[i]? = some call := by
    simp [setCall, p.lt_length_of_call h]
  cases call <;> simp [active?, hcall, Call.run?]

theorem active?_setCall_of_inactive {i : Nat} {before call : Call α}
    (h : p.calls[i]? = some before) (hbefore : before.run? = none) (hcall : call.run? = none)
    (j : Nat) : (p.setCall i call).active? j = p.active? j := by
  by_cases hj : i = j
  · subst hj
    rw [p.active?_setCall_self h, hcall]
    cases before <;> simp_all [active?, Call.run?]
  · exact p.active?_setCall_of_ne hj call

theorem active?_call (i : Nat) : p.call.active? i = p.active? i := by
  rcases Nat.lt_trichotomy i p.calls.length with hlt | rfl | hgt
  · simp [active?, Pool.call, List.getElem?_append_left hlt]
  · simp [active?, Pool.call]
  · have hlate : p.calls.length ≤ i := Nat.le_of_lt hgt
    simp [active?, Pool.call, List.getElem?_append_right hlate,
      List.getElem?_eq_none hlate, Nat.sub_ne_zero_of_lt hgt]

def begun (i : Nat) : Pool α :=
  { p with phase := .running, abortable? := some i, desired := p.settings.desired, current := 0 }

def opening [Scalar α] (now : Moment) : Run α :=
  { Run.fresh p.settings.tasksPerMinute p.config now with dispatch := .askedFinished }

end

/-- What a move does to a pool. -/
inductive Transition [Scalar α] (p : Pool α) : Move → Pool α → List Effect → Prop
  | called : Transition p .call p.call []
  | refused {i : Nat} {now : Moment} {sampling : Bool} {event? : Option RunEvent}
      {fault : PoolFault} (hcall : p.calls[i]? = some .waiting)
      (hfault : p.phase = .running ∧ fault = .alreadyRunning ∨
        p.phase ≠ .running ∧ sampling = false ∧ fault = .recorder .notActive) :
      Transition p (.turn i now sampling event?) (p.setCall i (.ended (.error fault))) []
  | entered {i : Nat} {now : Moment} {event? : Option RunEvent} {signal : Signal}
      (hcall : p.calls[i]? = some .waiting) (hphase : p.phase ≠ .running) :
      Transition p (.turn i now true event?)
        ((p.begun i).setCall i (.active (p.opening now))) [.report signal, .askFinished]
  | left {i : Nat} {now : Moment} {sampling : Bool} {event? : Option RunEvent} {run : Run α}
      (hactive : p.active? i = some run) (hcancelled : run.cancelled = true) :
      Transition p (.turn i now sampling event?)
        (p.leave i run .aborted).1 (p.leave i run .aborted).2
  | moved {i : Nat} {now : Moment} {sampling : Bool} {event : RunEvent} {run : Run α}
      {t : RunTurn α} (hactive : p.active? i = some run) (hlive : run.cancelled = false)
      (hadmits : run.Admits now event) (hreaction : run.Reaction p now event t)
      (houtcome : t.outcome? = none) :
      Transition p (.turn i now sampling (some event))
        (t.pool.setCall i (.active t.run)) t.effects
  | ended {i : Nat} {now : Moment} {sampling : Bool} {event : RunEvent} {run : Run α}
      {t : RunTurn α} {outcome : Outcome} (hactive : p.active? i = some run)
      (hlive : run.cancelled = false) (hadmits : run.Admits now event)
      (hreaction : run.Reaction p now event t) (houtcome : t.outcome? = some outcome) :
      Transition p (.turn i now sampling (some event))
        (t.pool.leave i t.run outcome).1 (t.effects ++ (t.pool.leave i t.run outcome).2)
  | aborted {i : Nat} {run : Run α} (hactive : p.active? i = some run) :
      Transition p .abort
        { p.setCall i (.active { run with cancelled := true }) with
          revoked := p.revoked ++ [i], current := 0 }
        [.report .abortRequested]
  | unaborted (hrefused : p.abort = .error .notRunning) : Transition p .abort p []
  /-- A call has been given up before its first turn. -/
  | withdrawn {i : Nat} (hcall : p.calls[i]? = some .waiting) :
      Transition p (.drop i) (p.setCall i .dropped) []
  | dropped {i : Nat} {run : Run α} (hactive : p.active? i = some run) :
      Transition p (.drop i) (p.release.setCall i .dropped) [.cancel run.inFlight]
  | ignored {i : Nat} (hinactive : p.active? i = none) : Transition p (.drop i) p []

/-- What the moves of an execution keep of the calls of a pool. -/
structure Lifecycle (p : Pool α) : Prop where
  running_of_active : ∀ i run, p.active? i = some run → p.phase = .running
  abortable_of_active : ∀ i run, p.active? i = some run → p.abortable? = some i
  active_of_running : p.phase = .running → ∃ i run, p.active? i = some run
  abortable_of_resting : p.phase ≠ .running → p.abortable? = none
  current_of_resting : p.phase ≠ .running → p.current = 0
  current_of_cancelled : ∀ i run, p.active? i = some run → run.cancelled = true → p.current = 0
  atRest : ∀ i run, p.active? i = some run → run.AtRest

namespace Lifecycle

variable {p : Pool α}

theorem eq_of_active (hlife : p.Lifecycle) {i j : Nat} {run run' : Run α}
    (hi : p.active? i = some run) (hj : p.active? j = some run') : i = j := by
  have h := (hlife.abortable_of_active i run hi).symm.trans (hlife.abortable_of_active j run' hj)
  exact Option.some.inj h

theorem active?_eq_none (hlife : p.Lifecycle) (hphase : p.phase ≠ .running) (i : Nat) :
    p.active? i = none := by
  rcases hactive : p.active? i with _ | run
  · rfl
  · exact absurd (hlife.running_of_active i run hactive) hphase

theorem of_resting (hphase : p.phase ≠ .running) (habortable : p.abortable? = none)
    (hcurrent : p.current = 0) (hinactive : ∀ i, p.active? i = none) : p.Lifecycle where
  running_of_active i run hactive := by simp [hinactive] at hactive
  abortable_of_active i run hactive := by simp [hinactive] at hactive
  active_of_running hrunning := absurd hrunning hphase
  abortable_of_resting _ := habortable
  current_of_resting _ := hcurrent
  current_of_cancelled i run hactive := by simp [hinactive] at hactive
  atRest i run hactive := by simp [hinactive] at hactive

theorem of_busy {i : Nat} {run : Run α} (hphase : p.phase = .running)
    (habortable : p.abortable? = some i) (hactive : p.active? i = some run)
    (honly : ∀ j, i ≠ j → p.active? j = none) (hcancelled : run.cancelled = true → p.current = 0)
    (hrest : run.AtRest) : p.Lifecycle := by
  have hsole : ∀ j run', p.active? j = some run' → j = i ∧ run' = run := by
    intro j run' hj
    by_cases hij : i = j
    · subst hij
      exact ⟨rfl, Option.some.inj (hj.symm.trans hactive)⟩
    · simp [honly j hij] at hj
  refine ⟨fun _ _ _ => hphase, ?_, fun _ => ⟨i, run, hactive⟩, fun h => absurd hphase h,
    fun h => absurd hphase h, ?_, ?_⟩
  · intro j run' hj
    rw [(hsole j run' hj).1, habortable]
  · intro j run' hj
    rw [(hsole j run' hj).2]
    exact hcancelled
  · intro j run' hj
    rw [(hsole j run' hj).2]
    exact hrest

/-- The lifecycle of a pool is read off its calls, its phase and its current concurrency. -/
theorem congr {q : Pool α} (hlife : p.Lifecycle) (hactive : ∀ i, q.active? i = p.active? i)
    (hphase : q.phase = p.phase) (habortable : q.abortable? = p.abortable?)
    (hcurrent : q.current = p.current) : q.Lifecycle where
  running_of_active i run h := by
    rw [hphase]
    exact hlife.running_of_active i run (hactive i ▸ h)
  abortable_of_active i run h := by
    rw [habortable]
    exact hlife.abortable_of_active i run (hactive i ▸ h)
  active_of_running h := by
    obtain ⟨i, run, hi⟩ := hlife.active_of_running (hphase ▸ h)
    exact ⟨i, run, (hactive i).trans hi⟩
  abortable_of_resting h := by
    rw [habortable]
    exact hlife.abortable_of_resting (hphase ▸ h)
  current_of_resting h := by
    rw [hcurrent]
    exact hlife.current_of_resting (hphase ▸ h)
  current_of_cancelled i run h := by
    rw [hcurrent]
    exact hlife.current_of_cancelled i run (hactive i ▸ h)
  atRest i run h := hlife.atRest i run (hactive i ▸ h)

theorem inactive_of_ne (hlife : p.Lifecycle) {i j : Nat} {run : Run α}
    (hactive : p.active? i = some run) (h : i ≠ j) : p.active? j = none := by
  rcases hj : p.active? j with _ | run'
  · rfl
  · exact absurd (hlife.eq_of_active hactive hj) h

theorem leave {i : Nat} {run run' : Run α} (hactive : p.active? i = some run)
    (honly : ∀ j, i ≠ j → p.active? j = none) (outcome : Outcome) :
    (p.leave i run' outcome).1.Lifecycle := by
  have hcall : p.calls[i]? = some (.active run) := (p.active?_eq_some_iff).mp hactive
  refine .of_resting ?_ rfl rfl fun j => ?_
  · cases outcome <;> simp [Pool.leave, setCall, release, Outcome.phase]
  · by_cases hj : i = j
    · subst hj
      exact active?_setCall_self ({ p with phase := outcome.phase }.release) hcall
    · exact (active?_setCall_of_ne _ hj _).trans (honly j hj)

theorem fresh (settings : Settings) (config : ScalingConfig) :
    (Pool.fresh settings config : Pool α).Lifecycle :=
  of_resting (by simp [Pool.fresh]) rfl rfl fun i => by simp [active?, Pool.fresh]

end Lifecycle

section

variable [Scalar α] {p q : Pool α} {m : Move} {effects : List Effect}

theorem transition_turn (hlife : p.Lifecycle) {i : Nat} {now : Moment} {sampling : Bool}
    {event? : Option RunEvent} (h : p.turn i now sampling event? = some (q, effects)) :
    Transition p (.turn i now sampling event?) q effects := by
  rcases hcall : p.calls[i]? with _ | _ | run | result | _
  · simp [turn, hcall] at h
  · have henter : p.enter i now sampling = (q, effects) := by simpa [turn, hcall] using h
    by_cases hphase : p.phase = .running
    · obtain ⟨rfl, rfl⟩ : p.setCall i (.ended (.error .alreadyRunning)) = q ∧ [] = effects := by
        simpa [enter, hphase] using henter
      exact .refused hcall (.inl ⟨hphase, rfl⟩)
    · cases sampling with
      | false =>
          obtain ⟨rfl, rfl⟩ :
              p.setCall i (.ended (.error (.recorder .notActive))) = q ∧ [] = effects := by
            simpa [enter, hphase] using henter
          exact .refused hcall (.inr ⟨hphase, rfl, rfl⟩)
      | true =>
          obtain ⟨rfl, rfl⟩ : (p.begun i).setCall i (.active (p.opening now)) = q ∧
              [.report (.runStarted p.settings.minimum p.settings.maximum p.settings.desired),
                .askFinished] = effects := by
            simpa [enter, hphase, resume, RunTurn.report, RunTurn.perform, RunTurn.settle,
              RunTurn.moveTo, Run.fresh, begun, opening] using henter
          exact .entered hcall hphase
  · have hactive : p.active? i = some run := (p.active?_eq_some_iff).mpr hcall
    cases hcancelled : run.cancelled with
    | true =>
        obtain ⟨rfl, rfl⟩ :
            (p.leave i run .aborted).1 = q ∧ (p.leave i run .aborted).2 = effects := by
          simpa [turn, hcall, hcancelled, Prod.ext_iff] using h
        exact .left hactive hcancelled
    | false =>
        cases event? with
        | none => simp [turn, hcall, hcancelled] at h
        | some event =>
            by_cases hpasses : run.Admits now event ∧ ¬p.overflows event
            · have hreaction : run.Reaction p now event (run.turnOver p now event) :=
                Run.reaction_turnOver (hlife.atRest i run hactive) hpasses.1
              have hresume : resume i (run.turnOver p now event) = (q, effects) := by
                simpa [turn, hcall, hcancelled, hpasses, Run.turnOver] using h
              cases houtcome : (run.turnOver p now event).outcome? with
              | none =>
                  obtain ⟨rfl, rfl⟩ : (run.turnOver p now event).pool.setCall i
                        (.active (run.turnOver p now event).run) = q ∧
                      (run.turnOver p now event).effects = effects := by
                    simpa [resume, houtcome] using hresume
                  exact .moved hactive hcancelled hpasses.1 hreaction houtcome
              | some outcome =>
                  rw [resume, houtcome] at hresume
                  obtain ⟨rfl, rfl⟩ := Prod.mk.inj hresume
                  exact .ended hactive hcancelled hpasses.1 hreaction houtcome
            · simp only [turn, hcall, hcancelled, if_neg hpasses] at h
              cases h
  · simp [turn, hcall] at h
  · simp [turn, hcall] at h

theorem transition_abort (hlife : p.Lifecycle) (h : p.move? .abort = some (q, effects)) :
    Transition p .abort q effects := by
  by_cases hphase : p.phase = .running
  · obtain ⟨i, run, hactive⟩ := hlife.active_of_running hphase
    have hcall : p.calls[i]? = some (.active run) := (p.active?_eq_some_iff).mp hactive
    have habort : p.abort = .ok ({ p.setCall i (.active { run with cancelled := true }) with
        revoked := p.revoked ++ [i], current := 0 }, [.report .abortRequested]) := by
      simp only [abort, hphase, hlife.abortable_of_active i run hactive, setCall]
      rw [modify_eq_set_of_getElem? _ hcall]
    obtain ⟨rfl, rfl⟩ := Prod.mk.inj (Option.some.inj (by simpa [move?, habort] using h))
    exact .aborted hactive
  · have habort : p.abort = .error .notRunning := by
      simp [abort, hlife.abortable_of_resting hphase]
    obtain ⟨rfl, rfl⟩ : p = q ∧ [] = effects := by simpa [move?, habort] using h
    exact .unaborted habort

theorem transition_drop {i : Nat} (h : p.move? (.drop i) = some (q, effects)) :
    Transition p (.drop i) q effects := by
  rcases hcall : p.calls[i]? with _ | _ | run | result | _
  · obtain ⟨rfl, rfl⟩ : p = q ∧ [] = effects := by simpa [move?, drop, hcall] using h
    exact .ignored (by simp [active?, hcall])
  · obtain ⟨rfl, rfl⟩ : p.setCall i .dropped = q ∧ [] = effects := by
      simpa [move?, drop, hcall] using h
    exact .withdrawn hcall
  · obtain ⟨rfl, rfl⟩ : p.release.setCall i .dropped = q ∧ [.cancel run.inFlight] = effects := by
      simpa [move?, drop, hcall] using h
    exact .dropped ((p.active?_eq_some_iff).mpr hcall)
  · obtain ⟨rfl, rfl⟩ : p = q ∧ [] = effects := by simpa [move?, drop, hcall] using h
    exact .ignored (by simp [active?, hcall])
  · obtain ⟨rfl, rfl⟩ : p = q ∧ [] = effects := by simpa [move?, drop, hcall] using h
    exact .ignored (by simp [active?, hcall])

theorem transition_of_move (hlife : p.Lifecycle) (h : p.move? m = some (q, effects)) :
    Transition p m q effects := by
  cases m with
  | call =>
      obtain ⟨rfl, rfl⟩ : p.call = q ∧ [] = effects := by simpa [move?] using h
      exact .called
  | turn i now sampling event? => exact transition_turn hlife h
  | abort => exact transition_abort hlife h
  | drop i => exact transition_drop h

theorem lifecycle_of_transition (hlife : p.Lifecycle) (h : Transition p m q effects) :
    q.Lifecycle := by
  cases h with
  | called => exact hlife.congr p.active?_call rfl rfl rfl
  | refused hcall _ =>
      exact hlife.congr (p.active?_setCall_of_inactive hcall rfl rfl) rfl rfl rfl
  | @entered i now _ _ hcall hphase =>
      have hrun : ((p.begun i).setCall i (.active (p.opening now))).active? i =
          some (p.opening now) := (p.begun i).active?_setCall_self hcall
      refine .of_busy rfl rfl hrun (fun j hj => ?_) (fun h => ?_) ⟨?_, ?_, ?_⟩
      · exact ((p.begun i).active?_setCall_of_ne hj _).trans (hlife.active?_eq_none hphase j)
      · simp [opening, Run.fresh] at h
      all_goals simp [opening, Run.fresh]
  | left hactive _ =>
      exact .leave hactive (fun j hj => hlife.inactive_of_ne hactive hj) .aborted
  | @moved i now _ event run t hactive hlive _ hreaction houtcome =>
      -- A reaction leaves the calls alone, so that only the state of this call changes.
      have hsame : ∀ j, t.pool.active? j = p.active? j := hreaction.active?_eq
      have hcall : t.pool.calls[i]? = some (.active run) :=
        (t.pool.active?_eq_some_iff).mp ((hsame i).trans hactive)
      refine .of_busy ?_ ?_ (t.pool.active?_setCall_self hcall) (fun j hj => ?_) (fun h => ?_)
        (hreaction.atRest (hlife.atRest i run hactive) houtcome)
      · show t.pool.phase = .running
        rw [hreaction.pool_eq]
        exact hlife.running_of_active i run hactive
      · show t.pool.abortable? = some i
        rw [hreaction.pool_eq]
        exact hlife.abortable_of_active i run hactive
      · rw [t.pool.active?_setCall_of_ne hj, hsame]
        exact hlife.inactive_of_ne hactive hj
      · simp [hreaction.cancelled_eq, hlive] at h
  | @ended i now _ event run t outcome hactive hlive _ hreaction houtcome =>
      have hsame : ∀ j, t.pool.active? j = p.active? j := hreaction.active?_eq
      refine .leave ((hsame i).trans hactive) (fun j hj => ?_) outcome
      exact (hsame j).trans (hlife.inactive_of_ne hactive hj)
  | @aborted i run hactive =>
      have hcall : p.calls[i]? = some (.active run) := (p.active?_eq_some_iff).mp hactive
      have hrest := hlife.atRest i run hactive
      refine .of_busy (hlife.running_of_active i run hactive)
        (hlife.abortable_of_active i run hactive) (p.active?_setCall_self hcall) (fun j hj => ?_)
        (fun _ => rfl) ⟨hrest.not_idle, hrest.parked_of_failed, hrest.inFlight_of_failed⟩
      exact (p.active?_setCall_of_ne hj _).trans (hlife.inactive_of_ne hactive hj)
  | unaborted _ => exact hlife
  | withdrawn hcall =>
      exact hlife.congr (p.active?_setCall_of_inactive hcall rfl rfl) rfl rfl rfl
  | @dropped i run hactive =>
      have hcall : p.calls[i]? = some (.active run) := (p.active?_eq_some_iff).mp hactive
      refine .of_resting p.phase_release_ne_running rfl rfl fun j => ?_
      by_cases hj : i = j
      · subst hj
        exact p.release.active?_setCall_self hcall
      · exact (p.release.active?_setCall_of_ne hj _).trans (hlife.inactive_of_ne hactive hj)
  | ignored _ => exact hlife

theorem lifecycle_of_execution {s : Settings} {c : ScalingConfig} {steps : List (Step α)}
    (h : Execution (fresh s c) steps p) : p.Lifecycle := by
  induction h with
  | start => exact Lifecycle.fresh s c
  | next _ hmove ih => exact lifecycle_of_transition ih (transition_of_move ih hmove)

/-- A law that every allowed move keeps holds as long as only such moves are made. -/
theorem law_of_execution (Law : Pool α → Prop) {Allowed : Step α → Prop}
    (hkeeps : ∀ {p q : Pool α} {m : Move} {effects : List Effect}, p.Lifecycle →
      Transition p m q effects → Allowed ⟨p, m, effects, q⟩ → Law p → Law q)
    {s : Settings} {c : ScalingConfig} {steps later : List (Step α)}
    (h : Execution (fresh s c) steps p) (hlaw : Law p) (hlater : Execution p later q)
    (hallowed : ∀ e ∈ later, Allowed e) : Law q := by
  induction hlater with
  | start => exact hlaw
  | next hbefore hmove ih =>
      have hlife := lifecycle_of_execution (h.trans hbefore)
      have hearlier := ih fun e hmem => hallowed e (List.mem_append_left _ hmem)
      have hlast := hallowed _ (List.mem_append_right _ (List.mem_singleton_self _))
      exact hkeeps hlife (transition_of_move hlife hmove) hlast hearlier

end

end Pool

end ElasticPool
