import ElasticPool.Proofs.Execution
/-!
What a run makes of an event.

A run between its turns has a question open, waits for a moment, or is parked.  The
relation `Run.Reaction` lists what the turn over an event can come to from there, with
the guards under which it does.
-/

namespace ElasticPool

open Journal

variable {α : Type}

namespace Pool

def freed (p : Pool α) : Pool α :=
  { p with current := if p.current = 0 then 0 else p.current - 1 }

def rescaled (p : Pool α) (load : SystemLoad) : Pool α := { p with
  desired := (Scaling.next? p.settings p.config p.desired p.current load.idle).getD p.desired }

def rescaleSignals (p : Pool α) (load : SystemLoad) : List Signal :=
  let next := (p.rescaled load).desired
  (if next = p.desired then [] else [.desiredChanged p.desired next]) ++
    (if next < p.desired then [.scaledDown load next] else []) ++
    [.concurrencySampled next p.current]

end Pool

namespace RunTurn

variable (t : RunTurn α)

theorem seekMore_eq : t.seekMore = { t with
    run := { t.run with
      dispatch := if t.pool.current < t.pool.desired then .askedReady else .parked }
    effects := t.effects ++ if t.pool.current < t.pool.desired then [.askReady] else [] } := by
  unfold seekMore
  split <;> simp [moveTo, perform]

theorem seekMore_of_lt (h : t.pool.current < t.pool.desired) :
    t.seekMore = { t with
      run := { t.run with dispatch := .askedReady }, effects := t.effects ++ [.askReady] } := by
  simp [seekMore_eq, h]

theorem seekMore_of_le (h : t.pool.desired ≤ t.pool.current) :
    t.seekMore = { t with run := { t.run with dispatch := .parked } } := by
  simp [seekMore_eq, UInt64.not_lt.mpr h]

@[simp] theorem outcome?_seekMore : t.seekMore.outcome? = t.outcome? := by
  rw [seekMore_eq]

@[simp] theorem outcome?_startOne : t.startOne.outcome? = t.outcome? := rfl

theorem rescale_eq (load : SystemLoad) : t.rescale load =
    { t with
      pool := t.pool.rescaled load
      effects := t.effects ++ (t.pool.rescaleSignals load).map .report } := by
  let next := (Scaling.next? t.pool.settings t.pool.config t.pool.desired t.pool.current
    load.idle).getD t.pool.desired
  simp only [rescale, Pool.rescaled, Pool.rescaleSignals]
  by_cases hsame : next = t.pool.desired <;> by_cases hless : next < t.pool.desired <;>
    simp [next, hsame, hless, report, perform]

theorem exists_rescale_eq (load : SystemLoad) : ∃ signals : List Signal,
    t.rescale load =
      { t with pool := t.pool.rescaled load, effects := t.effects ++ signals.map .report } :=
  ⟨_, t.rescale_eq load⟩

theorem settle_of_pending (houtcome : t.outcome? = none)
    (hfailed : t.run.failure?.isSome → t.run.inFlight ≠ [])
    (hpending : t.run.failure? = none → t.run.dispatch ≠ .idle) : t.settle = t := by
  unfold settle
  cases hfailure : t.run.failure? with
  | none => simp [houtcome, hpending hfailure]
  | some cause => simp [houtcome, hfailed (by simp [hfailure])]

theorem settle_seekMore (houtcome : t.outcome? = none) (hfailure : t.run.failure? = none) :
    t.seekMore.settle = t.seekMore := by
  by_cases hroom : t.pool.current < t.pool.desired
  · rw [seekMore_of_lt t hroom]
    exact settle_of_pending _ houtcome (by simp [hfailure]) (by simp)
  · rw [seekMore_of_le t (UInt64.not_lt.mp hroom)]
    exact settle_of_pending _ houtcome (by simp [hfailure]) (by simp)

end RunTurn

namespace Run

/-- What holds of a run between its turns: something is pending, and after a failure it
is an invocation. -/
structure AtRest (r : Run α) : Prop where
  not_idle : r.dispatch ≠ .idle
  parked_of_failed : r.failure?.isSome → r.dispatch = .parked
  inFlight_of_failed : r.failure?.isSome → r.inFlight ≠ []

theorem AtRest.failure?_eq_none {r : Run α} (hrest : r.AtRest) (hbusy : r.dispatch ≠ .parked) :
    r.failure? = none := by
  rcases hfailure : r.failure? with _ | cause
  · rfl
  · exact absurd (hrest.parked_of_failed (by simp [hfailure])) hbusy

def turnOver [Scalar α] (r : Run α) (p : Pool α) (now : Moment) (event : RunEvent) :
    RunTurn α :=
  (({ pool := p, run := r } : RunTurn α).onEvent now event).settle

/-- What the turn over an event comes to. -/
inductive Reaction [Scalar α] (p : Pool α) (r : Run α) (now : Moment) :
    RunEvent → RunTurn α → Prop
  | resumed {k : Nat} (hfailure : r.failure? = none) (hparked : r.dispatch = .parked) :
      Reaction p r now (.joined k (.ok ())) {
        pool := p.freed
        run := { r with inFlight := r.inFlight.erase k, dispatch := .askedFinished }
        effects := [.askFinished] }
  /-- An invocation has been joined while the run is busy with something else. -/
  | reaped {k : Nat} (hfailure : r.failure? = none) (hbusy : r.dispatch ≠ .parked) :
      Reaction p r now (.joined k (.ok ())) {
        pool := p.freed
        run := { r with inFlight := r.inFlight.erase k } }
  /-- An invocation has failed, now or before, and others are in flight. -/
  | draining {k : Nat} {result : Except String Unit} {cause : String} (signals : List Signal)
      (hfailure : r.failure?.or (Entry.joined k result).error? = some cause)
      (hleft : r.inFlight.erase k ≠ []) :
      Reaction p r now (.joined k result) {
        pool := p.freed
        run := { r with
          inFlight := r.inFlight.erase k, failure? := some cause, dispatch := .parked }
        effects := signals.map .report }
  | drained {k : Nat} {result : Except String Unit} {cause : String} (signals : List Signal)
      (hfailure : r.failure?.or (Entry.joined k result).error? = some cause)
      (hlast : r.inFlight.erase k = []) :
      Reaction p r now (.joined k result) {
        pool := p.freed
        run := { r with
          inFlight := r.inFlight.erase k, failure? := some cause, dispatch := .parked }
        effects := signals.map .report
        outcome? := some (.taskFailed cause) }
  | unparked {load : SystemLoad} (signals : List Signal)
      (hfailure : r.failure? = none) (hparked : r.dispatch = .parked) :
      Reaction p r now (.scaleTick (.ok load)) {
        pool := p.rescaled load
        run := { r with scaleTicker := r.scaleTicker.taken now, dispatch := .askedFinished }
        effects := signals.map .report ++ [.askFinished] }
  | rescaled {load : SystemLoad} (signals : List Signal)
      (hbusy : r.failure? = none → r.dispatch ≠ .parked) :
      Reaction p r now (.scaleTick (.ok load)) {
        pool := p.rescaled load
        run := { r with scaleTicker := r.scaleTicker.taken now }
        effects := signals.map .report }
  | misjudged {fault : RecorderFault} :
      Reaction p r now (.scaleTick (.error fault)) {
        pool := p
        run := { r with scaleTicker := r.scaleTicker.taken now }
        outcome? := some (.evaluationFailed fault) }
  | reported {load : Except RecorderFault SystemLoad} (signals : List Signal) :
      Reaction p r now (.statusTick load) {
        pool := p
        run := { r with statusTicker := r.statusTicker.taken now }
        effects := signals.map .report }
  | finished (hfailure : r.failure? = none) (hasked : r.dispatch = .askedFinished)
      (hlast : r.inFlight = []) :
      Reaction p r now (.answered true) {
        pool := p
        run := r
        outcome? := some .finished }
  /-- All work is finished, but some of it is still in flight. -/
  | stragglers (hfailure : r.failure? = none) (hasked : r.dispatch = .askedFinished)
      (hleft : r.inFlight ≠ []) :
      Reaction p r now (.answered true) {
        pool := p
        run := { r with dispatch := .parked } }
  | sought (hfailure : r.failure? = none) (hasked : r.dispatch = .askedFinished) :
      Reaction p r now (.answered false) ({ pool := p, run := r } : RunTurn α).seekMore
  | postponed (hfailure : r.failure? = none) (hasked : r.dispatch = .askedReady) :
      Reaction p r now (.answered false) {
        pool := p
        run := { r with dispatch := .waiting (momentAfter now p.config.dispatchWait) } }
  /-- The desired concurrency has dropped while the question was open. -/
  | overtaken (hfailure : r.failure? = none) (hasked : r.dispatch = .askedReady)
      (hfull : p.desired ≤ p.current) :
      Reaction p r now (.answered true) {
        pool := p
        run := { r with dispatch := .parked } }
  | exhausted {wait : Span} {budget : Budget α} (signals : List Signal)
      (hfailure : r.failure? = none) (hasked : r.dispatch = .askedReady)
      (hroom : p.current < p.desired) (hbudget : r.budget.take now = (.error wait, budget)) :
      Reaction p r now (.answered true) {
        pool := p
        run := { r with budget, dispatch := .waiting (momentAfter now wait) }
        effects := signals.map .report }
  | launched {budget : Budget α}
      (hfailure : r.failure? = none) (hasked : r.dispatch = .askedReady)
      (hroom : p.current < p.desired) (hbudget : r.budget.take now = (.ok (), budget)) :
      Reaction p r now (.answered true)
        ({ pool := p, run := { r with budget } } : RunTurn α).startOne.seekMore
  | awoke {m : Moment} (hfailure : r.failure? = none) (hwaiting : r.dispatch = .waiting m) :
      Reaction p r now .waited {
        pool := p
        run := { r with dispatch := .askedFinished }
        effects := [.askFinished] }

section

variable [Scalar α] {p : Pool α} {r : Run α} {now : Moment}

theorem reaction_joined (hrest : r.AtRest) (k : Nat) (result : Except String Unit) :
    Reaction p r now (.joined k result) (r.turnOver p now (.joined k result)) := by
  cases hfailure : r.failure? with
  | none =>
      cases result with
      | ok _ =>
          rcases Decidable.em (r.dispatch = .parked) with hparked | hbusy
          · have h : Reaction p r now (.joined k (.ok ())) _ := .resumed hfailure hparked
            simpa [turnOver, RunTurn.onEvent, RunTurn.onJoined, RunTurn.settle, RunTurn.moveTo,
              RunTurn.perform, unparked, hfailure, hparked, Pool.freed] using h
          · have h : Reaction p r now (.joined k (.ok ())) _ := .reaped hfailure hbusy
            simpa [turnOver, RunTurn.onEvent, RunTurn.onJoined, RunTurn.settle, unparked,
              hfailure, hbusy, hrest.not_idle, Pool.freed] using h
      | error cause =>
          have hcause : r.failure?.or (Entry.joined k (.error cause)).error? = some cause := by
            simp [hfailure, Entry.error?]
          let signal : Signal := .taskFailed cause (r.inFlight.erase k).length
          rcases Decidable.em (r.inFlight.erase k = []) with hlast | hleft
          · have h : Reaction p r now (.joined k (.error cause)) _ :=
              .drained [signal] hcause hlast
            simpa [turnOver, RunTurn.onEvent, RunTurn.onJoined, RunTurn.settle, RunTurn.moveTo,
              RunTurn.report, RunTurn.perform, signal, hfailure, hlast, Pool.freed] using h
          · have h : Reaction p r now (.joined k (.error cause)) _ :=
              .draining [signal] hcause hleft
            simpa [turnOver, RunTurn.onEvent, RunTurn.onJoined, RunTurn.settle, RunTurn.moveTo,
              RunTurn.report, RunTurn.perform, signal, hfailure, hleft, Pool.freed] using h
  | some first =>
      have hparked : r.dispatch = .parked := hrest.parked_of_failed (by simp [hfailure])
      have hcause : r.failure?.or (Entry.joined k result).error? = some first := by
        simp [hfailure]
      -- The first failure stays, so the result only decides what is reported.
      obtain ⟨signals, hturn⟩ : ∃ signals : List Signal, r.turnOver p now (.joined k result) =
          RunTurn.settle {
            pool := p.freed
            run := { r with inFlight := r.inFlight.erase k }
            effects := signals.map .report } := by
        cases result with
        | ok _ => exact ⟨[], by simp [turnOver, RunTurn.onEvent, RunTurn.onJoined, unparked,
            hfailure, Pool.freed]⟩
        | error cause => exact ⟨[.furtherTaskFailed cause], by simp [turnOver, RunTurn.onEvent,
            RunTurn.onJoined, RunTurn.moveTo, RunTurn.report, RunTurn.perform, hfailure, hparked,
            Pool.freed]⟩
      rw [hturn]
      rcases Decidable.em (r.inFlight.erase k = []) with hlast | hleft
      · have h : Reaction p r now (.joined k result) _ := .drained signals hcause hlast
        simpa [RunTurn.settle, hfailure, hparked, hlast] using h
      · have h : Reaction p r now (.joined k result) _ := .draining signals hcause hleft
        simpa [RunTurn.settle, hfailure, hparked, hleft] using h

theorem reaction_scaleTick (hrest : r.AtRest) (load : Except RecorderFault SystemLoad) :
    Reaction p r now (.scaleTick load) (r.turnOver p now (.scaleTick load)) := by
  cases load with
  | error fault => exact .misjudged
  | ok load =>
      let ticked : RunTurn α :=
        { pool := p, run := { r with scaleTicker := r.scaleTicker.taken now } }
      obtain ⟨signals, hrescale⟩ := ticked.exists_rescale_eq load
      have hturn : r.turnOver p now (.scaleTick (.ok load)) = RunTurn.settle
          { ticked.rescale load with run := (ticked.rescale load).run.unparked } := rfl
      rw [hturn, hrescale]
      rcases Decidable.em (r.failure? = none ∧ r.dispatch = .parked) with hidle | hbusy
      · have h : Reaction p r now (.scaleTick (.ok load)) _ := .unparked signals hidle.1 hidle.2
        simpa [RunTurn.settle, RunTurn.moveTo, RunTurn.perform, unparked, ticked, hidle] using h
      · have h : Reaction p r now (.scaleTick (.ok load)) _ :=
          .rescaled signals (not_and.mp hbusy)
        rw [RunTurn.settle_of_pending _ rfl]
        · simpa [unparked, ticked, hbusy] using h
        · simpa [unparked, ticked, hbusy] using hrest.inFlight_of_failed
        · simpa [unparked, ticked, hbusy] using fun _ => hrest.not_idle

theorem reaction_statusTick (hrest : r.AtRest) (load : Except RecorderFault SystemLoad) :
    Reaction p r now (.statusTick load) (r.turnOver p now (.statusTick load)) := by
  let reporting (signal : Signal) : RunTurn α := {
    pool := p
    run := { r with statusTicker := r.statusTicker.taken now }
    effects := [.report signal] }
  have hstill (signal : Signal) : (reporting signal).settle = reporting signal :=
    RunTurn.settle_of_pending _ rfl hrest.inFlight_of_failed fun _ => hrest.not_idle
  cases load with
  | error fault =>
      rw [show r.turnOver p now (.statusTick (.error fault)) = _ from hstill _]
      exact .reported [.statusUnavailable fault]
  | ok load =>
      rw [show r.turnOver p now (.statusTick (.ok load)) = _ from hstill _]
      exact .reported [.status load p.current p.desired]

theorem reaction_finishedAnswer (hfailure : r.failure? = none)
    (hasked : r.dispatch = .askedFinished) (yes : Bool) :
    Reaction p r now (.answered yes) (r.turnOver p now (.answered yes)) := by
  have hturn : r.turnOver p now (.answered yes) =
      (({ pool := p, run := r } : RunTurn α).onFinishedAnswer yes).settle := by
    simp [turnOver, RunTurn.onEvent, RunTurn.onAnswer, hasked]
  rw [hturn]
  cases yes with
  | false =>
      have hseek : ({ pool := p, run := r } : RunTurn α).onFinishedAnswer false =
          ({ pool := p, run := r } : RunTurn α).seekMore := by
        simp [RunTurn.onFinishedAnswer]
      rw [hseek, RunTurn.settle_seekMore _ rfl hfailure]
      exact .sought hfailure hasked
  | true =>
      rcases Decidable.em (r.inFlight = []) with hlast | hleft
      · have h : Reaction p r now (.answered true) _ := .finished hfailure hasked hlast
        simpa [RunTurn.onFinishedAnswer, hlast, RunTurn.settle] using h
      · have h : Reaction p r now (.answered true) _ := .stragglers hfailure hasked hleft
        simpa [RunTurn.onFinishedAnswer, hleft, RunTurn.settle, RunTurn.moveTo, hfailure] using h

theorem reaction_readyAnswer (hfailure : r.failure? = none) (hasked : r.dispatch = .askedReady)
    (yes : Bool) : Reaction p r now (.answered yes) (r.turnOver p now (.answered yes)) := by
  have hturn : r.turnOver p now (.answered yes) =
      (({ pool := p, run := r } : RunTurn α).onReadyAnswer now yes).settle := by
    simp [turnOver, RunTurn.onEvent, RunTurn.onAnswer, hasked, hfailure]
  rw [hturn]
  cases yes with
  | false =>
      have h : Reaction p r now (.answered false) _ := .postponed hfailure hasked
      simpa [RunTurn.onReadyAnswer, RunTurn.settle, RunTurn.moveTo, hfailure] using h
  | true =>
      rcases Decidable.em (p.desired ≤ p.current) with hfull | hroom
      · have h : Reaction p r now (.answered true) _ := .overtaken hfailure hasked hfull
        simpa [RunTurn.onReadyAnswer, hfull, RunTurn.settle, RunTurn.moveTo, hfailure] using h
      · have hless : p.current < p.desired := UInt64.not_le.mp hroom
        rcases htake : r.budget.take now with ⟨wait | _, budget⟩
        · have h : Reaction p r now (.answered true) _ :=
            .exhausted [.budgetExhausted wait] hfailure hasked hless htake
          simpa [RunTurn.onReadyAnswer, hroom, htake, RunTurn.settle, RunTurn.moveTo,
            RunTurn.report, RunTurn.perform, hfailure] using h
        · have hready : ({ pool := p, run := r } : RunTurn α).onReadyAnswer now true =
              (({ pool := p, run := { r with budget } } : RunTurn α).startOne).seekMore := by
            simp [RunTurn.onReadyAnswer, hroom, htake]
          rw [hready, RunTurn.settle_seekMore _ rfl hfailure]
          exact .launched hfailure hasked hless htake

theorem reaction_answered (hrest : r.AtRest) (hasking : r.dispatch.asking) (yes : Bool) :
    Reaction p r now (.answered yes) (r.turnOver p now (.answered yes)) := by
  rcases hdispatch : r.dispatch with _ | _ | _ | m | _
  case askedFinished =>
    exact reaction_finishedAnswer (hrest.failure?_eq_none (by simp [hdispatch])) hdispatch yes
  case askedReady =>
    exact reaction_readyAnswer (hrest.failure?_eq_none (by simp [hdispatch])) hdispatch yes
  all_goals simp [hdispatch, Dispatch.asking] at hasking

theorem reaction_waited (hrest : r.AtRest) {m : Moment} (hwaiting : r.dispatch = .waiting m) :
    Reaction p r now .waited (r.turnOver p now .waited) := by
  have hfailure : r.failure? = none := hrest.failure?_eq_none (by simp [hwaiting])
  have h : Reaction p r now .waited _ := .awoke hfailure hwaiting
  simpa [turnOver, RunTurn.onEvent, RunTurn.settle, RunTurn.moveTo, RunTurn.perform, hfailure]
    using h

/-- The turn of a run at rest over an admitted event is one of the reactions. -/
theorem reaction_turnOver (hrest : r.AtRest) {event : RunEvent} (hadmits : r.Admits now event) :
    Reaction p r now event (r.turnOver p now event) := by
  cases event with
  | joined k result => exact reaction_joined hrest k result
  | scaleTick load => exact reaction_scaleTick hrest load
  | statusTick load => exact reaction_statusTick hrest load
  | answered yes => exact reaction_answered hrest hadmits yes
  | waited =>
      obtain ⟨m, _, hwaiting⟩ := hadmits
      exact reaction_waited hrest hwaiting

namespace Reaction

variable {event : RunEvent} {t : RunTurn α}

theorem pool_eq (h : Reaction p r now event t) :
    t.pool = { p with desired := t.pool.desired, current := t.pool.current } := by
  cases h with
  | sought => rw [RunTurn.seekMore_eq]
  | launched => rw [RunTurn.seekMore_eq]; rfl
  | _ => rfl

theorem active?_eq (h : Reaction p r now event t) (i : Nat) : t.pool.active? i = p.active? i := by
  rw [h.pool_eq]
  rfl

theorem cancelled_eq (h : Reaction p r now event t) : t.run.cancelled = r.cancelled := by
  cases h with
  | sought => rw [RunTurn.seekMore_eq]
  | launched => rw [RunTurn.seekMore_eq]; rfl
  | _ => rfl

theorem atRest (h : Reaction p r now event t) (hrest : r.AtRest) (houtcome : t.outcome? = none) :
    t.run.AtRest := by
  cases h with
  | reaped hfailure _ => exact ⟨hrest.not_idle, by simp [hfailure], by simp [hfailure]⟩
  | draining _ _ hleft => exact ⟨by simp, fun _ => rfl, fun _ => hleft⟩
  | rescaled _ _ =>
      exact ⟨hrest.not_idle, hrest.parked_of_failed, hrest.inFlight_of_failed⟩
  | reported => exact ⟨hrest.not_idle, hrest.parked_of_failed, hrest.inFlight_of_failed⟩
  | sought hfailure _ =>
      rw [RunTurn.seekMore_eq]
      refine ⟨?_, by simp [hfailure], by simp [hfailure]⟩
      dsimp only
      split <;> simp
  | launched hfailure _ =>
      have hstarted : ∀ t : RunTurn α, t.startOne.run.failure? = t.run.failure? := fun _ => rfl
      rw [RunTurn.seekMore_eq]
      refine ⟨?_, by simp [hstarted, hfailure], by simp [hstarted, hfailure]⟩
      dsimp only
      split <;> simp
  | resumed hfailure _ | unparked _ hfailure _ | stragglers hfailure _ | postponed hfailure _
  | overtaken hfailure _ | exhausted _ hfailure _ | awoke hfailure _ =>
      exact ⟨by simp, by simp [hfailure], by simp [hfailure]⟩
  | drained | misjudged | finished => simp at houtcome

end Reaction

end

end Run

end ElasticPool
