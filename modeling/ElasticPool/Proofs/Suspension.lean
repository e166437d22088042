import ElasticPool.Proofs.SlotAccounting
import Mathlib.Logic.ExistsUnique

namespace ElasticPool

open Journal

variable {α : Type}

theorem Budget.isSome_take [Scalar α] (b : Budget α) (now : Moment) :
    (b.take now).2.isSome = b.isSome := by
  cases b <;> rfl

namespace Pool

/-- Why a live run takes no turn of its own accord. -/
inductive Stance
  | asking
  | waiting
  /-- No more invocations may run, or all work is finished but for what is in flight. -/
  | parked
  | draining
  deriving DecidableEq, Repr

namespace Stance

def Holds (p : Pool α) (run : Run α) (j : List Entry) : Stance → Prop
  | asking => run.failure? = none ∧ run.dispatch.asking
  | waiting => run.failure? = none ∧ ∃ moment, run.dispatch = .waiting moment
  | parked => run.failure? = none ∧ run.dispatch = .parked ∧ run.inFlight ≠ [] ∧
      (p.desired ≤ p.current ∨ latestOn? .finished j = some (.answered .finished true))
  | draining => run.failure?.isSome ∧ run.dispatch = .parked ∧ run.inFlight ≠ []

def ofRun (run : Run α) : Stance :=
  if run.failure?.isSome then draining
  else
    match run.dispatch with
    | .askedFinished | .askedReady => asking
    | .waiting _ => waiting
    | .idle | .parked => parked

theorem eq_ofRun {p : Pool α} {run : Run α} {j : List Entry} {stance : Stance}
    (h : stance.Holds p run j) : stance = ofRun run := by
  cases stance with
  | asking =>
      obtain ⟨hfailure, hasking⟩ := h
      rcases hdispatch : run.dispatch <;> simp_all [ofRun, Dispatch.asking]
  | waiting =>
      obtain ⟨hfailure, moment, hwaiting⟩ := h
      simp [ofRun, hfailure, hwaiting]
  | parked =>
      obtain ⟨hfailure, hparked, -⟩ := h
      simp [ofRun, hfailure, hparked]
  | draining => simp [ofRun, h.1]

end Stance

/-- What has led a live run under the given settings to where it waits. -/
structure Poised (s : Settings) (current desired : UInt64) (run : Run α) (j : List Entry) :
    Prop where
  limited : run.budget.isSome = s.tasksPerMinute.isSome
  waiting : ∀ moment, run.dispatch = .waiting moment →
    .answered .ready false ∈ j ∨ s.tasksPerMinute.isSome
  parked : run.failure? = none → run.dispatch = .parked →
    desired ≤ current ∨
      run.inFlight ≠ [] ∧ latestOn? .finished j = some (.answered .finished true)

section

variable [Scalar α] {s : Settings} {c : ScalingConfig} {p : Pool α} {run : Run α}
  {now : Moment} {event : RunEvent} {t : RunTurn α} {j : List Entry} {steps : List (Step α)}
  {i : Nat}

theorem poised_of_reaction (hreaction : run.Reaction p now event t)
    (houtcome : t.outcome? = none) (h : Poised s p.current p.desired run j) :
    Poised s t.pool.current t.pool.desired t.run (j ++ reactionEntries run event t) := by
  obtain ⟨hlimited, hwaiting, hparked⟩ := h
  have hkept (entries : List Entry) (moment : Moment) (h : run.dispatch = .waiting moment) :
      .answered .ready false ∈ j ++ entries ∨ s.tasksPerMinute.isSome :=
    (hwaiting moment h).imp_left (List.mem_append_left _)
  cases hreaction with
  | reaped hfailure hbusy =>
      exact ⟨hlimited, hkept _, fun _ h => absurd h hbusy⟩
  | rescaled signals hbusy => exact ⟨hlimited, hkept _, fun hnone h => absurd h (hbusy hnone)⟩
  | reported signals =>
      refine ⟨hlimited, hkept _, fun hnone h => ?_⟩
      simpa [reactionEntries] using hparked hnone h
  | stragglers _ hasked hleft =>
      refine ⟨hlimited, by simp, fun _ _ => .inr ⟨hleft, ?_⟩⟩
      simp [reactionEntries, hasked, latestOn?]
  | sought _ _ =>
      rcases Decidable.em (p.current < p.desired) with hroom | hfull
      · rw [RunTurn.seekMore_of_lt _ hroom]
        exact ⟨hlimited, by simp, by simp⟩
      · have hfull : p.desired ≤ p.current := UInt64.not_lt.mp hfull
        rw [RunTurn.seekMore_of_le _ hfull]
        exact ⟨hlimited, by simp, fun _ _ => .inl hfull⟩
  | postponed _ hasked =>
      refine ⟨hlimited, fun _ _ => .inl ?_, by simp⟩
      simp [reactionEntries, hasked]
  | overtaken _ _ hfull => exact ⟨hlimited, by simp, fun _ _ => .inl hfull⟩
  | @exhausted wait budget _ _ _ _ hbudget =>
      -- Only a ceiling on the rate refuses a start.
      have hlimit : s.tasksPerMinute.isSome := by
        rcases hnone : run.budget with _ | bucket
        · simp [hnone] at hbudget
        · rw [← hlimited, hnone]
          rfl
      have hafter : budget.isSome = run.budget.isSome := by
        rw [← run.budget.isSome_take now, hbudget]
      exact ⟨hafter.trans hlimited, fun _ _ => .inr hlimit, by simp⟩
  | @launched budget _ _ _ hbudget =>
      have hafter : budget.isSome = run.budget.isSome := by
        rw [← run.budget.isSome_take now, hbudget]
      let started : RunTurn α := ({ pool := p, run := { run with budget } } : RunTurn α).startOne
      rcases Decidable.em (p.current + 1 < p.desired) with hroom | hfull
      · rw [RunTurn.seekMore_of_lt started hroom]
        exact ⟨hafter.trans hlimited, by simp, by simp⟩
      · have hfull : p.desired ≤ p.current + 1 := UInt64.not_lt.mp hfull
        rw [RunTurn.seekMore_of_le started hfull]
        exact ⟨hafter.trans hlimited, by simp, fun _ _ => .inl hfull⟩
  | drained | misjudged | finished => simp at houtcome
  | resumed | draining | unparked | awoke => exact ⟨hlimited, by simp, by simp⟩

theorem poised_of_execution (h : Execution (fresh s c) steps p)
    (hactive : p.active? i = some run) (hlive : run.cancelled = false) :
    Poised s p.current p.desired run (journal i steps) := by
  refine live_induction (Poised s) (fun now => ⟨?_, ?_, ?_⟩) ?_ h hactive hlive
  · simp [opening, Run.fresh, fresh, Budget.full]
  · simp [opening]
  · simp [opening]
  · intro p run now event t j _ _ _ _ hreaction houtcome hpoised
    exact poised_of_reaction hreaction houtcome hpoised

def Suspended (p : Pool α) (i : Nat) (now : Moment) (come : RunEvent → Prop) : Prop :=
  ∀ sampling event?, (∀ event ∈ event?, come event) → p.turn i now sampling event? = none

def plenty : Question → Bool
  | .finished => false
  | .ready => true

/-- The predicates have given these answers so far, and they answer at once. -/
structure Plentiful (run : Run α) (j : List Entry) (come : RunEvent → Prop) : Prop where
  answered_eq : ∀ question yes, .answered question yes ∈ j → yes = plenty question
  prompt : ∀ question, run.dispatch.question? = some question →
    come (.answered (plenty question))

theorem turn_ne_none_of_admits (hactive : p.active? i = some run) (hlive : run.cancelled = false)
    (hadmits : run.Admits now event) (hfits : p.overflows event = false) (sampling : Bool) :
    p.turn i now sampling (some event) ≠ none := by
  have hcall : p.calls[i]? = some (.active run) := (p.active?_eq_some_iff).mp hactive
  simp [turn, hcall, hlive, hadmits, hfits]

theorem suspended_of_nothing (hactive : p.active? i = some run) (hlive : run.cancelled = false)
    (now : Moment) : p.Suspended i now fun _ => False := by
  intro sampling event? hcome
  have hcall : p.calls[i]? = some (.active run) := (p.active?_eq_some_iff).mp hactive
  cases event? with
  | none => simp [turn, hcall, hlive]
  | some event => exact (hcome event rfl).elim

theorem not_asking_of_suspended {come : RunEvent → Prop} (hactive : p.active? i = some run)
    (hlive : run.cancelled = false) (hsuspended : p.Suspended i now come)
    (hplentiful : Plentiful run j come) : ¬run.dispatch.asking := by
  intro hasking
  obtain ⟨question, hquestion⟩ : ∃ question, run.dispatch.question? = some question := by
    rcases hdispatch : run.dispatch <;> simp_all [Dispatch.asking]
  have hcome : come (.answered (plenty question)) := hplentiful.prompt question hquestion
  have hadmits : run.Admits now (.answered (plenty question)) := hasking
  apply turn_ne_none_of_admits hactive hlive hadmits rfl false
  apply hsuspended
  simpa using hcome

theorem holds_ofRun (h : Execution (fresh s c) steps p) (hactive : p.active? i = some run)
    (hlive : run.cancelled = false) : (Stance.ofRun run).Holds p run (journal i steps) := by
  have hrest := atRest_of_execution h hactive
  have hbalanced := balanced_of_execution h hactive hlive
  have hpoised := poised_of_execution h hactive hlive
  cases hfailure : run.failure? with
  | some cause =>
      have hfailed : run.failure?.isSome := by simp [hfailure]
      simpa [Stance.ofRun, hfailure, Stance.Holds] using
        ⟨hrest.parked_of_failed hfailed, hrest.inFlight_of_failed hfailed⟩
  | none =>
      rcases hdispatch : run.dispatch with _ | _ | _ | moment | _
      case idle => exact absurd hdispatch hrest.not_idle
      case parked =>
        rcases hpoised.parked hfailure hdispatch with hfull | ⟨hleft, hfinished⟩
        · have hinFlight : run.inFlight ≠ [] := hbalanced.inFlight_ne_nil hfull
          simpa [Stance.ofRun, hfailure, hdispatch, Stance.Holds] using ⟨hinFlight, .inl hfull⟩
        · simpa [Stance.ofRun, hfailure, hdispatch, Stance.Holds] using ⟨hleft, .inr hfinished⟩
      all_goals simp [Stance.ofRun, hfailure, hdispatch, Stance.Holds, Dispatch.asking]

/-- A live run asks, waits for a moment, has no room or drains, and nothing else.  So it
always waits for more than the periodic ticks.  While work is plentiful and its rate is not
limited, a run without a failure is suspended only at the desired concurrency. -/
theorem existsUnique_stance (h : Execution (fresh s c) steps p) (hactive : p.active? i = some run)
    (hlive : run.cancelled = false) :
    (∃! stance : Stance, stance.Holds p run (journal i steps)) ∧
    run.dispatch ≠ .idle ∧
    (run.dispatch.asking ∨ (∃ moment, run.dispatch = .waiting moment) ∨ run.inFlight ≠ []) ∧
    ∀ now come, p.Suspended i now come → Plentiful run (journal i steps) come →
      s.tasksPerMinute = none → run.failure? = none → p.desired ≤ p.current := by
  have hholds := holds_ofRun h hactive hlive
  refine ⟨⟨Stance.ofRun run, hholds, fun other hother => Stance.eq_ofRun hother⟩, ?_, ?_, ?_⟩
  · exact (atRest_of_execution h hactive).not_idle
  · generalize Stance.ofRun run = stance at hholds
    cases stance with
    | asking => exact .inl hholds.2
    | waiting => exact .inr (.inl hholds.2)
    | parked => exact .inr (.inr hholds.2.2.1)
    | draining => exact .inr (.inr hholds.2.2)
  -- Predicates that answer at once leave no question open, and with plenty of work neither a no
  -- nor a last yes has been told.
  · intro now come hsuspended hplentiful hunlimited hfailure
    have hpoised := poised_of_execution h hactive hlive
    generalize Stance.ofRun run = stance at hholds
    cases stance with
    | asking =>
        exact absurd hholds.2 (not_asking_of_suspended hactive hlive hsuspended hplentiful)
    | waiting =>
        obtain ⟨-, moment, hwaiting⟩ := hholds
        rcases hpoised.waiting moment hwaiting with hpostponed | hlimited
        · exact absurd (hplentiful.answered_eq .ready false hpostponed) (by simp [plenty])
        · simp [hunlimited] at hlimited
    | parked =>
        obtain ⟨-, -, -, hfull | hfinished⟩ := hholds
        · exact hfull
        · have hmem : .answered .finished true ∈ journal i steps :=
            mem_of_latestOn?_eq hfinished
          exact absurd (hplentiful.answered_eq .finished true hmem) (by simp [plenty])
    | draining => simp [Stance.Holds, hfailure] at hholds

/-- With work for both places, the run is suspended once both are taken. -/
theorem existsUnique_stance_of_pair : ∃ steps, ∃ p : Pool Float, ∃ run,
    Execution (fresh .pair {}) steps p ∧ p.active? 0 = some run ∧ run.cancelled = false ∧
      p.Suspended 0 ⟨0⟩ (fun _ => False) ∧
      Plentiful run (journal 0 steps) (fun _ => False) ∧
      Settings.pair.tasksPerMinute = none ∧ run.failure? = none ∧ p.desired ≤ p.current := by
  let moves : List Move := [.call, .enter, .answer false, .answer true, .answer true]
  obtain ⟨steps, p, hplay, run, hactive, hlive, hparked, hfailure, hjournal⟩ :
      ∃ steps, ∃ p : Pool Float, (fresh .pair {}).play moves = some (steps, p) ∧
        ∃ run, p.active? 0 = some run ∧ run.cancelled = false ∧ run.dispatch = .parked ∧
          run.failure? = none ∧ journal 0 steps = [.asked .finished, .answered .finished false,
            .asked .ready, .answered .ready true, .started 0, .asked .ready,
            .answered .ready true, .started 1] :=
    ⟨_, _, rfl, _, rfl, rfl, rfl, rfl, rfl⟩
  have h := execution_of_play hplay
  have hsuspended := suspended_of_nothing hactive hlive ⟨0⟩
  have hplentiful : Plentiful run (journal 0 steps) fun _ => False :=
    ⟨by rintro (_ | _) yes hmem <;> simp_all [plenty], by simp [hparked]⟩
  exact ⟨steps, p, run, h, hactive, hlive, hsuspended, hplentiful, rfl, hfailure,
    (existsUnique_stance h hactive hlive).2.2.2 ⟨0⟩ _ hsuspended hplentiful rfl hfailure⟩

/-- After a failure the run is suspended below the desired concurrency while the other
invocation is in flight. -/
theorem current_lt_desired_of_draining : ∃ steps, ∃ p : Pool Float, ∃ run,
    Execution (fresh .pair {}) steps p ∧ p.active? 0 = some run ∧ run.cancelled = false ∧
      p.Suspended 0 ⟨0⟩ (fun _ => False) ∧
      Plentiful run (journal 0 steps) (fun _ => False) ∧
      Settings.pair.tasksPerMinute = none ∧ p.current < p.desired := by
  let moves : List Move := [.call, .enter, .answer false, .answer true, .answer true,
    .join 0 (.error "boom")]
  obtain ⟨steps, p, hplay, run, hactive, hlive, hparked, hcurrent, hdesired, hjournal⟩ :
      ∃ steps, ∃ p : Pool Float, (fresh .pair {}).play moves = some (steps, p) ∧
        ∃ run, p.active? 0 = some run ∧ run.cancelled = false ∧ run.dispatch = .parked ∧
          p.current = 1 ∧ p.desired = 2 ∧ journal 0 steps = [.asked .finished,
            .answered .finished false, .asked .ready, .answered .ready true, .started 0,
            .asked .ready, .answered .ready true, .started 1, .joined 0 (.error "boom")] :=
    ⟨_, _, rfl, _, rfl, rfl, rfl, rfl, rfl, rfl⟩
  have hplentiful : Plentiful run (journal 0 steps) fun _ => False :=
    ⟨by rintro (_ | _) yes hmem <;> simp_all [plenty], by simp [hparked]⟩
  refine ⟨steps, p, run, execution_of_play hplay, hactive, hlive,
    suspended_of_nothing hactive hlive ⟨0⟩, hplentiful, rfl, ?_⟩
  rw [hcurrent, hdesired]
  decide

end

end Pool

end ElasticPool
