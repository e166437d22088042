import ElasticPool.Proofs.FailureFate

namespace ElasticPool

open Journal

variable {α : Type}

namespace Pool

section

variable [Scalar α] {s : Settings} {c : ScalingConfig} {p q : Pool α} {run : Run α}
  {now : Moment} {event : RunEvent} {t : RunTurn α} {i : Nat} {m : Move}
  {effects : List Effect} {steps : List (Step α)} {cause : String}

/-- The run of a call is neither aborted nor given up, and its load can always be told. -/
structure Undisturbed (i : Nat) (steps : List (Step α)) : Prop where
  not_aborted : ∀ e ∈ steps, e.before.active? i ≠ none → e.move ≠ .abort
  not_dropped : ∀ e ∈ steps, e.before.active? i ≠ none → e.move ≠ .drop i
  evaluated : ∀ fault, .evaluated (.error fault) ∉ journal i steps

omit [Scalar α] in
theorem Undisturbed.leftAlone (h : Undisturbed i steps) : LeftAlone i steps :=
  ⟨h.not_aborted, h.not_dropped⟩

theorem ended_of_undisturbed (h : Execution (fresh s c) steps p)
    (hmove : p.move? m = some (q, effects))
    (hundisturbed : Undisturbed i (steps ++ [⟨p, m, effects, q⟩]))
    (hcause : firstError? (journal i (steps ++ [⟨p, m, effects, q⟩])) = some cause)
    (hactive : p.active? i = some run) (hafter : q.active? i = none) :
    q.calls[i]? = some (.ended (.error (.taskFailed cause))) ∧ q.phase = .failed ∧
      AllJoined (journal i (steps ++ [⟨p, m, effects, q⟩])) := by
  obtain ⟨hfate, hphase⟩ :=
    fate_of_ended h hmove hundisturbed.leftAlone hcause hactive hafter
  rcases hfate.of_judged hundisturbed.evaluated with ⟨run', hrun⟩ | ⟨hcall, hjoined⟩
  · simp [hafter] at hrun
  · exact ⟨hcall, hphase, hjoined⟩

theorem active_or_ended_of_undisturbed (h : Execution (fresh s c) steps p)
    (hundisturbed : Undisturbed i steps) (hcause : firstError? (journal i steps) = some cause) :
    (∃ run, p.active? i = some run) ∨
      p.calls[i]? = some (.ended (.error (.taskFailed cause))) ∧ AllJoined (journal i steps) :=
  (fate_of_execution h hundisturbed.leftAlone hcause).of_judged hundisturbed.evaluated

theorem quiet_of_part (h : Execution (fresh s c) steps p) (hpart : Part p i m effects q)
    (hcause : firstError? (journal i steps ++ (⟨p, m, effects, q⟩ : Step α).entries i) =
      some cause) :
    ∀ entry ∈ (⟨p, m, effects, q⟩ : Step α).entries i,
      entry.question? = none ∧ entry.started? = none := by
  cases hpart with
  | bystander hentries _ _ => simp [hentries]
  | begun hcall => simp [entries_begun hcall, journal_of_unbegun h (.inr hcall)] at hcause
  | moved hactive hlive _ hreaction _ =>
      rw [entries_of_taken hactive hlive] at hcause ⊢
      exact (drains_of_turn h hactive hreaction hcause).quiet
  | @ended _ _ event run t _ hactive hlive _ hreaction _ =>
      rw [entries_ended hactive hlive] at hcause ⊢
      have hknown : firstError? (journal i steps ++ reactionEntries run event t) =
          some cause := by
        simpa using hcause
      intro entry hmem
      rcases List.mem_append.mp hmem with hreacted | hcancelled
      · exact (drains_of_turn h hactive hreaction hknown).quiet entry hreacted
      · obtain rfl : entry = .cancelled t.run.inFlight := by simpa using hcancelled
        exact ⟨rfl, rfl⟩
  | left hactive hcancelled => simp [entries_left hactive hcancelled]
  | aborted _ => simp [Step.entries, Move.call?]
  | @dropped run _ => simp [entries_dropped run]

theorem shrinks_of_part {run' : Run α} (h : Execution (fresh s c) steps p)
    (hpart : Part p i m effects q)
    (hcause : firstError? (journal i steps ++ (⟨p, m, effects, q⟩ : Step α).entries i) =
      some cause)
    (hactive : p.active? i = some run) (hafter : q.active? i = some run') :
    run'.inFlight.Sublist run.inFlight ∧ run'.started = run.started := by
  have hcontinues := continues_of_part hpart hafter
  generalize (⟨p, m, effects, q⟩ : Step α).entries i = entries at hcontinues hcause
  generalize q.current = current, q.desired = desired at hcontinues
  cases hcontinues with
  | kept hactive' =>
      obtain rfl := Option.some.inj (hactive'.symm.trans hactive)
      exact ⟨.refl _, rfl⟩
  | begun hcall => simp [active?, hcall] at hactive
  | moved hactive' _ _ hreaction _ =>
      obtain rfl := Option.some.inj (hactive'.symm.trans hactive)
      have hdrains := drains_of_turn h hactive hreaction hcause
      exact ⟨hdrains.sublist, hdrains.started_eq⟩
  | cancelled hactive' =>
      obtain rfl := Option.some.inj (hactive'.symm.trans hactive)
      exact ⟨.refl _, rfl⟩

theorem active_iff_of_undisturbed (h : Execution (fresh s c) steps p)
    (hundisturbed : Undisturbed i steps) (hcause : firstError? (journal i steps) = some cause) :
    (∃ run, p.active? i = some run) ↔
      ∃ k, .started k ∈ journal i steps ∧ ∀ result, .joined k result ∉ journal i steps := by
  constructor
  · rintro ⟨run, hactive⟩
    have hbalanced :=
      balanced_of_execution h hactive (live_of_leftAlone h hundisturbed.leftAlone hactive)
    have hleft : run.inFlight ≠ [] := inFlight_ne_nil_of_cause h hactive hcause
    obtain ⟨k, hmem⟩ := List.exists_mem_of_ne_nil _ hleft
    exact ⟨k, (hbalanced.mem_inFlight k).mp hmem⟩
  · rintro ⟨k, hstarted, hopen⟩
    rcases active_or_ended_of_undisturbed h hundisturbed hcause with hactive | ⟨-, hjoined⟩
    · exact hactive
    · obtain ⟨result, hmem⟩ := hjoined k hstarted
      exact absurd hmem (hopen result)

/-- From the turn that joins the first failing invocation on, a run asks and starts nothing
and is told no answer, what it has in flight only shrinks, and it keeps that first error.
Undisturbed, it is active as long as something it has started has not been joined, and it
ends with that error. -/
theorem first_failure_drains {earlier later : List (Step α)} {e : Step α}
    (h : Execution (fresh s c) (earlier ++ e :: later) p)
    (hcause : firstError? (journal i (earlier ++ [e])) = some cause) :
    (∀ entry ∈ e.entries i, entry.question? = none ∧ entry.started? = none) ∧
    (∀ run, e.after.active? i = some run →
      run.failure? = some cause ∧ run.dispatch = .parked ∧ run.inFlight ≠ []) ∧
    (∀ run run', e.before.active? i = some run → e.after.active? i = some run' →
      run'.inFlight.Sublist run.inFlight ∧ run'.started = run.started) ∧
    (Undisturbed i (earlier ++ [e]) →
      ((∃ run, e.after.active? i = some run) ↔ ∃ k, .started k ∈ journal i (earlier ++ [e]) ∧
        ∀ result, .joined k result ∉ journal i (earlier ++ [e])) ∧
      (e.after.active? i = none →
        e.after.calls[i]? = some (.ended (.error (.taskFailed cause)))) ∧
      ((∃ run, e.before.active? i = some run) → e.after.active? i = none →
        e.after.phase = .failed)) := by
  obtain ⟨hbefore, hmove⟩ := h.of_append_cons
  have hafter : Execution (fresh s c) (earlier ++ [e]) e.after := hbefore.next hmove
  have hpart := part_of_execution hbefore hmove i
  have hknown : firstError? (journal i earlier ++ e.entries i) = some cause := by
    simpa using hcause
  refine ⟨quiet_of_part hbefore hpart hknown, ?_,
    fun run run' => shrinks_of_part hbefore hpart hknown,
    fun hundisturbed => ⟨active_iff_of_undisturbed hafter hundisturbed hcause, ?_, ?_⟩⟩
  · intro run hactive
    have hrest := atRest_of_execution hafter hactive
    have hfailure : run.failure? = some cause :=
      (remembers_of_execution hafter hactive).failure?_eq.trans hcause
    exact ⟨hfailure, hrest.parked_of_failed (by simp [hfailure]),
      hrest.inFlight_of_failed (by simp [hfailure])⟩
  · intro hinactive
    rcases active_or_ended_of_undisturbed hafter hundisturbed hcause with ⟨run, hrun⟩ | hended
    · simp [hinactive] at hrun
    · exact hended.1
  · rintro ⟨run, hactive⟩ hinactive
    exact (ended_of_undisturbed hbefore hmove hundisturbed hcause hactive hinactive).2.1

/-- Both invocations fail, and the run ends with the error that was joined first. -/
theorem first_failure_drains_of_pair : ∃ earlier, ∃ e : Step Float,
    Execution (fresh .pair {}) (earlier ++ [e]) e.after ∧
      firstError? (journal 0 (earlier ++ [e])) = some "boom" ∧ Undisturbed 0 (earlier ++ [e]) ∧
      .joined 1 (.error "late") ∈ e.entries 0 ∧
      e.after.calls[0]? = some (.ended (.error (.taskFailed "boom"))) ∧
      e.after.phase = .failed := by
  let moves : List Move := [.call, .enter, .answer false, .answer true, .answer true,
    .join 0 (.error "boom")]
  obtain ⟨earlier, p, hplay, q, effects, hmove, hactive, hinactive, hmoves, hjournal, hentries⟩ :
      ∃ earlier, ∃ p : Pool Float, (fresh .pair {}).play moves = some (earlier, p) ∧
        ∃ q effects, p.move? (.join 1 (.error "late")) = some (q, effects) ∧
          (p.active? 0).isSome ∧ q.active? 0 = none ∧ earlier.map (·.move) = moves ∧
          journal 0 earlier = [.asked .finished, .answered .finished false, .asked .ready,
            .answered .ready true, .started 0, .asked .ready, .answered .ready true, .started 1,
            .joined 0 (.error "boom")] ∧
          (⟨p, .join 1 (.error "late"), effects, q⟩ : Step Float).entries 0 =
            [.joined 1 (.error "late"), .cancelled []] :=
    ⟨_, _, rfl, _, _, rfl, rfl, rfl, rfl, rfl, rfl⟩
  let e : Step Float := ⟨p, .join 1 (.error "late"), effects, q⟩
  have h : Execution (fresh .pair {}) (earlier ++ [e]) q := (execution_of_play hplay).next hmove
  have hcause : firstError? (journal 0 (earlier ++ [e])) = some "boom" := by
    simp [hjournal]
  have hturns : ∀ e' ∈ earlier ++ [e], e'.move ∈ moves ++ [.join 1 (.error "late")] := by
    intro e' hmem
    have hmapped := List.mem_map_of_mem (f := (·.move)) hmem
    rw [List.map_append, hmoves] at hmapped
    exact hmapped
  have hundisturbed : Undisturbed 0 (earlier ++ [e]) := by
    refine ⟨fun e' hmem _ habort => ?_, fun e' hmem _ hdrop => ?_,
      by simp [hjournal, hentries, e]⟩
    · have hmove := hturns e' hmem
      simp [habort, moves, Move.enter, Move.answer, Move.join] at hmove
    · have hmove := hturns e' hmem
      simp [hdrop, moves, Move.enter, Move.answer, Move.join] at hmove
  have hdrains := (first_failure_drains h hcause).2.2.2 hundisturbed
  exact ⟨earlier, e, h, hcause, hundisturbed, by simp [e, hentries], hdrains.2.1 hinactive,
    hdrains.2.2 (Option.isSome_iff_exists.mp hactive) hinactive⟩

end

end Pool

end ElasticPool
