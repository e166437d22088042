import ElasticPool.Proofs.SlotAccounting
import ElasticPool.Proofs.RunMemory

namespace ElasticPool

open Journal

variable {α : Type}

namespace Pool

/-- What becomes of a run in a turn at which its first error is known. -/
structure Drains (cause : String) (run : Run α) (t : RunTurn α) (entries : List Entry) :
    Prop where
  quiet : ∀ entry ∈ entries, entry.question? = none ∧ entry.started? = none
  failure?_eq : t.run.failure? = some cause
  parked : t.run.dispatch = .parked
  sublist : t.run.inFlight.Sublist run.inFlight
  started_eq : t.run.started = run.started
  outcome : t.outcome? = none ∧ t.run.inFlight ≠ [] ∨
    t.outcome? = some (.taskFailed cause) ∧ t.run.inFlight = [] ∨
    ∃ fault, t.outcome? = some (.evaluationFailed fault) ∧ .evaluated (.error fault) ∈ entries

/-- The run of a call is neither aborted nor given up. -/
structure LeftAlone (i : Nat) (steps : List (Step α)) : Prop where
  not_aborted : ∀ e ∈ steps, e.before.active? i ≠ none → e.move ≠ .abort
  not_dropped : ∀ e ∈ steps, e.before.active? i ≠ none → e.move ≠ .drop i

namespace LeftAlone

variable {i : Nat} {steps later : List (Step α)} {e : Step α} {run : Run α}

theorem of_append (h : LeftAlone i (steps ++ later)) : LeftAlone i steps where
  not_aborted e hmem := h.not_aborted e (List.mem_append_left _ hmem)
  not_dropped e hmem := h.not_dropped e (List.mem_append_left _ hmem)

theorem last (h : LeftAlone i (steps ++ [e])) (hactive : e.before.active? i = some run) :
    e.move ≠ .abort ∧ e.move ≠ .drop i := by
  have hmem : e ∈ steps ++ [e] := by simp
  exact ⟨h.not_aborted e hmem (by simp [hactive]), h.not_dropped e hmem (by simp [hactive])⟩

end LeftAlone

def Judged (j : List Entry) : Prop := ∀ fault, .evaluated (.error fault) ∉ j

def AllJoined (j : List Entry) : Prop := ∀ k, .started k ∈ j → ∃ result, .joined k result ∈ j

theorem Judged.concat {j : List Entry} (h : Judged j) (left : List Nat) :
    Judged (j ++ [.cancelled left]) := by
  simpa [Judged] using h

theorem AllJoined.concat {j : List Entry} (h : AllJoined j) (left : List Nat) :
    AllJoined (j ++ [.cancelled left]) := by
  simpa [AllJoined] using h

theorem Balanced.allJoined_iff {s : Settings} {current desired : UInt64} {run : Run α}
    {j : List Entry} (h : Balanced s current desired run j) :
    AllJoined j ↔ run.inFlight = [] := by
  constructor
  · intro hjoined
    refine List.eq_nil_iff_forall_not_mem.mpr fun k hmem => ?_
    obtain ⟨hstarted, hopen⟩ := (h.mem_inFlight k).mp hmem
    obtain ⟨result, hmem⟩ := hjoined k hstarted
    exact hopen result hmem
  · intro hempty k hstarted
    have hnot : k ∉ run.inFlight := by simp [hempty]
    rw [h.mem_inFlight] at hnot
    exact Classical.not_forall_not.mp fun hopen => hnot ⟨hstarted, hopen⟩

/-- What has become of a call with the given journal, whose run has met a first error and been
left alone. -/
inductive Fate (cause : String) (p : Pool α) (i : Nat) (j : List Entry) : Prop
  | draining {run : Run α} (hactive : p.active? i = some run) (hjudged : Judged j)
      (hopen : ¬AllJoined j)
  | failed (hcall : p.calls[i]? = some (.ended (.error (.taskFailed cause))))
      (hjudged : Judged j) (hjoined : AllJoined j)
  /-- Some invocations were left when the load could not be told. -/
  | misjudged {fault : RecorderFault} {before : List Entry} {left : List Nat}
      (hcall : p.calls[i]? = some (.ended (.error (.recorder fault))))
      (hjournal : j = before ++ [.evaluated (.error fault), .cancelled left])
      (hjudged : Judged before) (hcause : firstError? before = some cause) (hleft : left ≠ [])

theorem Fate.of_judged {cause : String} {p : Pool α} {i : Nat} {j : List Entry}
    (h : Fate cause p i j) (hjudged : Judged j) :
    (∃ run, p.active? i = some run) ∨
      p.calls[i]? = some (.ended (.error (.taskFailed cause))) ∧ AllJoined j := by
  cases h with
  | draining hactive _ _ => exact .inl ⟨_, hactive⟩
  | failed hcall _ hjoined => exact .inr ⟨hcall, hjoined⟩
  | @misjudged fault _ _ _ hjournal _ _ _ => exact absurd (by simp [hjournal]) (hjudged fault)

section

variable [Scalar α] {s : Settings} {c : ScalingConfig} {p q : Pool α} {run : Run α}
  {now : Moment} {event : RunEvent} {t : RunTurn α} {i : Nat} {m : Move}
  {effects : List Effect} {steps : List (Step α)} {cause : String}

theorem drains_of_reaction (hrest : run.AtRest) (hreaction : run.Reaction p now event t)
    (hcause : run.failure?.or (firstError? (reactionEntries run event t)) = some cause) :
    Drains cause run t (reactionEntries run event t) := by
  -- An error is known before the turn or joined in it, which leaves two reactions to an
  -- invocation and the ticks.
  have hparked (hfailure : run.failure? = some cause) :
      run.dispatch = .parked ∧ run.inFlight ≠ [] :=
    ⟨hrest.parked_of_failed (by simp [hfailure]), hrest.inFlight_of_failed (by simp [hfailure])⟩
  cases hreaction with
  | @draining k result known signals hknown hleft =>
      rw [reactionEntries_joined signals rfl] at hcause ⊢
      rw [firstError?_cons, firstError?_nil, Option.or_none, hknown] at hcause
      obtain rfl := Option.some.inj hcause
      exact ⟨by simp, rfl, rfl, List.erase_sublist, rfl, .inl ⟨rfl, hleft⟩⟩
  | @drained k result known signals hknown hlast =>
      rw [reactionEntries_joined signals rfl] at hcause ⊢
      rw [firstError?_cons, firstError?_nil, Option.or_none, hknown] at hcause
      obtain rfl := Option.some.inj hcause
      exact ⟨by simp, rfl, rfl, List.erase_sublist, rfl, .inr (.inl ⟨rfl, hlast⟩)⟩
  | rescaled signals _ =>
      have hfailure : run.failure? = some cause := by simpa [reactionEntries] using hcause
      obtain ⟨hdispatch, hleft⟩ := hparked hfailure
      exact ⟨by simp [reactionEntries], hfailure, hdispatch, .refl _, rfl, .inl ⟨rfl, hleft⟩⟩
  | @misjudged fault =>
      have hfailure : run.failure? = some cause := by simpa [reactionEntries] using hcause
      obtain ⟨hdispatch, -⟩ := hparked hfailure
      exact ⟨by simp [reactionEntries], hfailure, hdispatch, .refl _, rfl,
        .inr (.inr ⟨fault, rfl, by simp [reactionEntries]⟩)⟩
  | reported signals =>
      have hfailure : run.failure? = some cause := by simpa [reactionEntries] using hcause
      obtain ⟨hdispatch, hleft⟩ := hparked hfailure
      exact ⟨by simp [reactionEntries], hfailure, hdispatch, .refl _, rfl, .inl ⟨rfl, hleft⟩⟩
  | sought hnone hasked =>
      rw [reactionEntries_sought hasked, hnone] at hcause
      split at hcause <;> simp at hcause
  | launched hnone hasked _ _ =>
      rw [reactionEntries_launched hasked, hnone] at hcause
      split at hcause <;> simp at hcause
  | _ => simp_all [reactionEntries]

theorem drains_of_turn (h : Execution (fresh s c) steps p) (hactive : p.active? i = some run)
    (hreaction : run.Reaction p now event t)
    (hcause : firstError? (journal i steps ++ reactionEntries run event t) = some cause) :
    Drains cause run t (reactionEntries run event t) := by
  apply drains_of_reaction (atRest_of_execution h hactive) hreaction
  rw [(remembers_of_execution h hactive).failure?_eq, ← firstError?_append, hcause]

theorem inFlight_ne_nil_of_cause (h : Execution (fresh s c) steps p)
    (hactive : p.active? i = some run) (hcause : firstError? (journal i steps) = some cause) :
    run.inFlight ≠ [] := by
  have hfailure := (remembers_of_execution h hactive).failure?_eq.trans hcause
  exact (atRest_of_execution h hactive).inFlight_of_failed (by simp [hfailure])

theorem live_of_leftAlone (h : Execution (fresh s c) steps p) (halone : LeftAlone i steps)
    (hactive : p.active? i = some run) : run.cancelled = false := by
  induction h generalizing run with
  | start => simp [active?, fresh] at hactive
  | @next steps before after m effects hbefore hmove ih =>
      have hpart := part_of_execution hbefore hmove i
      have hcontinues := continues_of_part hpart hactive
      generalize (⟨before, m, effects, after⟩ : Step α).entries i = entries at hcontinues
      generalize after.current = current, after.desired = desired at hcontinues
      cases hcontinues with
      | kept hearlier => exact ih halone.of_append hearlier
      | begun _ => rfl
      | moved _ hlive _ hreaction _ => exact hreaction.cancelled_eq.trans hlive
      | cancelled hearlier => exact absurd rfl (halone.last hearlier).1

theorem misjudged_of_evaluated {fault : RecorderFault} (hreaction : run.Reaction p now event t)
    (hmem : .evaluated (.error fault) ∈ reactionEntries run event t) :
    t.outcome? = some (.evaluationFailed fault) := by
  cases hreaction with
  | misjudged => simpa [reactionEntries, eq_comm] using hmem
  | sought _ hasked =>
      rw [reactionEntries_sought hasked] at hmem
      split at hmem <;> simp at hmem
  | launched _ hasked _ _ =>
      rw [reactionEntries_launched hasked] at hmem
      split at hmem <;> simp at hmem
  | _ => simp_all [reactionEntries]

theorem reactionEntries_of_misjudged {fault : RecorderFault}
    (hreaction : run.Reaction p now event t)
    (houtcome : t.outcome? = some (.evaluationFailed fault)) :
    reactionEntries run event t = [.evaluated (.error fault)] ∧
      t.run.inFlight = run.inFlight := by
  cases hreaction with
  | misjudged =>
      obtain rfl := Outcome.evaluationFailed.inj (Option.some.inj houtcome)
      exact ⟨rfl, rfl⟩
  | _ => simp at houtcome

theorem judged_of_active (h : Execution (fresh s c) steps p) (hactive : p.active? i = some run) :
    Judged (journal i steps) := by
  obtain ⟨_, _, hjudged, -⟩ := active_induction (fun _ _ _ => Judged) (fun now fault => by simp)
    (fun _ _ _ _ hreaction houtcome hjudged fault hmem => by
      rcases List.mem_append.mp hmem with hold | hnew
      · exact hjudged fault hold
      · simp [misjudged_of_evaluated hreaction hnew] at houtcome) h hactive
  exact hjudged

theorem firstError?_of_inactive (hpart : Part p i m effects q) (hinactive : p.active? i = none) :
    firstError? ((⟨p, m, effects, q⟩ : Step α).entries i) = none := by
  cases hpart with
  | bystander hentries _ _ => rw [hentries, firstError?_nil]
  | begun hcall => simp [entries_begun hcall]
  | moved hactive _ _ _ _ | ended hactive _ _ _ _ | left hactive _ | aborted hactive
  | dropped hactive => simp [hinactive] at hactive

theorem fate_of_ended (h : Execution (fresh s c) steps p)
    (hmove : p.move? m = some (q, effects))
    (halone : LeftAlone i (steps ++ [⟨p, m, effects, q⟩]))
    (hcause : firstError? (journal i (steps ++ [⟨p, m, effects, q⟩])) = some cause)
    (hactive : p.active? i = some run) (hafter : q.active? i = none) :
    Fate cause q i (journal i (steps ++ [⟨p, m, effects, q⟩])) ∧ q.phase = .failed := by
  have hlive := live_of_leftAlone h halone.of_append hactive
  have hjudged := judged_of_active h hactive
  have hstops := stops_of_part (part_of_execution h hmove i) hactive hafter
  rw [journal_append, journal_singleton] at hcause ⊢
  generalize (⟨p, m, effects, q⟩ : Step α).entries i = entries at hstops hcause ⊢
  cases hstops with
  | left hcancelled => simp [hlive] at hcancelled
  | dropped => exact absurd rfl (halone.last hactive).2
  | @ended now sampling event t outcome _ hadmits hreaction houtcome =>
      have hended := call_leave_self (call_of_reaction hactive hreaction) t.run outcome
      have hknown : firstError? (journal i steps ++ reactionEntries run event t) =
          some cause := by
        simpa using hcause
      have hbalanced := balanced_of_reaction (settings_of_execution h).1 hadmits hreaction
        (balanced_of_execution h hactive hlive)
      rw [phase_leave, ← List.append_assoc]
      -- The turn has drained the run, or it could not tell the load.
      rcases (drains_of_turn h hactive hreaction hknown).outcome with
        ⟨hnone, -⟩ | ⟨hfailed, hempty⟩ | ⟨fault, hfault, -⟩
      · simp [hnone] at houtcome
      · obtain rfl := Option.some.inj (hfailed.symm.trans houtcome)
        have htold : Judged (journal i steps ++ reactionEntries run event t) := by
          intro fault hmem
          rcases List.mem_append.mp hmem with hold | hnew
          · exact hjudged fault hold
          · simp [misjudged_of_evaluated hreaction hnew] at hfailed
        exact ⟨.failed hended (htold.concat _)
          ((hbalanced.allJoined_iff.mpr hempty).concat _), rfl⟩
      · obtain rfl := Option.some.inj (hfault.symm.trans houtcome)
        obtain ⟨hentries, hsame⟩ := reactionEntries_of_misjudged hreaction hfault
        rw [hentries] at hknown ⊢
        have hcause' : firstError? (journal i steps) = some cause := by simpa using hknown
        have hleft : t.run.inFlight ≠ [] := by
          rw [hsame]
          exact inFlight_ne_nil_of_cause h hactive hcause'
        exact ⟨.misjudged hended (List.append_assoc _ _ _) hjudged hcause' hleft, rfl⟩

/-- A call that is over keeps its fate, and nothing more is seen of it. -/
theorem Fate.of_transition {j : List Entry} (hfate : Fate cause p i j)
    (hinactive : p.active? i = none) (htransition : Transition p m q effects) :
    Fate cause q i (j ++ (⟨p, m, effects, q⟩ : Step α).entries i) := by
  cases hfate with
  | draining hactive _ _ => simp [hinactive] at hactive
  | failed hcall hjudged hjoined =>
      obtain ⟨hkept, hentries⟩ := settled_of_transition htransition hcall rfl (by simp)
      rw [hentries, List.append_nil]
      exact .failed hkept hjudged hjoined
  | misjudged hcall hjournal hjudged hcause hleft =>
      obtain ⟨hkept, hentries⟩ := settled_of_transition htransition hcall rfl (by simp)
      rw [hentries, List.append_nil]
      exact .misjudged hkept hjournal hjudged hcause hleft

theorem fate_of_execution (h : Execution (fresh s c) steps p) (halone : LeftAlone i steps)
    (hcause : firstError? (journal i steps) = some cause) : Fate cause p i (journal i steps) := by
  induction h with
  | start => simp at hcause
  | @next steps before after m effects hbefore hmove ih =>
      rcases hafter : after.active? i with _ | run
      · rcases hactive : before.active? i with _ | earlier
        · have hpart := part_of_execution hbefore hmove i
          have htransition := transition_of_move (lifecycle_of_execution hbefore) hmove
          rw [journal_append, journal_singleton] at hcause ⊢
          rw [firstError?_append, firstError?_of_inactive hpart hactive, Option.or_none] at hcause
          exact (ih halone.of_append hcause).of_transition hactive htransition
        · exact (fate_of_ended hbefore hmove halone hcause hactive hafter).1
      · have hexecution := hbefore.next hmove
        have hlive := live_of_leftAlone hexecution halone hafter
        refine .draining hafter (judged_of_active hexecution hafter) ?_
        rw [(balanced_of_execution hexecution hafter hlive).allJoined_iff]
        exact inFlight_ne_nil_of_cause hexecution hafter hcause

/-- Once its first error is known, a run that is left alone is active as long as its load can be
told and something it has started has not been joined.  It ends with that error if everything is
joined first.  If its load cannot be told before, it ends with the fault of the evaluation, and
what is left is cancelled. -/
theorem ends_with_failure_or_fault (h : Execution (fresh s c) steps p)
    (halone : LeftAlone i steps) (hcause : firstError? (journal i steps) = some cause) :
    ((∃ run, p.active? i = some run) ↔
      Judged (journal i steps) ∧ ¬AllJoined (journal i steps)) ∧
    (p.calls[i]? = some (.ended (.error (.taskFailed cause))) ↔
      Judged (journal i steps) ∧ AllJoined (journal i steps)) ∧
    ∀ fault, (p.calls[i]? = some (.ended (.error (.recorder fault))) ↔
        .evaluated (.error fault) ∈ journal i steps) ∧
      (.evaluated (.error fault) ∈ journal i steps →
        ∃ before left, journal i steps = before ++ [.evaluated (.error fault), .cancelled left] ∧
          firstError? before = some cause ∧ left ≠ []) := by
  cases fate_of_execution h halone hcause with
  | @draining run hactive hjudged hopen =>
      have hcall : p.calls[i]? = some (.active run) := (p.active?_eq_some_iff).mp hactive
      refine ⟨iff_of_true ⟨run, hactive⟩ ⟨hjudged, hopen⟩, ?_, fun fault => ⟨?_, ?_⟩⟩
      · exact iff_of_false (by simp [hcall]) fun h => hopen h.2
      · exact iff_of_false (by simp [hcall]) (hjudged fault)
      · exact fun hmem => absurd hmem (hjudged fault)
  | failed hcall hjudged hjoined =>
      refine ⟨?_, iff_of_true hcall ⟨hjudged, hjoined⟩, fun fault => ⟨?_, ?_⟩⟩
      · exact iff_of_false (by simp [active?, hcall]) fun h => h.2 hjoined
      · exact iff_of_false (by simp [hcall]) (hjudged fault)
      · exact fun hmem => absurd hmem (hjudged fault)
  | @misjudged fault before left hcall hjournal hjudged hcause' hleft =>
      have hmem : .evaluated (.error fault) ∈ journal i steps := by simp [hjournal]
      -- The fault ends the journal, and before it the load could be told.
      have honly {fault'} (hmem' : .evaluated (.error fault') ∈ journal i steps) :
          fault' = fault := by
        rw [hjournal, List.mem_append] at hmem'
        rcases hmem' with hold | hnew
        · exact absurd hold (hjudged fault')
        · simpa using hnew
      refine ⟨?_, ?_, fun fault' => ⟨?_, ?_⟩⟩
      · exact iff_of_false (by simp [active?, hcall]) fun h => h.1 fault hmem
      · exact iff_of_false (by simp [hcall]) fun h => h.1 fault hmem
      · constructor
        · intro hcall'
          obtain rfl : fault = fault' := by simpa [hcall] using hcall'
          exact hmem
        · intro hmem'
          rw [honly hmem', hcall]
      · intro hmem'
        rw [honly hmem']
        exact ⟨before, left, hjournal, hcause', hleft⟩

omit [Scalar α] in
theorem leftAlone_of_moves {moves : List Move} (hmoves : steps.map (·.move) = moves)
    (habort : .abort ∉ moves) (hdrop : .drop i ∉ moves) : LeftAlone i steps := by
  have hmem (e : Step α) (h : e ∈ steps) : e.move ∈ moves := hmoves ▸ List.mem_map_of_mem h
  constructor
  · rintro e h - hmove
    exact habort (hmove ▸ hmem e h)
  · rintro e h - hmove
    exact hdrop (hmove ▸ hmem e h)

/-- Both invocations fail, and the load can be told all the while. -/
theorem ends_with_failure_or_fault_of_pair : ∃ steps, ∃ p : Pool Float,
    Execution (fresh .pair {}) steps p ∧ LeftAlone 0 steps ∧
      firstError? (journal 0 steps) = some "boom" ∧ .joined 1 (.error "late") ∈ journal 0 steps ∧
      p.calls[0]? = some (.ended (.error (.taskFailed "boom"))) := by
  let moves : List Move := [.call, .enter, .answer false, .answer true, .answer true,
    .join 0 (.error "boom"), .join 1 (.error "late")]
  obtain ⟨steps, p, hplay, hmoves, hjournal⟩ :
      ∃ steps, ∃ p : Pool Float, (fresh .pair {}).play moves = some (steps, p) ∧
        steps.map (·.move) = moves ∧
        journal 0 steps = [.asked .finished, .answered .finished false, .asked .ready,
          .answered .ready true, .started 0, .asked .ready, .answered .ready true, .started 1,
          .joined 0 (.error "boom"), .joined 1 (.error "late"), .cancelled []] :=
    ⟨_, _, rfl, rfl, rfl⟩
  have h : Execution (fresh .pair {}) steps p := execution_of_play hplay
  have halone : LeftAlone 0 steps := leftAlone_of_moves hmoves
    (by simp [moves, Move.enter, Move.answer, Move.join])
    (by simp [moves, Move.enter, Move.answer, Move.join])
  have hcause : firstError? (journal 0 steps) = some "boom" := by simp [hjournal]
  have hjudged : Judged (journal 0 steps) := by simp [Judged, hjournal]
  have hjoined : AllJoined (journal 0 steps) := by
    intro k hstarted
    simp only [hjournal] at hstarted ⊢
    obtain rfl | rfl : k = 0 ∨ k = 1 := by simpa using hstarted
    · exact ⟨.error "boom", by simp⟩
    · exact ⟨.error "late", by simp⟩
  have hended := (ends_with_failure_or_fault h halone hcause).2.1.mpr ⟨hjudged, hjoined⟩
  exact ⟨steps, p, h, halone, hcause, by simp [hjournal], hended⟩

/-- One invocation has failed and the other one is in flight when the recorder has been stopped
and the load cannot be told any more. -/
theorem failure_lost_of_misjudged : ∃ steps, ∃ p : Pool Float,
    Execution (fresh .pair {}) steps p ∧ LeftAlone 0 steps ∧
      firstError? (journal 0 steps) = some "boom" ∧
      p.calls[0]? = some (.ended (.error (.recorder .notActive))) := by
  let moves : List Move := [.call, .enter, .answer false, .answer true, .answer true,
    .join 0 (.error "boom"),
    .turn 0 (.ofMillis 10000) false (some (.scaleTick (.error .notActive)))]
  obtain ⟨steps, p, hplay, hmoves, hjournal, hended⟩ :
      ∃ steps, ∃ p : Pool Float, (fresh .pair {}).play moves = some (steps, p) ∧
        steps.map (·.move) = moves ∧
        journal 0 steps = [.asked .finished, .answered .finished false, .asked .ready,
          .answered .ready true, .started 0, .asked .ready, .answered .ready true, .started 1,
          .joined 0 (.error "boom"), .evaluated (.error .notActive), .cancelled [1]] ∧
        p.calls[0]? = some (.ended (.error (.recorder .notActive))) :=
    ⟨_, _, rfl, rfl, rfl, rfl⟩
  refine ⟨steps, p, execution_of_play hplay, leftAlone_of_moves hmoves ?_ ?_, ?_, hended⟩
  · simp [moves, Move.enter, Move.answer, Move.join]
  · simp [moves, Move.enter, Move.answer, Move.join]
  · simp [hjournal]

end

end Pool

end ElasticPool
