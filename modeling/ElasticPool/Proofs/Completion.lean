import ElasticPool.Proofs.SlotAccounting
import ElasticPool.Proofs.RunMemory

namespace ElasticPool

open Journal

variable {α : Type}

namespace Journal

theorem eq_ok_of_joined {j : List Entry} (hnone : firstError? j = none) {k : Nat}
    {result : Except String Unit} (hmem : .joined k result ∈ j) : result = .ok () := by
  cases result with
  | ok _ => rfl
  | error cause =>
      have herror := List.findSome?_eq_none_iff.mp hnone _ hmem
      simp at herror

end Journal

namespace Pool

/-- Nothing has been asked or started since the question that is open. -/
def OpenSince (run : Run α) (j : List Entry) : Prop :=
  ∀ question, run.dispatch.question? = some question →
    ∃ before since, j = before ++ .asked question :: since ∧
      ∀ entry ∈ since, entry.question? = none ∧ entry.started? = none

namespace OpenSince

variable {run run' : Run α} {j : List Entry}

theorem of_closed (hclosed : run.dispatch.question? = none) : OpenSince run j := by
  intro question hquestion
  rw [hclosed] at hquestion
  cases hquestion

theorem of_asked {question : Question} (hopen : run.dispatch.question? = some question) :
    OpenSince run (j ++ [.asked question]) := by
  intro question' hquestion'
  obtain rfl : question = question' := Option.some.inj (hopen.symm.trans hquestion')
  exact ⟨j, [], rfl, by simp⟩

theorem append_of_still (h : OpenSince run j) (hdispatch : run'.dispatch = run.dispatch)
    {entries : List Entry}
    (hquiet : ∀ entry ∈ entries, entry.question? = none ∧ entry.started? = none) :
    OpenSince run' (j ++ entries) := by
  intro question hquestion
  rw [hdispatch] at hquestion
  obtain ⟨before, since, rfl, hsince⟩ := h question hquestion
  refine ⟨before, since ++ entries, by simp, ?_⟩
  intro entry hmem
  rcases List.mem_append.mp hmem with hold | hnew
  · exact hsince entry hold
  · exact hquiet entry hnew

theorem seekMore {t : RunTurn α} {answered : List Entry} :
    OpenSince t.seekMore.run
      (j ++ (answered ++ if t.pool.current < t.pool.desired then [.asked .ready] else [])) := by
  rcases Decidable.em (t.pool.current < t.pool.desired) with hroom | hfull
  · rw [RunTurn.seekMore_of_lt t hroom, if_pos hroom, ← List.append_assoc]
    exact of_asked rfl
  · rw [RunTurn.seekMore_of_le t (UInt64.not_lt.mp hfull)]
    exact of_closed rfl

end OpenSince

section

variable [Scalar α] {s : Settings} {c : ScalingConfig} {p q : Pool α} {run : Run α}
  {now : Moment} {event : RunEvent} {t : RunTurn α} {i : Nat} {m : Move}
  {effects : List Effect} {j : List Entry} {steps : List (Step α)}

theorem openSince_of_reaction (hreaction : run.Reaction p now event t)
    (houtcome : t.outcome? = none) (h : OpenSince run j) :
    OpenSince t.run (j ++ reactionEntries run event t) := by
  cases hreaction with
  | @resumed k _ _ =>
      have hentries : ∀ t' : RunTurn α, t'.effects = [.askFinished] →
          reactionEntries run (.joined k (.ok ())) t' =
            [.joined k (.ok ())] ++ [.asked .finished] := by
        intro t' heffects
        simp [reactionEntries, heffects]
      rw [hentries _ rfl, ← List.append_assoc]
      exact .of_asked rfl
  | @unparked load signals _ _ =>
      have hentries : ∀ t' : RunTurn α, t'.effects = signals.map .report ++ [.askFinished] →
          reactionEntries run (.scaleTick (.ok load)) t' =
            [.evaluated (.ok load)] ++ [.asked .finished] := by
        intro t' heffects
        simp [reactionEntries, heffects]
      rw [hentries _ rfl, ← List.append_assoc]
      exact .of_asked rfl
  | awoke _ _ => exact .of_asked rfl
  | reaped _ _ => exact h.append_of_still rfl (by simp [reactionEntries])
  | rescaled signals _ => exact h.append_of_still rfl (by simp [reactionEntries])
  | reported signals => exact h.append_of_still rfl (by simp [reactionEntries])
  | sought _ hasked =>
      rw [reactionEntries_sought hasked]
      exact .seekMore
  | launched _ hasked _ _ =>
      rw [reactionEntries_launched hasked]
      exact .seekMore
  | draining | stragglers | postponed | overtaken | exhausted => exact .of_closed rfl
  | drained | misjudged | finished => simp at houtcome

theorem openSince_of_execution (h : Execution (fresh s c) steps p)
    (hactive : p.active? i = some run) : OpenSince run (journal i steps) := by
  obtain ⟨_, _, hopen, -⟩ := active_induction (fun _ _ => OpenSince)
    (fun now => .of_asked (j := []) rfl)
    (fun _ _ _ _ hreaction houtcome hopen => openSince_of_reaction hreaction houtcome hopen)
    h hactive
  exact hopen

structure Finishes (i : Nat) (run : Run α) (m : Move) : Prop where
  live : run.cancelled = false
  asked : run.dispatch = .askedFinished
  nothing_left : run.inFlight = []
  answered : ∃ now sampling, m = .turn i now sampling (some (.answered true))

theorem finishes_of_stops (hlife : p.Lifecycle) (hactive : p.active? i = some run)
    {entries : List Entry} (hstops : Stops p i run m entries q) (hphase : q.phase = .finished) :
    Finishes i run m ∧ q.calls[i]? = some (.ended (.ok ())) ∧
      entries = [.answered .finished true, .cancelled []] := by
  have hcall : p.calls[i]? = some (.active run) := (p.active?_eq_some_iff).mp hactive
  cases hstops with
  | left _ => simp [Outcome.phase] at hphase
  | dropped =>
      have hrunning : p.phase = .running := hlife.running_of_active i run hactive
      simp [setCall, release, hrunning] at hphase
  | @ended now sampling event t outcome hlive _ hreaction houtcome =>
      rw [phase_leave] at hphase
      cases hreaction with
      | finished _ hasked hlast =>
          obtain rfl : Outcome.finished = outcome := Option.some.inj houtcome
          refine ⟨⟨hlive, hasked, hlast, now, sampling, rfl⟩, call_leave_self hcall run _, ?_⟩
          simp [reactionEntries, hasked, hlast]
      | drained | misjudged =>
          obtain rfl := Option.some.inj houtcome
          simp [Outcome.phase] at hphase
      | _ => simp at houtcome

theorem finished_of_finishes (hlife : p.Lifecycle) (hactive : p.active? i = some run)
    (hfinishes : Finishes i run m) (hmove : p.move? m = some (q, effects)) :
    q.active? i = none ∧ q.phase = .finished := by
  obtain ⟨hlive, hasked, hlast, now, sampling, rfl⟩ := hfinishes
  obtain ⟨t, -, hreaction, hturn⟩ := reaction_of_turn hlife hactive hlive hmove
  have hended : t.outcome? = some .finished ∧ t.pool = p := by
    cases hreaction with
    | finished => exact ⟨rfl, rfl⟩
    | stragglers _ _ hleft => exact absurd hlast hleft
    | overtaken _ hready _ | exhausted _ _ hready _ _ | launched _ hready _ _ =>
        simp [hasked] at hready
  rcases hturn with ⟨hnone, -⟩ | ⟨outcome, houtcome, rfl, -⟩
  · simp [hended.1] at hnone
  · obtain rfl : Outcome.finished = outcome := Option.some.inj (hended.1.symm.trans houtcome)
    rw [hended.2, active?_leave_self hactive, phase_leave]
    exact ⟨rfl, rfl⟩

theorem settled_of_execution {call : Call α} {later : List (Step α)}
    (h : Execution (fresh s c) steps q) (hrest : Execution q later p)
    (hcall : q.calls[i]? = some call) (hrun : call.run? = none) (hbegun : call ≠ .waiting) :
    p.calls[i]? = some call ∧ journal i later = [] := by
  induction hrest with
  | start => exact ⟨hcall, rfl⟩
  | next hbefore hmove ih =>
      have hlife := lifecycle_of_execution (h.trans hbefore)
      obtain ⟨hkept, hentries⟩ :=
        settled_of_transition (transition_of_move hlife hmove) ih.1 hrun hbegun
      refine ⟨hkept, ?_⟩
      rw [journal_append, ih.2, journal_singleton, hentries, List.append_nil]

/-- What the journal of a call shows once its run has been finished. -/
structure WellDone (j : List Entry) : Prop where
  /-- The last question is whether all work is finished, and it is answered with yes. -/
  asked_last : ∃ before since,
    j = before ++ .asked .finished :: since ++ [.answered .finished true, .cancelled []] ∧
      ∀ entry ∈ since, entry.question? = none ∧ entry.started? = none
  joined : ∀ k, .started k ∈ j → .joined k (.ok ()) ∈ j
  not_failed : ∀ k cause, .joined k (.error cause) ∉ j

theorem wellDone_of_finishes (h : Execution (fresh s c) steps p)
    (hactive : p.active? i = some run) (hfinishes : Finishes i run m) :
    WellDone (journal i steps ++ [.answered .finished true, .cancelled []]) := by
  have hbalanced := balanced_of_execution h hactive hfinishes.live
  have hnone := firstError?_of_busy h hactive (by simp [hfinishes.asked])
  refine ⟨?_, ?_, ?_⟩
  · obtain ⟨before, since, hjournal, hsince⟩ :=
      openSince_of_execution h hactive .finished (by rw [hfinishes.asked, Dispatch.question?])
    exact ⟨before, since, by rw [hjournal], hsince⟩
  · intro k hmem
    have hstarted : .started k ∈ journal i steps := by simpa using hmem
    have hleft : k ∉ run.inFlight := by simp [hfinishes.nothing_left]
    rw [hbalanced.mem_inFlight] at hleft
    obtain ⟨result, hjoined⟩ : ∃ result, .joined k result ∈ journal i steps :=
      Classical.not_forall_not.mp fun hopen => hleft ⟨hstarted, hopen⟩
    obtain rfl := eq_ok_of_joined hnone hjoined
    exact List.mem_append_left _ hjoined
  · intro k cause hmem
    have hjoined : .joined k (.error cause) ∈ journal i steps := by simpa using hmem
    cases eq_ok_of_joined hnone hjoined

/-- A run is finished by the answer that all work is finished, given while nothing is in
flight, and by nothing else.  Then it has started nothing since it asked, everything it has
started has been joined without an error, and its call ends with no fault. -/
theorem finished_iff_finishes {earlier later : List (Step α)} {e : Step α}
    (h : Execution (fresh s c) (earlier ++ e :: later) p)
    (hactive : e.before.active? i = some run) :
    (e.after.active? i = none ∧ e.after.phase = .finished ↔ Finishes i run e.move) ∧
    (Finishes i run e.move → e.after.calls[i]? = some (.ended (.ok ())) ∧
      WellDone (journal i (earlier ++ e :: later))) := by
  obtain ⟨hbefore, hmove⟩ := h.of_append_cons
  have hafter : Execution (fresh s c) (earlier ++ [e]) e.after := hbefore.next hmove
  have hlife := lifecycle_of_execution hbefore
  have hpart := part_of_execution hbefore hmove i
  have hended (hfinishes : Finishes i run e.move) :=
    finished_of_finishes hlife hactive hfinishes hmove
  have hstopped (hnone : e.after.active? i = none) (hphase : e.after.phase = .finished) :=
    finishes_of_stops hlife hactive (stops_of_part hpart hactive hnone) hphase
  refine ⟨⟨fun h => (hstopped h.1 h.2).1, hended⟩, fun hfinishes => ?_⟩
  obtain ⟨hnone, hphase⟩ := hended hfinishes
  obtain ⟨-, hcall, hentries⟩ := hstopped hnone hphase
  obtain ⟨-, hlater⟩ :=
    settled_of_execution hafter h.after_append_cons hcall rfl (by simp)
  have hjournal : journal i (earlier ++ e :: later) =
      journal i earlier ++ [.answered .finished true, .cancelled []] := by
    rw [List.append_cons, journal_append, hlater, journal_append,
      journal_singleton, hentries, List.append_nil]
  rw [hjournal]
  exact ⟨hcall, wellDone_of_finishes hbefore hactive hfinishes⟩

/-- Both invocations have been joined, one of them while the question was open. -/
theorem finished_iff_finishes_of_pair : ∃ earlier, ∃ e : Step Float, ∃ run,
    Execution (fresh .pair {}) (earlier ++ [e]) e.after ∧ e.before.active? 0 = some run ∧
      Finishes 0 run e.move ∧ e.after.phase = .finished ∧
      starts (journal 0 (earlier ++ [e])) = [0, 1] ∧ WellDone (journal 0 (earlier ++ [e])) := by
  let moves : List Move := [.call, .enter, .answer false, .answer true, .answer true,
    .join 0 (.ok ()), .join 1 (.ok ())]
  obtain ⟨earlier, p, hplay, run, hactive, hlive, hasked, hlast, q, effects, hmove, hstarts⟩ :
      ∃ earlier, ∃ p : Pool Float, (fresh .pair {}).play moves = some (earlier, p) ∧
        ∃ run, p.active? 0 = some run ∧ run.cancelled = false ∧
          run.dispatch = .askedFinished ∧ run.inFlight = [] ∧
          ∃ q effects, p.move? (.answer true) = some (q, effects) ∧
            starts (journal 0 (earlier ++ [⟨p, .answer true, effects, q⟩])) = [0, 1] :=
    ⟨_, _, rfl, _, rfl, rfl, rfl, rfl, _, _, rfl, rfl⟩
  let e : Step Float := ⟨p, .answer true, effects, q⟩
  have h : Execution (fresh .pair {}) (earlier ++ [e]) q := (execution_of_play hplay).next hmove
  have hfinishes : Finishes 0 run e.move := ⟨hlive, hasked, hlast, ⟨0⟩, true, rfl⟩
  obtain ⟨hiff, hdone⟩ := finished_iff_finishes h hactive
  exact ⟨earlier, e, run, h, hactive, hfinishes, (hiff.mpr hfinishes).2, hstarts,
    (hdone hfinishes).2⟩

end

end Pool

end ElasticPool
