import Mathlib.Data.List.Forall2
import ElasticPool.Proofs.CallSequence
/-!
What one run leaves of itself for the next ones.

Two pools may have had any runs before, and other calls may still wait in them.  If a run begins
in both and the same things happen to it from then on, then the pools agree in all that a run
looks at, and they stay so.  They differ in the names of their calls only.
-/

namespace ElasticPool

variable {α : Type}

namespace Pool

def withCallsOf (p q : Pool α) : Pool α :=
  { p with
    phase := q.phase, abortable? := q.abortable?, revoked := q.revoked, calls := q.calls }

end Pool

namespace RunTurn

def withCallsOf (t : RunTurn α) (q : Pool α) : RunTurn α :=
  { t with pool := t.pool.withCallsOf q }

variable (t : RunTurn α) (q : Pool α)

theorem seekMore_withCallsOf : (t.withCallsOf q).seekMore = t.seekMore.withCallsOf q := by
  rw [seekMore_eq, seekMore_eq]
  rfl

theorem onFinishedAnswer_withCallsOf (finished : Bool) :
    (t.withCallsOf q).onFinishedAnswer finished =
      (t.onFinishedAnswer finished).withCallsOf q := by
  cases finished with
  | false => exact seekMore_withCallsOf t q
  | true =>
      simp only [onFinishedAnswer, if_true]
      rw [apply_ite (withCallsOf · q)]
      rfl

theorem onJoined_withCallsOf (k : Nat) (result : Except String Unit) :
    (t.withCallsOf q).onJoined k result = (t.onJoined k result).withCallsOf q := by
  cases result with
  | ok _ => rfl
  | error cause =>
      have hsame : (t.withCallsOf q).run = t.run := rfl
      simp only [onJoined, hsame]
      cases t.run.failure? <;> rfl

theorem onScaleTick_withCallsOf (now : Moment) (load : Except RecorderFault SystemLoad) :
    (t.withCallsOf q).onScaleTick now load = (t.onScaleTick now load).withCallsOf q := by
  cases load with
  | error cause => rfl
  | ok load =>
      simp only [onScaleTick, rescale_eq]
      rfl

theorem onStatusTick_withCallsOf (now : Moment) (load : Except RecorderFault SystemLoad) :
    (t.withCallsOf q).onStatusTick now load = (t.onStatusTick now load).withCallsOf q := by
  cases load <;> rfl

theorem settle_withCallsOf : (t.withCallsOf q).settle = t.settle.withCallsOf q := by
  have hsame : (t.withCallsOf q).run = t.run ∧ (t.withCallsOf q).outcome? = t.outcome? :=
    ⟨rfl, rfl⟩
  simp only [settle, hsame]
  cases t.run.failure? <;> simp only [apply_ite (withCallsOf · q)] <;> rfl

section

variable [Scalar α] (now : Moment)

theorem onReadyAnswer_withCallsOf (ready : Bool) :
    (t.withCallsOf q).onReadyAnswer now ready = (t.onReadyAnswer now ready).withCallsOf q := by
  cases ready with
  | false => rfl
  | true =>
      have hsame : (t.withCallsOf q).run = t.run := rfl
      simp only [onReadyAnswer, hsame, Bool.not_true, Bool.false_eq_true, if_false]
      rcases t.run.budget.take now with ⟨wait | _, budget⟩
      · rw [apply_ite (withCallsOf · q)]
        rfl
      · rw [apply_ite (withCallsOf · q), ← seekMore_withCallsOf]
        rfl

theorem onAnswer_withCallsOf (yes : Bool) :
    (t.withCallsOf q).onAnswer now yes = (t.onAnswer now yes).withCallsOf q := by
  have hsame : (t.withCallsOf q).run = t.run := rfl
  simp only [onAnswer, hsame]
  cases t.run.dispatch with
  | askedFinished => exact onFinishedAnswer_withCallsOf t q yes
  | askedReady =>
      simp only [apply_ite (withCallsOf · q), onReadyAnswer_withCallsOf]
      rfl
  | idle | waiting | parked => rfl

theorem onEvent_withCallsOf (event : RunEvent) :
    (t.withCallsOf q).onEvent now event = (t.onEvent now event).withCallsOf q := by
  cases event with
  | joined k result => exact onJoined_withCallsOf t q k result
  | scaleTick load => exact onScaleTick_withCallsOf t q now load
  | statusTick load => exact onStatusTick_withCallsOf t q now load
  | answered yes => exact onAnswer_withCallsOf t q now yes
  | waited => rfl

end

end RunTurn

theorem Run.turnOver_withCallsOf [Scalar α] (r : Run α) (p q : Pool α) (now : Moment)
    (event : RunEvent) :
    r.turnOver (p.withCallsOf q) now event = (r.turnOver p now event).withCallsOf q := by
  unfold turnOver
  rw [← RunTurn.settle_withCallsOf, ← RunTurn.onEvent_withCallsOf]
  rfl

theorem Run.pool_turnOver [Scalar α] (r : Run α) (p : Pool α) (now : Moment) (event : RunEvent) :
    (r.turnOver p now event).pool.withCallsOf p = (r.turnOver p now event).pool :=
  (congrArg RunTurn.pool (r.turnOver_withCallsOf p p now event)).symm

namespace Pool

/-- Calls of two pools that stand for each other.  They are in the same state, and so are the
calls that are made later, in their order. -/
structure Paired (r : Nat → Nat → Prop) (calls calls' : List (Call α)) : Prop where
  unique : ∀ {i j i' j' : Nat}, r i j → r i' j' → (i = i' ↔ j = j')
  call_eq : ∀ {i j : Nat}, r i j → calls[i]? = calls'[j]?
  later : ∀ k, r (calls.length + k) (calls'.length + k)

theorem getElem?_concat_of_ne {calls : List (Call α)} {i : Nat} (call : Call α)
    (hi : i ≠ calls.length) : (calls ++ [call])[i]? = calls[i]? := by
  rcases Nat.lt_or_gt_of_ne hi with hlt | hgt
  · exact List.getElem?_append_left hlt
  · rw [List.getElem?_eq_none (Nat.le_of_lt hgt), List.getElem?_eq_none (by simp; omega)]

namespace Paired

variable {r : Nat → Nat → Prop} {calls calls' : List (Call α)} {i j : Nat}

theorem append (h : Paired r calls calls') (call : Call α) :
    Paired r (calls ++ [call]) (calls' ++ [call]) where
  unique := h.unique
  call_eq {i j} hij := by
    have hlast : i = calls.length ↔ j = calls'.length := h.unique hij (h.later 0)
    by_cases hi : i = calls.length
    · rw [hi, hlast.mp hi, List.getElem?_concat_length, List.getElem?_concat_length]
    · have hj : j ≠ calls'.length := fun hj => hi (hlast.mpr hj)
      rw [getElem?_concat_of_ne call hi, getElem?_concat_of_ne call hj]
      exact h.call_eq hij
  later k := by
    have hlater := h.later (1 + k)
    rw [← Nat.add_assoc, ← Nat.add_assoc] at hlater
    simpa using hlater

theorem set (h : Paired r calls calls') (hij : r i j) (call : Call α) :
    Paired r (calls.set i call) (calls'.set j call) where
  unique := h.unique
  call_eq {i' j'} hij' := by
    rw [List.getElem?_set', List.getElem?_set', h.call_eq hij']
    simp only [h.unique hij hij']
  later k := by simpa using h.later k

theorem modify (h : Paired r calls calls') (hij : r i j) (f : Call α → Call α) :
    Paired r (calls.modify i f) (calls'.modify j f) where
  unique := h.unique
  call_eq {i' j'} hij' := by
    rw [List.getElem?_modify, List.getElem?_modify, h.call_eq hij']
    simp only [h.unique hij hij']
  later k := by simpa using h.later k

end Paired

/-- Two pools in which one run goes on, or none does, under different names of the calls. -/
structure Twins (r : Nat → Nat → Prop) (p p' : Pool α) : Prop where
  settings_eq : p'.settings = p.settings
  config_eq : p'.config = p.config
  phase_eq : p'.phase = p.phase
  desired_eq : p'.desired = p.desired
  current_eq : p'.current = p.current
  abortable : p.phase = .running → ∃ i j, r i j ∧ p.abortable? = some i ∧ p'.abortable? = some j
  paired : Paired r p.calls p'.calls

def Matched (r : Nat → Nat → Prop) (a a' : Pool α × List Effect) : Prop :=
  a'.2 = a.2 ∧ Twins r a.1 a'.1

/-- Moves that do the same to calls that stand for each other. -/
inductive Alike (r : Nat → Nat → Prop) : Move → Move → Prop
  | call : Alike r .call .call
  | turn {i j : Nat} (hij : r i j) (now : Moment) (sampling : Bool) (event? : Option RunEvent) :
      Alike r (.turn i now sampling event?) (.turn j now sampling event?)
  | abort : Alike r .abort .abort
  | drop {i j : Nat} (hij : r i j) : Alike r (.drop i) (.drop j)

namespace Twins

variable {r : Nat → Nat → Prop} {p p' : Pool α} {i j : Nat}

theorem eq_withCallsOf (h : Twins r p p') : p' = p.withCallsOf p' := by
  obtain ⟨hsettings, hconfig, hphase, hdesired, hcurrent, -, -⟩ := h
  cases p
  cases p'
  simp_all [withCallsOf]

theorem overflows_eq (h : Twins r p p') (event : RunEvent) :
    p'.overflows event = p.overflows event := by
  unfold overflows
  rw [h.settings_eq, h.config_eq, h.desired_eq, h.current_eq]

theorem setCall (h : Twins r p p') (hij : r i j) (call : Call α) :
    Twins r (p.setCall i call) (p'.setCall j call) :=
  ⟨h.settings_eq, h.config_eq, h.phase_eq, h.desired_eq, h.current_eq, h.abortable,
    h.paired.set hij call⟩

theorem release (h : Twins r p p') : Twins r p.release p'.release := by
  refine ⟨h.settings_eq, h.config_eq, ?_, h.desired_eq, rfl, ?_, h.paired⟩
  · simp only [Pool.release, h.phase_eq]
  · exact fun hrunning => absurd hrunning (phase_release_ne_running p)

theorem withCallsOf (h : Twins r p p') {q : Pool α} (hq : q.withCallsOf p = q) :
    Twins r q (q.withCallsOf p') := by
  have hphase : q.phase = p.phase := (congrArg Pool.phase hq).symm
  have habortable : q.abortable? = p.abortable? := (congrArg Pool.abortable? hq).symm
  have hcalls : q.calls = p.calls := (congrArg Pool.calls hq).symm
  refine ⟨rfl, rfl, h.phase_eq.trans hphase.symm, rfl, rfl, ?_, hcalls ▸ h.paired⟩
  rw [hphase, habortable]
  exact h.abortable

theorem leave (h : Twins r p p') (hij : r i j) (run : Run α) (outcome : Outcome) :
    Twins r (p.leave i run outcome).1 (p'.leave j run outcome).1 := by
  have hphase : Twins r { p with phase := outcome.phase } { p' with phase := outcome.phase } := by
    refine ⟨h.settings_eq, h.config_eq, rfl, h.desired_eq, h.current_eq, ?_, h.paired⟩
    cases outcome <;> exact nofun
  exact hphase.release.setCall hij _

theorem resume (h : Twins r p p') (hij : r i j) {t : RunTurn α}
    (ht : t.pool.withCallsOf p = t.pool) :
    Matched r (resume i t) (resume j (t.withCallsOf p')) := by
  have htwins := h.withCallsOf ht
  have hsame : (t.withCallsOf p').outcome? = t.outcome? := rfl
  unfold Pool.resume
  rw [hsame]
  cases t.outcome? with
  | none => exact ⟨rfl, htwins.setCall hij _⟩
  | some outcome => exact ⟨rfl, htwins.leave hij t.run outcome⟩

theorem drop (h : Twins r p p') (hij : r i j) : Matched r (p.drop i) (p'.drop j) := by
  unfold Pool.drop
  rw [← h.paired.call_eq hij]
  split
  · exact ⟨rfl, h.setCall hij _⟩
  · exact ⟨rfl, h.release.setCall hij _⟩
  · exact ⟨rfl, h⟩

section

variable [Scalar α] {now : Moment}

theorem enter_of_resting (hphase : p.phase ≠ .running) (i : Nat) (now : Moment) :
    p.enter i now true = ((p.begun i).setCall i (.active (p.opening now)),
      [.report (.runStarted p.settings.minimum p.settings.maximum p.settings.desired),
        .askFinished]) := by
  rw [enter, if_neg hphase]
  rfl

/-- A run that begins sets all that it looks at. -/
theorem of_enter (hsettings : p'.settings = p.settings) (hconfig : p'.config = p.config)
    (hphase : p.phase ≠ .running) (hphase' : p'.phase ≠ .running)
    (hpaired : Paired r p.calls p'.calls) (hij : r i j) :
    Matched r (p.enter i now true) (p'.enter j now true) := by
  rw [enter_of_resting hphase, enter_of_resting hphase']
  have hbegun : Twins r (p.begun i) (p'.begun j) := by
    refine ⟨hsettings, hconfig, rfl, ?_, rfl, fun _ => ⟨i, j, hij, rfl, rfl⟩, hpaired⟩
    exact congrArg Settings.desired hsettings
  have hopening : p'.opening now = p.opening now := by
    unfold opening
    rw [hsettings, hconfig]
  rw [hsettings, hopening]
  exact ⟨rfl, hbegun.setCall hij _⟩

theorem enter (h : Twins r p p') (hij : r i j) (sampling : Bool) :
    Matched r (p.enter i now sampling) (p'.enter j now sampling) := by
  by_cases hphase : p.phase = .running
  · have hphase' : p'.phase = .running := h.phase_eq.trans hphase
    rw [Pool.enter, Pool.enter, if_pos hphase, if_pos hphase']
    exact ⟨rfl, h.setCall hij _⟩
  · have hphase' : p'.phase ≠ .running := fun hrunning => hphase (h.phase_eq.symm.trans hrunning)
    cases sampling with
    | false =>
        rw [Pool.enter, Pool.enter, if_neg hphase, if_neg hphase']
        exact ⟨rfl, h.setCall hij _⟩
    | true => exact of_enter h.settings_eq h.config_eq hphase hphase' h.paired hij

theorem turn (h : Twins r p p') (hij : r i j) (sampling : Bool) (event? : Option RunEvent) :
    Option.Rel (Matched r) (p.turn i now sampling event?) (p'.turn j now sampling event?) := by
  unfold Pool.turn
  rw [← h.paired.call_eq hij]
  split
  · exact .some (h.enter hij sampling)
  · rename_i run _
    by_cases hcancelled : run.cancelled = true
    · rw [if_pos hcancelled, if_pos hcancelled]
      exact .some ⟨rfl, h.leave hij run .aborted⟩
    rw [if_neg hcancelled, if_neg hcancelled]
    cases event? with
    | none => exact .none
    | some event =>
        dsimp only
        rw [h.overflows_eq]
        by_cases hpasses : run.Admits now event ∧ ¬p.overflows event
        · rw [if_pos hpasses, if_pos hpasses]
          -- What a turn over an event does to the pool does not depend on its calls.
          have hturn := run.turnOver_withCallsOf p p' now event
          rw [← h.eq_withCallsOf] at hturn
          have hmatched := h.resume hij (run.pool_turnOver p now event)
          rw [← hturn] at hmatched
          exact .some hmatched
        · rw [if_neg hpasses, if_neg hpasses]
          exact .none
  · exact .none

theorem abort (h : Twins r p p') :
    Option.Rel (Matched r) (p.move? .abort) (p'.move? .abort) := by
  by_cases hphase : p.phase = .running
  · obtain ⟨i, j, hij, hi, hj⟩ := h.abortable hphase
    simp only [move?, Pool.abort, h.phase_eq, hphase, hi, hj]
    exact .some ⟨rfl, h.settings_eq, h.config_eq, rfl, h.desired_eq, rfl,
      fun _ => ⟨i, j, hij, rfl, rfl⟩, h.paired.modify hij _⟩
  · have hphase' : p'.phase ≠ .running := h.phase_eq ▸ hphase
    rw [move?, move?, abort_of_resting hphase, abort_of_resting hphase']
    exact .some ⟨rfl, h⟩

theorem move (h : Twins r p p') {m m' : Move} (halike : Alike r m m') :
    Option.Rel (Matched r) (p.move? m) (p'.move? m') := by
  cases halike with
  | call =>
      exact .some ⟨rfl, h.settings_eq, h.config_eq, h.phase_eq, h.desired_eq, h.current_eq,
        h.abortable, h.paired.append _⟩
  | turn hij now sampling event? => exact h.turn hij sampling event?
  | abort => exact h.abort
  | drop hij => exact .some (h.drop hij)

end

end Twins

structure Observation (α : Type) where
  effects : List Effect
  phase : Phase
  desired : UInt64
  current : UInt64
  call? : Option (Call α)

def Step.observation (e : Step α) : Observation α where
  effects := e.effects
  phase := e.after.phase
  desired := e.after.desired
  current := e.after.current
  call? := e.move.call?.bind (e.after.calls[·]?)

section

variable [Scalar α] {r : Nat → Nat → Prop} {s : Settings} {c : ScalingConfig} {p p' : Pool α}
  {steps steps' : List (Step α)} {i j : Nat} {now : Moment}

def observe (p : Pool α) (moves : List Move) : Option (List (Observation α)) :=
  (p.play moves).map fun (steps, _) => steps.map (·.observation)

theorem observe_cons (p : Pool α) (m : Move) (moves : List Move) :
    p.observe (m :: moves) = (p.move? m).bind fun (q, effects) =>
      (q.observe moves).map ((⟨p, m, effects, q⟩ : Step α).observation :: ·) := by
  unfold observe
  rw [play]
  rcases p.move? m with _ | ⟨q, effects⟩
  · rfl
  · simp [Function.comp_def]

/-- Moves that are matched are seen alike, and so is what follows if it is. -/
theorem observe_of_matched {m m' : Move} {moves moves' : List Move} (halike : Alike r m m')
    (hmatched : Option.Rel (Matched r) (p.move? m) (p'.move? m'))
    (hrest : ∀ q q' : Pool α, Twins r q q' → q'.observe moves' = q.observe moves) :
    p'.observe (m' :: moves') = p.observe (m :: moves) := by
  rw [observe_cons, observe_cons]
  generalize p.move? m = a at hmatched
  generalize p'.move? m' = a' at hmatched
  cases hmatched with
  | none => rfl
  | @some a a' hmatched =>
      obtain ⟨heffects, htwins⟩ := hmatched
      have hseen : (⟨p', m', a'.2, a'.1⟩ : Step α).observation =
          (⟨p, m, a.2, a.1⟩ : Step α).observation := by
        have hcall : m'.call?.bind (a'.1.calls[·]?) = m.call?.bind (a.1.calls[·]?) := by
          cases halike with
          | call | abort => rfl
          | turn hij | drop hij => exact (htwins.paired.call_eq hij).symm
        simp only [Step.observation, heffects, htwins.phase_eq, htwins.desired_eq,
          htwins.current_eq, hcall]
      simp only [Option.bind_some, hseen, hrest _ _ htwins]

theorem observe_of_twins {moves moves' : List Move} (h : Twins r p p')
    (hmoves : List.Forall₂ (Alike r) moves moves') : p'.observe moves' = p.observe moves := by
  induction hmoves generalizing p p' with
  | nil => rfl
  | cons halike hmoves ih => exact observe_of_matched halike (h.move halike) fun _ _ => ih

/-- A run begins in the same way in every pool, whatever has run there before. -/
theorem begins_afresh (h : Execution (fresh s c) steps p) (hphase : p.phase ≠ .running)
    (hcall : p.calls[i]? = some .waiting) (now : Moment) (event? : Option RunEvent) :
    ∃ q effects, p.move? (.turn i now true event?) = some (q, effects) ∧ Seated i q ∧
      q.active? i = some ((fresh s c : Pool α).opening now) ∧
        ∀ k, k ≠ i → q.active? k = none := by
  obtain ⟨q, effects, hmove, hseated⟩ := seated_of_turn h hphase hcall now event?
  have hlife := lifecycle_of_execution h
  obtain ⟨hsettings, hconfig⟩ := settings_of_execution h
  refine ⟨q, effects, hmove, hseated, ?_⟩
  cases transition_of_move hlife hmove with
  | refused _ hfault => simp [hphase] at hfault
  | entered _ _ =>
      constructor
      · refine ((p.begun i).active?_setCall_self hcall).trans ?_
        simp only [Call.run?, opening, hsettings, hconfig, fresh]
      · intro k hk
        rw [(p.begun i).active?_setCall_of_ne (Ne.symm hk)]
        exact hlife.active?_eq_none hphase k
  | left hactive _ | moved hactive _ _ _ _ | ended hactive _ _ _ _ =>
      simp [active?, hcall] at hactive

/-- Whatever runs two pools have had before, a run that begins in both is seen alike as long as
the same things happen to it.  It begins as in a new pool: without a failure, a step or an
invocation of an earlier run, with a full budget, and with nothing else to abort. -/
theorem runs_are_isolated {moves moves' : List Move} (h : Execution (fresh s c) steps p)
    (h' : Execution (fresh s c) steps' p')
    (hphase : p.phase ≠ .running) (hphase' : p'.phase ≠ .running)
    (hpaired : Paired r p.calls p'.calls) (hij : r i j) (hcall : p.calls[i]? = some .waiting)
    (hmoves : List.Forall₂ (Alike r) moves moves') (now : Moment) (event? : Option RunEvent) :
    p'.observe (.turn j now true event? :: moves') =
        p.observe (.turn i now true event? :: moves) ∧
      ∃ q effects, p.move? (.turn i now true event?) = some (q, effects) ∧ Seated i q ∧
        q.active? i = some ((fresh s c : Pool α).opening now) ∧
        ∀ k, k ≠ i → q.active? k = none := by
  obtain ⟨hsettings, hconfig⟩ := settings_of_execution h
  obtain ⟨hsettings', hconfig'⟩ := settings_of_execution h'
  refine ⟨?_, begins_afresh h hphase hcall now event?⟩
  have hcall' : p'.calls[j]? = some .waiting := (hpaired.call_eq hij).symm.trans hcall
  -- Entering sets all that earlier runs could have left behind.
  have hentered : Matched r (p.enter i now true) (p'.enter j now true) :=
    Twins.of_enter (hsettings'.trans hsettings.symm) (hconfig'.trans hconfig.symm) hphase hphase'
      hpaired hij
  refine observe_of_matched (.turn hij now true event?) ?_ fun _ _ htwins =>
    observe_of_twins htwins hmoves
  rw [move?, move?, turn, turn, hcall, hcall']
  exact .some hentered

/-- A run that fails is seen alike in a new pool and in one whose run has been given up with an
invocation in flight. -/
theorem runs_are_isolated_of_dropped : ∃ steps steps' moves moves', ∃ p p' : Pool Float,
    Execution (fresh .pair {}) steps p ∧ Execution (fresh .pair {}) steps' p' ∧
      p.phase = .aborted ∧ p'.phase = .idle ∧ p'.observe moves' = p.observe moves ∧
      ∃ seen last, p.observe moves = some (seen ++ [last]) ∧ last.phase = .failed := by
  let during (i : Nat) : List Move := [.turn i ⟨0⟩ true (some (.answered false)),
    .turn i ⟨0⟩ true (some (.answered true)),
    .turn i ⟨0⟩ true (some (.joined 0 (.error "lost")))]
  obtain ⟨steps, p, hplay, hphase, hcalls, seen, last, hseen, hfailed⟩ :
      ∃ steps, ∃ p : Pool Float, (fresh .pair {}).play
          [.call, .enter, .answer false, .answer true, .drop 0, .call] = some (steps, p) ∧
        p.phase = .aborted ∧ p.calls = [.dropped, .waiting] ∧
        ∃ seen last, p.observe (.turn 1 ⟨0⟩ true none :: during 1) = some (seen ++ [last]) ∧
          last.phase = .failed :=
    ⟨_, _, rfl, rfl, rfl, [_, _, _], _, rfl, rfl⟩
  obtain ⟨steps', p', hplay', hphase', hcalls'⟩ :
      ∃ steps', ∃ p' : Pool Float, (fresh .pair {}).play [.call] = some (steps', p') ∧
        p'.phase = .idle ∧ p'.calls = [.waiting] := ⟨_, _, rfl, rfl, rfl⟩
  have h : Execution (fresh .pair {}) steps p := execution_of_play hplay
  have h' : Execution (fresh .pair {}) steps' p' := execution_of_play hplay'
  let r (i j : Nat) : Prop := i = j + 1
  have hpaired : Paired r p.calls p'.calls := by
    rw [hcalls, hcalls']
    refine ⟨by omega, ?_, fun k => ?_⟩
    · rintro i j rfl
      rfl
    · exact Nat.add_right_comm 1 1 k
  have hij : r 1 0 := rfl
  have hmoves : List.Forall₂ (Alike r) (during 1) (during 0) :=
    .cons (.turn hij _ _ _) (.cons (.turn hij _ _ _) (.cons (.turn hij _ _ _) .nil))
  have hisolated := runs_are_isolated h h' (by simp [hphase]) (by simp [hphase']) hpaired hij
    (by simp [hcalls]) hmoves ⟨0⟩ none
  exact ⟨steps, steps', _, _, p, p', h, h', hphase, hphase', hisolated.1, seen, last, hseen,
    hfailed⟩

end

end Pool

end ElasticPool
