import ElasticPool.Proofs.Execution
import ElasticPool.Simulation.Workplace

namespace ElasticPool

open Journal

namespace Simulation

/-- Work is always ready and never finished, and each invocation succeeds without a sleep. -/
def Workload.steady : Workload where
  tasks := [{ millis := 0 }]
  ready := [⟨0, .always true⟩]
  finished := [⟨0, .always false⟩]

namespace Workplace

section

variable {w : Workplace} {t : WorkplaceTurn} {call : Nat} {now : Moment}

theorem pool_carryOut (effect : Effect) :
    (carryOut call now t effect).place.pool = t.place.pool := by
  cases effect <;> rfl

theorem pool_foldl_carryOut (effects : List Effect) :
    (effects.foldl (carryOut call now) t).place.pool = t.place.pool := by
  induction effects generalizing t with
  | nil => rfl
  | cons effect effects ih => rw [List.foldl_cons, ih, pool_carryOut]

theorem pool_tidy : (w.tidy call).pool = w.pool := by
  unfold tidy
  dsimp only
  split
  · split <;> rfl
  · rfl

theorem pool_after (turn : Pool Float × List Effect) :
    (w.after call now turn).place.pool = turn.1 := by
  rw [after, pool_tidy, pool_foldl_carryOut]

/-- What a turn of a call does with the pool, and the workplace once the event of the turn has
been taken from it. -/
inductive Takes (w : Workplace) (call : Nat) : Pool.Move → Workplace → Prop
  | gaveUp : Takes w call (.drop call) { w with doomed := w.doomed.erase call }
  | brokeOff : Takes w call (.drop call) w
  | joined {now : Moment} {sampling : Bool} {x : Ended} (hended : w.endedOf? call = some x) :
      Takes w call (.turn call now sampling (some (.joined x.name x.result)))
        { w with ended := w.ended.eraseP (·.call = call) }
  | other {now : Moment} {sampling : Bool} {event? : Option RunEvent}
      (hevent : ∀ k result, event? ≠ some (.joined k result)) :
      Takes w call (.turn call now sampling event?) w

theorem joined_of_nextEvent? {run : Run Float} {s : Recorder} {c : LoadConfig} {k : Nat}
    {result : Except String Unit} (h : w.nextEvent? call run now s c = some (.joined k result)) :
    ∃ x, w.endedOf? call = some x ∧ x.name = k ∧ x.result = result := by
  unfold nextEvent? at h
  split at h
  · next x hended =>
      obtain ⟨rfl, rfl⟩ := RunEvent.joined.inj (Option.some.inj h)
      exact ⟨x, hended, rfl, rfl⟩
  · repeat' split at h
    all_goals simp at h

theorem takes_of_callTurn {s : Recorder} {c : LoadConfig}
    (h : w.callTurn call now s c = some t) : ∃ m taken turn, w.Takes call m taken ∧
      w.pool.move? m = some turn ∧ t = taken.after call now turn := by
  unfold callTurn at h
  dsimp only at h
  split at h
  · exact ⟨.drop call, _, _, .gaveUp, rfl, (Option.some.inj h).symm⟩
  generalize hevent : (w.pool.active? call).bind
    (fun run => w.nextEvent? call run now s c) = event? at h
  split at h
  · next turn hturn =>
      refine ⟨.turn call now s.active event?, _, turn, ?_, hturn, (Option.some.inj h).symm⟩
      split
      · next k result =>
          obtain ⟨run, -, hnext⟩ := Option.bind_eq_some_iff.mp hevent
          obtain ⟨x, hended, rfl, rfl⟩ := joined_of_nextEvent? hnext
          exact .joined hended
      · next hother => exact .other hother
  · split at h
    · exact ⟨.drop call, _, _, .brokeOff, rfl, (Option.some.inj h).symm⟩
    · cases h

theorem call?_of_takes {m : Pool.Move} {w' : Workplace} (h : w.Takes call m w') :
    m.call? = some call := by
  cases h <;> rfl

theorem length_started_foldl_carryOut (effects : List Effect) :
    (effects.foldl (carryOut call now) t).started.length =
      t.started.length + (starts (Effect.entries effects)).length := by
  induction effects generalizing t with
  | nil => rfl
  | cons effect effects ih =>
      rw [List.foldl_cons, ih, Effect.entries_cons, starts_append, List.length_append]
      cases effect <;> simp [carryOut, Nat.add_assoc]

theorem move_of_callTurn {s : Recorder} {c : LoadConfig} (h : w.callTurn call now s c = some t) :
    ∃ m effects, w.pool.move? m = some (t.place.pool, effects) ∧ m.call? = some call ∧
      t.started.length = (starts (Effect.entries effects)).length := by
  obtain ⟨m, taken, ⟨q, effects⟩, htakes, hmove, rfl⟩ := takes_of_callTurn h
  refine ⟨m, effects, by rw [pool_after, hmove], call?_of_takes htakes, ?_⟩
  rw [after, length_started_foldl_carryOut]
  simp

theorem pool_invocationTurn {number : Nat} {w' : Workplace} {errors : Nat} {calls : List Nat}
    (h : w.invocationTurn number now = some (w', errors, calls)) : w'.pool = w.pool := by
  unfold invocationTurn at h
  dsimp only at h
  split at h
  · simp at h
  · split at h
    · obtain ⟨rfl, -⟩ := Prod.mk.inj (Option.some.inj h)
      rfl
    · split at h
      · obtain ⟨rfl, -⟩ := Prod.mk.inj (Option.some.inj h)
        rfl
      · simp at h

end

def fresh (workload : Workload) (s : Settings) (c : ScalingConfig) : Workplace :=
  { workload, pool := .fresh s c }

inductive Move
  | call
  | abort
  | giveUp (call : Nat)
  | turn (call : Nat) (now : Moment) (recorder : Recorder) (evaluator : LoadConfig)
  | poll (number : Nat) (now : Moment)

/-- The workplace after a move and the numbers of the invocations started, or nothing where a
call or an invocation has to wait.  An abort that is refused changes nothing. -/
def move? (w : Workplace) : Move → Option (Workplace × List Nat)
  | .call => some ({ w with pool := w.pool.call }, [])
  | .abort =>
      match w.pool.abort with
      | .ok (pool, _) => some ({ w with pool }, [])
      | .error _ => some (w, [])
  | .giveUp call => some ({ w with doomed := call :: w.doomed }, [])
  | .turn call now recorder evaluator =>
      (w.callTurn call now recorder evaluator).map fun t => (t.place, t.started)
  | .poll number now => (w.invocationTurn number now).map fun (place, _, _) => (place, [])

namespace Move

def turnAtOnce (call : Nat) : Move :=
  turn call ⟨0⟩ { config := {}, bus := .ofCapacity 1, history? := some .empty } {}

def pollAtOnce (number : Nat) : Move := poll number ⟨0⟩

def call? : Move → Option Nat
  | turn i _ _ _ => some i
  | call | abort | giveUp _ | poll _ _ => none

end Move

structure Step where
  before : Workplace
  move : Move
  after : Workplace
  started : List Nat

inductive Execution (origin : Workplace) : List Step → Workplace → Prop
  | start : Execution origin [] origin
  | next {steps : List Step} {w w' : Workplace} {m : Move} {started : List Nat} :
      Execution origin steps w → w.move? m = some (w', started) →
      Execution origin (steps ++ [⟨w, m, w', started⟩]) w'

/-- The invocations that a sequence of steps has started, each with the call that has started
it. -/
def launches (steps : List Step) : List (Nat × Nat) :=
  steps.flatMap fun e => e.move.call?.toList.flatMap fun call => e.started.map (call, ·)

section

variable {origin w w' w'' : Workplace} {steps later : List Step} {m : Move} {started : List Nat}

@[simp] theorem launches_append (steps later : List Step) :
    launches (steps ++ later) = launches steps ++ launches later :=
  List.flatMap_append

theorem Execution.trans (hfirst : Execution origin steps w) (hrest : Execution w later w') :
    Execution origin (steps ++ later) w' := by
  induction hrest with
  | start => simpa using hfirst
  | next _ hmove ih =>
      rw [← List.append_assoc]
      exact ih.next hmove

def play (w : Workplace) : List Move → Option (List Step × Workplace)
  | [] => some ([], w)
  | m :: moves =>
      match w.move? m with
      | none => none
      | some (w', started) =>
          (play w' moves).map fun (steps, w'') => (⟨w, m, w', started⟩ :: steps, w'')

theorem execution_of_play {moves : List Move} (h : w.play moves = some (steps, w')) :
    Execution w steps w' := by
  induction moves generalizing w steps with
  | nil =>
      obtain ⟨rfl, rfl⟩ : [] = steps ∧ w = w' := by simpa [play] using h
      exact .start
  | cons m moves ih =>
      unfold play at h
      split at h
      · simp at h
      · next place started hmove =>
          obtain ⟨⟨rest, last⟩, hrest, heq⟩ := Option.map_eq_some_iff.mp h
          obtain ⟨rfl, rfl⟩ : ⟨w, m, place, started⟩ :: rest = steps ∧ last = w' := by
            simpa using heq
          have hone : Execution w ([] ++ [⟨w, m, place, started⟩]) place :=
            Execution.start.next hmove
          exact hone.trans (ih hrest)

theorem countP_launches_singleton (e : Step) (i : Nat) :
    (launches [e]).countP (·.1 = i) = if e.move.call? = some i then e.started.length else 0 := by
  rcases hcall : e.move.call? with _ | call
  · simp [launches, hcall]
  · by_cases hi : call = i <;> simp [launches, hcall, hi, List.countP_map, Function.comp_def]

/-- The pool moves at most once, and starts what the workplace is said to start. -/
theorem pool_of_move (h : w.move? m = some (w', started)) :
    w'.pool = w.pool ∧ started = [] ∨ ∃ move effects,
      w.pool.move? move = some (w'.pool, effects) ∧ move.call? = m.call? ∧
        started.length = (starts (Effect.entries effects)).length := by
  cases m with
  | call =>
      obtain ⟨rfl, rfl⟩ := Prod.mk.inj (Option.some.inj h)
      exact .inr ⟨.call, [], rfl, rfl, rfl⟩
  | abort =>
      simp only [move?] at h
      split at h
      · next pool effects habort =>
          obtain ⟨rfl, rfl⟩ := Prod.mk.inj (Option.some.inj h)
          refine .inr ⟨.abort, effects, by simp [Pool.move?, habort], rfl, ?_⟩
          unfold Pool.abort at habort
          split at habort
          · obtain ⟨-, rfl⟩ := Prod.mk.inj (Except.ok.inj habort)
            rfl
          · simp at habort
      · obtain ⟨rfl, rfl⟩ := Prod.mk.inj (Option.some.inj h)
        exact .inl ⟨rfl, rfl⟩
  | giveUp call =>
      obtain ⟨rfl, rfl⟩ := Prod.mk.inj (Option.some.inj h)
      exact .inl ⟨rfl, rfl⟩
  | turn call now recorder evaluator =>
      obtain ⟨t, hturn, heq⟩ := Option.map_eq_some_iff.mp h
      obtain ⟨rfl, rfl⟩ := Prod.mk.inj heq
      exact .inr (move_of_callTurn hturn)
  | poll number now =>
      obtain ⟨⟨place, errors, calls⟩, hturn, heq⟩ := Option.map_eq_some_iff.mp h
      obtain ⟨rfl, rfl⟩ := Prod.mk.inj heq
      exact .inl ⟨pool_invocationTurn hturn, rfl⟩

/-- The pool of a workplace is reached by an execution of the pool, whose journals show as many
starts of each call as the workplace has launched. -/
theorem Execution.pool (h : Execution origin steps w) : ∃ moves,
    Pool.Execution origin.pool moves w.pool ∧
      ∀ i, (starts (Pool.journal i moves)).length = (launches steps).countP (·.1 = i) := by
  induction h with
  | start => exact ⟨[], .start, fun i => rfl⟩
  | @next steps before after m started _ hmove ih =>
      obtain ⟨moves, hmoves, hcount⟩ := ih
      rcases pool_of_move hmove with ⟨hsame, rfl⟩ | ⟨move, effects, hpool, hcall, hlength⟩
      · refine ⟨moves, hsame ▸ hmoves, fun i => ?_⟩
        rw [hcount, launches_append, List.countP_append, countP_launches_singleton]
        simp
      · refine ⟨_, hmoves.next hpool, fun i => ?_⟩
        rw [Pool.journal_append, Pool.journal_singleton, starts_append,
          List.length_append, hcount, Pool.Step.starts_entries, launches_append,
          List.countP_append, countP_launches_singleton, hcall, hlength]
        split <;> rfl

end

end Workplace

end Simulation

end ElasticPool
