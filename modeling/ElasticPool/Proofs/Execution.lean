import ElasticPool.Pool
/-!
Executions of a pool and the journals of its calls.

An execution is any sequence of moves that the pool allows: calls of `run`, turns of
calls over events in any order, aborts, and calls that are given up.  The journal of a
call lists what its run asked, started and met, in the order in which it happened.
-/

namespace ElasticPool

namespace Journal

inductive Question
  | finished
  | ready
  deriving DecidableEq, Repr

/-- What is seen of a run from outside. -/
inductive Entry
  | asked (question : Question)
  | answered (question : Question) (yes : Bool)
  | started (invocation : Nat)
  | joined (invocation : Nat) (result : Except String Unit)
  | evaluated (load : Except RecorderFault SystemLoad)
  | cancelled (invocations : List Nat)

namespace Entry

@[simp] def question? : Entry → Option Question
  | asked question | answered question _ => some question
  | started _ | joined .. | evaluated _ | cancelled _ => none

@[simp] def error? : Entry → Option String
  | joined _ (.error cause) => some cause
  | _ => none

@[simp] def started? : Entry → Option Nat
  | started invocation => some invocation
  | _ => none

end Entry

def firstError? (j : List Entry) : Option String := j.findSome? Entry.error?

def starts (j : List Entry) : List Nat := j.filterMap Entry.started?

/-- The latest entry that asks or answers any question. -/
def latest? (j : List Entry) : Option Entry := j.reverse.find? (·.question?.isSome)

def latestOn? (question : Question) (j : List Entry) : Option Entry :=
  j.reverse.find? (·.question? = some question)

@[simp] theorem starts_nil : starts [] = [] := rfl

@[simp] theorem starts_cons (entry : Entry) (j : List Entry) :
    starts (entry :: j) = entry.started?.toList ++ starts j := by
  unfold starts
  rw [List.filterMap_cons]
  split <;> simp_all

@[simp] theorem firstError?_append (j j' : List Entry) :
    firstError? (j ++ j') = (firstError? j).or (firstError? j') :=
  List.findSome?_append

@[simp] theorem firstError?_nil : firstError? [] = none := rfl

@[simp] theorem firstError?_cons (entry : Entry) (j : List Entry) :
    firstError? (entry :: j) = entry.error?.or (firstError? j) := by
  unfold firstError?
  rw [List.findSome?_cons]
  split <;> simp_all

@[simp] theorem starts_append (j j' : List Entry) :
    starts (j ++ j') = starts j ++ starts j' :=
  List.filterMap_append

@[simp] theorem latest?_append (j j' : List Entry) :
    latest? (j ++ j') = (latest? j').or (latest? j) := by
  simp [latest?]

@[simp] theorem latestOn?_append (question : Question) (j j' : List Entry) :
    latestOn? question (j ++ j') = (latestOn? question j').or (latestOn? question j) := by
  simp [latestOn?]

theorem mem_of_latestOn?_eq {question : Question} {j : List Entry} {entry : Entry}
    (h : latestOn? question j = some entry) : entry ∈ j :=
  List.mem_reverse.mp (List.mem_of_find?_eq_some h)

theorem mem_starts {j : List Entry} {k : Nat} : k ∈ starts j ↔ Entry.started k ∈ j := by
  simp only [starts, List.mem_filterMap]
  constructor
  · rintro ⟨entry, hmem, hstarted⟩
    cases entry <;> simp_all [Entry.started?]
  · intro hmem
    exact ⟨_, hmem, rfl⟩

end Journal

open Journal

@[simp] def Dispatch.question? : Dispatch → Option Question
  | askedFinished => some .finished
  | askedReady => some .ready
  | idle | waiting _ | parked => none

/-- What an event shows, for a run with the given open question. -/
@[simp] def RunEvent.entry? (open? : Option Question) : RunEvent → Option Entry
  | joined invocation result => some (.joined invocation result)
  | scaleTick load => some (.evaluated load)
  | answered yes => open?.map (.answered · yes)
  | statusTick _ | waited => none

@[simp] def Effect.entry? : Effect → Option Entry
  | askFinished => some (.asked .finished)
  | askReady => some (.asked .ready)
  | start invocation => some (.started invocation)
  | cancel invocations => some (.cancelled invocations)
  | report _ => none

def Effect.entries (effects : List Effect) : List Entry := effects.filterMap Effect.entry?

@[simp] theorem Effect.entries_nil : Effect.entries [] = [] := rfl

@[simp] theorem Effect.entries_cons (effect : Effect) (effects : List Effect) :
    Effect.entries (effect :: effects) = effect.entry?.toList ++ Effect.entries effects := by
  unfold Effect.entries
  rw [List.filterMap_cons]
  split <;> simp_all

@[simp] theorem Effect.entries_reports (signals : List Signal) :
    Effect.entries (signals.map .report) = [] := by
  simp [Effect.entries, Function.comp_def]

@[simp] theorem Effect.entries_append (effects effects' : List Effect) :
    Effect.entries (effects ++ effects') = Effect.entries effects ++ Effect.entries effects' :=
  List.filterMap_append

theorem Effect.joined_not_mem_entries (effects : List Effect) (k : Nat)
    (result : Except String Unit) : .joined k result ∉ Effect.entries effects := by
  rw [Effect.entries, List.mem_filterMap]
  rintro ⟨effect, -, hentry⟩
  cases effect <;> simp at hentry

theorem RunEvent.starts_entry? (event : RunEvent) (open? : Option Question) :
    starts (event.entry? open?).toList = [] := by
  cases event with
  | answered yes => cases open? <;> simp
  | joined _ _ | scaleTick _ | statusTick _ | waited => simp

namespace Pool

variable {α : Type}

def fresh (settings : Settings) (config : ScalingConfig) : Pool α := { settings, config }

inductive Move
  | call
  | turn (call : Nat) (now : Moment) (sampling : Bool) (event? : Option RunEvent)
  | abort
  | drop (call : Nat)

def Move.call? : Move → Option Nat
  | turn i _ _ _ | drop i => some i
  | call | abort => none

namespace Move

def enter : Move := turn 0 ⟨0⟩ true none

def answer (yes : Bool) : Move := turn 0 ⟨0⟩ true (some (.answered yes))

def join (invocation : Nat) (result : Except String Unit) : Move :=
  turn 0 ⟨0⟩ true (some (.joined invocation result))

end Move

/-- The pool after a move and what the move does outside, or nothing where the call has
to wait.  An abort that is refused changes nothing. -/
def move? [Scalar α] (p : Pool α) : Move → Option (Pool α × List Effect)
  | .call => some (p.call, [])
  | .turn i now sampling event? => p.turn i now sampling event?
  | .abort =>
      match p.abort with
      | .ok aborted => some aborted
      | .error _ => some (p, [])
  | .drop i => some (p.drop i)

structure Step (α : Type) where
  before : Pool α
  move : Move
  effects : List Effect
  after : Pool α

inductive Execution [Scalar α] (origin : Pool α) : List (Step α) → Pool α → Prop
  | start : Execution origin [] origin
  | next {steps : List (Step α)} {p q : Pool α} {m : Move} {effects : List Effect} :
      Execution origin steps p → p.move? m = some (q, effects) →
      Execution origin (steps ++ [⟨p, m, effects, q⟩]) q

namespace Step

def Begins (e : Step α) : Prop := e.before.phase ≠ .running ∧ e.after.phase = .running

/-- What the event of a step shows.  A call that is not active takes no event, and
neither does a cancelled run. -/
def taken? (e : Step α) : Option Entry :=
  match e.move with
  | .turn i _ _ (some event) =>
      match e.before.active? i with
      | some run => if run.cancelled then none else event.entry? run.dispatch.question?
      | none => none
  | _ => none

/-- What a step shows of a call: first the event, then what the turn did about it. -/
def entries (e : Step α) (i : Nat) : List Entry :=
  if e.move.call? = some i then e.taken?.toList ++ Effect.entries e.effects else []

end Step

theorem Step.starts_entries (e : Step α) (i : Nat) :
    starts (e.entries i) =
      if e.move.call? = some i then starts (Effect.entries e.effects) else [] := by
  have htaken : starts e.taken?.toList = [] := by
    unfold taken?
    repeat' split
    all_goals first | rfl | exact RunEvent.starts_entry? _ _
  unfold entries
  split <;> simp [htaken]

def journal (i : Nat) (steps : List (Step α)) : List Entry := steps.flatMap (·.entries i)

@[simp] theorem journal_nil (i : Nat) : journal i ([] : List (Step α)) = [] := rfl

@[simp] theorem journal_append (i : Nat) (steps steps' : List (Step α)) :
    journal i (steps ++ steps') = journal i steps ++ journal i steps' :=
  List.flatMap_append

@[simp] theorem journal_singleton (i : Nat) (e : Step α) : journal i [e] = e.entries i := by
  simp [journal]

section

variable [Scalar α] {origin p q : Pool α} {steps steps' : List (Step α)}

theorem Execution.trans (hfirst : Execution origin steps p) (hrest : Execution p steps' q) :
    Execution origin (steps ++ steps') q := by
  induction hrest with
  | start => simpa using hfirst
  | next _ hmove ih =>
      rw [← List.append_assoc]
      exact ih.next hmove

theorem Execution.of_append_cons {e : Step α} (h : Execution origin (steps ++ e :: steps') q) :
    Execution origin steps e.before ∧ e.before.move? e.move = some (e.after, e.effects) := by
  generalize hall : steps ++ e :: steps' = all at h
  induction h generalizing steps' with
  | start => simp at hall
  | @next before p q m effects hbefore hmove ih =>
      rcases List.eq_nil_or_concat steps' with rfl | ⟨init, last, rfl⟩
      · obtain ⟨rfl, hlast⟩ := List.append_inj' hall rfl
        obtain rfl : e = ⟨p, m, effects, q⟩ := by simpa using hlast
        exact ⟨hbefore, hmove⟩
      · rw [List.concat_eq_append, ← List.cons_append, ← List.append_assoc] at hall
        exact ih (List.append_inj' hall rfl).1

theorem Execution.after_append_cons {e : Step α}
    (h : Execution origin (steps ++ e :: steps') q) : Execution e.after steps' q := by
  generalize hall : steps ++ e :: steps' = all at h
  induction h generalizing steps' with
  | start => simp at hall
  | @next before p q m effects _ hmove ih =>
      rcases List.eq_nil_or_concat steps' with rfl | ⟨init, last, rfl⟩
      · obtain ⟨rfl, hlast⟩ := List.append_inj' hall rfl
        obtain rfl : e = ⟨p, m, effects, q⟩ := by simpa using hlast
        exact .start
      · rw [List.concat_eq_append, ← List.cons_append, ← List.append_assoc] at hall
        obtain ⟨hinit, hlast⟩ := List.append_inj' hall rfl
        obtain rfl : last = ⟨p, m, effects, q⟩ := by simpa using hlast
        rw [List.concat_eq_append]
        exact (ih hinit).next hmove

theorem Execution.of_mem {e : Step α} (h : Execution origin steps p) (hmem : e ∈ steps) :
    ∃ earlier later, steps = earlier ++ e :: later ∧ Execution origin earlier e.before ∧
      e.before.move? e.move = some (e.after, e.effects) := by
  obtain ⟨earlier, later, rfl⟩ := List.append_of_mem hmem
  exact ⟨earlier, later, rfl, h.of_append_cons⟩

def play (p : Pool α) : List Move → Option (List (Step α) × Pool α)
  | [] => some ([], p)
  | m :: moves =>
      match p.move? m with
      | none => none
      | some (q, effects) =>
          (play q moves).map fun (steps, r) => (⟨p, m, effects, q⟩ :: steps, r)

theorem execution_of_play {moves : List Move} (h : p.play moves = some (steps, q)) :
    Execution p steps q := by
  induction moves generalizing p steps with
  | nil =>
      obtain ⟨rfl, rfl⟩ : [] = steps ∧ p = q := by simpa [play] using h
      exact .start
  | cons m moves ih =>
      unfold play at h
      split at h
      · simp at h
      · rename_i r effects hmove
        obtain ⟨⟨rest, q'⟩, hrest, heq⟩ := Option.map_eq_some_iff.mp h
        obtain ⟨rfl, rfl⟩ : ⟨p, m, effects, r⟩ :: rest = steps ∧ q' = q := by simpa using heq
        have hone : Execution p ([] ++ [⟨p, m, effects, r⟩]) r := Execution.start.next hmove
        exact hone.trans (ih hrest)

end

end Pool

end ElasticPool
