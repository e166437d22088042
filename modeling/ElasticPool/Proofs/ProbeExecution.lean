import ElasticPool.Probe.Session
import ElasticPool.Proofs.NumberedEntries
import ElasticPool.Proofs.ScriptExecution
import ElasticPool.Proofs.TickSeries

namespace ElasticPool.Probe

open Ticker (Tick)

inductive Move
  | start
  | stop
  | release
  | turn (task : Nat) (now : Moment)

def move? (m : Probe) : Move → Option Probe
  | .start => some m.start.2
  | .stop => some m.stop.2
  | .release => some m.release.2
  | .turn task now => (m.turn now task).map Prod.fst

def pending (m : Probe) (publisher : Publisher) (now : Moment) : Ticker :=
  publisher.ticker?.getD (.start .skip m.period now)

structure Transition where
  before : Probe
  move : Move
  after : Probe

namespace Transition

def reading? (e : Transition) : Option (Nat × Tick) :=
  match e.move with
  | .turn task now =>
      match e.before.publishers.lookup task with
      | some publisher =>
          if publisher.stopping then none
          else some (task, ⟨(e.before.pending publisher now).due, now⟩)
      | none => none
  | .start | .stop | .release => none

def ranAt? (task : Nat) (e : Transition) : Option Moment :=
  match e.move with
  | .turn other now => if other = task then some now else none
  | .start | .stop | .release => none

end Transition

inductive Execution (origin : Probe) : List Transition → Probe → Prop
  | start : Execution origin [] origin
  | next {steps : List Transition} {m m' : Probe} {move : Move} :
      Execution origin steps m → m.move? move = some m' →
      Execution origin (steps ++ [⟨m, move, m'⟩]) m'

def play (m : Probe) : List Move → List Transition → Option (List Transition × Probe)
  | [], done => some (done, m)
  | move :: moves, done =>
      match m.move? move with
      | none => none
      | some m' => play m' moves (done ++ [⟨m, move, m'⟩])

def allReadings (steps : List Transition) : List (Nat × Tick) :=
  steps.filterMap Transition.reading?

def readings (task : Nat) (steps : List Transition) : List Tick :=
  ((allReadings steps).filter (·.1 = task)).map Prod.snd

def firstRun? (task : Nat) (steps : List Transition) : Option Moment :=
  steps.findSome? (·.ranAt? task)

variable {origin m m' : Probe} {move : Move} {e : Transition} {steps done : List Transition}
  {task : Nat}

theorem execution_of_play {moves : List Move} (hdone : Execution origin done m)
    (h : m.play moves done = some (steps, m')) : Execution origin steps m' := by
  induction moves generalizing m done with
  | nil =>
      obtain ⟨rfl, rfl⟩ := Prod.mk.inj (Option.some.inj h)
      exact hdone
  | cons move moves ih =>
      unfold play at h
      split at h
      · cases h
      · rename_i hmove
        exact ih (hdone.next hmove) h

theorem allReadings_concat (steps : List Transition) (e : Transition) :
    allReadings (steps ++ [e]) = allReadings steps ++ e.reading?.toList := by
  cases h : e.reading? <;> simp [allReadings, h]

theorem firstRun?_concat (task : Nat) (steps : List Transition) (e : Transition) :
    firstRun? task (steps ++ [e]) = (firstRun? task steps).or (e.ranAt? task) := by
  simp [firstRun?, List.findSome?_append, List.findSome?_singleton]

inductive Effect (m : Probe) : Move → Probe → Prop
  | started (hfree : m.registered? = none) : Effect m .start { m with
      registered? := some m.starts
      publishers := m.publishers ++ [(m.starts, {})]
      starts := m.starts + 1 }
  | refused (h : m.registered?.isSome ∨ m.released) : Effect m .start m
  | withdrawn {move : Move} {task : Nat} {released : Bool}
      (hmove : move = .stop ∨ move = .release) (hregistered : m.registered? = some task) :
      Effect m move { m with
        registered? := none
        publishers := m.publishers.map fun p =>
          if p.1 = task then (p.1, { p.2 with stopping := true }) else p
        released }
  | unregistered {move : Move} {released : Bool} (hmove : move = .stop ∨ move = .release)
      (hfree : m.registered? = none) : Effect m move { m with released }
  | ended {task : Nat} {now : Moment} {publisher : Publisher}
      (hfound : m.publishers.lookup task = some publisher) (hstopping : publisher.stopping) :
      Effect m (.turn task now) { m with publishers := m.publishers.filter (·.1 ≠ task) }
  | published {task : Nat} {now : Moment} {publisher : Publisher}
      (hfound : m.publishers.lookup task = some publisher) (hgoing : publisher.stopping = false)
      (hready : (m.pending publisher now).Ready now) :
      Effect m (.turn task now) { m with
        publishers := m.publishers.map fun p =>
          if p.1 = task then
            (p.1, { p.2 with ticker? := some ((m.pending publisher now).taken now) })
          else p
        published := now :: m.published }

theorem stop_of_registered (h : m.registered? = some task) : m.stop = (some task, { m with
    registered? := none
    publishers := m.publishers.map fun p =>
      if p.1 = task then (p.1, { p.2 with stopping := true }) else p }) := by
  rw [stop, h]

theorem stop_of_unregistered (h : m.registered? = none) : m.stop = (none, m) := by
  rw [stop, h]

theorem start_of_registered (h : m.registered?.isSome) : m.start = (none, m) := by
  rw [start, if_pos (.inl h)]

theorem effect_of_move (h : m.move? move = some m') : Effect m move m' := by
  cases move with
  | start =>
      rw [move?, start] at h
      split at h
      · rename_i hrefused
        obtain rfl := Option.some.inj h
        exact .refused hrefused
      · rename_i hfree
        obtain rfl := Option.some.inj h
        exact .started (by simpa using fun hsome => hfree (.inl hsome))
  | stop =>
      obtain rfl := Option.some.inj h
      rcases hregistered : m.registered? with _ | task
      · rw [stop_of_unregistered hregistered]
        exact .unregistered (.inl rfl) hregistered
      · rw [stop_of_registered hregistered]
        exact .withdrawn (.inl rfl) hregistered
  | release =>
      obtain rfl := Option.some.inj h
      rcases hregistered : m.registered? with _ | task
      · rw [release, stop_of_unregistered hregistered]
        exact .unregistered (.inr rfl) hregistered
      · rw [release, stop_of_registered hregistered]
        exact .withdrawn (.inr rfl) hregistered
  | turn task now =>
      obtain ⟨⟨m', woken⟩, hturn, rfl⟩ := Option.map_eq_some_iff.mp h
      unfold turn at hturn
      split at hturn
      · cases hturn
      · rename_i publisher hfound
        split at hturn
        · rename_i hstopping
          obtain ⟨rfl, -⟩ := Prod.mk.inj (Option.some.inj hturn)
          exact .ended hfound hstopping
        · rename_i hgoing
          dsimp only at hturn
          split at hturn
          · rename_i hready
            obtain ⟨rfl, -⟩ := Prod.mk.inj (Option.some.inj hturn)
            exact .published hfound (by simpa using hgoing) hready
          · cases hturn

theorem Effect.period (h : Effect m move m') : m'.period = m.period := by
  cases h <;> rfl

theorem Effect.published_eq (h : Effect m move m') : m'.published =
    ((⟨m, move, m'⟩ : Transition).reading?.toList.map (·.2.takenAt)) ++ m.published := by
  cases h with
  | started | refused => rfl
  | withdrawn hmove | unregistered hmove => rcases hmove with rfl | rfl <;> rfl
  | ended hfound hstopping => simp [Transition.reading?, hfound, hstopping]
  | published hfound hgoing => simp [Transition.reading?, hfound, hgoing]

theorem published_of_execution (h : Execution origin steps m) :
    m.published = ((allReadings steps).map (·.2.takenAt)).reverse ++ origin.published := by
  induction h with
  | start => rfl
  | @next steps m m' move _ hmove ih =>
      rw [(effect_of_move hmove).published_eq, ih, allReadings_concat, List.map_append,
        List.reverse_append, List.append_assoc]
      congr 1
      cases (⟨m, move, m'⟩ : Transition).reading? <;> rfl

/-- The registered task is the one publishing task that has not been told to end. -/
structure Owned (m : Probe) : Prop where
  numbered : Numbered m.publishers m.starts
  registered_iff : ∀ task, m.registered? = some task ↔
    ∃ publisher, m.publishers.lookup task = some publisher ∧ publisher.stopping = false

namespace Owned

theorem ofInterval (interval : Span) : (Probe.ofInterval interval).Owned where
  numbered := Numbered.nil 0
  registered_iff task := by simp [Probe.ofInterval]

theorem of_effect (h : m.Owned) (heffect : m.Effect move m') : m'.Owned := by
  cases heffect with
  | started hfree =>
      refine ⟨h.numbered.add {}, ?_⟩
      intro task
      by_cases htask : task = m.starts
      · rw [htask, h.numbered.lookup_add]
        simp
      · rw [lookup_add_of_ne _ htask, ← h.registered_iff, hfree]
        simp [Ne.symm htask]
  | refused | unregistered => exact ⟨h.numbered, h.registered_iff⟩
  | @withdrawn _ registered _ _ hregistered =>
      let told := fun publisher : Publisher => { publisher with stopping := true }
      have hlookup := lookup_update m.publishers registered (f := told)
      refine ⟨h.numbered.update registered told, ?_⟩
      intro task
      dsimp only [told] at hlookup ⊢
      rw [hlookup]
      split
      case isTrue => simp
      case isFalse hother =>
          rw [← h.registered_iff, hregistered]
          simp [Ne.symm hother]
  | @ended ended _ publisher hfound hstopping =>
      refine ⟨h.numbered.remove ended, ?_⟩
      intro task
      by_cases htask : task = ended
      · rw [htask, lookup_remove_self, h.registered_iff, hfound]
        simp [hstopping]
      · rw [lookup_remove _ htask, h.registered_iff]
  | @published running now publisher hfound hgoing _ =>
      let next := fun publisher' : Publisher =>
        { publisher' with ticker? := some ((m.pending publisher now).taken now) }
      have hlookup := lookup_update m.publishers running (f := next)
      refine ⟨h.numbered.update running next, ?_⟩
      intro task
      dsimp only [next] at hlookup ⊢
      rw [h.registered_iff, hlookup]
      split
      case isTrue htask => simp [htask, hfound]
      case isFalse => rfl

end Owned

theorem owned_of_execution (h : Execution origin steps m) (horigin : origin.Owned) :
    m.Owned ∧ ∀ e ∈ steps, e.before.Owned := by
  induction h with
  | start => exact ⟨horigin, by simp⟩
  | next _ hmove ih =>
      obtain ⟨howned, hearlier⟩ := ih
      refine ⟨howned.of_effect (effect_of_move hmove), ?_⟩
      rw [List.forall_mem_append, List.forall_mem_singleton]
      exact ⟨hearlier, howned⟩

/-- The task has been started and has lost its registration. -/
def Retired (m : Probe) (task : Nat) : Prop := task < m.starts ∧ m.registered? ≠ some task

theorem Retired.of_effect (h : m.Retired task) (heffect : Effect m move m') :
    m'.Retired task := by
  obtain ⟨hstarted, hunregistered⟩ := h
  cases heffect with
  | started =>
      refine ⟨Nat.lt_succ_of_lt hstarted, ?_⟩
      rintro hsame
      exact Nat.ne_of_lt hstarted (Option.some.inj hsame).symm
  | withdrawn => exact ⟨hstarted, by simp⟩
  | refused | unregistered | ended | published => exact ⟨hstarted, hunregistered⟩

theorem readings_concat (task : Nat) (steps : List Transition) (e : Transition) :
    readings task (steps ++ [e]) = readings task steps ++ readings task [e] := by
  simp [readings, allReadings, List.filterMap_append]

theorem readings_of_not_ran (h : e.ranAt? task = none) : readings task [e] = [] := by
  rcases hmove : e.move with _ | _ | _ | ⟨other, now⟩
  · simp [readings, allReadings, Transition.reading?, hmove]
  · simp [readings, allReadings, Transition.reading?, hmove]
  · simp [readings, allReadings, Transition.reading?, hmove]
  · have hother : other ≠ task := by
      rintro rfl
      simp [Transition.ranAt?, hmove] at h
    rcases hfound : e.before.publishers.lookup other with _ | publisher
    · simp [readings, allReadings, Transition.reading?, hmove, hfound]
    · cases hstopping : publisher.stopping <;>
        simp [readings, allReadings, Transition.reading?, hmove, hfound, hstopping, hother]

/-- The other steps leave the ticker of a task alone. -/
theorem kept_of_not_ran (heffect : Effect m move m')
    (h : (⟨m, move, m'⟩ : Transition).ranAt? task = none) :
    m.starts ≤ m'.starts ∧ ∀ publisher', m'.publishers.lookup task = some publisher' →
      m.starts ≤ task ∧ publisher'.ticker? = none ∨
        ∃ publisher, m.publishers.lookup task = some publisher ∧
          publisher'.ticker? = publisher.ticker? := by
  -- Only a start adds a publisher, and only a turn of the task itself sets its ticker.
  cases heffect with
  | started =>
      refine ⟨Nat.le_succ _, ?_⟩
      intro publisher' hfound'
      by_cases htask : task = m.starts
      · rcases hold : m.publishers.lookup task with _ | publisher
        · rw [List.lookup_append, hold, htask] at hfound'
          obtain rfl : ({} : Publisher) = publisher' := by simpa using hfound'
          exact .inl ⟨htask.ge, rfl⟩
        · rw [List.lookup_append, hold] at hfound'
          obtain rfl := Option.some.inj hfound'
          exact .inr ⟨publisher, rfl, rfl⟩
      · rw [lookup_add_of_ne _ htask] at hfound'
        exact .inr ⟨publisher', hfound', rfl⟩
  | refused | unregistered => exact ⟨Nat.le_refl _, fun _ hfound => .inr ⟨_, hfound, rfl⟩⟩
  | @withdrawn _ registered _ _ _ =>
      let told := fun publisher : Publisher => { publisher with stopping := true }
      have hlookup := lookup_update m.publishers registered (f := told)
      refine ⟨Nat.le_refl _, ?_⟩
      intro publisher' hfound'
      dsimp only [told] at hlookup hfound'
      rw [hlookup] at hfound'
      split at hfound'
      · obtain ⟨publisher, hfound, rfl⟩ := Option.map_eq_some_iff.mp hfound'
        exact .inr ⟨publisher, hfound, rfl⟩
      · exact .inr ⟨publisher', hfound', rfl⟩
  | @ended other now publisher hfound hstopping =>
      have hother : task ≠ other := by
        rintro rfl
        simp [Transition.ranAt?] at h
      refine ⟨Nat.le_refl _, ?_⟩
      intro publisher' hfound'
      rw [lookup_remove _ hother] at hfound'
      exact .inr ⟨publisher', hfound', rfl⟩
  | @published other now publisher hfound hgoing hready =>
      have hother : task ≠ other := by
        rintro rfl
        simp [Transition.ranAt?] at h
      let next := fun publisher' : Publisher =>
        { publisher' with ticker? := some ((m.pending publisher now).taken now) }
      have hlookup := lookup_update m.publishers other (f := next)
      refine ⟨Nat.le_refl _, ?_⟩
      intro publisher' hfound'
      dsimp only [next] at hlookup hfound'
      rw [hlookup, if_neg hother] at hfound'
      exact .inr ⟨publisher', hfound', rfl⟩

/-- What a task has come to that first ran at the given moment and took the given ticks. -/
structure Series (m : Probe) (task : Nat) (first? : Option Moment) (ticks : List Tick) :
    Prop where
  unborn : m.starts ≤ task → first? = none
  idle : first? = none → ticks = [] ∧
    ∀ publisher, m.publishers.lookup task = some publisher → publisher.ticker? = none
  running : ∀ first, first? = some first →
    ∃ last, (Ticker.start .skip m.period first).Takes ticks last ∧
      ∀ publisher, m.publishers.lookup task = some publisher → publisher.ticker? = some last

namespace Series

variable {first? : Option Moment} {ticks : List Tick}

theorem of_kept (h : m.Series task first? ticks) (hperiod : m'.period = m.period)
    (hstarts : m.starts ≤ m'.starts)
    (hkept : ∀ publisher', m'.publishers.lookup task = some publisher' →
      m.starts ≤ task ∧ publisher'.ticker? = none ∨
        ∃ publisher, m.publishers.lookup task = some publisher ∧
          publisher'.ticker? = publisher.ticker?) :
    m'.Series task first? ticks where
  unborn htask := h.unborn (hstarts.trans htask)
  idle hfirst := by
    obtain ⟨hticks, hidle⟩ := h.idle hfirst
    refine ⟨hticks, ?_⟩
    intro publisher' hfound'
    rcases hkept publisher' hfound' with ⟨-, hnone⟩ | ⟨publisher, hfound, hsame⟩
    · exact hnone
    · exact hsame.trans (hidle publisher hfound)
  running first hfirst := by
    obtain ⟨last, htakes, hlast⟩ := h.running first hfirst
    refine ⟨last, hperiod ▸ htakes, ?_⟩
    intro publisher' hfound'
    rcases hkept publisher' hfound' with ⟨hunborn, -⟩ | ⟨publisher, hfound, hsame⟩
    · simp [h.unborn hunborn] at hfirst
    · exact hsame.trans (hlast publisher hfound)

theorem pending (h : m.Series task first? ticks) {publisher : Publisher}
    (hfound : m.publishers.lookup task = some publisher) (now : Moment) :
    ∃ first, first?.or (some now) = some first ∧
      (Ticker.start .skip m.period first).Takes ticks (m.pending publisher now) := by
  cases first? with
  | none =>
      obtain ⟨rfl, hidle⟩ := h.idle rfl
      refine ⟨now, rfl, ?_⟩
      rw [Probe.pending, hidle publisher hfound]
      exact .none
  | some first =>
      obtain ⟨last, htakes, hlast⟩ := h.running first rfl
      refine ⟨first, rfl, ?_⟩
      rw [Probe.pending, hlast publisher hfound]
      exact htakes

theorem of_turn (h : m.Series task first? ticks) (howned : m.Owned) {now : Moment}
    (heffect : Effect m (.turn task now) m') :
    m'.Series task (first?.or (some now))
      (ticks ++ readings task [⟨m, .turn task now, m'⟩]) := by
  cases heffect with
  | withdrawn hmove | unregistered hmove => simp at hmove
  | ended hfound hstopping =>
      obtain ⟨first, hfirst, htakes⟩ := h.pending hfound now
      have hnone : readings task [(⟨m, .turn task now,
          { m with publishers := m.publishers.filter (·.1 ≠ task) }⟩ : Transition)] = [] := by
        simp [readings, allReadings, Transition.reading?, hfound, hstopping]
      rw [hfirst, hnone, List.append_nil]
      refine ⟨fun hunborn => ?_, by simp, ?_⟩
      · exact absurd hunborn (Nat.not_le.mpr (howned.numbered.below _ (lookup_mem hfound)))
      · intro first' hsame
        obtain rfl := Option.some.inj hsame
        refine ⟨_, htakes, ?_⟩
        intro publisher' hfound'
        rw [lookup_remove_self] at hfound'
        cases hfound'
  | @published _ _ publisher hfound hgoing hready =>
      obtain ⟨first, hfirst, htakes⟩ := h.pending hfound now
      let next := fun publisher' : Publisher =>
        { publisher' with ticker? := some ((m.pending publisher now).taken now) }
      have hlookup := lookup_update m.publishers task (f := next)
      rw [hfirst]
      refine ⟨fun hunborn => ?_, by simp, ?_⟩
      · exact absurd hunborn (Nat.not_le.mpr (howned.numbered.below _ (lookup_mem hfound)))
      · intro first' hsame
        obtain rfl := Option.some.inj hsame
        refine ⟨(m.pending publisher now).taken now, ?_, ?_⟩
        · simpa [readings, allReadings, Transition.reading?, hfound, hgoing] using
            htakes.next hready
        · intro publisher' hfound'
          dsimp only [next] at hlookup hfound'
          rw [hlookup, if_pos rfl, hfound] at hfound'
          obtain rfl := Option.some.inj hfound'
          rfl

theorem of_effect (h : m.Series task first? ticks) (howned : m.Owned)
    (heffect : Effect m move m') :
    m'.Series task (first?.or (Transition.ranAt? task ⟨m, move, m'⟩))
      (ticks ++ readings task [⟨m, move, m'⟩]) := by
  cases hran : Transition.ranAt? task ⟨m, move, m'⟩ with
  | none =>
      obtain ⟨hstarts, hkept⟩ := kept_of_not_ran heffect hran
      rw [readings_of_not_ran hran, List.append_nil, Option.or_none]
      exact h.of_kept heffect.period hstarts hkept
  | some now =>
      obtain rfl : move = .turn task now := by
        unfold Transition.ranAt? at hran
        split at hran
        · split at hran
          · simp_all
          · cases hran
        all_goals cases hran
      exact h.of_turn howned heffect

end Series

theorem series_of_execution (h : Execution origin steps m) (horigin : origin.Owned)
    (hfirst : origin.Series task none []) :
    m.Series task (firstRun? task steps) (readings task steps) := by
  induction h with
  | start => exact hfirst
  | @next steps m m' move hsteps hmove ih =>
      rw [firstRun?_concat, readings_concat]
      exact ih.of_effect (owned_of_execution hsteps horigin).1 (effect_of_move hmove)

theorem period_of_execution (h : Execution origin steps m) : m.period = origin.period := by
  induction h with
  | start => rfl
  | next _ hmove ih => exact (effect_of_move hmove).period.trans ih

theorem Series.ofInterval (interval : Span) (task : Nat) :
    (Probe.ofInterval interval).Series task none [] where
  unborn _ := rfl
  idle _ := ⟨rfl, by simp [Probe.ofInterval]⟩
  running _ hfirst := by cases hfirst

/-- The readings of a task are the ticks of a ticker that starts with its first run. -/
theorem takes_of_execution {interval : Span} (h : Execution (.ofInterval interval) steps m)
    (task : Nat) :
    (firstRun? task steps = none → readings task steps = []) ∧
      ∀ first, firstRun? task steps = some first →
        ∃ last, (Ticker.start .skip (Probe.ofInterval interval).period first).Takes
          (readings task steps) last := by
  have hseries := series_of_execution h (Owned.ofInterval interval)
    (Series.ofInterval interval task)
  constructor
  · intro hnone
    exact (hseries.idle hnone).1
  · intro first hfirst
    obtain ⟨last, htakes, -⟩ := hseries.running first hfirst
    exact ⟨last, period_of_execution h ▸ htakes⟩

def remembering (m : Probe) (published : List Moment) : Probe := { m with published }

theorem move?_remembering (h : m.move? move = some m') (earlier : List Moment) :
    ((m.remembering (m.published ++ earlier)).move? move =
      some (m'.remembering (m'.published ++ earlier))) := by
  cases move with
  | start =>
      rw [move?, start] at h
      split at h
      · rename_i hrefused
        obtain rfl := Option.some.inj h
        exact congrArg (fun r : Option Nat × Probe => some r.2) (if_pos hrefused)
      · rename_i hfree
        obtain rfl := Option.some.inj h
        exact congrArg (fun r : Option Nat × Probe => some r.2) (if_neg hfree)
  | stop | release =>
      obtain rfl := Option.some.inj h
      cases hregistered : m.registered? <;>
        simp [move?, release, stop, remembering, hregistered]
  | turn task now =>
      obtain ⟨⟨m', woken⟩, hturn, rfl⟩ := Option.map_eq_some_iff.mp h
      unfold turn at hturn
      split at hturn
      · cases hturn
      · rename_i publisher hfound
        split at hturn
        · rename_i hstopping
          obtain ⟨rfl, -⟩ := Prod.mk.inj (Option.some.inj hturn)
          simp [move?, turn, remembering, hfound, hstopping]
        · rename_i hgoing
          dsimp only at hturn
          split at hturn
          · rename_i hready
            obtain ⟨rfl, -⟩ := Prod.mk.inj (Option.some.inj hturn)
            simp [move?, turn, remembering, hfound, hgoing, hready]
          · cases hturn

/-- An execution reaches the probe, with all that was published earlier. -/
def Reached (m origin : Probe) (earlier : List Moment) : Prop :=
  ∃ steps, Execution origin steps (m.remembering (m.published ++ earlier))

variable {earlier : List Moment} {s : Schedule Probe Nat}

theorem Reached.after (h : m.Reached origin earlier) (hmove : m.move? move = some m') :
    m'.Reached origin earlier := by
  obtain ⟨steps, hsteps⟩ := h
  exact ⟨_, hsteps.next (move?_remembering hmove earlier)⟩

theorem reached_turn {now : Moment} {woken : List Nat}
    (hturn : tasks.turn now task m = some (m', woken)) (h : m.Reached origin earlier) :
    m'.Reached origin earlier := by
  have hmove : m.move? (.turn task now) = some m' := congrArg (Option.map Prod.fst) hturn
  exact h.after hmove

theorem reached_perform (step : Step) (h : s.state.Reached origin earlier) :
    (perform step s).state.Reached origin earlier := by
  refine Schedule.settleWithin_induction reached_turn _ _ ?_
  cases step with
  | start =>
      have hmove : s.state.move? .start = some s.state.start.2 := rfl
      exact h.after hmove
  | stop =>
      have hmove : s.state.move? .stop = some s.state.stop.2 := rfl
      exact h.after hmove
  | drop =>
      have hmove : s.state.move? .release = some s.state.release.2 := rfl
      exact h.after hmove
  | advance millis => exact Schedule.advance_induction reached_turn millis s h
  | jump => exact h

theorem published_of_script (script : List Step)
    (h : ∃ steps, Execution origin steps (s.state.remembering earlier)) :
    ∃ steps m, Execution origin steps m ∧
      m.published = (publications s script).flatten.reverse ++ earlier := by
  induction script generalizing s earlier with
  | nil =>
      obtain ⟨steps, hsteps⟩ := h
      exact ⟨steps, _, hsteps, rfl⟩
  | cons step script ih =>
      let cleared : Schedule Probe Nat := { s with state := { s.state with published := [] } }
      have hcleared : cleared.state.Reached origin earlier := h
      obtain ⟨steps, m, hsteps, hpublished⟩ := ih (reached_perform step hcleared)
      refine ⟨steps, m, hsteps, ?_⟩
      rw [hpublished, publications, List.flatten_cons, List.reverse_append, List.reverse_reverse,
        List.append_assoc]

/-- What a session publishes are the readings of an execution, in the same order. -/
theorem publications_eq_readings (interval : Span) (script : List Step) :
    ∃ steps m, Execution (.ofInterval interval) steps m ∧
      (publications { state := .ofInterval interval } script).flatten =
        (allReadings steps).map (·.2.takenAt) := by
  let s : Schedule Probe Nat := { state := .ofInterval interval }
  have horigin : ∃ steps, Execution (.ofInterval interval) steps (s.state.remembering []) :=
    ⟨[], .start⟩
  obtain ⟨steps, m, hsteps, hpublished⟩ := published_of_script script horigin
  refine ⟨steps, m, hsteps, ?_⟩
  have hreadings : m.published = ((allReadings steps).map (·.2.takenAt)).reverse ++ [] :=
    published_of_execution hsteps
  rw [hpublished, List.append_nil, List.append_nil] at hreadings
  exact List.reverse_inj.mp hreadings

end ElasticPool.Probe
