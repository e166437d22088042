import ElasticPool.Proofs.SamplingTurns
/-!
The starts and stops of a recorder that has several callers.

A stop takes the registration away and drops the history only when its sampling task has
ended.  Other calls fall into the gap, and a stop can be given up in it.  So the history follows
the registration as long as no start succeeds in a gap: the stop that still waits drops the
history of such a start, and a stop that is given up leaves a history behind.
-/

namespace ElasticPool

namespace Recorder

theorem start_of_unregistered {s : Recorder} (h : s.registered? = none) :
    ∃ s' signals, s.start = .ok (s', signals) ∧ s'.registered?.isSome ∧ s'.active := by
  simp only [start, h]
  exact ⟨_, _, rfl, rfl, rfl⟩

theorem start_of_registered {s : Recorder} (h : s.registered?.isSome) :
    s.start = .error .alreadyActive := by
  rw [start, if_pos h]

theorem start_isOk_iff {s : Recorder} :
    (∃ started, s.start = .ok started) ↔ s.registered? = none := by
  rcases hregistered : s.registered? with _ | task
  · obtain ⟨s', signals, hstart, -⟩ := start_of_unregistered hregistered
    exact iff_of_true ⟨_, hstart⟩ rfl
  · have hsome : s.registered?.isSome := by simp [hregistered]
    simp [start_of_registered hsome]

theorem history?_endTask (s : Recorder) (task : Nat) :
    (s.endTask task).history? = s.history? ∧ (s.endTask task).config = s.config := by
  unfold endTask
  split <;> exact ⟨rfl, rfl⟩

theorem active_of_record {s s' : Recorder} {now : Moment} {sample : Sample}
    (h : s.record now sample = .ok s') :
    s'.active = s.active ∧ s'.registered? = s.registered? := by
  unfold record at h
  split at h
  · cases h
  · rename_i history hhistory
    obtain rfl := Except.ok.inj h
    exact ⟨by simp [active, hhistory], rfl⟩

theorem active_of_turn {s s' : Recorder} {task : Nat} {now : Moment}
    {clientTotal : Except String Nat} {signals : List Signal}
    (h : s.turn task now clientTotal = some (s', signals)) :
    s'.active = s.active ∧ s'.registered? = s.registered? := by
  obtain ⟨hhistory, hregistered, -⟩ := history?_of_turn h
  exact ⟨by rw [active, active, hhistory, Option.isSome_map], hregistered⟩

theorem answers_of_active {s : Recorder} (h : s.active) :
    (∀ now sample, ∃ s', s.record now sample = .ok s') ∧
      ∀ now kind window?, ∃ samples, s.samples now kind window? = .ok samples := by
  obtain ⟨history, hhistory⟩ := Option.isSome_iff_exists.mp h
  constructor
  · intro now sample
    exact ⟨_, by rw [record, hhistory]⟩
  · intro now kind window?
    exact ⟨_, by rw [samples, hhistory]⟩

/-- A recorder, with the sampling tasks for whose end a stop is waiting. -/
structure Shared where
  recorder : Recorder
  awaited : List Nat := []

namespace Shared

def fresh (config : SamplingConfig) (bus : Bus Measurement) : Shared :=
  { recorder := { config, bus } }

/-- What can happen to a recorder: calls from several callers, measurements, and turns of its
sampling tasks. -/
inductive Move
  | start
  | stop
  | resume (task : Nat)
  /-- A stop is given up while it waits. -/
  | giveUp (task : Nat)
  | record (now : Moment) (sample : Sample)
  | emit (measurement : Measurement)
  | turn (task : Nat) (now : Moment) (clientTotal : Except String Nat)

/-- A task is awaited by one stop at most, the one that has taken its registration away. -/
def leave (w : Shared) (task : Nat) : Shared := { w with awaited := w.awaited.filter (· ≠ task) }

/-- The recorder and its stops after a move, or nothing where the move has to wait.  A call
that is refused changes nothing. -/
def move? (w : Shared) : Move → Option Shared
  | .start =>
      match w.recorder.start with
      | .ok (recorder, _) => some { w with recorder }
      | .error _ => some w
  | .stop =>
      match w.recorder.beginStop with
      | (some task, recorder) => some ⟨recorder, w.awaited ++ [task]⟩
      | (none, _) => some w
  | .resume task =>
      if task ∈ w.awaited ∧ (w.recorder.sampler? task).isNone then
        some { w.leave task with recorder := w.recorder.finishStop }
      else none
  | .giveUp task => if task ∈ w.awaited then some (w.leave task) else none
  | .record now sample =>
      match w.recorder.record now sample with
      | .ok recorder => some { w with recorder }
      | .error _ => some w
  | .emit m => some { w with recorder := { w.recorder with bus := w.recorder.bus.emit m } }
  | .turn task now clientTotal =>
      (w.recorder.turn task now clientTotal).map fun r => { w with recorder := r.1 }

structure Step where
  before : Shared
  move : Move
  after : Shared

namespace Step

def Starts (e : Step) : Prop :=
  e.move = .start ∧ ∃ started, e.before.recorder.start = .ok started

def Finishes (e : Step) : Prop := ∃ task, e.move = .resume task

def GivesUp (e : Step) : Prop := ∃ task, e.move = .giveUp task

end Step

inductive Execution (origin : Shared) : List Step → Shared → Prop
  | start : Execution origin [] origin
  | next {steps : List Step} {w w' : Shared} {m : Move} :
      Execution origin steps w → w.move? m = some w' →
      Execution origin (steps ++ [⟨w, m, w'⟩]) w'

def play (w : Shared) : List Move → List Step → Option (List Step × Shared)
  | [], done => some (done, w)
  | m :: moves, done =>
      match w.move? m with
      | none => none
      | some w' => play w' moves (done ++ [⟨w, m, w'⟩])

variable {origin w w' : Shared} {m : Move} {e : Step} {steps done later : List Step}

theorem execution_of_play {moves : List Move} (hdone : Execution origin done w)
    (h : w.play moves done = some (steps, w')) : Execution origin steps w' := by
  induction moves generalizing w done with
  | nil =>
      obtain ⟨rfl, rfl⟩ := Prod.mk.inj (Option.some.inj h)
      exact hdone
  | cons m moves ih =>
      unfold play at h
      split at h
      · cases h
      · rename_i hmove
        exact ih (hdone.next hmove) h

theorem moves_of_play {moves : List Move} (h : w.play moves done = some (steps, w')) :
    steps.map (·.move) = done.map (·.move) ++ moves := by
  induction moves generalizing w done with
  | nil =>
      obtain ⟨rfl, -⟩ := Prod.mk.inj (Option.some.inj h)
      simp
  | cons m moves ih =>
      unfold play at h
      split at h
      · cases h
      · rw [ih h]
        simp

theorem Execution.of_append_cons (h : Execution origin (steps ++ e :: later) w) :
    Execution origin steps e.before ∧ e.before.move? e.move = some e.after := by
  generalize hall : steps ++ e :: later = all at h
  induction h generalizing later with
  | start => simp at hall
  | @next before p q m hbefore hmove ih =>
      rcases List.eq_nil_or_concat later with rfl | ⟨init, last, rfl⟩
      · obtain ⟨rfl, hlast⟩ := List.append_inj' hall rfl
        obtain rfl : e = ⟨p, m, q⟩ := by simpa using hlast
        exact ⟨hbefore, hmove⟩
      · rw [List.concat_eq_append, ← List.cons_append, ← List.append_assoc] at hall
        exact ih (List.append_inj' hall rfl).1

theorem not_givesUp_of_moves {moves : List Move} (hmoves : steps.map (·.move) = moves)
    (hnone : ∀ task, .giveUp task ∉ moves) : ∀ e ∈ steps, ¬e.GivesUp := by
  rintro e hmem ⟨task, hgivenUp⟩
  have hmove : e.move ∈ moves := hmoves ▸ List.mem_map_of_mem hmem
  rw [hgivenUp] at hmove
  exact hnone task hmove

/-- What a move does to the registration, to the history and to the stops that wait. -/
inductive Transition (w : Shared) : Move → Shared → Prop
  | started {w' : Shared} (hfree : w.recorder.registered? = none)
      (hregistered : w'.recorder.registered?.isSome) (hactive : w'.recorder.active)
      (hawaited : w'.awaited = w.awaited) : Transition w .start w'
  | refused (hregistered : w.recorder.registered?.isSome) : Transition w .start w
  | stopped {task : Nat} {w' : Shared} (hregistered : w.recorder.registered? = some task)
      (hfree : w'.recorder.registered? = none)
      (hactive : w'.recorder.active = w.recorder.active)
      (hawaited : w'.awaited = w.awaited ++ [task]) : Transition w .stop w'
  | unstopped (hfree : w.recorder.registered? = none) : Transition w .stop w
  | resumed {task : Nat} (hmem : task ∈ w.awaited) :
      Transition w (.resume task) { w.leave task with recorder := w.recorder.finishStop }
  | givenUp {task : Nat} (hmem : task ∈ w.awaited) : Transition w (.giveUp task) (w.leave task)
  | sampled {m : Move} {w' : Shared} (hmove : m ≠ .start ∧ m ≠ .stop)
      (hstops : ∀ task, m ≠ .resume task ∧ m ≠ .giveUp task)
      (hactive : w'.recorder.active = w.recorder.active)
      (hregistered : w'.recorder.registered? = w.recorder.registered?)
      (hawaited : w'.awaited = w.awaited) : Transition w m w'

theorem transition_of_move (h : w.move? m = some w') : Transition w m w' := by
  cases m with
  | start =>
      rcases hregistered : w.recorder.registered? with _ | task
      · obtain ⟨recorder, signals, hstart, hsome, hactive⟩ :=
          start_of_unregistered hregistered
        obtain rfl : { w with recorder } = w' := by simpa [move?, hstart] using h
        exact .started hregistered hsome hactive rfl
      · have hsome : w.recorder.registered?.isSome := by simp [hregistered]
        obtain rfl : w = w' := by simpa [move?, start_of_registered hsome] using h
        exact .refused hsome
  | stop =>
      rcases hregistered : w.recorder.registered? with _ | task
      · obtain rfl : w = w' := by simpa [move?, beginStop, hregistered] using h
        exact .unstopped hregistered
      · obtain rfl : ⟨{ w.recorder.endTask task with registered? := none }, w.awaited ++ [task]⟩ =
            w' := by simpa [move?, beginStop, hregistered] using h
        have hactive : (w.recorder.endTask task).active = w.recorder.active :=
          congrArg Option.isSome (w.recorder.history?_endTask task).1
        exact .stopped hregistered rfl hactive rfl
  | resume task =>
      rw [move?] at h
      split at h
      · rename_i hended
        obtain rfl := Option.some.inj h
        exact .resumed hended.1
      · cases h
  | giveUp task =>
      rw [move?] at h
      split at h
      · rename_i hmem
        obtain rfl := Option.some.inj h
        exact .givenUp hmem
      · cases h
  | record now sample =>
      rw [move?] at h
      split at h
      · rename_i recorder hrecord
        obtain rfl := Option.some.inj h
        obtain ⟨hactive, hregistered⟩ := active_of_record hrecord
        exact .sampled (by simp) (by simp) hactive hregistered rfl
      · obtain rfl := Option.some.inj h
        exact .sampled (by simp) (by simp) rfl rfl rfl
  | emit measurement =>
      obtain rfl := Option.some.inj h
      exact .sampled (by simp) (by simp) rfl rfl rfl
  | turn task now clientTotal =>
      obtain ⟨⟨recorder, signals⟩, hturn, rfl⟩ := Option.map_eq_some_iff.mp h
      obtain ⟨hactive, hregistered⟩ := active_of_turn hturn
      exact .sampled (by simp) (by simp) hactive hregistered rfl

/-- The step is a start that succeeds, and no stop has been called since. -/
def Unstopped (steps : List Step) (e : Step) (later : List Step) : Prop :=
  (∃ earlier, steps = earlier ++ e :: later) ∧ e.Starts ∧ ∀ e' ∈ later, e'.move ≠ .stop

theorem unstopped_concat {last : Step} : Unstopped (steps ++ [last]) e later ↔
    e = last ∧ later = [] ∧ last.Starts ∨
      ∃ later', later = later' ++ [last] ∧ Unstopped steps e later' ∧ last.move ≠ .stop := by
  constructor
  · rintro ⟨⟨earlier, hsplit⟩, hstarts, hnone⟩
    rcases List.eq_nil_or_concat later with rfl | ⟨later', last', rfl⟩
    · obtain ⟨rfl, hlast⟩ := List.append_inj' hsplit rfl
      obtain rfl : last = e := by simpa using hlast
      exact .inl ⟨rfl, rfl, hstarts⟩
    · rw [List.concat_eq_append, ← List.cons_append, ← List.append_assoc] at hsplit
      obtain ⟨rfl, hlast⟩ := List.append_inj' hsplit rfl
      obtain rfl : last = last' := by simpa using hlast
      rw [List.concat_eq_append] at hnone ⊢
      refine .inr ⟨later', rfl, ⟨⟨earlier, rfl⟩, hstarts, ?_⟩, hnone _ (by simp)⟩
      intro e' hmem
      exact hnone e' (List.mem_append_left _ hmem)
  · rintro (⟨rfl, rfl, hstarts⟩ | ⟨later', rfl, ⟨⟨earlier, rfl⟩, hstarts, hnone⟩, hlast⟩)
    · exact ⟨⟨steps, rfl⟩, hstarts, by simp⟩
    · refine ⟨⟨earlier, by simp⟩, hstarts, ?_⟩
      intro e' hmem
      rcases List.mem_append.mp hmem with hold | hnew
      · exact hnone e' hold
      · obtain rfl := List.mem_singleton.mp hnew
        exact hlast

/-- What a start has come to, with no stop called since. -/
structure Lasts (e : Step) (later : List Step) (w : Shared) : Prop where
  registered : w.recorder.registered?.isSome
  active_iff : w.recorder.active ↔ ∀ e' ∈ later, ¬e'.Finishes
  /-- The stops that waited at the start still wait, or have come to an end. -/
  awaited_iff : ∀ task, task ∈ w.awaited ↔ task ∈ e.before.awaited ∧
    ∀ e' ∈ later, e'.move ≠ .resume task ∧ e'.move ≠ .giveUp task
  awaited_of_resumed : ∀ e' ∈ later, ∀ task, e'.move = .resume task → task ∈ e.before.awaited

namespace Lasts

theorem of_still (h : Lasts e later w) (hstops : ∀ task, m ≠ .resume task ∧ m ≠ .giveUp task)
    (hactive : w'.recorder.active = w.recorder.active)
    (hregistered : w'.recorder.registered? = w.recorder.registered?)
    (hawaited : w'.awaited = w.awaited) : Lasts e (later ++ [⟨w, m, w'⟩]) w' where
  registered := by
    rw [hregistered]
    exact h.registered
  active_iff := by
    have hunfinished : ¬(⟨w, m, w'⟩ : Step).Finishes := fun ⟨task, hresume⟩ =>
      (hstops task).1 hresume
    rw [List.forall_mem_append, List.forall_mem_singleton, and_iff_left hunfinished, hactive]
    exact h.active_iff
  awaited_iff task := by
    rw [hawaited, h.awaited_iff, List.forall_mem_append, List.forall_mem_singleton,
      and_iff_left (hstops task)]
  awaited_of_resumed := by
    rw [List.forall_mem_append]
    refine ⟨h.awaited_of_resumed, ?_⟩
    rw [List.forall_mem_singleton]
    exact fun task hresume => absurd hresume (hstops task).1

theorem awaited_leave_iff (h : Lasts e later w) (task : Nat)
    (hmove : ∀ other, m = .resume other ∨ m = .giveUp other ↔ other = task) (other : Nat) :
    other ∈ (w.leave task).awaited ↔ other ∈ e.before.awaited ∧
      ∀ e' ∈ later ++ [⟨w, m, w'⟩], e'.move ≠ .resume other ∧ e'.move ≠ .giveUp other := by
  rw [List.forall_mem_append, List.forall_mem_singleton, ← and_assoc, ← h.awaited_iff, leave,
    List.mem_filter, ← not_or, hmove]
  simp

theorem of_transition (h : Lasts e later w) (htransition : Transition w m w')
    (hnone : m ≠ .stop) : Lasts e (later ++ [⟨w, m, w'⟩]) w' := by
  cases htransition with
  | started hfree _ _ _ =>
      have hregistered := h.registered
      simp [hfree] at hregistered
  | refused _ => exact h.of_still (by simp) rfl rfl rfl
  | stopped | unstopped => exact absurd rfl hnone
  | @resumed task hmem =>
      refine ⟨h.registered, ?_, ?_, ?_⟩
      · refine iff_of_false (by simp [active, finishStop]) ?_
        rw [List.forall_mem_append, List.forall_mem_singleton]
        exact fun hunfinished => hunfinished.2 ⟨task, rfl⟩
      · exact h.awaited_leave_iff task (by simp [eq_comm])
      · rw [List.forall_mem_append, List.forall_mem_singleton]
        refine ⟨h.awaited_of_resumed, ?_⟩
        intro other hresume
        obtain rfl : task = other := Move.resume.inj hresume
        exact ((h.awaited_iff task).mp hmem).1
  | @givenUp task hmem =>
      refine ⟨h.registered, ?_, h.awaited_leave_iff task (by simp [eq_comm]), ?_⟩
      · rw [List.forall_mem_append, List.forall_mem_singleton,
          and_iff_left (by simp [Step.Finishes])]
        exact h.active_iff
      · rw [List.forall_mem_append, List.forall_mem_singleton]
        exact ⟨h.awaited_of_resumed, by simp⟩
  | sampled _ hstops hactive hregistered hawaited =>
      exact h.of_still hstops hactive hregistered hawaited

end Lasts

theorem lasts_of_execution (h : Execution origin steps w) (hunstopped : Unstopped steps e later) :
    Lasts e later w := by
  induction h generalizing later with
  | start =>
      obtain ⟨⟨earlier, hsplit⟩, -⟩ := hunstopped
      simp at hsplit
  | @next steps w w' m _ hmove ih =>
      have htransition := transition_of_move hmove
      rcases unstopped_concat.mp hunstopped with
        ⟨rfl, rfl, hstart, hstarted⟩ | ⟨later', rfl, hearlier, hnone⟩
      · obtain rfl : m = .start := hstart
        have hfree : w.recorder.registered? = none := start_isOk_iff.mp hstarted
        cases htransition with
        | started _ hregistered hactive hawaited =>
            exact ⟨hregistered, by simp [hactive], by simp [hawaited], by simp⟩
        | refused hregistered => simp [hfree] at hregistered
        | sampled hmove => exact absurd rfl hmove.1
      · exact (ih hearlier).of_transition htransition hnone

theorem registered_of_transition (h : Transition w m w') : w'.recorder.registered?.isSome ↔
    (m = .start ∧ w.recorder.registered? = none) ∨
      w.recorder.registered?.isSome ∧ m ≠ .stop := by
  cases h with
  | started hfree hregistered => simp [hfree, hregistered]
  | refused hregistered => simp [hregistered]
  | stopped _ hfree | unstopped hfree => simp [hfree]
  | resumed | givenUp => simp [leave, finishStop]
  | sampled hmove _ _ hregistered => simp [hmove, hregistered]

section

variable {config : SamplingConfig} {bus : Bus Measurement}

theorem registered_iff_unstopped (h : Execution (fresh config bus) steps w) :
    w.recorder.registered?.isSome ↔ ∃ e later, Unstopped steps e later := by
  constructor
  · induction h with
    | start => simp [fresh]
    | @next steps w w' m _ hmove ih =>
        intro hregistered
        rcases (registered_of_transition (transition_of_move hmove)).mp hregistered with
          ⟨hstart, hfree⟩ | ⟨hearlier, hnone⟩
        · have hstarts : (⟨w, m, w'⟩ : Step).Starts := ⟨hstart, start_isOk_iff.mpr hfree⟩
          exact ⟨_, [], unstopped_concat.mpr (.inl ⟨rfl, rfl, hstarts⟩)⟩
        · obtain ⟨e, later, hunstopped⟩ := ih hearlier
          exact ⟨e, _, unstopped_concat.mpr (.inr ⟨later, rfl, hunstopped, hnone⟩)⟩
  · rintro ⟨e, later, hunstopped⟩
    exact (lasts_of_execution h hunstopped).registered

/-- A history without a registration is left to a stop that waits. -/
theorem registered_or_awaited_of_active (h : Execution (fresh config bus) steps w)
    (hkept : ∀ e ∈ steps, ¬e.GivesUp) (hactive : w.recorder.active) :
    w.recorder.registered?.isSome ∨ w.awaited ≠ [] := by
  induction h with
  | start => simp [fresh, active] at hactive
  | @next steps w w' m _ hmove ih =>
      rw [List.forall_mem_append, List.forall_mem_singleton] at hkept
      cases transition_of_move hmove with
      | started _ hregistered _ _ => exact .inl hregistered
      | refused | unstopped => exact ih hkept.1 hactive
      | stopped _ _ _ hawaited => exact .inr (by simp [hawaited])
      | resumed => simp [active, finishStop] at hactive
      | @givenUp task _ => exact absurd ⟨task, rfl⟩ hkept.2
      | sampled _ _ hsame hregistered hawaited =>
          rw [hregistered, hawaited]
          exact ih hkept.1 (hsame ▸ hactive)

/-- A recorder that has been started is active until a stop is called, or until a stop comes to
its end that was waiting already at the start.  So once no stop is waiting and none has been
given up, it is active exactly if it has been started while none was waiting and not been
stopped since, while its sampling task is registered after any such start. -/
theorem active_until_stopped (h : Execution (fresh config bus) steps w) :
    (∀ e later, Unstopped steps e later → Lasts e later w) ∧
    (w.recorder.registered?.isSome ↔ ∃ e later, Unstopped steps e later) ∧
    (w.awaited = [] → (∀ e ∈ steps, ¬e.GivesUp) →
      (w.recorder.active ↔ ∃ e later, Unstopped steps e later ∧ e.before.awaited = [])) ∧
    (w.recorder.active →
      (∀ now sample, ∃ s, w.recorder.record now sample = .ok s) ∧
        ∀ now kind window?, ∃ samples, w.recorder.samples now kind window? = .ok samples) := by
  have hlasts (e : Step) (later : List Step) (hunstopped : Unstopped steps e later) :
      Lasts e later w := lasts_of_execution h hunstopped
  refine ⟨hlasts, registered_iff_unstopped h, ?_, answers_of_active⟩
  intro hidle hkept
  constructor
  · intro hactive
    have hregistered : w.recorder.registered?.isSome :=
      (registered_or_awaited_of_active h hkept hactive).resolve_right (by simp [hidle])
    obtain ⟨e, later, hunstopped⟩ := (registered_iff_unstopped h).mp hregistered
    have hlast := hlasts e later hunstopped
    refine ⟨e, later, hunstopped, List.eq_nil_iff_forall_not_mem.mpr ?_⟩
    -- A stop that waited at the start would have come to its end, and with it the history.
    intro task hmem
    have hleft : task ∉ w.awaited := by simp [hidle]
    rw [hlast.awaited_iff] at hleft
    refine hleft ⟨hmem, fun e' hlater => ⟨fun hresume => ?_, fun hgivenUp => ?_⟩⟩
    · exact hlast.active_iff.mp hactive e' hlater ⟨task, hresume⟩
    · obtain ⟨⟨earlier, rfl⟩, -⟩ := hunstopped
      exact hkept e' (by simp [hlater]) ⟨task, hgivenUp⟩
  · rintro ⟨e, later, hunstopped, hnone⟩
    have hlast := hlasts e later hunstopped
    refine hlast.active_iff.mpr fun e' hlater ⟨task, hresume⟩ => ?_
    have hmem := hlast.awaited_of_resumed e' hlater task hresume
    simp [hnone] at hmem

/-- A recorder that is started again after a stop has come to its end is active. -/
theorem active_until_stopped_of_restart : ∃ steps w,
    Execution (fresh {} (.ofCapacity 1)) steps w ∧ w.awaited = [] ∧
      (∀ e ∈ steps, ¬e.GivesUp) ∧ w.recorder.active := by
  let moves : List Move := [.start, .stop, .turn 0 ⟨0⟩ (.ok 0), .resume 0, .start]
  obtain ⟨steps, w, hplay, hidle, hmoves, earlier, e, hsplit, hstart, hstarted, hnone⟩ :
      ∃ steps w, (fresh {} (.ofCapacity 1)).play moves [] = some (steps, w) ∧ w.awaited = [] ∧
        steps.map (·.move) = moves ∧ ∃ earlier e, steps = earlier ++ [e] ∧ e.move = .start ∧
          (∃ started, e.before.recorder.start = .ok started) ∧ e.before.awaited = [] :=
    ⟨_, _, rfl, rfl, rfl, [_, _, _, _], _, rfl, rfl, ⟨_, rfl⟩, rfl⟩
  have h : Execution (fresh {} (.ofCapacity 1)) steps w := execution_of_play .start hplay
  have hkept : ∀ e ∈ steps, ¬e.GivesUp := not_givesUp_of_moves hmoves (by simp [moves])
  have hunstopped : Unstopped steps e [] := ⟨⟨earlier, hsplit⟩, ⟨hstart, hstarted⟩, by simp⟩
  obtain ⟨-, -, hactive, -⟩ := active_until_stopped h
  exact ⟨steps, w, h, hidle, hkept, (hactive hidle hkept).mpr ⟨e, [], hunstopped, hnone⟩⟩

/-- A start that succeeds while a stop is waiting is undone by that stop, which leaves a
sampling task registered without a history.  A stop that is given up while it waits leaves a
history without a registration. -/
theorem active_ne_registered_of_gap :
    (∃ steps w e later, Execution (fresh {} (.ofCapacity 1)) steps w ∧ w.awaited = [] ∧
      (∀ e ∈ steps, ¬e.GivesUp) ∧ Unstopped steps e later ∧ w.recorder.registered?.isSome ∧
        w.recorder.active = false) ∧
    ∃ steps w, Execution (fresh {} (.ofCapacity 1)) steps w ∧ w.awaited = [] ∧
      w.recorder.registered? = none ∧ w.recorder.active = true := by
  constructor
  · let moves : List Move := [.start, .stop, .start, .turn 0 ⟨0⟩ (.ok 0), .resume 0]
    obtain ⟨steps, w, hplay, hidle, hmoves, earlier, e, later, hsplit, hstart, hstarted, hlater,
        hregistered, hinactive⟩ :
        ∃ steps w, (fresh {} (.ofCapacity 1)).play moves [] = some (steps, w) ∧ w.awaited = [] ∧
          steps.map (·.move) = moves ∧ ∃ earlier e later, steps = earlier ++ e :: later ∧
            e.move = .start ∧ (∃ started, e.before.recorder.start = .ok started) ∧
            later.map (·.move) = [.turn 0 ⟨0⟩ (.ok 0), .resume 0] ∧
            w.recorder.registered?.isSome = true ∧ w.recorder.active = false :=
      ⟨_, _, rfl, rfl, rfl, [_, _], _, [_, _], rfl, rfl, ⟨_, rfl⟩, rfl, rfl, rfl⟩
    have h : Execution (fresh {} (.ofCapacity 1)) steps w := execution_of_play .start hplay
    have hkept : ∀ e ∈ steps, ¬e.GivesUp := not_givesUp_of_moves hmoves (by simp [moves])
    refine ⟨steps, w, e, later, h, hidle, hkept, ⟨⟨earlier, hsplit⟩, ⟨hstart, hstarted⟩, ?_⟩,
      hregistered, hinactive⟩
    intro e' hmem hstop
    have hmove := List.mem_map_of_mem (f := Step.move) hmem
    simp [hlater, hstop] at hmove
  · obtain ⟨steps, w, hplay, hidle, hfree, hactive⟩ :
        ∃ steps w, (fresh {} (.ofCapacity 1)).play [.start, .stop, .giveUp 0] [] =
          some (steps, w) ∧ w.awaited = [] ∧ w.recorder.registered? = none ∧
            w.recorder.active = true := ⟨_, _, rfl, rfl, rfl, rfl⟩
    exact ⟨steps, w, execution_of_play .start hplay, hidle, hfree, hactive⟩

end

end Shared

end Recorder

end ElasticPool
