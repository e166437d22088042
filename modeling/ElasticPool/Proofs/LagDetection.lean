import ElasticPool.Proofs.SamplingClocks

namespace ElasticPool

namespace Moment

theorem lt_of_le_roundedUp {m : Moment} {n : Nat} (hpos : 0 ≤ m.nanos) (h : n ≤ m.roundedUp) :
    (ofMillis n).nanos < m.nanos + (Span.ofMillis 1).nanos := by
  simp only [roundedUp, ofMillis, Span.ofMillis] at *
  omega

end Moment

theorem mem_dropWhile {α : Type} {p : α → Bool} {x : α} {l : List α} (hmem : x ∈ l)
    (hx : p x = false) : x ∈ l.dropWhile p := by
  rw [← List.takeWhile_append_dropWhile (p := p) (l := l)] at hmem
  refine (List.mem_append.mp hmem).resolve_left fun htaken => ?_
  have hpx : p x = true := List.all_eq_true.mp List.all_takeWhile x htaken
  rw [hpx] at hx
  cases hx

theorem History.mem_record (h : History) (s : Sample) (retention : Span) :
    s ∈ (h.record s s.takenAt retention).series s.kind := by
  have hplaced : s ∈ (h.insert s).series s.kind := by simp [place]
  unfold record prune
  split
  · exact hplaced
  · rename_i cutoff hcutoff
    obtain ⟨-, hnanos⟩ := Moment.sub?_eq_some_iff.mp hcutoff
    rw [series_modify, if_pos rfl]
    refine mem_dropWhile hplaced (decide_eq_false ?_)
    rw [Moment.lt_def]
    omega

namespace Recorder

namespace Shared

variable {w w' : Shared}

def Move.moment? : Move → Option Moment
  | .record now _ | .turn _ now _ => some now
  | .start | .stop | .resume _ | .giveUp _ | .emit _ => none

def Step.Inserts (e : Step) (task : Nat) (s : Sample) : Prop :=
  ∃ clientTotal, e.move = .turn task s.takenAt clientTotal ∧ s ∈ e.brought ∧
    ∃ samples, e.after.recorder.samples s.takenAt s.kind none = .ok samples ∧ s ∈ samples

theorem inserts_of_loopSamples {task : Nat} {now due : Moment} {clientTotal : Except String Nat}
    (hactive : w.recorder.active) (hmove : w.move? (.turn task now clientTotal) = some w')
    (hsamples : w.recorder.taken task now clientTotal =
      SamplingTask.loopSamples w.recorder.config now due) :
    Step.Inserts ⟨w, .turn task now clientTotal, w'⟩ task
      ⟨.eventLoop (now.since due) w.recorder.config.maxEventLoopDelay, now⟩ := by
  obtain ⟨history, hhistory⟩ := Option.isSome_iff_exists.mp hactive
  obtain ⟨⟨recorder, signals⟩, hturn, rfl⟩ := Option.map_eq_some_iff.mp hmove
  obtain ⟨hrecorded, -, -⟩ := history?_of_turn hturn
  rw [hhistory, hsamples] at hrecorded
  let s : Sample := ⟨.eventLoop (now.since due) w.recorder.config.maxEventLoopDelay, now⟩
  have hread : recorder.samples now .eventLoop none =
      .ok ((history.record s now w.recorder.config.retention).series .eventLoop) := by
    rw [samples, hrecorded]
    rfl
  refine ⟨clientTotal, rfl, ?_, _, hread, history.mem_record s _⟩
  show s ∈ w.recorder.taken task now clientTotal
  rw [hsamples]
  exact List.mem_singleton_self s

/-- A task that is running and has nothing to receive takes the tick that is ready. -/
theorem exists_inserts_of_ready {task : Nat} {sampler : SamplingTask} {ticker : Ticker}
    {now : Moment} (hactive : w.recorder.active)
    (hfound : w.recorder.sampler? task = some sampler) (hgoing : sampler.stopping = false)
    (hnone : (w.recorder.bus.receive sampler.subscription).1.event? = none)
    (hloop : sampler.loop? = some ticker) (hready : ticker.Ready now)
    (clientTotal : Except String Nat) :
    ∃ w', w.move? (.turn task now clientTotal) = some w' ∧
      Step.Inserts ⟨w, .turn task now clientTotal, w'⟩ task
        ⟨.eventLoop (now.since ticker.due) w.recorder.config.maxEventLoopDelay, now⟩ := by
  have hticker : w.recorder.loopTicker sampler now = ticker := loopTicker_of_started hloop
  rcases hmove : w.move? (.turn task now clientTotal) with _ | w'
  · obtain ⟨-, -, hwaits⟩ := waits_of_turn_eq_none hfound (Option.map_eq_none_iff.mp hmove)
    rw [hticker] at hwaits
    exact absurd hready hwaits
  · have hsamples := taken_of_ready hfound hgoing hnone (hticker.symm ▸ hready) clientTotal
    rw [hticker] at hsamples
    exact ⟨w', rfl, inserts_of_loopSamples hactive hmove hsamples⟩

theorem delay_lt_of_restaffs {task : Nat} {now : Moment} {clientTotal : Except String Nat}
    {x : Sample} (hontime : Loops (fun t => now.nanos < t.due.nanos + (Span.ofMillis 1).nanos) w)
    (hrestaffs : Restaffs w (.turn task now clientTotal) w')
    (hx : x ∈ w.recorder.taken task now clientTotal) (hkind : x.kind = .eventLoop) :
    ∃ delay, x = ⟨.eventLoop delay w.recorder.config.maxEventLoopDelay, now⟩ ∧
      delay < .ofMillis 1 := by
  cases hrestaffs with
  | ended _ _ htaken =>
      rw [htaken] at hx
      cases hx
  | @turned _ _ _ sampler _ _ hfound _ _ hloop =>
      have hlt : now.nanos <
          (w.recorder.loopTicker sampler now).due.nanos + (Span.ofMillis 1).nanos :=
        hontime.loopTicker hfound (Int.lt_add_of_pos_right _ (by decide))
      rcases hloop with ⟨-, hsamples⟩ | ⟨hready, -, hsamples⟩
      · exact absurd hkind (hsamples x hx)
      · rw [hsamples, SamplingTask.loopSamples, List.mem_singleton] at hx
        refine ⟨_, hx, ?_⟩
        have hready : (w.recorder.loopTicker sampler now).due.nanos ≤ now.nanos := hready
        rw [Span.lt_def]
        simp only [Moment.since]
        omega
  | kept hturn => exact absurd rfl (hturn _ _ _)

/-- While no stop is called or waits, a recorder that has been started stays as it is. -/
theorem stays_of_move {m : Move} (hmove : w.move? m = some w') (hnone : m ≠ .stop)
    (hregistered : w.recorder.registered?.isSome) (hawaited : w.awaited = []) :
    w'.recorder.registered? = w.recorder.registered? ∧ w'.recorder.active = w.recorder.active ∧
      w'.awaited = w.awaited := by
  cases transition_of_move hmove with
  | started hfree =>
      rw [hfree] at hregistered
      cases hregistered
  | refused => exact ⟨rfl, rfl, rfl⟩
  | stopped | unstopped => exact absurd rfl hnone
  | resumed hmem | givenUp hmem =>
      rw [hawaited] at hmem
      cases hmem
  | sampled _ _ hactive hregistered hawaited => exact ⟨hregistered, hactive, hawaited⟩

end Shared

/-- A recorder under a clock that shows whole milliseconds. -/
structure Clocked where
  shared : Shared
  clock : Nat := 0

namespace Clocked

def fresh (config : SamplingConfig) (bus : Bus Measurement) : Clocked := ⟨.fresh config bus, 0⟩

def now (s : Clocked) : Moment := .ofMillis s.clock

/-- No sampling task has a turn and no stop can go on. -/
def Settled (s : Clocked) : Prop :=
  (∀ task clientTotal, s.shared.move? (.turn task s.now clientTotal) = none) ∧
    ∀ task, s.shared.move? (.resume task) = none

inductive Move
  | act (move : Shared.Move)
  /-- The clock moves on to a moment at or before every timer. -/
  | pass (millis : Nat)
  /-- The clock jumps, whatever is due. -/
  | jump (millis : Nat)

/-- What a move leads to.  Only a jump does not wait for the tasks that have a turn. -/
inductive Moves (s : Clocked) : Move → Clocked → Prop
  | act {move : Shared.Move} {shared : Shared} (hmoment : ∀ moment ∈ move.moment?, moment = s.now)
      (hmove : s.shared.move? move = some shared) : Moves s (.act move) { s with shared }
  | pass {millis : Nat} (hsettled : s.Settled)
      (htimers : ∀ timer ∈ s.shared.recorder.timers, s.clock + millis ≤ timer.2.roundedUp) :
      Moves s (.pass millis) { s with clock := s.clock + millis }
  | jump {millis : Nat} : Moves s (.jump millis) { s with clock := s.clock + millis }

structure Step where
  before : Clocked
  move : Move
  after : Clocked

namespace Step

def act? (e : Step) : Option Shared.Step :=
  match e.move with
  | .act move => some ⟨e.before.shared, move, e.after.shared⟩
  | .pass _ | .jump _ => none

def ofAct (clock : Nat) (e : Shared.Step) : Step :=
  ⟨⟨e.before, clock⟩, .act e.move, ⟨e.after, clock⟩⟩

def Jumps (e : Step) : Prop := ∃ millis, e.move = .jump millis

def Stays (e : Step) : Prop := ∃ move, e.move = .act move ∧ move ≠ .stop

end Step

inductive Execution (origin : Clocked) : List Step → Clocked → Prop
  | start : Execution origin [] origin
  | next {steps : List Step} {s s' : Clocked} {m : Move} :
      Execution origin steps s → s.Moves m s' → Execution origin (steps ++ [⟨s, m, s'⟩]) s'

def acts (steps : List Step) : List Shared.Step := steps.filterMap Step.act?

theorem acts_concat (steps : List Step) (e : Step) :
    acts (steps ++ [e]) = acts steps ++ e.act?.toList := by
  cases h : e.act? <;> simp [acts, h]

variable {config : SamplingConfig} {bus : Bus Measurement} {origin s s' : Clocked} {m : Move}
  {steps later done : List Step} {task : Nat} {sampler : SamplingTask} {ticker : Ticker}

theorem Execution.shared (h : Execution origin steps s) :
    Shared.Execution origin.shared (acts steps) s.shared := by
  induction h with
  | start => exact .start
  | next _ hmove ih =>
      rw [acts_concat]
      cases hmove with
      | act _ hmove => exact ih.next hmove
      | pass | jump => simpa [Step.act?] using ih

theorem Execution.trans (h : Execution origin done s) (hlater : Execution s later s') :
    Execution origin (done ++ later) s' := by
  induction hlater with
  | start =>
      rw [List.append_nil]
      exact h
  | next _ hmove ih =>
      rw [← List.append_assoc]
      exact ih.next hmove

theorem config_of_execution (h : Execution (fresh config bus) steps s) :
    s.shared.recorder.config = config :=
  (Shared.logged_of_execution h.shared).config_eq

theorem execution_of_shared {w w' : Shared} {steps : List Shared.Step} {clock : Nat}
    (h : Shared.Execution w steps w')
    (hmoments : ∀ m ∈ steps.map (·.move), ∀ moment ∈ m.moment?, moment = .ofMillis clock) :
    Execution ⟨w, clock⟩ (steps.map (Step.ofAct clock)) ⟨w', clock⟩ := by
  induction h with
  | start => exact .start
  | next _ hmove ih =>
      rw [List.map_append, List.forall_mem_append] at hmoments
      rw [List.map_append]
      exact (ih hmoments.1).next (.act (hmoments.2 _ (List.mem_singleton_self _)) hmove)

theorem not_jumps_of_ofAct (clock : Nat) (steps : List Shared.Step) :
    ∀ e ∈ steps.map (Step.ofAct clock), ¬e.Jumps := by
  rintro e hmem ⟨millis, hjump⟩
  obtain ⟨e, -, rfl⟩ := List.mem_map.mp hmem
  cases hjump

theorem acts_map_ofAct (clock : Nat) (steps : List Shared.Step) :
    acts (steps.map (Step.ofAct clock)) = steps := by
  rw [acts, List.filterMap_map]
  exact List.filterMap_some

theorem Settled.waits (h : s.Settled) (hfound : s.shared.recorder.sampler? task = some sampler) :
    sampler.stopping = false ∧
      (s.shared.recorder.bus.receive sampler.subscription).1.event? = none ∧
      ∃ ticker, sampler.loop? = some ticker ∧ s.now < ticker.due := by
  have hturn : s.shared.recorder.turn task s.now (.ok 0) = none :=
    Option.map_eq_none_iff.mp (h.1 task (.ok 0))
  obtain ⟨hgoing, hnone, hwaits⟩ := waits_of_turn_eq_none hfound hturn
  refine ⟨hgoing, hnone, ?_⟩
  rcases hloop : sampler.loop? with _ | ticker
  · -- A ticker that starts now is ready at once.
    rw [loopTicker, hloop] at hwaits
    exact absurd (Int.le_refl _) hwaits
  · rw [loopTicker_of_started hloop] at hwaits
    exact ⟨ticker, rfl, Int.not_le.mp hwaits⟩

theorem Settled.awaited (h : s.Settled) (hmanned : Shared.Manned s.shared) :
    s.shared.awaited = [] := by
  rw [List.eq_nil_iff_forall_not_mem]
  intro task hmem
  rcases hsampler : s.shared.recorder.sampler? task with _ | sampler
  · have hresume := h.2 task
    simp [Shared.move?, hmem, hsampler] at hresume
  · have hstopping := hmanned.ending task hmem sampler hsampler
    rw [(h.waits hsampler).1] at hstopping
    cases hstopping

/-- A recorder has settled once none of its tasks has a turn and no stop waits. -/
theorem settled_of_waiting (hawaited : s.shared.awaited = [])
    (hturn : ∀ t ∈ s.shared.recorder.samplers, ∀ clientTotal,
      s.shared.recorder.turn t.1 s.now clientTotal = none) : s.Settled := by
  constructor
  · intro task clientTotal
    rcases hfound : s.shared.recorder.sampler? task with _ | sampler
    · simp [Shared.move?, turn, hfound]
    · simp [Shared.move?, hturn _ (lookup_mem hfound)]
  · intro task
    simp [Shared.move?, hawaited]

theorem mem_timers (hfound : s.shared.recorder.sampler? task = some sampler)
    (hloop : sampler.loop? = some ticker) : (task, ticker.due) ∈ s.shared.recorder.timers := by
  obtain ⟨tickers, htickers, rfl⟩ := Option.map_eq_some_iff.mp hloop
  refine List.mem_flatMap.mpr ⟨(task, sampler), lookup_mem hfound, ?_⟩
  simp [htickers]

theorem due_le_of_execution (h : Execution (fresh config bus) steps s) :
    Shared.Loops (fun t => t.period = config.eventLoopInterval ∧
      t.due.nanos ≤ s.now.nanos + config.eventLoopInterval.nanos) s.shared := by
  induction h with
  | start =>
      intro task sampler ticker hfound
      cases hfound
  | @next steps s s' m hsteps hmove ih =>
      cases hmove with
      | @act move shared hmoment hmove =>
          have hmanned := Shared.manned_of_execution hsteps.shared
          refine ih.of_restaffs (Shared.restaffs_of_move hmanned hmove) ?_ ?_
          · rintro task moment clientTotal rfl
            obtain rfl : moment = s.now := hmoment moment rfl
            rw [config_of_execution hsteps]
            refine ⟨rfl, ?_⟩
            show s.now.nanos ≤ s.now.nanos + _
            omega
          · rintro task moment clientTotal rfl ticker ⟨hperiod, -⟩ hready
            obtain rfl : moment = s.now := hmoment moment rfl
            exact ⟨hperiod, hperiod ▸ Ticker.nextDue_le hready⟩
      | pass | jump =>
          refine ih.mono fun ticker ⟨hperiod, hdue⟩ => ⟨hperiod, ?_⟩
          simp only [now, Moment.ofMillis] at hdue ⊢
          omega

/-- A clock that never jumps is never a millisecond past a tick that has not been taken. -/
theorem now_lt_of_execution (h : Execution (fresh config bus) steps s)
    (hjumps : ∀ e ∈ steps, ¬e.Jumps) :
    Shared.Loops (fun t => s.now.nanos < t.due.nanos + (Span.ofMillis 1).nanos) s.shared := by
  induction h with
  | start =>
      intro task sampler ticker hfound
      cases hfound
  | @next steps s s' m hsteps hmove ih =>
      rw [List.forall_mem_append, List.forall_mem_singleton] at hjumps
      have hearlier := ih hjumps.1
      cases hmove with
      | @act move shared hmoment hmove =>
          have hmanned := Shared.manned_of_execution hsteps.shared
          refine hearlier.of_restaffs (Shared.restaffs_of_move hmanned hmove) ?_ ?_
          · rintro task moment clientTotal rfl
            obtain rfl : moment = s.now := hmoment moment rfl
            exact Int.lt_add_of_pos_right _ (by decide)
          · rintro task moment clientTotal rfl ticker hlt hready
            obtain rfl : moment = s.now := hmoment moment rfl
            -- A tick that is taken is put off beyond the present moment.
            have hnext := Ticker.due_add_le_nextDue hready
            show s.now.nanos < (ticker.nextDue s.now).nanos + _
            omega
      | @pass millis hsettled htimers =>
          intro task sampler ticker hfound hloop
          -- The clock stops at the first whole millisecond after a tick is due.
          have htimer := htimers _ (mem_timers hfound hloop)
          obtain ⟨-, -, ticker', hloop', hdue⟩ := hsettled.waits hfound
          obtain rfl := Option.some.inj (hloop'.symm.trans hloop)
          have hpos : 0 ≤ ticker'.due.nanos := by
            have hnow : 0 ≤ s.now.nanos := by
              simp only [now, Moment.ofMillis]
              omega
            exact Int.le_trans hnow (Int.le_of_lt hdue)
          exact Moment.lt_of_le_roundedUp hpos htimer
      | jump => exact absurd ⟨_, rfl⟩ hjumps.2

theorem delay_lt_of_execution (h : Execution (fresh config bus) steps s)
    (hjumps : ∀ e ∈ steps, ¬e.Jumps) :
    ∀ e ∈ acts steps, ∀ task now clientTotal, e.move = .turn task now clientTotal →
      ∀ x ∈ e.brought, x.kind = .eventLoop →
        ∃ delay, x = ⟨.eventLoop delay config.maxEventLoopDelay, now⟩ ∧ delay < .ofMillis 1 := by
  induction h with
  | start =>
      intro e hmem
      cases hmem
  | @next steps s s' m hsteps hmove ih =>
      rw [List.forall_mem_append, List.forall_mem_singleton] at hjumps
      rw [acts_concat, List.forall_mem_append]
      refine ⟨ih hjumps.1, ?_⟩
      cases hmove with
      | @act move shared hmoment hmove =>
          intro e he task now clientTotal hturn x hx hkind
          obtain rfl := List.mem_singleton.mp he
          obtain rfl : move = .turn task now clientTotal := hturn
          obtain rfl : now = s.now := hmoment now rfl
          have hmanned := Shared.manned_of_execution hsteps.shared
          rw [← config_of_execution hsteps]
          exact Shared.delay_lt_of_restaffs (now_lt_of_execution hsteps hjumps.1)
            (Shared.restaffs_of_move hmanned hmove) hx hkind
      | pass | jump => simp [Step.act?]

/-- The task inserts the sample in its next turn, and in any case before everything has settled
with no stop called. -/
structure Inserting (s : Clocked) (task : Nat) (x : Sample) : Prop where
  next : ∀ clientTotal, ∃ w', s.Moves (.act (.turn task s.now clientTotal))
    { s with shared := w' } ∧
    Shared.Step.Inserts ⟨s.shared, .turn task s.now clientTotal, w'⟩ task x
  settled : ∀ later s', Execution s later s' → (∀ e ∈ later, e.Stays) → s'.Settled →
    ∃ e ∈ acts later, e.Inserts task x

/-- The registered task has not yet taken a tick that is ready. -/
structure Overdue (task : Nat) (due now : Moment) (s : Clocked) : Prop where
  registered : s.shared.recorder.registered? = some task
  active : s.shared.recorder.active
  awaited : s.shared.awaited = []
  waits : s.shared.WaitsFor task due
  now_eq : s.now = now
  ready : due ≤ now

theorem Overdue.of_moves {due now : Moment} (h : Overdue task due now s)
    (hsteps : Execution (fresh config bus) steps s) (hmoves : s.Moves m s')
    (hstays : Step.Stays ⟨s, m, s'⟩) :
    (∃ e ∈ Step.act? ⟨s, m, s'⟩,
      e.Inserts task ⟨.eventLoop (now.since due) config.maxEventLoopDelay, now⟩) ∨
      Overdue task due now s' := by
  obtain ⟨move, rfl, hnone⟩ : ∃ move, m = .act move ∧ move ≠ .stop := hstays
  cases hmoves with
  | act hmoment hmove =>
  have hsome : s.shared.recorder.registered?.isSome := by simp [h.registered]
  obtain ⟨hregistered, hactive, hawaited⟩ := Shared.stays_of_move hmove hnone hsome h.awaited
  have hmanned := Shared.manned_of_execution hsteps.shared
  rcases h.waits.of_restaffs hmanned (Shared.restaffs_of_move hmanned hmove) hnone with
    hwaits | ⟨moment, clientTotal, rfl, hsamples⟩
  · exact .inr ⟨hregistered.trans h.registered, hactive.trans h.active, hawaited.trans h.awaited,
      hwaits, h.now_eq, h.ready⟩
  · obtain rfl : moment = s.now := hmoment moment rfl
    have hinserts := Shared.inserts_of_loopSamples h.active hmove hsamples
    rw [config_of_execution hsteps] at hinserts
    refine .inl ⟨_, rfl, ?_⟩
    rw [← h.now_eq]
    exact hinserts

theorem Overdue.not_settled {due now : Moment} (h : Overdue task due now s) : ¬s.Settled := by
  intro hsettled
  obtain ⟨sampler, ticker, hfound, -, hloop, rfl⟩ := h.waits
  obtain ⟨-, -, ticker', hloop', hlt⟩ := hsettled.waits hfound
  obtain rfl := Option.some.inj (hloop'.symm.trans hloop)
  rw [h.now_eq] at hlt
  exact Int.not_lt.mpr h.ready hlt

theorem Overdue.of_execution {due now : Moment} (h : Overdue task due now s)
    (hsteps : Execution (fresh config bus) steps s) (hlater : Execution s later s')
    (hstays : ∀ e ∈ later, e.Stays) :
    (∃ e ∈ acts later,
      e.Inserts task ⟨.eventLoop (now.since due) config.maxEventLoopDelay, now⟩) ∨
      Overdue task due now s' := by
  induction hlater with
  | start => exact .inr h
  | @next later s' s'' m hlater hmoves ih =>
      rw [List.forall_mem_append, List.forall_mem_singleton] at hstays
      rw [acts_concat]
      rcases ih hstays.1 with ⟨e, hmem, hinserts⟩ | hoverdue
      · exact .inl ⟨e, List.mem_append_left _ hmem, hinserts⟩
      · rcases hoverdue.of_moves (hsteps.trans hlater) hmoves hstays.2 with
          ⟨e, hact, hinserts⟩ | hoverdue'
        · have hmem := Option.mem_toList.mpr hact
          exact .inl ⟨e, List.mem_append_right _ hmem, hinserts⟩
        · exact .inr hoverdue'

/-- When the clock jumps from a settled state beyond the tick for which the registered task waits,
the task inserts a sample of the whole delay. -/
theorem inserting_of_jump {millis : Nat} (h : Execution (fresh config bus) steps s)
    (hsettled : s.Settled) (hactive : s.shared.recorder.active)
    (hregistered : s.shared.recorder.registered? = some task)
    (hreach : config.eventLoopInterval.nanos ≤ (Span.ofMillis millis).nanos)
    (hjump : s.Moves (.jump millis) s') :
    ∃ due : Moment, due.nanos ≤ s.now.nanos + config.eventLoopInterval.nanos ∧
      Inserting s' task ⟨.eventLoop (s'.now.since due) config.maxEventLoopDelay, s'.now⟩ := by
  have hmanned := Shared.manned_of_execution h.shared
  have hjumped := h.next hjump
  cases hjump
  obtain ⟨sampler, hfound, hgoing⟩ := hmanned.going task hregistered
  obtain ⟨-, hnone, ticker, hloop, -⟩ := hsettled.waits hfound
  obtain ⟨-, hdue⟩ := due_le_of_execution h task sampler ticker hfound hloop
  refine ⟨ticker.due, hdue, ?_⟩
  have hready : ticker.due ≤ Moment.ofMillis (s.clock + millis) := by
    rw [Moment.le_def]
    simp only [now, Moment.ofMillis, Span.ofMillis] at *
    omega
  have hoverdue : Overdue task ticker.due (.ofMillis (s.clock + millis))
      { s with clock := s.clock + millis } :=
    ⟨hregistered, hactive, hsettled.awaited hmanned,
      ⟨sampler, ticker, hfound, hgoing, hloop, rfl⟩, rfl, hready⟩
  constructor
  · intro clientTotal
    obtain ⟨w', hmove, hinserts⟩ :=
      Shared.exists_inserts_of_ready hactive hfound hgoing hnone hloop
      hready clientTotal
    rw [config_of_execution h] at hinserts
    refine ⟨w', .act ?_ hmove, hinserts⟩
    rintro moment ⟨⟩
    rfl
  · intro later s' hlater hstays hsettled'
    -- As long as the tick has not been taken the recorder has not settled.
    rcases hoverdue.of_execution hjumped hlater hstays with hinserts | hoverdue'
    · exact hinserts
    · exact absurd hsettled' hoverdue'.not_settled

/-- The registration of an active recorder that has settled is missing only if a stop has been
given up. -/
theorem registered_of_settled (h : Execution (fresh config bus) steps s) (hsettled : s.Settled)
    (hactive : s.shared.recorder.active) (hkept : ∀ e ∈ acts steps, ¬e.GivesUp) :
    s.shared.recorder.registered?.isSome := by
  refine (Shared.registered_or_awaited_of_active h.shared hkept hactive).resolve_right ?_
  rw [not_not]
  exact hsettled.awaited (Shared.manned_of_execution h.shared)

/-- Lag is always seen, and nothing else is.  If the clock jumps from a settled state further than
the interval and the greatest delay together, then the sampling task inserts, at the end of the
jump, a sample of a delay that falls short of the jump by an interval at most, so that the event
loop is overloaded.  As long as the clock has not jumped, every event loop sample shows a delay of
less than a millisecond. -/
theorem jumps_are_sampled (h : Execution (fresh config bus) steps s) :
    (s.Settled → s.shared.recorder.active →
      ((∀ e ∈ acts steps, ¬e.GivesUp) → s.shared.recorder.registered?.isSome) ∧
      ∀ task, s.shared.recorder.registered? = some task → ∀ millis s',
        s.Moves (.jump millis) s' →
        config.eventLoopInterval.nanos + config.maxEventLoopDelay.nanos <
          (Span.ofMillis millis).nanos →
        ∃ (delay : Span) (x : Sample), x = ⟨.eventLoop delay config.maxEventLoopDelay, s'.now⟩ ∧
          (Span.ofMillis millis).nanos - config.eventLoopInterval.nanos ≤ delay.nanos ∧
          x.overloaded ∧ s'.Inserting task x) ∧
    ((∀ e ∈ steps, ¬e.Jumps) →
      ∀ e ∈ acts steps, ∀ task now clientTotal, e.move = .turn task now clientTotal →
        ∀ x ∈ e.brought, x.kind = .eventLoop →
          ∃ delay, x = ⟨.eventLoop delay config.maxEventLoopDelay, now⟩ ∧
            delay < .ofMillis 1) := by
  refine ⟨?_, delay_lt_of_execution h⟩
  intro hsettled hactive
  refine ⟨registered_of_settled h hsettled hactive, ?_⟩
  intro task hregistered millis s' hjump hfar
  have hreach : config.eventLoopInterval.nanos ≤ (Span.ofMillis millis).nanos := by omega
  -- The tick was due an interval after the beginning of the jump at the latest.
  obtain ⟨due, hdue, hinserting⟩ :=
    inserting_of_jump h hsettled hactive hregistered hreach hjump
  have hnow : s'.now.nanos = s.now.nanos + (Span.ofMillis millis).nanos := by
    cases hjump
    simp only [now, Moment.ofMillis, Span.ofMillis]
    omega
  have hdelay : (Span.ofMillis millis).nanos - config.eventLoopInterval.nanos ≤
      (s'.now.since due).nanos := by
    simp only [Moment.since]
    omega
  refine ⟨s'.now.since due, _, rfl, hdelay, ?_, hinserting⟩
  refine decide_eq_true ?_
  rw [Span.lt_def]
  omega

/-- After a jump of 551 milliseconds the tick that was due after 500 shows a delay of 51. -/
theorem jumps_are_sampled_of_stall : ∃ steps s s' delay x,
    Execution (fresh {} (.ofCapacity 1)) steps s ∧ s.Settled ∧ s.Moves (.jump 551) s' ∧
      x = ⟨.eventLoop delay (.ofMillis 50), .ofMillis 551⟩ ∧
      (Span.ofMillis 51).nanos ≤ delay.nanos ∧ x.overloaded ∧ s'.Inserting 0 x ∧
      (∀ e ∈ steps, ¬e.Jumps) ∧ ∃ e ∈ acts steps, ∃ early,
        ⟨.eventLoop early (.ofMillis 50), .ofMillis 0⟩ ∈ e.brought ∧ early < .ofMillis 1 := by
  let moves : List Shared.Move :=
    [.start, .turn 0 (.ofMillis 0) (.ok 0), .turn 0 (.ofMillis 0) (.ok 0)]
  obtain ⟨steps, w, hplay, hactive, hregistered, hawaited, sampler, hsamplers, hturn,
      hmoves, first, hfirst, hmove, y, hbrought, hkind⟩ :
      ∃ steps w, (Shared.fresh {} (.ofCapacity 1)).play moves [] = some (steps, w) ∧
        w.recorder.active ∧ w.recorder.registered? = some 0 ∧ w.awaited = [] ∧
        ∃ sampler, w.recorder.samplers = [(0, sampler)] ∧
          (∀ clientTotal, w.recorder.turn 0 (.ofMillis 0) clientTotal = none) ∧
          steps.map (·.move) = moves ∧ ∃ e ∈ steps, e.move = .turn 0 (.ofMillis 0) (.ok 0) ∧
            ∃ x ∈ e.brought, x.kind = .eventLoop :=
    ⟨_, _, rfl, rfl, rfl, rfl, _, rfl, fun _ => rfl, rfl, _, .tail _ (.head _), rfl, _, .head _,
      rfl⟩
  have hshared : Shared.Execution _ steps w := Shared.execution_of_play .start hplay
  have h : Execution (fresh {} (.ofCapacity 1)) (steps.map (Step.ofAct 0)) ⟨w, 0⟩ := by
    refine execution_of_shared hshared ?_
    rw [hmoves]
    simp [moves, Shared.Move.moment?]
  have hsettled : Settled ⟨w, 0⟩ :=
    settled_of_waiting hawaited (by simpa [hsamplers, now] using hturn)
  have hjumps := not_jumps_of_ofAct 0 steps
  obtain ⟨hlag, hontime⟩ := jumps_are_sampled h
  obtain ⟨delay, x, hx, hlong, hoverloaded, hinserting⟩ :=
    (hlag hsettled hactive).2 0 hregistered 551 _ .jump (by decide)
  have hfirst' : first ∈ acts (steps.map (Step.ofAct 0)) := by
    rw [acts_map_ofAct]
    exact hfirst
  obtain ⟨early, rfl, hearly⟩ := hontime hjumps first hfirst' 0 _ _ hmove y hbrought hkind
  exact ⟨_, _, _, delay, x, h, hsettled, .jump, hx, hlong, hoverloaded, hinserting, hjumps, first,
    hfirst', early, hbrought, hearly⟩

/-- A stop that is given up after its task has been told to end leaves the recorder active, with
the sample of the first tick and without a task. -/
theorem exists_unstaffed : ∃ steps w, Execution (fresh {} (.ofCapacity 1)) steps ⟨w, 0⟩ ∧
    (∀ e ∈ steps, ¬e.Jumps) ∧ w.recorder.active ∧ w.awaited = [] ∧ w.recorder.samplers = [] ∧
      ∀ now, w.recorder.samples now .eventLoop none =
        .ok [⟨.eventLoop ⟨0⟩ (.ofMillis 50), .ofMillis 0⟩] := by
  let moves : List Shared.Move := [.start, .turn 0 (.ofMillis 0) (.ok 0), .stop, .giveUp 0,
    .turn 0 (.ofMillis 0) (.ok 0)]
  obtain ⟨steps, w, hplay, hmoves, hactive, hawaited, hsamplers, hsamples⟩ : ∃ steps w,
      (Shared.fresh {} (.ofCapacity 1)).play moves [] = some (steps, w) ∧
        steps.map (·.move) = moves ∧ w.recorder.active ∧ w.awaited = [] ∧
        w.recorder.samplers = [] ∧ ∀ now, w.recorder.samples now .eventLoop none =
          .ok [⟨.eventLoop ⟨0⟩ (.ofMillis 50), .ofMillis 0⟩] :=
    ⟨_, _, rfl, rfl, rfl, rfl, rfl, fun _ => rfl⟩
  have h : Execution (fresh {} (.ofCapacity 1)) (steps.map (Step.ofAct 0)) ⟨w, 0⟩ := by
    refine execution_of_shared (Shared.execution_of_play .start hplay) ?_
    rw [hmoves]
    simp [moves, Shared.Move.moment?]
  exact ⟨_, w, h, not_jumps_of_ofAct 0 steps, hactive, hawaited, hsamplers, hsamples⟩

/-- After a stop that has been given up there may be no task any more that samples a jump. -/
theorem unsampled_of_dropped_stop : ¬∀ (config : SamplingConfig) (bus : Bus Measurement)
    (steps : List Step) (s s' : Clocked) (millis : Nat),
    Execution (fresh config bus) steps s → s.Settled → s.shared.recorder.active →
      s.Moves (.jump millis) s' →
      config.eventLoopInterval.nanos + config.maxEventLoopDelay.nanos <
        (Span.ofMillis millis).nanos →
      ∃ (task : Nat) (delay : Span),
        (Span.ofMillis millis).nanos - config.eventLoopInterval.nanos ≤ delay.nanos ∧
          s'.Inserting task ⟨.eventLoop delay config.maxEventLoopDelay, s'.now⟩ := by
  intro hsampled
  obtain ⟨steps, w, h, -, hactive, hawaited, hsamplers, -⟩ := exists_unstaffed
  have hsettled (clock : Nat) : Settled ⟨w, clock⟩ :=
    settled_of_waiting hawaited (by simp [hsamplers])
  obtain ⟨task, delay, -, hinserting⟩ :=
    hsampled {} (.ofCapacity 1) steps ⟨w, 0⟩ _ 551 h (hsettled 0) hactive .jump (by decide)
  obtain ⟨w', hmoves, -⟩ := hinserting.next (.ok 0)
  cases hmoves with
  | act _ hmove =>
      rw [(hsettled 551).1 task (.ok 0)] at hmove
      cases hmove

end Clocked

end Recorder

end ElasticPool
