import ElasticPool.Proofs.NumberedEntries
import ElasticPool.Proofs.SamplingWindows
import ElasticPool.Proofs.TickSeries

namespace ElasticPool

def SamplingTask.loop? (s : SamplingTask) : Option Ticker := s.tickers?.map (·.eventLoop)

namespace Recorder

def loopTicker (s : Recorder) (sampler : SamplingTask) (now : Moment) : Ticker :=
  sampler.loop?.getD (.start .delay s.config.eventLoopInterval now)

/-- What a turn does to the event loop ticker of a task that goes on. -/
inductive LoopTurn (s : Recorder) (now : Moment) (sampler sampler' : SamplingTask)
    (samples : List Sample) : Prop
  | idle (hticker : sampler'.loop? = some (s.loopTicker sampler now))
      (hsamples : ∀ x ∈ samples, x.kind ≠ .eventLoop)
  | ticked (hready : (s.loopTicker sampler now).Ready now)
      (hticker : sampler'.loop? = some ((s.loopTicker sampler now).taken now))
      (hsamples : samples =
        SamplingTask.loopSamples s.config now (s.loopTicker sampler now).due)

variable {s s' : Recorder} {task : Nat} {now : Moment} {clientTotal : Except String Nat}
  {signals : List Signal} {sampler : SamplingTask}

theorem loopTicker_of_started {ticker : Ticker} (h : sampler.loop? = some ticker) :
    s.loopTicker sampler now = ticker := by
  rw [loopTicker, h]
  rfl

theorem eventLoop_clocks (s : Recorder) (sampler : SamplingTask) (now : Moment) :
    (sampler.clocks s.config now).eventLoop = s.loopTicker sampler now := by
  cases htickers : sampler.tickers? <;>
    simp [loopTicker, SamplingTask.clocks, SamplingTask.loop?, htickers]

theorem kind_of_measurement {m : Measurement} {c : SamplingConfig} {kind : Resource}
    (hcpu : kind ≠ .cpu) (hmemory : kind ≠ .memory) : ∀ x ∈ m.samples c, x.kind ≠ kind := by
  unfold Measurement.samples
  split
  · simp
  · simp [Measurement.cpuSample, Measurement.memorySample, Sample.kind, Reading.kind,
      hcpu.symm, hmemory.symm]

theorem kind_of_client (c : SamplingConfig) (sampler : SamplingTask) (now : Moment)
    (clientTotal : Except String Nat) :
    ∀ x ∈ sampler.clientSamples c now clientTotal, x.kind ≠ .eventLoop := by
  cases clientTotal <;> simp [SamplingTask.clientSamples, Sample.kind, Reading.kind]

/-- A turn ends a task that has been told to end.  Any other one takes its tick for the event
loop, or leaves the ticker alone. -/
theorem loopTurn_of_turn (h : s.turn task now clientTotal = some (s', signals)) :
    ∃ sampler, s.sampler? task = some sampler ∧
      (sampler.stopping = true ∧ s.taken task now clientTotal = [] ∧ s'.starts = s.starts ∧
          s'.samplers = s.samplers.filter (·.1 ≠ task) ∨
        sampler.stopping = false ∧ ∃ sampler', sampler'.stopping = false ∧ s'.starts = s.starts ∧
          s'.samplers = (s.setSampler task sampler').samplers ∧
          LoopTurn s now sampler sampler' (s.taken task now clientTotal)) := by
  obtain ⟨sampler, hfound, hturned⟩ := turned_of_turn h
  refine ⟨sampler, hfound, ?_⟩
  cases hturned with
  | ended hstopping htaken => exact .inl ⟨hstopping, htaken, rfl, rfl⟩
  | measured hgoing hreceive htaken =>
      have hadvances : Advances s now clientTotal sampler _ _ _ :=
        advances_of_measurement hgoing hreceive
      rw [htaken]
      refine .inr ⟨hgoing, _, ?_, rfl, rfl,
        .idle ?_ (kind_of_measurement (by decide) (by decide))⟩
      · exact hadvances.running
      · exact congrArg some (eventLoop_clocks s sampler now)
  | loopTicked hgoing hready htaken =>
      rw [htaken]
      rw [eventLoop_clocks] at hready ⊢
      refine .inr ⟨hgoing, _, ?_, rfl, rfl, .ticked hready ?_ rfl⟩
      · exact hgoing
      · rfl
  | clientTicked hgoing htaken =>
      have hadvances : Advances s now clientTotal sampler _ _ _ :=
        advances_of_client s.history? hgoing
      rw [htaken]
      refine .inr ⟨hgoing, _, ?_, rfl, rfl, .idle ?_ (kind_of_client _ _ _ _)⟩
      · exact hadvances.running
      · exact congrArg some (eventLoop_clocks s sampler now)

/-- A task that has no turn is running, with nothing to receive and its next tick for the event
loop to come. -/
theorem waits_of_turn_eq_none (hfound : s.sampler? task = some sampler)
    (h : s.turn task now clientTotal = none) : sampler.stopping = false ∧
      (s.bus.receive sampler.subscription).1.event? = none ∧
      ¬(s.loopTicker sampler now).Ready now := by
  simp only [turn, hfound] at h
  split at h
  · cases h
  rename_i hgoing
  rcases hreceive : s.bus.receive sampler.subscription with ⟨⟨skipped, _ | m⟩, bus⟩
  · simp only [hreceive] at h
    split at h
    · cases h
    · rename_i hloop
      rw [eventLoop_clocks] at hloop
      exact ⟨Bool.eq_false_iff.mpr hgoing, rfl, hloop⟩
  · simp only [hreceive] at h
    cases h

theorem taken_of_ready (hfound : s.sampler? task = some sampler)
    (hgoing : sampler.stopping = false)
    (hnone : (s.bus.receive sampler.subscription).1.event? = none)
    (hready : (s.loopTicker sampler now).Ready now) (clientTotal : Except String Nat) :
    s.taken task now clientTotal =
      SamplingTask.loopSamples s.config now (s.loopTicker sampler now).due := by
  rw [← eventLoop_clocks] at hready ⊢
  rcases hreceive : s.bus.receive sampler.subscription with ⟨⟨skipped, _ | m⟩, bus⟩
  · simp only [taken, hfound, hgoing, hreceive, hready, Bool.false_eq_true, if_false, if_true]
  · rw [hreceive] at hnone
    cases hnone

theorem sampler?_setSampler (s : Recorder) {task : Nat} {old : SamplingTask}
    (hfound : s.sampler? task = some old) (sampler : SamplingTask) :
    (s.setSampler task sampler).sampler? = Function.update s.sampler? task (some sampler) := by
  funext other
  rw [Function.update_apply]
  refine (lookup_change s.samplers task other sampler).trans ?_
  split
  · rename_i hother
    have hold : s.samplers.lookup other = some old := hother ▸ hfound
    rw [hold]
    rfl
  · rfl

theorem endTask_of_found (hfound : s.sampler? task = some sampler) :
    s.endTask task = s.setSampler task { sampler with stopping := true } := by
  rw [endTask, hfound]

theorem sampler?_remove (s : Recorder) (task : Nat) :
    (fun other => (s.samplers.filter (·.1 ≠ task)).lookup other) =
      Function.update s.sampler? task none := by
  funext other
  rw [Function.update_apply]
  split
  · rename_i hother
    rw [hother]
    exact lookup_remove_self s.samplers task
  · rename_i hother
    exact lookup_remove s.samplers hother

theorem sampler?_append (s : Recorder) (hnew : s.sampler? task = none) (sampler : SamplingTask) :
    (fun other => (s.samplers ++ [(task, sampler)]).lookup other) =
      Function.update s.sampler? task (some sampler) := by
  funext other
  rw [Function.update_apply]
  split
  · rename_i hother
    have hnone : s.samplers.lookup other = none := hother ▸ hnew
    rw [List.lookup_append, hnone]
    simp [hother]
  · rename_i hother
    exact lookup_add_of_ne s.samplers hother sampler

namespace Shared

inductive Restaffs (w : Shared) : Move → Shared → Prop
  | started {w' : Shared} {sampler : SamplingTask} (hfree : w.recorder.registered? = none)
      (hloop : sampler.loop? = none) (hgoing : sampler.stopping = false)
      (hsampler : w'.recorder.sampler? =
        Function.update w.recorder.sampler? w.recorder.starts (some sampler))
      (hstarts : w'.recorder.starts = w.recorder.starts + 1)
      (hregistered : w'.recorder.registered? = some w.recorder.starts)
      (hawaited : w'.awaited = w.awaited) : Restaffs w .start w'
  | told {task : Nat} {sampler : SamplingTask} {w' : Shared}
      (hregistered : w.recorder.registered? = some task)
      (hfound : w.recorder.sampler? task = some sampler)
      (hsampler : w'.recorder.sampler? =
        Function.update w.recorder.sampler? task (some { sampler with stopping := true }))
      (hstarts : w'.recorder.starts = w.recorder.starts)
      (hfree : w'.recorder.registered? = none)
      (hawaited : w'.awaited = w.awaited ++ [task]) : Restaffs w .stop w'
  | ended {task : Nat} {now : Moment} {clientTotal : Except String Nat} {sampler : SamplingTask}
      {w' : Shared} (hfound : w.recorder.sampler? task = some sampler)
      (hstopping : sampler.stopping = true) (htaken : w.recorder.taken task now clientTotal = [])
      (hsampler : w'.recorder.sampler? = Function.update w.recorder.sampler? task none)
      (hstarts : w'.recorder.starts = w.recorder.starts)
      (hregistered : w'.recorder.registered? = w.recorder.registered?)
      (hawaited : w'.awaited = w.awaited) : Restaffs w (.turn task now clientTotal) w'
  | turned {task : Nat} {now : Moment} {clientTotal : Except String Nat}
      {sampler sampler' : SamplingTask} {w' : Shared}
      (hfound : w.recorder.sampler? task = some sampler) (hgoing : sampler.stopping = false)
      (hgoing' : sampler'.stopping = false)
      (hloop : LoopTurn w.recorder now sampler sampler' (w.recorder.taken task now clientTotal))
      (hsampler : w'.recorder.sampler? =
        Function.update w.recorder.sampler? task (some sampler'))
      (hstarts : w'.recorder.starts = w.recorder.starts)
      (hregistered : w'.recorder.registered? = w.recorder.registered?)
      (hawaited : w'.awaited = w.awaited) : Restaffs w (.turn task now clientTotal) w'
  | kept {m : Move} {w' : Shared} (hturn : ∀ task now clientTotal, m ≠ .turn task now clientTotal)
      (hsampler : w'.recorder.sampler? = w.recorder.sampler?)
      (hstarts : w'.recorder.starts = w.recorder.starts)
      (hregistered : w'.recorder.registered? = w.recorder.registered?)
      (hawaited : w'.awaited ⊆ w.awaited) : Restaffs w m w'

/-- The registered task is running, and the stops wait for tasks that have been told to end. -/
structure Manned (w : Shared) : Prop where
  unborn : ∀ task, w.recorder.starts ≤ task → w.recorder.sampler? task = none
  going : ∀ task, w.recorder.registered? = some task →
    ∃ sampler, w.recorder.sampler? task = some sampler ∧ sampler.stopping = false
  awaited_lt : ∀ task ∈ w.awaited, task < w.recorder.starts
  ending : ∀ task ∈ w.awaited, ∀ sampler, w.recorder.sampler? task = some sampler →
    sampler.stopping = true

variable {config : SamplingConfig} {bus : Bus Measurement} {w w' : Shared} {m : Move}
  {steps : List Step}

theorem restaffs_of_move (hmanned : Manned w) (h : w.move? m = some w') : Restaffs w m w' := by
  cases m with
  | start =>
      rcases hregistered : w.recorder.registered? with _ | task
      · have hfree : ¬w.recorder.registered?.isSome = true := by simp [hregistered]
        have hnew := hmanned.unborn _ (Nat.le_refl _)
        simp only [move?, Recorder.start, if_neg hfree] at h
        obtain rfl := Option.some.inj h
        exact .started hregistered rfl rfl (sampler?_append _ hnew _) rfl rfl rfl
      · have hsome : w.recorder.registered?.isSome := by simp [hregistered]
        obtain rfl : w = w' := by simpa [move?, start_of_registered hsome] using h
        exact .kept (by simp) rfl rfl rfl (List.Subset.refl _)
  | stop =>
      rcases hregistered : w.recorder.registered? with _ | task
      · obtain rfl : w = w' := by simpa [move?, beginStop, hregistered] using h
        exact .kept (by simp) rfl rfl rfl (List.Subset.refl _)
      · obtain ⟨sampler, hfound, -⟩ := hmanned.going task hregistered
        simp only [move?, beginStop, hregistered, endTask_of_found hfound] at h
        obtain rfl := Option.some.inj h
        exact .told hregistered hfound (sampler?_setSampler _ hfound _) rfl rfl rfl
  | resume task =>
      rw [move?] at h
      split at h
      · obtain rfl := Option.some.inj h
        exact .kept (by simp) rfl rfl rfl List.filter_sublist.subset
      · cases h
  | giveUp task =>
      rw [move?] at h
      split at h
      · obtain rfl := Option.some.inj h
        exact .kept (by simp) rfl rfl rfl List.filter_sublist.subset
      · cases h
  | record now sample =>
      rcases hhistory : w.recorder.history? with _ | history
      · obtain rfl : w = w' := by simpa [move?, Recorder.record, hhistory] using h
        exact .kept (by simp) rfl rfl rfl (List.Subset.refl _)
      · simp only [move?, Recorder.record, hhistory] at h
        obtain rfl := Option.some.inj h
        exact .kept (by simp) rfl rfl rfl (List.Subset.refl _)
  | emit measurement =>
      obtain rfl := Option.some.inj h
      exact .kept (by simp) rfl rfl rfl (List.Subset.refl _)
  | turn task now clientTotal =>
      obtain ⟨⟨recorder, signals⟩, hturn, rfl⟩ := Option.map_eq_some_iff.mp h
      obtain ⟨-, hregistered, -⟩ := history?_of_turn hturn
      obtain ⟨sampler, hfound, ⟨hstopping, htaken, hstarts, hsamplers⟩ |
        ⟨hgoing, sampler', hgoing', hstarts, hsamplers, hloop⟩⟩ := loopTurn_of_turn hturn
      · refine .ended hfound hstopping htaken ?_ hstarts hregistered rfl
        rw [← sampler?_remove, ← hsamplers]
        rfl
      · refine .turned hfound hgoing hgoing' hloop ?_ hstarts hregistered rfl
        rw [← sampler?_setSampler _ hfound]
        funext other
        exact congrArg (List.lookup other) hsamplers

section

variable {task : Nat} {sampler sampler' : SamplingTask}

theorem Manned.lt_starts_of_sampler? (h : Manned w)
    (hfound : w.recorder.sampler? task = some sampler) : task < w.recorder.starts := by
  refine Nat.lt_of_not_le fun hle => ?_
  rw [h.unborn task hle] at hfound
  cases hfound

theorem Manned.of_started (h : Manned w) (hgoing : sampler.stopping = false)
    (hsampler : w'.recorder.sampler? =
      Function.update w.recorder.sampler? w.recorder.starts (some sampler))
    (hstarts : w'.recorder.starts = w.recorder.starts + 1)
    (hregistered : w'.recorder.registered? = some w.recorder.starts)
    (hawaited : w'.awaited = w.awaited) : Manned w' := by
  constructor
  · intro task hle
    rw [hstarts] at hle
    rw [hsampler, Function.update_of_ne (Nat.ne_of_gt hle)]
    exact h.unborn task (Nat.le_of_succ_le hle)
  · intro task htask
    obtain rfl : w.recorder.starts = task := Option.some.inj (hregistered.symm.trans htask)
    rw [hsampler, Function.update_self]
    exact ⟨_, rfl, hgoing⟩
  · intro task hmem
    rw [hstarts]
    exact Nat.lt_succ_of_lt (h.awaited_lt task (hawaited ▸ hmem))
  · intro task hmem sampler hfound
    rw [hawaited] at hmem
    rw [hsampler, Function.update_of_ne (Nat.ne_of_lt (h.awaited_lt task hmem))] at hfound
    exact h.ending task hmem sampler hfound

theorem Manned.of_told (h : Manned w) (hfound : w.recorder.sampler? task = some sampler)
    (hsampler : w'.recorder.sampler? =
      Function.update w.recorder.sampler? task (some { sampler with stopping := true }))
    (hstarts : w'.recorder.starts = w.recorder.starts)
    (hfree : w'.recorder.registered? = none)
    (hawaited : w'.awaited = w.awaited ++ [task]) : Manned w' := by
  have hborn := h.lt_starts_of_sampler? hfound
  constructor
  · intro other hle
    rw [hstarts] at hle
    rw [hsampler, Function.update_of_ne (Nat.ne_of_gt (Nat.lt_of_lt_of_le hborn hle))]
    exact h.unborn other hle
  · intro other hother
    rw [hfree] at hother
    cases hother
  · intro other hmem
    rw [hawaited, List.mem_append, List.mem_singleton] at hmem
    rw [hstarts]
    rcases hmem with hmem | rfl
    · exact h.awaited_lt other hmem
    · exact hborn
  · intro other hmem found hother
    rw [hsampler, Function.update_apply] at hother
    split at hother
    · rw [← Option.some.inj hother]
    · rename_i hne
      rw [hawaited, List.mem_append, List.mem_singleton, or_iff_left hne] at hmem
      exact h.ending other hmem found hother

theorem Manned.of_ended (h : Manned w) (hfound : w.recorder.sampler? task = some sampler)
    (hstopping : sampler.stopping = true)
    (hsampler : w'.recorder.sampler? = Function.update w.recorder.sampler? task none)
    (hstarts : w'.recorder.starts = w.recorder.starts)
    (hregistered : w'.recorder.registered? = w.recorder.registered?)
    (hawaited : w'.awaited = w.awaited) : Manned w' := by
  constructor
  · intro other hle
    rw [hsampler, Function.update_apply]
    split
    · rfl
    · exact h.unborn other (hstarts ▸ hle)
  · intro other hother
    obtain ⟨running, hrunning, hgoing⟩ := h.going other (hregistered ▸ hother)
    have hne : other ≠ task := by
      rintro rfl
      obtain rfl := Option.some.inj (hfound.symm.trans hrunning)
      rw [hstopping] at hgoing
      cases hgoing
    rw [hsampler, Function.update_of_ne hne]
    exact ⟨running, hrunning, hgoing⟩
  · intro other hmem
    rw [hstarts]
    exact h.awaited_lt other (hawaited ▸ hmem)
  · intro other hmem found hother
    rw [hsampler, Function.update_apply] at hother
    split at hother
    · cases hother
    · exact h.ending other (hawaited ▸ hmem) found hother

theorem Manned.of_turned (h : Manned w) (hfound : w.recorder.sampler? task = some sampler)
    (hgoing : sampler.stopping = false) (hgoing' : sampler'.stopping = false)
    (hsampler : w'.recorder.sampler? =
      Function.update w.recorder.sampler? task (some sampler'))
    (hstarts : w'.recorder.starts = w.recorder.starts)
    (hregistered : w'.recorder.registered? = w.recorder.registered?)
    (hawaited : w'.awaited = w.awaited) : Manned w' := by
  have hborn := h.lt_starts_of_sampler? hfound
  constructor
  · intro other hle
    rw [hstarts] at hle
    rw [hsampler, Function.update_of_ne (Nat.ne_of_gt (Nat.lt_of_lt_of_le hborn hle))]
    exact h.unborn other hle
  · intro other hother
    rw [hsampler, Function.update_apply]
    split
    · exact ⟨_, rfl, hgoing'⟩
    · exact h.going other (hregistered ▸ hother)
  · intro other hmem
    rw [hstarts]
    exact h.awaited_lt other (hawaited ▸ hmem)
  · intro other hmem found hother
    rw [hawaited] at hmem
    rw [hsampler, Function.update_apply] at hother
    split at hother
    · -- A task that takes a turn has not been told to end.
      rename_i heq
      have hstopping := h.ending other hmem _ (heq ▸ hfound)
      rw [hgoing] at hstopping
      cases hstopping
    · exact h.ending other hmem found hother

end

theorem Manned.of_restaffs (h : Manned w) (hrestaffs : Restaffs w m w') : Manned w' := by
  cases hrestaffs with
  | started _ _ hgoing hsampler hstarts hregistered hawaited =>
      exact h.of_started hgoing hsampler hstarts hregistered hawaited
  | told _ hfound hsampler hstarts hfree hawaited =>
      exact h.of_told hfound hsampler hstarts hfree hawaited
  | ended hfound hstopping _ hsampler hstarts hregistered hawaited =>
      exact h.of_ended hfound hstopping hsampler hstarts hregistered hawaited
  | turned hfound hgoing hgoing' _ hsampler hstarts hregistered hawaited =>
      exact h.of_turned hfound hgoing hgoing' hsampler hstarts hregistered hawaited
  | kept _ hsampler hstarts hregistered hawaited =>
      constructor
      · rw [hsampler, hstarts]
        exact h.unborn
      · rw [hsampler, hregistered]
        exact h.going
      · rw [hstarts]
        exact fun task hmem => h.awaited_lt task (hawaited hmem)
      · rw [hsampler]
        exact fun task hmem => h.ending task (hawaited hmem)

theorem manned_of_execution (h : Execution (fresh config bus) steps w) : Manned w := by
  induction h with
  | start =>
      constructor
      · exact fun task _ => rfl
      · intro task hregistered
        cases hregistered
      · intro task hmem
        cases hmem
      · intro task hmem
        cases hmem
  | next _ hmove ih => exact ih.of_restaffs (restaffs_of_move ih hmove)

def Loops (P : Ticker → Prop) (w : Shared) : Prop :=
  ∀ task sampler ticker, w.recorder.sampler? task = some sampler → sampler.loop? = some ticker →
    P ticker

theorem Loops.mono {P Q : Ticker → Prop} (h : Loops P w) (hPQ : ∀ ticker, P ticker → Q ticker) :
    Loops Q w := fun task sampler ticker hfound hloop =>
  hPQ ticker (h task sampler ticker hfound hloop)

theorem Loops.loopTicker {P : Ticker → Prop} {task : Nat} {sampler : SamplingTask} {now : Moment}
    (h : Loops P w) (hfound : w.recorder.sampler? task = some sampler)
    (hstart : P (.start .delay w.recorder.config.eventLoopInterval now)) :
    P (w.recorder.loopTicker sampler now) := by
  rcases hold : sampler.loop? with _ | old
  · rw [Recorder.loopTicker, hold]
    exact hstart
  · rw [loopTicker_of_started hold]
    exact h task sampler old hfound hold

/-- A property of the tickers lasts if it holds of a ticker that starts and if a tick keeps it. -/
theorem Loops.of_restaffs {P : Ticker → Prop} (h : Loops P w) (hrestaffs : Restaffs w m w')
    (hstart : ∀ task now clientTotal, m = .turn task now clientTotal →
      P (.start .delay w.recorder.config.eventLoopInterval now))
    (htaken : ∀ task now clientTotal, m = .turn task now clientTotal →
      ∀ ticker : Ticker, P ticker → ticker.Ready now → P (ticker.taken now)) : Loops P w' := by
  intro other found ticker hother hticker
  cases hrestaffs with
  | started _ hloop _ hsampler =>
      rw [hsampler, Function.update_apply] at hother
      split at hother
      · obtain rfl := Option.some.inj hother
        rw [hloop] at hticker
        cases hticker
      · exact h other found ticker hother hticker
  | @told task sampler _ _ hfound hsampler =>
      rw [hsampler, Function.update_apply] at hother
      split at hother
      · obtain rfl := Option.some.inj hother
        exact h task sampler ticker hfound hticker
      · exact h other found ticker hother hticker
  | ended _ _ _ hsampler =>
      rw [hsampler, Function.update_apply] at hother
      split at hother
      · cases hother
      · exact h other found ticker hother hticker
  | @turned task now clientTotal sampler sampler' _ hfound _ _ hloop hsampler =>
      have hread : P (w.recorder.loopTicker sampler now) :=
        h.loopTicker hfound (hstart task now clientTotal rfl)
      rw [hsampler, Function.update_apply] at hother
      split at hother
      · obtain rfl := Option.some.inj hother
        rcases hloop with ⟨hkept, -⟩ | ⟨hready, hkept, -⟩
        · obtain rfl := Option.some.inj (hkept.symm.trans hticker)
          exact hread
        · obtain rfl := Option.some.inj (hkept.symm.trans hticker)
          exact htaken task now clientTotal rfl _ hread hready
      · exact h other found ticker hother hticker
  | kept _ hsampler =>
      rw [hsampler] at hother
      exact h other found ticker hother hticker

def WaitsFor (w : Shared) (task : Nat) (due : Moment) : Prop :=
  ∃ sampler ticker, w.recorder.sampler? task = some sampler ∧ sampler.stopping = false ∧
    sampler.loop? = some ticker ∧ ticker.due = due

/-- As long as no stop is called, a task waits for its tick until it takes it. -/
theorem WaitsFor.of_restaffs {task : Nat} {due : Moment} (h : w.WaitsFor task due)
    (hmanned : Manned w) (hrestaffs : Restaffs w m w') (hnone : m ≠ .stop) :
    w'.WaitsFor task due ∨ ∃ now clientTotal, m = .turn task now clientTotal ∧
      w.recorder.taken task now clientTotal =
        SamplingTask.loopSamples w.recorder.config now due := by
  obtain ⟨sampler, ticker, hfound, hgoing, hloop, rfl⟩ := h
  have hkept (hsame : w'.recorder.sampler? task = w.recorder.sampler? task) :
      w'.WaitsFor task ticker.due := ⟨sampler, ticker, hsame.trans hfound, hgoing, hloop, rfl⟩
  cases hrestaffs with
  | started _ _ _ hsampler =>
      have hother : task ≠ w.recorder.starts := by
        rintro rfl
        rw [hmanned.unborn _ (Nat.le_refl _)] at hfound
        cases hfound
      exact .inl (hkept (by rw [hsampler, Function.update_of_ne hother]))
  | told => exact absurd rfl hnone
  | @ended ending _ _ _ _ hended hstopping _ hsampler =>
      have hother : task ≠ ending := by
        rintro rfl
        obtain rfl := Option.some.inj (hfound.symm.trans hended)
        rw [hgoing] at hstopping
        cases hstopping
      exact .inl (hkept (by rw [hsampler, Function.update_of_ne hother]))
  | @turned turning now clientTotal found sampler' _ hturning _ hgoing' hturn hsampler =>
      by_cases hother : task = turning
      · subst hother
        obtain rfl := Option.some.inj (hfound.symm.trans hturning)
        have hticker : w.recorder.loopTicker sampler now = ticker := loopTicker_of_started hloop
        rcases hturn with ⟨hloop', -⟩ | ⟨-, -, hsamples⟩
        · rw [hticker] at hloop'
          have hfound' : w'.recorder.sampler? task = some sampler' := by
            rw [hsampler, Function.update_self]
          exact .inl ⟨sampler', ticker, hfound', hgoing', hloop', rfl⟩
        · rw [hticker] at hsamples
          exact .inr ⟨now, clientTotal, rfl, hsamples⟩
      · exact .inl (hkept (by rw [hsampler, Function.update_of_ne hother]))
  | kept _ hsampler => exact .inl (hkept (by rw [hsampler]))

end Shared

end Recorder

end ElasticPool
