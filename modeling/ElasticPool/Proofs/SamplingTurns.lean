import ElasticPool.Recorder

namespace ElasticPool

def History.recordAll (h : History) (samples : List Sample) (now : Moment) (retention : Span) :
    History :=
  samples.foldl (fun h s => h.record s now retention) h

def Measurement.samples (c : SamplingConfig) (m : Measurement) : List Sample :=
  match m.fault? with
  | some _ => []
  | none => [m.cpuSample c, m.memorySample c]

namespace SamplingTask

def loopSamples (c : SamplingConfig) (now due : Moment) : List Sample :=
  [⟨.eventLoop (now.since due) c.maxEventLoopDelay, now⟩]

def clientSamples (c : SamplingConfig) (s : SamplingTask) (now : Moment) :
    Except String Nat → List Sample
  | .error _ => []
  | .ok total => [⟨.client (total - s.previousErrors?.getD total) c.maxClientErrors, now⟩]

theorem history?_keep (c : SamplingConfig) (now : Moment) (samples : List Sample)
    (history? : Option History) :
    (keep c now samples history?).1 = history?.map (·.recordAll samples now c.retention) := by
  cases history? <;> rfl

theorem map_recordAll_nil (history? : Option History) (now : Moment) (retention : Span) :
    history?.map (·.recordAll [] now retention) = history? := by
  cases history? <;> rfl

theorem history?_onMeasurement (c : SamplingConfig) (s : SamplingTask) (history? : Option History)
    (now : Moment) (m : Measurement) :
    (s.onMeasurement c history? now m).history? =
      history?.map (·.recordAll (m.samples c) now c.retention) := by
  unfold onMeasurement Measurement.samples
  cases m.fault? with
  | some fault => exact (map_recordAll_nil history? now c.retention).symm
  | none => exact history?_keep c now _ history?

theorem history?_onEventLoopTick (c : SamplingConfig) (s : SamplingTask)
    (history? : Option History) (now due : Moment) :
    (s.onEventLoopTick c history? now due).history? =
      history?.map (·.recordAll (loopSamples c now due) now c.retention) :=
  history?_keep c now _ history?

theorem history?_onClientTick (c : SamplingConfig) (s : SamplingTask) (history? : Option History)
    (now : Moment) (total : Except String Nat) :
    (s.onClientTick c history? now total).history? =
      history?.map (·.recordAll (s.clientSamples c now total) now c.retention) := by
  cases total with
  | error cause => exact (map_recordAll_nil history? now c.retention).symm
  | ok total => exact history?_keep c now _ history?

end SamplingTask

namespace Recorder

def taken (s : Recorder) (task : Nat) (now : Moment) (clientTotal : Except String Nat) :
    List Sample :=
  match s.sampler? task with
  | none => []
  | some sampler =>
      if sampler.stopping then []
      else
        let tickers := sampler.clocks s.config now
        match s.bus.receive sampler.subscription with
        | (⟨_, some m⟩, _) => m.samples s.config
        | (⟨_, none⟩, _) =>
            if tickers.eventLoop.Ready now then
              SamplingTask.loopSamples s.config now tickers.eventLoop.due
            else if tickers.client.Ready now then sampler.clientSamples s.config now clientTotal
            else []

variable {s s' : Recorder} {task : Nat} {now : Moment} {clientTotal : Except String Nat}
  {signals : List Signal}

/-- What a sampling task does in a turn, by what is ready first. -/
inductive Turned (s : Recorder) (task : Nat) (now : Moment) (clientTotal : Except String Nat)
    (sampler : SamplingTask) : Recorder → Prop
  | ended (hstopping : sampler.stopping = true) (htaken : s.taken task now clientTotal = []) :
      Turned s task now clientTotal sampler { s with
        bus := s.bus.unsubscribe sampler.subscription
        samplers := s.samplers.filter (·.1 ≠ task) }
  | measured {skipped : Nat} {m : Measurement} {bus : Bus Measurement}
      (hgoing : sampler.stopping = false)
      (hreceive : s.bus.receive sampler.subscription = (⟨skipped, some m⟩, bus))
      (htaken : s.taken task now clientTotal = m.samples s.config) :
      Turned s task now clientTotal sampler
        ({ s with bus }.afterTurn task (sampler.clocks s.config now)
          (sampler.onMeasurement s.config s.history? now m)).1
  | loopTicked (hgoing : sampler.stopping = false)
      (hready : (sampler.clocks s.config now).eventLoop.Ready now)
      (htaken : s.taken task now clientTotal =
        SamplingTask.loopSamples s.config now (sampler.clocks s.config now).eventLoop.due) :
      Turned s task now clientTotal sampler
        (s.afterTurn task
          { sampler.clocks s.config now with
            eventLoop := (sampler.clocks s.config now).eventLoop.taken now }
          (sampler.onEventLoopTick s.config s.history? now
            (sampler.clocks s.config now).eventLoop.due)).1
  | clientTicked (hgoing : sampler.stopping = false)
      (htaken : s.taken task now clientTotal = sampler.clientSamples s.config now clientTotal) :
      Turned s task now clientTotal sampler
        (s.afterTurn task
          { sampler.clocks s.config now with
            client := (sampler.clocks s.config now).client.taken now }
          (sampler.onClientTick s.config s.history? now clientTotal)).1

theorem turned_of_turn (h : s.turn task now clientTotal = some (s', signals)) :
    ∃ sampler, s.sampler? task = some sampler ∧ Turned s task now clientTotal sampler s' := by
  rcases hsampler : s.sampler? task with _ | sampler
  · simp only [turn, hsampler] at h
    cases h
  refine ⟨sampler, rfl, ?_⟩
  simp only [turn, hsampler] at h
  cases hstopping : sampler.stopping with
  | true =>
      rw [if_pos hstopping] at h
      obtain ⟨rfl, -⟩ := Prod.mk.inj (Option.some.inj h)
      exact .ended hstopping (by simp [taken, hsampler, hstopping])
  | false =>
      have hgoing : ¬sampler.stopping = true := by simp [hstopping]
      rw [if_neg hgoing] at h
      rcases hreceive : s.bus.receive sampler.subscription with ⟨⟨skipped, _ | m⟩, bus⟩
      · simp only [hreceive] at h
        by_cases hloop : (sampler.clocks s.config now).eventLoop.Ready now
        · rw [if_pos hloop] at h
          obtain ⟨rfl, -⟩ := Prod.mk.inj (Option.some.inj h)
          exact .loopTicked hstopping hloop
            (by simp [taken, hsampler, hstopping, hreceive, hloop])
        rw [if_neg hloop] at h
        by_cases hclient : (sampler.clocks s.config now).client.Ready now
        · rw [if_pos hclient] at h
          obtain ⟨rfl, -⟩ := Prod.mk.inj (Option.some.inj h)
          exact .clientTicked hstopping
            (by simp [taken, hsampler, hstopping, hreceive, hloop, hclient])
        · rw [if_neg hclient] at h
          cases h
      · simp only [hreceive] at h
        obtain ⟨rfl, -⟩ := Prod.mk.inj (Option.some.inj h)
        exact .measured hstopping hreceive (by simp [taken, hsampler, hstopping, hreceive])

/-- A turn adds the samples that it takes, and leaves the registration as it is. -/
theorem history?_of_turn (h : s.turn task now clientTotal = some (s', signals)) :
    s'.history? = s.history?.map
        (·.recordAll (s.taken task now clientTotal) now s.config.retention) ∧
      s'.registered? = s.registered? ∧ s'.config = s.config := by
  obtain ⟨sampler, -, hturned⟩ := turned_of_turn h
  cases hturned with
  | ended _ htaken =>
      rw [htaken, SamplingTask.map_recordAll_nil]
      exact ⟨rfl, rfl, rfl⟩
  | measured _ _ htaken =>
      rw [htaken]
      exact ⟨SamplingTask.history?_onMeasurement s.config sampler s.history? now _, rfl, rfl⟩
  | loopTicked _ _ htaken =>
      rw [htaken]
      exact ⟨SamplingTask.history?_onEventLoopTick s.config sampler s.history? now _, rfl, rfl⟩
  | clientTicked _ htaken =>
      rw [htaken]
      exact ⟨SamplingTask.history?_onClientTick s.config sampler s.history? now _, rfl, rfl⟩

end Recorder

end ElasticPool
