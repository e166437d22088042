import ElasticPool.Proofs.BusDelivery
import ElasticPool.Proofs.UnprunedHistory
/-!
The windows between the starts and the stops of a recorder whose stops are awaited.

While a stop is waiting nothing is called, and only its sampling task goes on, which ends at its
next turn.  So a recorder is in one of four stages: closed, open, with a task that is to end, or
with a stop that has still to notice that its task has ended.  A start opens a window with a new
sampling task and a new subscription, whose cursor stands behind all that was published before.
-/

namespace ElasticPool

def WarningGate.after (w : WarningGate) (calls : List (Bool × Moment)) : WarningGate :=
  calls.foldl (fun w call => (w.ask call.1 call.2).2) w

namespace Recorder

/-- The total of client errors that is read for these samples. -/
def errorsRead (clientTotal : Except String Nat) (samples : List Sample) : List Nat :=
  if samples.any (·.kind = .client) then clientTotal.toOption.toList else []

def warningCalls (now : Moment) (samples : List Sample) : List (Bool × Moment) :=
  (samples.filter (·.kind = .memory)).map fun s => (s.overloaded, now)

/-- A running sampling task after a turn, with the bus and the samples that it took. -/
structure Advances (s : Recorder) (now : Moment) (clientTotal : Except String Nat)
    (sampler sampler' : SamplingTask) (bus' : Bus Measurement)
    (samples : List Sample) : Prop where
  subscription_eq : sampler'.subscription = sampler.subscription
  running : sampler'.stopping = false
  errors_eq : sampler'.previousErrors? =
    (errorsRead clientTotal samples).getLast?.or sampler.previousErrors?
  warning_eq : sampler'.warning = sampler.warning.after (warningCalls now samples)
  delivery : (bus' = s.bus ∧ ∀ x ∈ samples, x.kind ≠ .cpu ∧ x.kind ≠ .memory) ∨
    ∃ skipped m, s.bus.receive sampler.subscription = (⟨skipped, some m⟩, bus') ∧
      samples = m.samples s.config

variable {s s' : Recorder} {task : Nat} {now : Moment} {clientTotal : Except String Nat}
  {signals : List Signal} {sampler : SamplingTask}

theorem Advances.wind {sampler' : SamplingTask} {bus' : Bus Measurement} {samples : List Sample}
    (h : Advances s now clientTotal sampler sampler' bus' samples)
    (tickers? : Option SamplingTickers) :
    Advances s now clientTotal sampler { sampler' with tickers? } bus' samples :=
  ⟨h.subscription_eq, h.running, h.errors_eq, h.warning_eq, h.delivery⟩

theorem advances_of_measurement {skipped : Nat} {m : Measurement} {bus' : Bus Measurement}
    (hrunning : sampler.stopping = false)
    (hreceive : s.bus.receive sampler.subscription = (⟨skipped, some m⟩, bus')) :
    Advances s now clientTotal sampler (sampler.onMeasurement s.config s.history? now m).sampler
      bus' (m.samples s.config) := by
  have hdelivery : ∃ skipped' m', s.bus.receive sampler.subscription =
      (⟨skipped', some m'⟩, bus') ∧ m.samples s.config = m'.samples s.config :=
    ⟨skipped, m, hreceive, rfl⟩
  cases hfault : m.fault? with
  | some fault =>
      have hskipped : m.samples s.config = [] := by rw [Measurement.samples, hfault]
      have hsame : (sampler.onMeasurement s.config s.history? now m).sampler = sampler := by
        rw [SamplingTask.onMeasurement, hfault]
      rw [hsame]
      exact ⟨rfl, hrunning, by rw [hskipped]; rfl, by rw [hskipped]; rfl, .inr hdelivery⟩
  | none =>
      have htaken : m.samples s.config = [m.cpuSample s.config, m.memorySample s.config] := by
        rw [Measurement.samples, hfault]
      have hasked : (sampler.onMeasurement s.config s.history? now m).sampler = { sampler with
          warning := (sampler.warning.ask (m.memorySample s.config).overloaded now).2 } := by
        rw [SamplingTask.onMeasurement, hfault]
      rw [hasked]
      exact ⟨rfl, hrunning, by rw [htaken]; rfl, by rw [htaken]; rfl, .inr hdelivery⟩

theorem advances_of_loop (history? : Option History) (due : Moment)
    (hrunning : sampler.stopping = false) :
    Advances s now clientTotal sampler (sampler.onEventLoopTick s.config history? now due).sampler
      s.bus (SamplingTask.loopSamples s.config now due) :=
  ⟨rfl, hrunning, rfl, rfl,
    .inl ⟨rfl, by simp [SamplingTask.loopSamples, Sample.kind, Reading.kind]⟩⟩

theorem advances_of_client (history? : Option History) (hrunning : sampler.stopping = false) :
    Advances s now clientTotal sampler
      (sampler.onClientTick s.config history? now clientTotal).sampler s.bus
      (sampler.clientSamples s.config now clientTotal) := by
  cases clientTotal with
  | error cause =>
      exact ⟨rfl, hrunning, rfl, rfl, .inl ⟨rfl, by simp [SamplingTask.clientSamples]⟩⟩
  | ok total =>
      exact ⟨rfl, hrunning, rfl, rfl,
        .inl ⟨rfl, by simp [SamplingTask.clientSamples, Sample.kind, Reading.kind]⟩⟩

theorem sampler_of_turn (h : s.turn task now clientTotal = some (s', signals)) :
    ∃ sampler, s.sampler? task = some sampler ∧
      (sampler.stopping = true ∧ s.taken task now clientTotal = [] ∧
          s'.bus = s.bus.unsubscribe sampler.subscription ∧
          s'.samplers = s.samplers.filter (·.1 ≠ task) ∨
        sampler.stopping = false ∧ ∃ sampler',
          Advances s now clientTotal sampler sampler' s'.bus (s.taken task now clientTotal) ∧
          s'.samplers = (s.setSampler task sampler').samplers) := by
  obtain ⟨sampler, hfound, hturned⟩ := turned_of_turn h
  refine ⟨sampler, hfound, ?_⟩
  cases hturned with
  | ended hstopping htaken => exact .inl ⟨hstopping, htaken, rfl, rfl⟩
  | measured hgoing hreceive htaken =>
      rw [htaken]
      exact .inr ⟨hgoing, _, (advances_of_measurement hgoing hreceive).wind _, rfl⟩
  | loopTicked hgoing _ htaken =>
      rw [htaken]
      exact .inr ⟨hgoing, _, (advances_of_loop s.history? _ hgoing).wind _, rfl⟩
  | clientTicked hgoing htaken =>
      rw [htaken]
      exact .inr ⟨hgoing, _, (advances_of_client s.history? hgoing).wind _, rfl⟩

theorem start_eq (h : s.registered? = none) : ∃ s' signals, s.start = .ok (s', signals) ∧
    s'.bus = s.bus.subscribe.2 ∧ s'.history?.isSome ∧ s'.registered? = some s.starts ∧
    s'.samplers = s.samplers ++ [(s.starts,
      { subscription := s.bus.subscribe.1, warning := ⟨s.config.warningCooldown, none⟩ })] := by
  have hfree : ¬s.registered?.isSome = true := by simp [h]
  refine ⟨_, _, if_neg hfree, rfl, rfl, rfl, rfl⟩

theorem endTask_eq (h : s.samplers = [(task, sampler)]) :
    (s.endTask task).samplers = [(task, { sampler with stopping := true })] ∧
      (s.endTask task).bus = s.bus := by
  have hsampler : s.sampler? task = some sampler := by simp [sampler?, h]
  rw [endTask, hsampler]
  exact ⟨by simp [setSampler, h], rfl⟩

theorem record_of_active (h : s.active) (now : Moment) (sample : Sample) :
    ∃ history, s.record now sample = .ok { s with history? := some history } := by
  obtain ⟨history, hhistory⟩ := Option.isSome_iff_exists.mp h
  exact ⟨_, by rw [record, hhistory]⟩

end Recorder

namespace History

theorem mem_of_survivors {kind : Resource} {steps : List Step} {s : Sample}
    (h : s ∈ survivors kind steps) : .insert s ∈ steps := by
  induction steps with
  | nil => cases h
  | cons step steps ih =>
      cases step with
      | insert s' =>
          rw [survivors] at h
          split at h
          · rcases List.mem_cons.mp h with rfl | h
            · exact List.mem_cons_self
            · exact List.mem_cons_of_mem _ (ih h)
          · exact List.mem_cons_of_mem _ (ih h)
      | prune | get => exact List.mem_cons_of_mem _ (ih h)

theorem delivered_of_get {retention : Span} {log : List Delivery} {kind : Resource}
    {now : Moment} {window? : Option Span} {s : Sample}
    (h : s ∈ (ofDeliveries retention log).get kind now window?) : ∃ d ∈ log, d.sample = s := by
  have hseries : s ∈ (ofDeliveries retention log).series kind := by
    cases window? with
    | none => exact h
    | some window => exact List.mem_of_mem_filter h
  rw [ofDeliveries_eq_after] at hseries
  have hsorts := sorts_survivors (log.flatMap (·.steps retention)) kind
  have hadded := mem_of_survivors ((mem_iff_of_ties hsorts.ties s).mp hseries)
  obtain ⟨d, hd, hstep⟩ := List.mem_flatMap.mp hadded
  exact ⟨d, hd, by simpa [Delivery.steps, eq_comm] using hstep⟩

end History

namespace Recorder

namespace Shared

variable {config : SamplingConfig} {bus : Bus Measurement} {w w' : Shared} {m : Move}
  {steps later : List Step} {e last : Step} {live : Nat}

def Move.passes : Move → Bool
  | .emit _ | .turn .. | .resume _ => true
  | .start | .stop | .record .. | .giveUp _ => false

/-- Every stop is awaited before the next call. -/
def AwaitsStops (steps : List Step) : Prop := ∀ e ∈ steps, e.before.awaited ≠ [] → e.move.passes

instance (steps : List Step) : Decidable (AwaitsStops steps) :=
  inferInstanceAs (Decidable (∀ e ∈ steps, e.before.awaited ≠ [] → e.move.passes))

namespace Step

def emitted (e : Step) : List Measurement :=
  match e.move with
  | .emit m => [m]
  | .start | .stop | .resume _ | .giveUp _ | .record .. | .turn .. => []

def brought (e : Step) : List Sample :=
  match e.move with
  | .record _ sample => [sample]
  | .turn task now clientTotal => e.before.recorder.taken task now clientTotal
  | .start | .stop | .resume _ | .giveUp _ | .emit _ => []

def errorsRead (e : Step) : List Nat :=
  match e.move with
  | .turn _ _ clientTotal => Recorder.errorsRead clientTotal e.brought
  | .start | .stop | .resume _ | .giveUp _ | .record .. | .emit _ => []

def warningCalls (e : Step) : List (Bool × Moment) :=
  match e.move with
  | .turn _ now _ => Recorder.warningCalls now e.brought
  | .start | .stop | .resume _ | .giveUp _ | .record .. | .emit _ => []

end Step

/-- Every sample that a turn makes from a measurement comes from one that was emitted before. -/
def Traced (config : SamplingConfig) (steps : List Step) : Prop :=
  ∀ before e after, steps = before ++ e :: after →
    ∀ task now clientTotal, e.move = .turn task now clientTotal →
      ∀ s ∈ e.brought, s.kind = .cpu ∨ s.kind = .memory →
        ∃ m ∈ before.flatMap (·.emitted), s ∈ m.samples config

theorem Traced.concat (h : Traced config steps)
    (hlast : ∀ task now clientTotal, last.move = .turn task now clientTotal →
      ∀ s ∈ last.brought, s.kind = .cpu ∨ s.kind = .memory →
        ∃ m ∈ steps.flatMap (·.emitted), s ∈ m.samples config) :
    Traced config (steps ++ [last]) := by
  intro before e after hsplit
  rcases List.eq_nil_or_concat after with rfl | ⟨after', last', rfl⟩
  · obtain ⟨rfl, heq⟩ := List.append_inj' hsplit rfl
    obtain rfl : last = e := by simpa using heq
    exact hlast
  · rw [List.concat_eq_append, ← List.cons_append, ← List.append_assoc] at hsplit
    obtain ⟨hsteps, -⟩ := List.append_inj' hsplit rfl
    exact h before e after' hsteps

theorem brought_of_delivered (h : Execution (fresh config bus) steps w)
    (hunstopped : Unstopped steps e later) {d : History.Delivery} (hmem : d ∈ delivered steps) :
    ∃ e' ∈ later, d.sample ∈ e'.brought := by
  induction h generalizing later with
  | start =>
      obtain ⟨⟨earlier, hsplit⟩, -⟩ := hunstopped
      simp at hsplit
  | @next steps w w' m hsteps hmove ih =>
      rw [delivered_concat] at hmem
      rcases unstopped_concat.mp hunstopped with
        ⟨rfl, rfl, hstart, started, hstarted⟩ | ⟨later', rfl, hearlier, hnone⟩
      · obtain rfl : m = .start := hstart
        have hok : w.recorder.start = .ok started := hstarted
        simp [Step.extend, hok] at hmem
      · have hold : d ∈ delivered steps →
            ∃ e' ∈ later' ++ [⟨w, m, w'⟩], d.sample ∈ e'.brought := by
          intro hmem
          obtain ⟨e', hlater, hbrought⟩ := ih hearlier hmem
          exact ⟨e', List.mem_append_left _ hlater, hbrought⟩
        have hnew : d.sample ∈ (⟨w, m, w'⟩ : Step).brought →
            ∃ e' ∈ later' ++ [⟨w, m, w'⟩], d.sample ∈ e'.brought :=
          fun hbrought => ⟨_, List.mem_append_right _ (List.mem_singleton_self _), hbrought⟩
        cases m with
        | start =>
            have hregistered := (lasts_of_execution hsteps hearlier).registered
            simp only [Step.extend, start_of_registered hregistered] at hmem
            exact hold hmem
        | record now sample =>
            rcases List.mem_append.mp hmem with hmem | hmem
            · exact hold hmem
            · obtain rfl := List.mem_singleton.mp hmem
              exact hnew (List.mem_singleton_self _)
        | turn task now clientTotal =>
            rcases List.mem_append.mp hmem with hmem | hmem
            · exact hold hmem
            · obtain ⟨s, hs, rfl⟩ := List.mem_map.mp hmem
              exact hnew hs
        | stop | resume | giveUp | emit => exact hold hmem

/-- No sampling task exists. -/
structure Closed (live : Nat) (w : Shared) : Prop where
  registered : w.recorder.registered? = none
  samplers : w.recorder.samplers = []
  live_eq : w.recorder.bus.live = live
  keeps : ∃ log, w.recorder.bus.Keeps log

/-- A sampling task runs that has come to its state by the steps since the start. -/
structure Open (config : SamplingConfig) (live : Nat) (later : List Step) (w : Shared)
    (task : Nat) (sampler : SamplingTask) : Prop where
  registered : w.recorder.registered? = some task
  samplers : w.recorder.samplers = [(task, sampler)]
  active : w.recorder.active
  running : sampler.stopping = false
  errors_eq : sampler.previousErrors? = (later.flatMap (·.errorsRead)).getLast?
  warning_eq : sampler.warning =
    WarningGate.after ⟨config.warningCooldown, none⟩ (later.flatMap (·.warningCalls))
  live_eq : w.recorder.bus.live = live + 1
  /-- The cursor stands behind all that was published before the start. -/
  cursor : ∃ log next, w.recorder.bus.Keeps (log ++ later.flatMap (·.emitted)) ∧
    w.recorder.bus.next? sampler.subscription = some next ∧ log.length ≤ next
  traced : Traced config later

structure Closing (live : Nat) (w : Shared) (task : Nat) (sampler : SamplingTask) : Prop where
  registered : w.recorder.registered? = none
  samplers : w.recorder.samplers = [(task, sampler)]
  stopping : sampler.stopping = true
  live_eq : w.recorder.bus.live = live + 1
  keeps : ∃ log, w.recorder.bus.Keeps log
  subscribed : ∃ next, w.recorder.bus.next? sampler.subscription = some next

/-- Where a recorder stands between its calls and in them. -/
inductive Stage (config : SamplingConfig) (live : Nat) (steps : List Step) (w : Shared) : Prop
  | closed (hawaited : w.awaited = []) (hactive : w.recorder.active = false)
      (hclosed : Closed live w)
  | opened {e : Step} {later : List Step} {task : Nat} {sampler : SamplingTask}
      (hawaited : w.awaited = []) (hunstopped : Unstopped steps e later)
      (hopen : Open config live later w task sampler)
  | closing {task : Nat} {sampler : SamplingTask} (hawaited : w.awaited = [task])
      (hclosing : Closing live w task sampler)
  | ended {task : Nat} (hawaited : w.awaited = [task]) (hclosed : Closed live w)

theorem Closed.emit (h : Closed live w) (m : Measurement) :
    Closed live { w with recorder := { w.recorder with bus := w.recorder.bus.emit m } } where
  registered := h.registered
  samplers := h.samplers
  live_eq := h.live_eq
  keeps := by
    obtain ⟨log, hkeeps⟩ := h.keeps
    exact ⟨_, hkeeps.emit m⟩

theorem Closing.emit {task : Nat} {sampler : SamplingTask} (h : Closing live w task sampler)
    (m : Measurement) :
    Closing live { w with recorder := { w.recorder with bus := w.recorder.bus.emit m } } task
      sampler where
  registered := h.registered
  samplers := h.samplers
  stopping := h.stopping
  live_eq := h.live_eq
  keeps := by
    obtain ⟨log, hkeeps⟩ := h.keeps
    exact ⟨_, hkeeps.emit m⟩
  subscribed := h.subscribed

theorem sampler_of_single {s : Recorder} {task turning : Nat} {sampler found : SamplingTask}
    (hsamplers : s.samplers = [(task, sampler)]) (hfound : s.sampler? turning = some found) :
    turning = task ∧ found = sampler := by
  rw [sampler?, hsamplers] at hfound
  simpa [eq_comm] using lookup_mem hfound

/-- The task ends at its next turn, and its subscription with it. -/
theorem Closing.turn {task turning : Nat} {sampler : SamplingTask} {now : Moment}
    {clientTotal : Except String Nat} {s' : Recorder} {signals : List Signal}
    (h : Closing live w task sampler)
    (hturn : w.recorder.turn turning now clientTotal = some (s', signals)) :
    Closed live { w with recorder := s' } := by
  obtain ⟨found, hfound, hcases⟩ := sampler_of_turn hturn
  obtain ⟨rfl, rfl⟩ := sampler_of_single h.samplers hfound
  obtain ⟨-, hregistered, -⟩ := history?_of_turn hturn
  obtain ⟨log, hkeeps⟩ := h.keeps
  obtain ⟨next, hnext⟩ := h.subscribed
  rcases hcases with ⟨-, -, hbus, hsamplers⟩ | ⟨hrunning, -⟩
  · refine ⟨hregistered.trans h.registered, ?_, ?_, ?_⟩
    · simp [hsamplers, h.samplers]
    · have hcount := hkeeps.live_unsubscribe hnext
      rw [h.live_eq, ← hbus] at hcount
      exact Nat.succ.inj hcount
    · exact ⟨log, hbus ▸ hkeeps.unsubscribe found.subscription⟩
  · rw [h.stopping] at hrunning
    cases hrunning

theorem flatMap_concat {α : Type} (f : Step → List α) (later : List Step) (last : Step) :
    (later ++ [last]).flatMap f = later.flatMap f ++ f last := by
  simp

namespace Open

variable {task : Nat} {sampler : SamplingTask}

theorem of_kept (h : Open config live later w task sampler)
    (hmove : ∀ turning now clientTotal, m ≠ .turn turning now clientTotal)
    (hregistered : w'.recorder.registered? = w.recorder.registered?)
    (hsamplers : w'.recorder.samplers = w.recorder.samplers)
    (hactive : w'.recorder.active = w.recorder.active)
    (hbus : w'.recorder.bus =
      (⟨w, m, w'⟩ : Step).emitted.foldl Bus.emit w.recorder.bus) :
    Open config live (later ++ [⟨w, m, w'⟩]) w' task sampler := by
  have hnone : (⟨w, m, w'⟩ : Step).errorsRead = [] ∧ (⟨w, m, w'⟩ : Step).warningCalls = [] := by
    cases m with
    | turn turning now clientTotal => exact absurd rfl (hmove turning now clientTotal)
    | start | stop | resume | giveUp | record | emit => exact ⟨rfl, rfl⟩
  have hcursors : w'.recorder.bus.cursors = w.recorder.bus.cursors :=
    (congrArg Bus.cursors hbus).trans (Bus.cursors_emitAll _ _)
  obtain ⟨log, next, hkeeps, hnext, hbehind⟩ := h.cursor
  refine ⟨hregistered.trans h.registered, hsamplers.trans h.samplers, hactive ▸ h.active,
    h.running, ?_, ?_, ?_, ⟨log, next, ?_, ?_, hbehind⟩, ?_⟩
  · rw [flatMap_concat, hnone.1, List.append_nil]
    exact h.errors_eq
  · rw [flatMap_concat, hnone.2, List.append_nil]
    exact h.warning_eq
  · exact (congrArg List.length hcursors).trans h.live_eq
  · rw [flatMap_concat, hbus, ← List.append_assoc]
    exact hkeeps.emitAll _
  · exact (congrArg (List.lookup sampler.subscription) hcursors).trans hnext
  · exact h.traced.concat fun turning now clientTotal hturn => absurd hturn (hmove _ _ _)

theorem turn {turning : Nat} {now : Moment} {clientTotal : Except String Nat} {s' : Recorder}
    {signals : List Signal} (h : Open config live later w task sampler)
    (hconfig : w.recorder.config = config)
    (hturn : w.recorder.turn turning now clientTotal = some (s', signals)) :
    ∃ sampler', Open config live
      (later ++ [⟨w, .turn turning now clientTotal, { w with recorder := s' }⟩])
      { w with recorder := s' } task sampler' := by
  obtain ⟨found, hfound, hcases⟩ := sampler_of_turn hturn
  obtain ⟨rfl, rfl⟩ := sampler_of_single h.samplers hfound
  obtain ⟨-, hregistered, -⟩ := history?_of_turn hturn
  obtain ⟨hactive, -⟩ := active_of_turn hturn
  rcases hcases with ⟨hstopping, -⟩ | ⟨-, sampler', hadvances, hsamplers⟩
  · rw [h.running] at hstopping
    cases hstopping
  obtain ⟨log, next, hkeeps, hnext, hbehind⟩ := h.cursor
  refine ⟨sampler', hregistered.trans h.registered, ?_, hactive ▸ h.active, hadvances.running,
    ?_, ?_, ?_, ?_, ?_⟩
  · show s'.samplers = _
    simp [hsamplers, setSampler, h.samplers]
  · rw [flatMap_concat, List.getLast?_append, hadvances.errors_eq, h.errors_eq]
    rfl
  · rw [flatMap_concat, hadvances.warning_eq, h.warning_eq, WarningGate.after, WarningGate.after,
      WarningGate.after, List.foldl_append]
    rfl
  · rcases hadvances.delivery with ⟨hbus, -⟩ | ⟨skipped, m, hreceive, -⟩
    · exact (congrArg Bus.live hbus).trans h.live_eq
    · exact (hkeeps.received hnext hreceive).2.1.trans h.live_eq
  · rw [flatMap_concat, Step.emitted, List.append_nil, hadvances.subscription_eq]
    rcases hadvances.delivery with ⟨hbus, -⟩ | ⟨skipped, m, hreceive, -⟩
    · exact ⟨log, next, hbus ▸ hkeeps, hbus ▸ hnext, hbehind⟩
    · obtain ⟨hkeeps', -, first, hfirst, -, hnext'⟩ := hkeeps.received hnext hreceive
      exact ⟨log, first + 1, hkeeps', hnext', by omega⟩
  · refine h.traced.concat fun _ _ _ hmove s hs hkind => ?_
    rcases hadvances.delivery with ⟨-, hkinds⟩ | ⟨skipped, m, hreceive, htaken⟩
    · exact absurd hkind (not_or.mpr (hkinds s hs))
    · obtain ⟨-, -, first, hfirst, hevent, -⟩ := hkeeps.received hnext hreceive
      rw [List.getElem?_append_right (Nat.le_trans hbehind hfirst)] at hevent
      exact ⟨m, List.mem_of_getElem? hevent, hconfig ▸ htaken ▸ hs⟩

/-- A window begins with a sampling task that remembers nothing. -/
theorem of_start {s' : Recorder} {signals : List Signal} (h : Closed live w)
    (hconfig : w.recorder.config = config) (hstart : w.recorder.start = .ok (s', signals)) :
    ∃ task sampler, Open config live [] { w with recorder := s' } task sampler := by
  obtain ⟨s, signals', hstarted, hbus, hactive, hregistered, hsamplers⟩ := start_eq h.registered
  obtain ⟨rfl, -⟩ := Prod.mk.inj (Except.ok.inj (hstarted.symm.trans hstart))
  rw [h.samplers] at hsamplers
  obtain ⟨log, hkeeps⟩ := h.keeps
  refine ⟨_, _, hregistered, hsamplers, hactive, rfl, rfl, hconfig ▸ rfl, ?_, ?_, ?_⟩
  · rw [hbus, Bus.live_subscribe, h.live_eq]
  · exact ⟨log, log.length, by simpa [hbus] using hkeeps.subscribe, hbus ▸ hkeeps.next?_new,
      Nat.le_refl _⟩
  · intro before e after hsplit
    simp at hsplit

theorem stop (h : Open config live later w task sampler) :
    ∃ s', w.recorder.beginStop = (some task, s') ∧
      Closing live ⟨s', w.awaited ++ [task]⟩ task { sampler with stopping := true } := by
  obtain ⟨hsamplers, hbus⟩ := endTask_eq h.samplers
  obtain ⟨log, next, hkeeps, hnext, -⟩ := h.cursor
  refine ⟨{ w.recorder.endTask task with registered? := none }, ?_, rfl, hsamplers, rfl,
    ?_, ?_, ?_⟩
  · rw [beginStop, h.registered]
  · exact (congrArg Bus.live hbus).trans h.live_eq
  · exact ⟨_, hbus.symm ▸ hkeeps⟩
  · exact ⟨next, (congrArg (Bus.next? · _) hbus).trans hnext⟩

end Open

theorem not_sampled_of_nil {s : Recorder} (h : s.samplers = []) (task : Nat) (now : Moment)
    (clientTotal : Except String Nat) : s.turn task now clientTotal = none := by
  simp [turn, sampler?, h]

namespace Stage

variable {task : Nat} {sampler : SamplingTask}

theorem of_closed (hawaited : w.awaited = []) (hactive : w.recorder.active = false)
    (hclosed : Closed live w) (hconfig : w.recorder.config = config)
    (hmove : w.move? m = some w') : Stage config live (steps ++ [⟨w, m, w'⟩]) w' := by
  cases m with
  | start =>
      rcases hstart : w.recorder.start with fault | ⟨s', signals⟩
      · obtain rfl : w = w' := by simpa [move?, hstart] using hmove
        exact .closed hawaited hactive hclosed
      · obtain rfl : { w with recorder := s' } = w' := by simpa [move?, hstart] using hmove
        obtain ⟨task, sampler, hopen⟩ := Open.of_start hclosed hconfig hstart
        have hstarts : Step.Starts ⟨w, .start, { w with recorder := s' }⟩ := ⟨rfl, _, hstart⟩
        exact .opened hawaited (unstopped_concat.mpr (.inl ⟨rfl, rfl, hstarts⟩)) hopen
  | stop =>
      obtain rfl : w = w' := by simpa [move?, beginStop, hclosed.registered] using hmove
      exact .closed hawaited hactive hclosed
  | record now sample =>
      have hnone : w.recorder.history? = none := by simpa [active] using hactive
      obtain rfl : w = w' := by simpa [move?, Recorder.record, hnone] using hmove
      exact .closed hawaited hactive hclosed
  | emit measurement =>
      obtain rfl := Option.some.inj hmove
      exact .closed hawaited hactive (hclosed.emit measurement)
  | turn task now clientTotal => simp [move?, not_sampled_of_nil hclosed.samplers] at hmove
  | resume task | giveUp task => simp [move?, hawaited] at hmove

theorem of_opened (hawaited : w.awaited = []) (hunstopped : Unstopped steps e later)
    (hopen : Open config live later w task sampler) (hconfig : w.recorder.config = config)
    (hmove : w.move? m = some w') : Stage config live (steps ++ [⟨w, m, w'⟩]) w' := by
  have hregistered : w.recorder.registered?.isSome := by simp [hopen.registered]
  have hlater (hnone : m ≠ .stop) :
      Unstopped (steps ++ [⟨w, m, w'⟩]) e (later ++ [⟨w, m, w'⟩]) :=
    unstopped_concat.mpr (.inr ⟨later, rfl, hunstopped, hnone⟩)
  cases m with
  | start =>
      obtain rfl : w = w' := by simpa [move?, start_of_registered hregistered] using hmove
      exact .opened hawaited (hlater (by simp)) (hopen.of_kept (by simp) rfl rfl rfl rfl)
  | stop =>
      obtain ⟨s', hstop, hclosing⟩ := hopen.stop
      obtain rfl : ⟨s', w.awaited ++ [task]⟩ = w' := by simpa [move?, hstop] using hmove
      exact .closing (by simp [hawaited]) hclosing
  | record now sample =>
      obtain ⟨history, hrecord⟩ := record_of_active hopen.active now sample
      obtain rfl : { w with recorder := { w.recorder with history? := some history } } = w' := by
        simpa [move?, hrecord] using hmove
      exact .opened hawaited (hlater (by simp))
        (hopen.of_kept (by simp) rfl rfl hopen.active.symm rfl)
  | emit measurement =>
      obtain rfl := Option.some.inj hmove
      exact .opened hawaited (hlater (by simp)) (hopen.of_kept (by simp) rfl rfl rfl rfl)
  | turn turning now clientTotal =>
      obtain ⟨⟨s', signals⟩, hturn, rfl⟩ := Option.map_eq_some_iff.mp hmove
      obtain ⟨sampler', hopen'⟩ := hopen.turn hconfig hturn
      exact .opened hawaited (hlater (by simp)) hopen'
  | resume task | giveUp task => simp [move?, hawaited] at hmove

theorem of_closing (hawaited : w.awaited = [task]) (hclosing : Closing live w task sampler)
    (hpasses : m.passes) (hmove : w.move? m = some w') :
    Stage config live (steps ++ [⟨w, m, w'⟩]) w' := by
  cases m with
  | emit measurement =>
      obtain rfl := Option.some.inj hmove
      exact .closing hawaited (hclosing.emit measurement)
  | turn turning now clientTotal =>
      obtain ⟨⟨s', signals⟩, hturn, rfl⟩ := Option.map_eq_some_iff.mp hmove
      exact .ended hawaited (hclosing.turn hturn)
  | resume resumed =>
      -- The task has not ended yet.
      have hfound : w.recorder.sampler? task = some sampler := by
        simp [sampler?, hclosing.samplers]
      by_cases hresumed : resumed = task
      · simp [move?, hresumed, hfound] at hmove
      · simp [move?, hawaited, hresumed] at hmove
  | start | stop | record | giveUp => cases hpasses

theorem of_ended (hawaited : w.awaited = [task]) (hclosed : Closed live w) (hpasses : m.passes)
    (hmove : w.move? m = some w') : Stage config live (steps ++ [⟨w, m, w'⟩]) w' := by
  cases m with
  | emit measurement =>
      obtain rfl := Option.some.inj hmove
      exact .ended hawaited (hclosed.emit measurement)
  | turn turning now clientTotal => simp [move?, not_sampled_of_nil hclosed.samplers] at hmove
  | resume resumed =>
      rw [move?, hawaited] at hmove
      split at hmove
      · rename_i hended
        obtain rfl := List.mem_singleton.mp hended.1
        obtain rfl := Option.some.inj hmove
        refine .closed (by simp [leave, hawaited]) rfl ?_
        exact ⟨hclosed.registered, hclosed.samplers, hclosed.live_eq, hclosed.keeps⟩
      · cases hmove
  | start | stop | record | giveUp => cases hpasses

end Stage

theorem unstopped_unique {e' : Step} {later' : List Step}
    (h : Execution (fresh config bus) steps w)
    (hunstopped : Unstopped steps e later) (hunstopped' : Unstopped steps e' later') :
    later = later' := by
  induction h generalizing later later' with
  | start =>
      obtain ⟨⟨earlier, hsplit⟩, -⟩ := hunstopped
      simp at hsplit
  | @next steps w w' m hsteps hmove ih =>
      have hrefused {e : Step} {later : List Step} (hearlier : Unstopped steps e later)
          (hstarts : Step.Starts ⟨w, m, w'⟩) : False := by
        have hregistered := (lasts_of_execution hsteps hearlier).registered
        have hfree : w.recorder.registered? = none := start_isOk_iff.mp hstarts.2
        simp [hfree] at hregistered
      rcases unstopped_concat.mp hunstopped with ⟨-, rfl, hstarts⟩ | ⟨l, rfl, hearlier, -⟩
      · rcases unstopped_concat.mp hunstopped' with ⟨-, rfl, -⟩ | ⟨l', -, hearlier', -⟩
        · rfl
        · exact (hrefused hearlier' hstarts).elim
      · rcases unstopped_concat.mp hunstopped' with ⟨-, -, hstarts⟩ | ⟨l', rfl, hearlier', -⟩
        · exact (hrefused hearlier hstarts).elim
        · rw [ih hearlier hearlier']

theorem AwaitsStops.of_concat (h : AwaitsStops (steps ++ [last])) :
    AwaitsStops steps ∧ (last.before.awaited ≠ [] → last.move.passes) :=
  ⟨fun e hmem => h e (List.mem_append_left _ hmem), h last (by simp)⟩

theorem stage_of_execution {log : List Measurement} (hkeeps : bus.Keeps log)
    (h : Execution (fresh config bus) steps w) (hawaits : AwaitsStops steps) :
    Stage config bus.live steps w := by
  induction h with
  | start => exact .closed rfl rfl ⟨rfl, rfl, rfl, _, hkeeps⟩
  | @next steps w w' m hsteps hmove ih =>
      obtain ⟨hbefore, hpasses⟩ := hawaits.of_concat
      have hconfig := (logged_of_execution hsteps).config_eq
      cases ih hbefore with
      | closed hawaited hactive hclosed => exact .of_closed hawaited hactive hclosed hconfig hmove
      | opened hawaited hunstopped hopen =>
          exact .of_opened hawaited hunstopped hopen hconfig hmove
      | closing hawaited hclosing =>
          exact .of_closing hawaited hclosing (hpasses (by simp [hawaited])) hmove
      | ended hawaited hclosed =>
          exact .of_ended hawaited hclosed (hpasses (by simp [hawaited])) hmove

/-- A recorder inside a window, which the given steps have come after its start. -/
structure Inside (config : SamplingConfig) (live : Nat) (later : List Step) (w : Shared) :
    Prop where
  answers : ∀ now, (∀ sample, ∃ s, w.recorder.record now sample = .ok s) ∧
    (∀ kind window?, ∃ samples, w.recorder.samples now kind window? = .ok samples) ∧
    ∀ c, (∃ load, w.recorder.currentLoad c now = .ok load) ∧
      ∃ load, w.recorder.windowLoad c now = .ok load
  samples_from : ∀ now kind window? samples,
    w.recorder.samples now kind window? = .ok samples → ∀ s ∈ samples,
      ∃ before e after, later = before ++ e :: after ∧ s ∈ e.brought ∧
        ∀ task moment clientTotal, e.move = .turn task moment clientTotal →
          s.kind = .cpu ∨ s.kind = .memory →
            ∃ m ∈ before.flatMap (·.emitted), s ∈ m.samples config
  start_refused : w.recorder.start = .error .alreadyActive ∧ w.move? .start = some w
  sampling : ∃ task sampler, w.recorder.registered? = some task ∧
    w.recorder.samplers = [(task, sampler)] ∧ sampler.stopping = false ∧
    sampler.previousErrors? = (later.flatMap (·.errorsRead)).getLast? ∧
    sampler.warning =
      WarningGate.after ⟨config.warningCooldown, none⟩ (later.flatMap (·.warningCalls)) ∧
    (w.recorder.bus.next? sampler.subscription).isSome
  live_eq : w.recorder.bus.live = live + 1

/-- A recorder outside of all windows. -/
structure Outside (live : Nat) (w : Shared) : Prop where
  refuses : ∀ now, (∀ sample, w.recorder.record now sample = .error .notActive ∧
      w.move? (.record now sample) = some w) ∧
    (∀ kind window?, w.recorder.samples now kind window? = .error .notActive) ∧
    ∀ c, w.recorder.currentLoad c now = .error .notActive ∧
      w.recorder.windowLoad c now = .error .notActive
  sampling : w.recorder.registered? = none ∧ w.recorder.samplers = []
  live_eq : w.recorder.bus.live = live

theorem Open.inside {task : Nat} {sampler : SamplingTask}
    (h : Execution (fresh config bus) steps w) (hunstopped : Unstopped steps e later)
    (hopen : Open config live later w task sampler) : Inside config live later w := by
  obtain ⟨history, hhistory⟩ := Option.isSome_iff_exists.mp hopen.active
  have hregistered : w.recorder.registered?.isSome := by simp [hopen.registered]
  refine ⟨?_, ?_, ?_, ?_, hopen.live_eq⟩
  · intro now
    refine ⟨fun sample => ?_, fun kind window? => ?_, fun c => ⟨?_, ?_⟩⟩
    · exact (answers_of_active hopen.active).1 now sample
    · exact (answers_of_active hopen.active).2 now kind window?
    · exact ⟨_, by rw [currentLoad, hhistory]⟩
    · exact ⟨_, by rw [windowLoad, hhistory]⟩
  · intro now kind window? samples hsamples s hs
    rw [Recorder.samples, hhistory] at hsamples
    obtain rfl := Except.ok.inj hsamples
    rw [(logged_of_execution h).history_eq history hhistory] at hs
    obtain ⟨d, hd, rfl⟩ := History.delivered_of_get hs
    obtain ⟨e', hlater, hbrought⟩ := brought_of_delivered h hunstopped hd
    obtain ⟨before, after, hsplit⟩ := List.append_of_mem hlater
    exact ⟨before, e', after, hsplit, hbrought, fun task moment clientTotal hmove =>
      hopen.traced before e' after hsplit task moment clientTotal hmove _ hbrought⟩
  · have hrefused := start_of_registered hregistered
    exact ⟨hrefused, by rw [move?, hrefused]⟩
  · obtain ⟨log, next, -, hnext, -⟩ := hopen.cursor
    exact ⟨task, sampler, hopen.registered, hopen.samplers, hopen.running, hopen.errors_eq,
      hopen.warning_eq, by rw [hnext]; rfl⟩

theorem Closed.outside (h : Closed live w) (hactive : w.recorder.active = false) :
    Outside live w := by
  have hnone : w.recorder.history? = none := by simpa [active] using hactive
  refine ⟨fun now => ⟨fun sample => ?_, fun kind window? => ?_, fun c => ?_⟩,
    ⟨h.registered, h.samplers⟩, h.live_eq⟩
  · have hrefused : w.recorder.record now sample = .error .notActive := by
      rw [Recorder.record, hnone]
    exact ⟨hrefused, by rw [move?, hrefused]⟩
  · rw [Recorder.samples, hnone]
  · exact ⟨by rw [currentLoad, hnone], by rw [windowLoad, hnone]⟩

/-- If every stop is awaited, then between the calls a recorder is inside a window exactly if it
has been started and not been stopped since, and what it answers comes from that window alone. -/
theorem windows_are_isolated {capacity : Nat} {others : List (Bus.Move Measurement)}
    (hcapacity : 0 < capacity) (hbus : bus = (Bus.ofCapacity capacity).after others)
    (h : Execution (fresh config bus) steps w) (hawaits : AwaitsStops steps)
    (hidle : w.awaited = []) :
    (∀ e later, Unstopped steps e later → Inside config bus.live later w) ∧
      ((¬∃ e later, Unstopped steps e later) → Outside bus.live w) := by
  have hkeeps : bus.Keeps (Bus.emissions others) := by
    rw [hbus]
    exact (Bus.keeps_ofCapacity hcapacity).after others
  cases stage_of_execution hkeeps h hawaits with
  | closed hawaited hactive hclosed =>
      have hnone : ¬∃ e later, Unstopped steps e later := by
        rw [← registered_iff_unstopped h, hclosed.registered]
        exact Bool.false_ne_true
      exact ⟨fun e later hunstopped => absurd ⟨e, later, hunstopped⟩ hnone,
        fun _ => hclosed.outside hactive⟩
  | opened hawaited hunstopped hopen =>
      refine ⟨fun e later hunstopped' => ?_, fun hnone => absurd ⟨_, _, hunstopped⟩ hnone⟩
      rw [unstopped_unique h hunstopped' hunstopped]
      exact hopen.inside h hunstopped
  | closing hawaited | ended hawaited => simp [hidle] at hawaited

/-- A second window begins with a new reading of the errors, and without the sample that the
first one left. -/
theorem windows_are_isolated_of_restart : ∃ steps w e later now,
    Execution (fresh {} (.ofCapacity 1)) steps w ∧ AwaitsStops steps ∧ w.awaited = [] ∧
      Unstopped steps e later ∧ Inside {} 0 later w ∧ later.flatMap (·.errorsRead) = [5] ∧
      w.recorder.samples now .client none = .ok [⟨.client 0 1, now⟩] := by
  let now : Moment := ⟨0⟩
  let moves : List Move := [.start, .turn 0 now (.ok 3), .turn 0 now (.ok 3), .stop,
    .turn 0 now (.ok 4), .resume 0, .start, .turn 1 now (.ok 5), .turn 1 now (.ok 5)]
  obtain ⟨steps, w, hplay, hawaits, hidle, hmoves, earlier, e, later, hsplit, hstart, hstarted,
      hlater, herrors, hclient⟩ :
      ∃ steps w, (fresh {} (.ofCapacity 1)).play moves [] = some (steps, w) ∧
        AwaitsStops steps ∧ w.awaited = [] ∧ steps.map (·.move) = moves ∧
        ∃ earlier e later, steps = earlier ++ e :: later ∧ e.move = .start ∧
          (∃ started, e.before.recorder.start = .ok started) ∧
          later.map (·.move) = [.turn 1 now (.ok 5), .turn 1 now (.ok 5)] ∧
          later.flatMap (·.errorsRead) = [5] ∧
          w.recorder.samples now .client none = .ok [⟨.client 0 1, now⟩] :=
    ⟨_, _, rfl, by decide, rfl, rfl, [_, _, _, _, _, _], _, [_, _], rfl, rfl, ⟨_, rfl⟩, rfl, rfl,
      rfl⟩
  have h : Execution (fresh {} (.ofCapacity 1)) steps w := execution_of_play .start hplay
  have hunstopped : Unstopped steps e later := by
    refine ⟨⟨earlier, hsplit⟩, ⟨hstart, hstarted⟩, fun e' hmem hstop => ?_⟩
    have hmove := List.mem_map_of_mem (f := Step.move) hmem
    simp [hlater, hstop] at hmove
  have hbus : (Bus.ofCapacity 1 : Bus Measurement) = (Bus.ofCapacity 1).after [] := rfl
  have hinside := (windows_are_isolated (by decide) hbus h hawaits hidle).1 e later hunstopped
  exact ⟨steps, w, e, later, now, h, hawaits, hidle, hunstopped, hinside, herrors, hclient⟩

end Shared

end Recorder

end ElasticPool
