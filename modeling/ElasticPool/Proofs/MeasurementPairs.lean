import ElasticPool.Proofs.Binary64.Decoding
import ElasticPool.Proofs.SamplingClocks

namespace ElasticPool

namespace Measurement

structure Accepted (m : Measurement) : Prop where
  finite : m.cpu.isFinite
  nonneg : 0 ≤ m.cpu
  total_ne_zero : m.totalMemory ≠ 0

theorem fault?_eq_none_iff {m : Measurement} : m.fault? = none ↔ m.Accepted := by
  have hsign (hfinite : m.cpu.isFinite) : ¬m.cpu < 0 ↔ 0 ≤ m.cpu := by
    obtain ⟨q, hq⟩ := Option.isSome_iff_exists.mp ((Binary64.isFinite_iff m.cpu).mp hfinite)
    rw [Binary64.lt_iff hq Binary64.toRat?_zero, Binary64.le_iff Binary64.toRat?_zero hq, not_lt]
  unfold fault?
  constructor
  · intro h
    split at h
    · cases h
    · rename_i hcpu
      split at h
      · cases h
      · rename_i htotal
        have hfinite : m.cpu.isFinite := by simp_all
        exact ⟨hfinite, (hsign hfinite).mp (by simp_all), htotal⟩
  · intro h
    have hnonneg := (hsign h.finite).mpr h.nonneg
    simp [h.finite, hnonneg, h.total_ne_zero]

end Measurement

namespace Recorder

/-- What a sampling task makes of a measurement: a sample of the CPU and one of the memory, or
nothing at all. -/
inductive Absorbs (s : Recorder) (now : Moment) (m : Measurement) (sampler : SamplingTask)
    (s' : Recorder) (sampler' : SamplingTask) (signals : List Signal) : Prop
  | kept {cpu memory : Sample} (haccepted : m.Accepted)
      (hcpu : cpu.kind = .cpu ∧ cpu.takenAt = m.takenAt)
      (hmemory : memory.kind = .memory ∧ memory.takenAt = m.takenAt)
      (hhistory : s'.history? = s.history?.map fun h =>
        (h.record cpu now s.config.retention).record memory now s.config.retention)
  | skipped (hrejected : ¬m.Accepted) (hhistory : s'.history? = s.history?)
      (hsampler : sampler'.warning = sampler.warning ∧
        sampler'.previousErrors? = sampler.previousErrors?)
      (hsignals : ∀ kind, .resourceOverloaded kind ∉ signals)

variable {s : Recorder} {task : Nat} {now : Moment} {sampler : SamplingTask} {m : Measurement}
  {skipped : Nat} {bus : Bus Measurement}

theorem turn_of_measurement (hfound : s.sampler? task = some sampler)
    (hgoing : sampler.stopping = false)
    (hreceive : s.bus.receive sampler.subscription = (⟨skipped, some m⟩, bus))
    (clientTotal : Except String Nat) :
    ∃ s' sampler' signals, s.turn task now clientTotal = some (s', signals) ∧
      s'.sampler? task = some sampler' ∧ sampler'.stopping = false ∧
      Absorbs s now m sampler s' sampler' signals := by
  let taken := sampler.onMeasurement s.config s.history? now m
  let after := { s with bus }.afterTurn task (sampler.clocks s.config now) taken
  have hturn : s.turn task now clientTotal =
      some (after.1, (if skipped = 0 then [] else [.lagged skipped]) ++ taken.signals) := by
    simp only [turn, hfound, hgoing, hreceive]
    rfl
  have hfound' : after.1.sampler? task =
      some { taken.sampler with tickers? := some (sampler.clocks s.config now) } := by
    have hupdate := sampler?_setSampler { s with bus } hfound
      { taken.sampler with tickers? := some (sampler.clocks s.config now) }
    exact (congrFun hupdate task).trans (Function.update_self ..)
  have hadvances : Advances s now clientTotal sampler taken.sampler bus (m.samples s.config) :=
    advances_of_measurement hgoing hreceive
  refine ⟨after.1, _, _, hturn, hfound', hadvances.running, ?_⟩
  have hhistory : after.1.history? =
      s.history?.map (·.recordAll (m.samples s.config) now s.config.retention) :=
    SamplingTask.history?_onMeasurement s.config sampler s.history? now m
  cases hfault : m.fault? with
  | none =>
      have haccepted := Measurement.fault?_eq_none_iff.mp hfault
      rw [Measurement.samples, hfault] at hhistory
      have hcpu : (m.cpuSample s.config).kind = .cpu ∧
          (m.cpuSample s.config).takenAt = m.takenAt := ⟨rfl, rfl⟩
      have hmemory : (m.memorySample s.config).kind = .memory ∧
          (m.memorySample s.config).takenAt = m.takenAt := ⟨rfl, rfl⟩
      exact .kept haccepted hcpu hmemory hhistory
  | some fault =>
      have hrejected : ¬m.Accepted := by
        rw [← Measurement.fault?_eq_none_iff, hfault]
        exact Option.some_ne_none fault
      have hskips : taken = ⟨sampler, s.history?, [.measurementSkipped fault]⟩ := by
        show sampler.onMeasurement s.config s.history? now m = _
        rw [SamplingTask.onMeasurement, hfault]
      rw [Measurement.samples, hfault, SamplingTask.map_recordAll_nil] at hhistory
      refine .skipped hrejected hhistory ?_ ?_
      · rw [hskips]
        exact ⟨rfl, rfl⟩
      · intro kind
        rw [hskips]
        split <;> simp

end Recorder

namespace History

variable {h : History} {now : Moment} {retention : Span}

/-- The moments of a series after one more sample has been placed and the oldest ones have
expired. -/
def placeMoment (taken now : Moment) (retention : Span) (moments : List Moment) : List Moment :=
  let placed := moments.takeWhile (· ≤ taken) ++ taken :: moments.dropWhile (· ≤ taken)
  match now.sub? retention with
  | none => placed
  | some cutoff => placed.dropWhile (· < cutoff)

theorem moments_record (h : History) (s : Sample) (now : Moment) (retention : Span) :
    ((h.record s now retention).series s.kind).map (·.takenAt) =
      placeMoment s.takenAt now retention ((h.series s.kind).map (·.takenAt)) := by
  have hplace : (place s (h.series s.kind)).map (·.takenAt) =
      ((h.series s.kind).map (·.takenAt)).takeWhile (· ≤ s.takenAt) ++
        s.takenAt :: ((h.series s.kind).map (·.takenAt)).dropWhile (· ≤ s.takenAt) := by
    rw [place, List.map_append, List.map_cons, List.takeWhile_map, List.dropWhile_map]
    rfl
  rcases hcutoff : now.sub? retention with _ | cutoff
  · simp only [record, prune, placeMoment, hcutoff]
    rw [series_insert, if_pos rfl, hplace]
  · simp only [record, prune, placeMoment, hcutoff]
    rw [series_modify, if_pos rfl, series_insert, if_pos rfl, ← hplace, List.dropWhile_map]
    rfl

theorem series_record_of_ne {s : Sample} {kind : Resource} (hne : kind ≠ s.kind) :
    (h.record s now retention).series kind = h.series kind := by
  rw [record, series_prune_of_ne _ hne, series_insert, if_neg hne]

def Paired (h : History) : Prop :=
  (h.series .cpu).map (·.takenAt) = (h.series .memory).map (·.takenAt)

theorem paired_empty : empty.Paired := rfl

theorem Paired.record_pair (hpaired : h.Paired) {cpu memory : Sample} (hcpu : cpu.kind = .cpu)
    (hmemory : memory.kind = .memory) (hsame : cpu.takenAt = memory.takenAt) :
    ((h.record cpu now retention).record memory now retention).Paired := by
  have hcpus := moments_record h cpu now retention
  have hmemories := moments_record (h.record cpu now retention) memory now retention
  have hkept : ((h.record cpu now retention).record memory now retention).series .cpu =
      (h.record cpu now retention).series .cpu := series_record_of_ne (by simp [hmemory])
  have hkept' : (h.record cpu now retention).series .memory = h.series .memory :=
    series_record_of_ne (by simp [hcpu])
  rw [hcpu] at hcpus
  rw [hmemory, hkept'] at hmemories
  rw [Paired, hmemories, hkept, hcpus, hpaired, hsame]

theorem Paired.record_other (hpaired : h.Paired) {s : Sample}
    (hother : s.kind ≠ .cpu ∧ s.kind ≠ .memory) : (h.record s now retention).Paired := by
  rw [Paired, series_record_of_ne hother.1.symm, series_record_of_ne hother.2.symm]
  exact hpaired

theorem Paired.get (hpaired : h.Paired) (now : Moment) (window? : Option Span) :
    (h.get .cpu now window?).map (·.takenAt) = (h.get .memory now window?).map (·.takenAt) := by
  cases window? with
  | none => exact hpaired
  | some window =>
      have hfilter (kind : Resource) : (h.get kind now (some window)).map (·.takenAt) =
          ((h.series kind).map (·.takenAt)).filter (inWindow now window) := by
        rw [List.filter_map]
        rfl
      rw [hfilter, hfilter, hpaired]

end History

namespace Recorder

theorem paired_of_taken {h : History} (hpaired : h.Paired) (s : Recorder) (task : Nat)
    (now : Moment) (clientTotal : Except String Nat) (retention : Span) :
    (h.recordAll (s.taken task now clientTotal) now retention).Paired := by
  unfold taken
  split
  · exact hpaired
  split
  · exact hpaired
  split
  · unfold Measurement.samples
    split
    · exact hpaired
    · exact hpaired.record_pair rfl rfl rfl
  dsimp only
  split
  · exact hpaired.record_other (by simp [Sample.kind, Reading.kind])
  split
  · unfold SamplingTask.clientSamples
    split
    · exact hpaired
    · exact hpaired.record_other (by simp [Sample.kind, Reading.kind])
  · exact hpaired

namespace Shared

open History

variable {config : SamplingConfig} {bus : Bus Measurement} {w : Shared} {steps : List Step}

/-- Samples of the CPU and of the memory come from the bus only. -/
def FedByBus (steps : List Step) : Prop :=
  ∀ e ∈ steps, ∀ now sample, e.move = .record now sample →
    sample.kind ≠ .cpu ∧ sample.kind ≠ .memory

theorem paired_of_delivered (retention : Span) (hfed : FedByBus steps) :
    (ofDeliveries retention (delivered steps)).Paired := by
  -- no execution is needed: whatever a step hands over keeps the two series paired
  induction steps using List.reverseRecOn with
  | nil => exact paired_empty
  | append_singleton steps e ih =>
      have hbefore := ih fun e' hmem => hfed e' (List.mem_append_left _ hmem)
      rw [delivered_concat]
      unfold Step.extend
      split
      · split
        · exact paired_empty
        · exact hbefore
      · rename_i now sample hmove
        have hother := hfed e (by simp) now sample hmove
        have hrecord := ofDeliveries_recordAll retention (delivered steps) [sample] now
        exact hrecord ▸ hbefore.record_other hother
      · rw [← ofDeliveries_recordAll]
        exact paired_of_taken hbefore _ _ _ _ _
      all_goals exact hbefore

/-- A running task makes of a measurement a sample of the CPU and one of the memory, or nothing
at all, and goes on.  So a recorder that has these samples from the bus only always has as many
of one kind as of the other, taken at the same moments. -/
theorem measurements_in_pairs :
    (∀ (s : Recorder) task now clientTotal sampler skipped m bus',
      s.sampler? task = some sampler → sampler.stopping = false →
      s.bus.receive sampler.subscription = (⟨skipped, some m⟩, bus') →
      ∃ s' sampler' signals, s.turn task now clientTotal = some (s', signals) ∧
        s'.sampler? task = some sampler' ∧ sampler'.stopping = false ∧
        Absorbs s now m sampler s' sampler' signals) ∧
    ∀ steps w, Execution (fresh config bus) steps w → FedByBus steps → w.recorder.active →
      ∀ now window?, ∃ cpus memories, w.recorder.samples now .cpu window? = .ok cpus ∧
        w.recorder.samples now .memory window? = .ok memories ∧
        cpus.length = memories.length ∧ cpus.map (·.takenAt) = memories.map (·.takenAt) := by
  constructor
  · intro s task now clientTotal sampler skipped m bus' hfound hgoing hreceive
    exact turn_of_measurement hfound hgoing hreceive clientTotal
  · intro steps w h hfed hactive now window?
    obtain ⟨history, hhistory⟩ := Option.isSome_iff_exists.mp hactive
    have hpaired : history.Paired := by
      rw [(logged_of_execution h).history_eq history hhistory]
      exact paired_of_delivered _ hfed
    have hmoments := hpaired.get now window?
    have hread (kind : Resource) :
        w.recorder.samples now kind window? = .ok (history.get kind now window?) := by
      rw [samples, hhistory]
    refine ⟨_, _, hread .cpu, hread .memory, ?_, hmoments⟩
    simpa using congrArg List.length hmoments

/-- Of three measurements the second one has a negative CPU ratio and changes nothing, and the
third one was taken before the first. -/
theorem measurements_in_pairs_of_late :
    (∃ (s s' : Recorder) (sampler sampler' : SamplingTask) (m : Measurement)
      (bus' : Bus Measurement) (signals : List Signal),
      s.sampler? 0 = some sampler ∧ sampler.stopping = false ∧ ¬m.Accepted ∧
      s.bus.receive sampler.subscription = (⟨0, some m⟩, bus') ∧
      s.turn 0 (.ofMillis 7) (.ok 0) = some (s', signals) ∧ s'.history? = s.history? ∧
      s'.sampler? 0 = some sampler' ∧ sampler'.stopping = false) ∧
    ∃ steps w memories, Execution (fresh {} { slots := 4 }) steps w ∧ FedByBus steps ∧
      w.recorder.active ∧ w.recorder.samples (.ofMillis 7) .memory none = .ok memories ∧
      memories.map (·.takenAt) = [.ofMillis 3, .ofMillis 5] := by
  let late : Measurement := ⟨0.5, 1, 2, .ofMillis 5⟩
  let negative : Measurement := ⟨-1, 1, 2, .ofMillis 6⟩
  let early : Measurement := ⟨0.5, 1, 2, .ofMillis 3⟩
  let turn : Move := .turn 0 (.ofMillis 7) (.ok 0)
  obtain ⟨hmeasured, hpairs⟩ := @measurements_in_pairs {} { slots := 4 }
  constructor
  · obtain ⟨steps, w, sampler, bus', hplay, hfound, hgoing, hreceive⟩ :
        ∃ steps w sampler bus',
          (fresh {} { slots := 4 }).play [.start, .emit negative] [] = some (steps, w) ∧
          w.recorder.sampler? 0 = some sampler ∧ sampler.stopping = false ∧
          w.recorder.bus.receive sampler.subscription = (⟨0, some negative⟩, bus') :=
      ⟨_, _, _, _, rfl, rfl, rfl, rfl⟩
    have hrejected : ¬negative.Accepted := by
      rw [← Measurement.fault?_eq_none_iff, ← Option.not_isSome_iff_eq_none, not_not]
      decide +kernel
    obtain ⟨s', sampler', signals, hturn, hfound', hgoing', habsorbs⟩ :=
      hmeasured _ 0 (.ofMillis 7) (.ok 0) sampler 0 negative bus' hfound hgoing hreceive
    cases habsorbs with
    | kept haccepted => exact absurd haccepted hrejected
    | skipped _ hhistory =>
        exact ⟨_, s', sampler, sampler', negative, bus', signals, hfound, hgoing, hrejected,
          hreceive, hturn, hhistory, hfound', hgoing'⟩
  · let moves : List Move :=
      [.start, .emit late, .emit negative, .emit early, turn, turn, turn]
    have hread : ((fresh {} { slots := 4 }).play moves []).map (fun x =>
        (x.2.recorder.active, (x.2.recorder.samples (.ofMillis 7) .cpu none).toOption.map
          (·.map (·.takenAt)))) = some (true, some [.ofMillis 3, .ofMillis 5]) := by
      decide +kernel
    obtain ⟨⟨steps, w⟩, hplay, hread⟩ := Option.map_eq_some_iff.mp hread
    obtain ⟨hactive, hread⟩ := Prod.mk.inj hread
    have hfed : FedByBus steps := by
      intro e hmem now sample hrecord
      have hmove := List.mem_map_of_mem (f := Step.move) hmem
      rw [moves_of_play hplay] at hmove
      simp [moves, hrecord, turn] at hmove
    have h := execution_of_play .start hplay
    obtain ⟨cpus, memories, hcpus, hmemories, -, hsame⟩ :=
      hpairs steps w h hfed hactive (.ofMillis 7) none
    rw [hcpus] at hread
    exact ⟨steps, w, memories, h, hfed, hactive, hmemories,
      hsame.symm.trans (Option.some.inj hread)⟩

end Shared

end Recorder

end ElasticPool
