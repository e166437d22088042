import ElasticPool.Proofs.RecorderCalls
import ElasticPool.Proofs.SeriesOrder
/-!
What pruning takes away cannot be seen in a window that is no longer than the retention.

Beside the history stands the log of all samples that have been delivered since the recorder was
started.  Nothing is ever pruned from it.  Every cutoff lies at or before the beginning of any
window that is read later, so the history and the log agree on the window, and with it on the
load that is evaluated over it.
-/

namespace ElasticPool

namespace History

variable {kind : Resource} {now : Moment} {window retention : Span}

def Step.isPrune : Step → Bool
  | .prune .. => true
  | .insert _ | .get .. => false

def unpruned (steps : List Step) : List Step := steps.filter (!·.isPrune)

theorem dropped_unpruned (kind : Resource) (steps : List Step) (s : Sample) :
    dropped kind (unpruned steps) s = false := by
  simp only [dropped, unpruned, List.any_filter, List.any_eq_false]
  intro step _
  cases step <;> simp [Step.isPrune, Step.drops]

/-- Prunes that only drop samples without a property leave all samples that have it. -/
theorem filter_survivors {p : Sample → Bool} {steps : List Step}
    (hspared : ∀ step ∈ steps, ∀ s, step.drops kind s → p s = false) :
    (survivors kind steps).filter p = (survivors kind (unpruned steps)).filter p := by
  induction steps with
  | nil => rfl
  | cons step steps ih =>
      rw [List.forall_mem_cons] at hspared
      have hrest := ih hspared.2
      cases step with
      | insert s =>
          have hkept : unpruned (.insert s :: steps) = .insert s :: unpruned steps := rfl
          rw [hkept, survivors, survivors, dropped_unpruned]
          by_cases hkind : s.kind = kind
          · by_cases hdropped : dropped kind steps s
            · obtain ⟨step, hmem, hdrops⟩ := List.any_eq_true.mp hdropped
              have hout : p s = false := hspared.2 step hmem s hdrops
              simp [hkind, hdropped, hout, hrest]
            · simp [hkind, hdropped, List.filter_cons, hrest]
          · simp [hkind, hrest]
      | prune | get => exact hrest

theorem not_inWindow_of_drops {s : Sample} {pruned : Resource} {moment : Moment}
    (hmoment : moment ≤ now) (hwindow : window ≤ retention) (hnow : Moment.Nameable now.nanos)
    (hdrops : (Step.prune pruned moment retention).drops kind s) :
    inWindow now window s.takenAt = false := by
  obtain ⟨-, hnameable, hexpired⟩ := of_decide_eq_true hdrops
  rw [inWindow_eq]
  refine decide_eq_false ?_
  rintro ⟨-, hbegins⟩
  have hcutoff : moment.nanos - retention.nanos ≤ now.nanos - window.nanos := by
    rw [Moment.le_def] at hmoment
    rw [Span.le_def] at hwindow
    omega
  have hbegin : Moment.Nameable (now.nanos - window.nanos) := by
    unfold Moment.Nameable at *
    omega
  have hlater := hbegins hbegin
  omega

/-- A window is read as if nothing had been pruned, if no prune came later or had a shorter
retention. -/
theorem get_eq_of_unpruned {steps : List Step} (hnow : Moment.Nameable now.nanos)
    (hprunes : ∀ pruned moment retention, .prune pruned moment retention ∈ steps →
      moment ≤ now ∧ window ≤ retention) :
    (empty.after steps).get kind now (some window) =
      (empty.after (unpruned steps)).get kind now (some window) := by
  have hspared : ∀ step ∈ steps, ∀ s, step.drops kind s →
      inWindow now window s.takenAt = false := by
    intro step hmem s hdrops
    cases step with
    | prune pruned moment retention =>
        obtain ⟨hmoment, hwindow⟩ := hprunes pruned moment retention hmem
        exact not_inWindow_of_drops hmoment hwindow hnow hdrops
    | insert | get => simp [Step.drops] at hdrops
  -- Both reads sort the same samples, and samples in order are known from those of each moment.
  have hpruned := (sorts_survivors steps kind).filter fun s => inWindow now window s.takenAt
  rw [filter_survivors hspared] at hpruned
  exact hpruned.unique ((sorts_survivors (unpruned steps) kind).filter _)

structure Delivery where
  sample : Sample
  moment : Moment

/-- The history that samples come to if each prunes its series. -/
def ofDeliveries (retention : Span) (deliveries : List Delivery) : History :=
  deliveries.foldl (fun h d => h.record d.sample d.moment retention) empty

/-- The history that samples come to if nothing is pruned. -/
def ofSamples (samples : List Sample) : History := samples.foldl insert empty

def Delivery.steps (retention : Span) (d : Delivery) : List Step :=
  [.insert d.sample, .prune d.sample.kind d.moment retention]

theorem foldl_record_eq_after (retention : Span) (deliveries : List Delivery) (h : History) :
    deliveries.foldl (fun h d => h.record d.sample d.moment retention) h =
      h.after (deliveries.flatMap (·.steps retention)) := by
  induction deliveries generalizing h with
  | nil => rfl
  | cons d deliveries ih => exact ih _

theorem ofDeliveries_eq_after (retention : Span) (deliveries : List Delivery) :
    ofDeliveries retention deliveries =
      empty.after (deliveries.flatMap (·.steps retention)) :=
  foldl_record_eq_after retention deliveries empty

theorem ofDeliveries_append (retention : Span) (earlier later : List Delivery) :
    ofDeliveries retention (earlier ++ later) =
      (ofDeliveries retention earlier).after (later.flatMap (·.steps retention)) := by
  rw [ofDeliveries, List.foldl_append, foldl_record_eq_after]
  rfl

theorem ofSamples_eq_after (retention : Span) (deliveries : List Delivery) :
    ofSamples (deliveries.map (·.sample)) =
      empty.after (unpruned (deliveries.flatMap (·.steps retention))) := by
  unfold ofSamples
  generalize empty = h
  induction deliveries generalizing h with
  | nil => rfl
  | cons d deliveries ih => exact ih _

theorem get_ofDeliveries {deliveries : List Delivery} (hnow : Moment.Nameable now.nanos)
    (hclock : ∀ d ∈ deliveries, d.moment ≤ now) (hwindow : window ≤ retention) :
    (ofDeliveries retention deliveries).get kind now (some window) =
      (ofSamples (deliveries.map (·.sample))).get kind now (some window) := by
  rw [ofDeliveries_eq_after, ofSamples_eq_after retention]
  refine get_eq_of_unpruned hnow ?_
  intro pruned moment retention' hmem
  obtain ⟨d, hd, hstep⟩ := List.mem_flatMap.mp hmem
  obtain ⟨-, rfl, rfl⟩ : pruned = d.sample.kind ∧ moment = d.moment ∧ retention' = retention := by
    simpa [Delivery.steps] using hstep
  exact ⟨hclock d hd, hwindow⟩

end History

namespace Recorder

theorem history?_of_start {s s' : Recorder} {signals : List Signal}
    (h : s.start = .ok (s', signals)) : s'.history? = some .empty ∧ s'.config = s.config := by
  unfold start at h
  split at h
  · cases h
  · obtain ⟨rfl, -⟩ := Prod.mk.inj (Except.ok.inj h)
    exact ⟨rfl, rfl⟩

namespace Shared

open History

variable {config : SamplingConfig} {bus : Bus Measurement} {w w' : Shared} {m : Move}
  {steps : List Step}

/-- The log of the samples that have been delivered, continued by a step.  A start that succeeds
begins a new one. -/
def Step.extend (log : List Delivery) (e : Step) : List Delivery :=
  match e.move with
  | .start =>
      match e.before.recorder.start with
      | .ok _ => []
      | .error _ => log
  | .record now sample => log ++ [⟨sample, now⟩]
  | .turn task now clientTotal =>
      log ++ (e.before.recorder.taken task now clientTotal).map (⟨·, now⟩)
  | .stop | .resume _ | .giveUp _ | .emit _ => log

def delivered (steps : List Step) : List Delivery := steps.foldl Step.extend []

theorem delivered_concat (steps : List Step) (e : Step) :
    delivered (steps ++ [e]) = e.extend (delivered steps) := by
  rw [delivered, List.foldl_append]
  rfl

theorem ofDeliveries_recordAll (retention : Span) (log : List Delivery) (samples : List Sample)
    (now : Moment) :
    (ofDeliveries retention log).recordAll samples now retention =
      ofDeliveries retention (log ++ samples.map (⟨·, now⟩)) := by
  rw [recordAll, ofDeliveries, ofDeliveries, List.foldl_append, List.foldl_map]

/-- The history of a recorder comes from what has been delivered. -/
structure Logged (config : SamplingConfig) (log : List Delivery) (w : Shared) : Prop where
  config_eq : w.recorder.config = config
  history_eq : ∀ h, w.recorder.history? = some h → h = ofDeliveries config.retention log

namespace Logged

variable {log : List Delivery}

theorem of_still (hlogged : Logged config log w)
    (hconfig : w'.recorder.config = w.recorder.config)
    (hhistory : ∀ h, w'.recorder.history? = some h → w.recorder.history? = some h) :
    Logged config log w' where
  config_eq := hconfig.trans hlogged.config_eq
  history_eq h hsome := hlogged.history_eq h (hhistory h hsome)

theorem of_recordAll (hlogged : Logged config log w) (samples : List Sample) (now : Moment)
    (hhistory : w'.recorder.history? =
      w.recorder.history?.map (·.recordAll samples now w.recorder.config.retention))
    (hconfig : w'.recorder.config = w.recorder.config) :
    Logged config (log ++ samples.map (⟨·, now⟩)) w' where
  config_eq := hconfig.trans hlogged.config_eq
  history_eq h hsome := by
    rw [hhistory] at hsome
    obtain ⟨h, hearlier, rfl⟩ := Option.map_eq_some_iff.mp hsome
    rw [hlogged.history_eq h hearlier, hlogged.config_eq, ofDeliveries_recordAll]

theorem of_move (hlogged : Logged config log w) (h : w.move? m = some w') :
    Logged config ((⟨w, m, w'⟩ : Step).extend log) w' := by
  cases m with
  | start =>
      rcases hstart : w.recorder.start with fault | ⟨recorder, signals⟩
      · obtain rfl : w = w' := by simpa [move?, hstart] using h
        simpa only [Step.extend, hstart] using hlogged
      · obtain rfl : { w with recorder } = w' := by simpa [move?, hstart] using h
        -- The history and the log begin anew.
        obtain ⟨hhistory, hconfig⟩ := history?_of_start hstart
        simp only [Step.extend, hstart]
        refine ⟨hconfig.trans hlogged.config_eq, ?_⟩
        intro h hsome
        exact (Option.some.inj (hhistory.symm.trans hsome)).symm
  | stop =>
      rcases hregistered : w.recorder.registered? with _ | task
      · obtain rfl : w = w' := by simpa [move?, beginStop, hregistered] using h
        exact hlogged
      · obtain ⟨hhistory, hconfig⟩ := history?_endTask w.recorder task
        obtain rfl : ⟨{ w.recorder.endTask task with registered? := none }, w.awaited ++ [task]⟩ =
            w' := by simpa [move?, beginStop, hregistered] using h
        exact hlogged.of_still hconfig fun h hsome => hhistory.symm.trans hsome
  | resume task =>
      rw [move?] at h
      split at h
      · obtain rfl := Option.some.inj h
        refine hlogged.of_still rfl fun h hsome => ?_
        cases hsome
      · cases h
  | giveUp task =>
      rw [move?] at h
      split at h
      · obtain rfl := Option.some.inj h
        exact hlogged.of_still rfl fun h hsome => hsome
      · cases h
  | record now sample =>
      rcases hhistory : w.recorder.history? with _ | history
      · obtain rfl : w = w' := by simpa [move?, Recorder.record, hhistory] using h
        exact hlogged.of_recordAll [sample] now (by rw [hhistory]; rfl) rfl
      · simp only [move?, Recorder.record, hhistory] at h
        obtain rfl := Option.some.inj h
        exact hlogged.of_recordAll [sample] now (by rw [hhistory]; rfl) rfl
  | emit measurement =>
      obtain rfl := Option.some.inj h
      exact hlogged.of_still rfl fun h hsome => hsome
  | turn task now clientTotal =>
      obtain ⟨⟨recorder, signals⟩, hturn, rfl⟩ := Option.map_eq_some_iff.mp h
      obtain ⟨hhistory, -, hconfig⟩ := history?_of_turn hturn
      exact hlogged.of_recordAll _ now hhistory hconfig

end Logged

theorem logged_of_execution (h : Execution (fresh config bus) steps w) :
    Logged config (delivered steps) w := by
  induction h with
  | start =>
      refine ⟨rfl, fun h hsome => ?_⟩
      cases hsome
  | next _ hmove ih =>
      rw [delivered_concat]
      exact ih.of_move hmove

/-- Whatever has been delivered up to a moment, a window that is no longer than the retention is
read then as if nothing had ever been pruned, and the load over it is that of all samples that
have been delivered since the recorder was started. -/
theorem window_eq_of_unpruned {now : Moment} (h : Execution (fresh config bus) steps w)
    (hactive : w.recorder.active) (hclock : ∀ d ∈ delivered steps, d.moment ≤ now)
    (hnow : Moment.Nameable now.nanos) :
    (∀ kind window, window ≤ config.retention →
      w.recorder.samples now kind (some window) =
        .ok ((ofSamples ((delivered steps).map (·.sample))).get kind now (some window))) ∧
    ∀ c : LoadConfig, c.window ≤ config.retention →
      w.recorder.windowLoad c now =
        .ok (c.windowLoad (ofSamples ((delivered steps).map (·.sample))) now) := by
  obtain ⟨history, hhistory⟩ := Option.isSome_iff_exists.mp hactive
  have hlogged : history = ofDeliveries config.retention (delivered steps) :=
    (logged_of_execution h).history_eq history hhistory
  constructor
  · intro kind window hwindow
    rw [samples, hhistory, hlogged]
    dsimp only
    rw [get_ofDeliveries hnow hclock hwindow]
  · intro c hwindow
    rw [windowLoad, hhistory, hlogged]
    dsimp only
    rw [LoadConfig.windowLoad, LoadConfig.windowLoad]
    simp only [get_ofDeliveries hnow hclock hwindow]

/-- The first of two samples is pruned when the second one comes, forty seconds later. -/
theorem window_eq_of_unpruned_of_expired : ∃ steps w first last,
    Execution (fresh {} (.ofCapacity 1)) steps w ∧
      (delivered steps).map (·.sample) = [first, last] ∧
      w.recorder.samples (.ofMillis 41000) .client none = .ok [last] ∧
      w.recorder.samples (.ofMillis 41000) .client (some (.ofSeconds 5)) =
        .ok ((ofSamples [first, last]).get .client (.ofMillis 41000) (some (.ofSeconds 5))) := by
  let first : Sample := ⟨.client 2 1, .ofMillis 0⟩
  let last : Sample := ⟨.client 0 1, .ofMillis 40000⟩
  obtain ⟨steps, w, hplay, hactive, hdelivered, hleft⟩ :
      ∃ steps w, (fresh {} (.ofCapacity 1)).play
          [.start, .record first.takenAt first, .record last.takenAt last] [] = some (steps, w) ∧
        w.recorder.active ∧ delivered steps = [⟨first, first.takenAt⟩, ⟨last, last.takenAt⟩] ∧
        w.recorder.samples (.ofMillis 41000) .client none = .ok [last] :=
    ⟨_, _, rfl, rfl, rfl, rfl⟩
  have h : Execution (fresh {} (.ofCapacity 1)) steps w := execution_of_play .start hplay
  have hclock : ∀ d ∈ delivered steps, d.moment ≤ .ofMillis 41000 := by
    rw [hdelivered]
    decide
  have hread := (window_eq_of_unpruned h hactive hclock (by decide)).1 .client (.ofSeconds 5)
    (by decide)
  rw [hdelivered] at hread
  exact ⟨steps, w, first, last, h, by rw [hdelivered]; rfl, hleft, hread⟩

end Shared

end Recorder

end ElasticPool
