import ElasticPool.Proofs.ErrorCounts
import ElasticPool.Proofs.LagDetection
import ElasticPool.Proofs.MeasurementPairs

namespace ElasticPool

def SamplingTickers.of? (t : SamplingTickers) : Resource → Option Ticker
  | .eventLoop => some t.eventLoop
  | .client => some t.client
  | .cpu | .memory => none

def SamplingConfig.interval? (c : SamplingConfig) : Resource → Option Span
  | .eventLoop => some c.eventLoopInterval
  | .client => some c.clientInterval
  | .cpu | .memory => none

namespace SamplingTask

def ticker? (s : SamplingTask) (kind : Resource) : Option Ticker := s.tickers?.bind (·.of? kind)

theorem of?_clocks (c : SamplingConfig) (s : SamplingTask) (now : Moment) (kind : Resource) :
    (s.clocks c now).of? kind =
      (s.ticker? kind).or ((c.interval? kind).map (.start .delay · now)) := by
  cases htickers : s.tickers? <;> cases kind <;> simp [clocks, ticker?, htickers,
    SamplingTickers.of?, SamplingConfig.interval?]

end SamplingTask

namespace History

variable {h : History} {kind : Resource} {now : Moment} {retention : Span} {x s : Sample}
  {log : List Delivery} {d : Delivery}

theorem series_recordAll_of_ne {samples : List Sample} (hne : ∀ x ∈ samples, x.kind ≠ kind) :
    (h.recordAll samples now retention).series kind = h.series kind := by
  induction samples generalizing h with
  | nil => rfl
  | cons s samples ih =>
      rw [List.forall_mem_cons] at hne
      exact (ih hne.2).trans (series_record_of_ne (Ne.symm hne.1))

theorem cutoff_le_of_record (hordered : Ordered (h.series s.kind))
    (hmem : x ∈ (h.record s now retention).series s.kind)
    (hcutoff : Moment.Nameable (now.nanos - retention.nanos)) :
    now.nanos - retention.nanos ≤ x.takenAt.nanos := by
  have hsorts : Sorts (h.series s.kind) (h.series s.kind) := ⟨hordered, fun _ => rfl⟩
  have hplaced : Ordered ((h.insert s).series s.kind) := by
    rw [series_insert, if_pos rfl]
    exact (hsorts.place s).ordered
  rw [record, series_prune hplaced] at hmem
  have hspared := (List.mem_filter.mp hmem).2
  simp only [Step.drops, hcutoff, true_and, Bool.not_eq_true', decide_eq_false_iff_not,
    Int.not_lt] at hspared
  exact hspared

def latest? (kind : Resource) (log : List Delivery) : Option Moment :=
  (log.filter (·.sample.kind = kind)).getLast?.map (·.moment)

theorem latest?_concat (kind : Resource) (log : List Delivery) (d : Delivery) :
    latest? kind (log ++ [d]) =
      if d.sample.kind = kind then some d.moment else latest? kind log := by
  by_cases hkind : d.sample.kind = kind <;> simp [latest?, hkind]

theorem exists_of_latest? {n : Moment} (h : latest? kind log = some n) :
    ∃ d ∈ log, d.moment = n := by
  obtain ⟨d, hlast, rfl⟩ := Option.map_eq_some_iff.mp h
  exact ⟨d, List.mem_of_mem_filter (List.mem_of_getLast? hlast), rfl⟩

theorem moment_le_latest? (hclock : log.Pairwise (·.moment ≤ ·.moment)) (hmem : d ∈ log) :
    ∃ n, latest? d.sample.kind log = some n ∧ d.moment ≤ n := by
  induction log using List.reverseRecOn with
  | nil => cases hmem
  | append_singleton log last ih =>
      rw [List.pairwise_append] at hclock
      rw [latest?_concat]
      rcases List.mem_append.mp hmem with hearlier | hlast
      · split
        · exact ⟨_, rfl, hclock.2.2 d hearlier last (List.mem_singleton_self _)⟩
        · exact ih hclock.1 hearlier
      · obtain rfl := List.mem_singleton.mp hlast
        rw [if_pos rfl]
        exact ⟨_, rfl, Int.le_refl _⟩

theorem cutoff_le_of_ofDeliveries (hmem : x ∈ (ofDeliveries retention log).series kind) :
    ∃ n, latest? kind log = some n ∧ (Moment.Nameable (n.nanos - retention.nanos) →
      n.nanos - retention.nanos ≤ x.takenAt.nanos) := by
  induction log using List.reverseRecOn with
  | nil => simp [ofDeliveries] at hmem
  | append_singleton log last ih =>
      have hrecord : ofDeliveries retention (log ++ [last]) =
          (ofDeliveries retention log).record last.sample last.moment retention := by
        rw [ofDeliveries, List.foldl_append]
        rfl
      rw [hrecord] at hmem
      rw [latest?_concat]
      -- Only a delivery of the kind prunes the series, and it cuts off all that has expired.
      by_cases hkind : last.sample.kind = kind
      · subst hkind
        have hordered : Ordered ((ofDeliveries retention log).series last.sample.kind) := by
          rw [ofDeliveries_eq_after]
          exact (sorts_survivors _ _).ordered
        rw [if_pos rfl]
        exact ⟨_, rfl, cutoff_le_of_record hordered hmem⟩
      · rw [if_neg hkind]
        rw [series_record_of_ne (Ne.symm hkind)] at hmem
        exact ih hmem

def Named (log : List Delivery) : Prop :=
  ∀ d ∈ log, Moment.Nameable d.moment.nanos ∧ Moment.Nameable d.sample.takenAt.nanos

/-- A cutoff that cannot be named lies before all moments that can. -/
theorem cutoff_le_of_named (hnamed : Named log)
    (hmem : x ∈ (ofDeliveries retention log).series kind) :
    ∃ n, latest? kind log = some n ∧ n.nanos - retention.nanos ≤ x.takenAt.nanos := by
  obtain ⟨n, hlatest, hcutoff⟩ := cutoff_le_of_ofDeliveries hmem
  refine ⟨n, hlatest, ?_⟩
  by_cases hnameable : Moment.Nameable (n.nanos - retention.nanos)
  · exact hcutoff hnameable
  · obtain ⟨last, hlast, rfl⟩ := exists_of_latest? hlatest
    have hread : x ∈ (ofDeliveries retention log).get kind last.moment none := hmem
    obtain ⟨d, hd, rfl⟩ := delivered_of_get hread
    have hmoment := (hnamed last hlast).1
    have htaken := (hnamed d hd).2
    unfold Moment.Nameable at *
    omega

end History

namespace Recorder

/-- A turn takes no tick of the kind, or it takes one that is ready.  Then it brings a sample,
unless the client could not be read. -/
inductive TickerTurn (kind : Resource) (now : Moment) (round? : Option (Except String Nat))
    (samples : List Sample) (ticker : Ticker) : Ticker → Prop
  | kept : TickerTurn kind now round? samples ticker ticker
  | sampled {x : Sample} (hready : ticker.Ready now) (hbrought : x ∈ samples)
      (hkind : x.kind = kind) : TickerTurn kind now round? samples ticker (ticker.taken now)
  | failed {cause : String} (hready : ticker.Ready now) (hkind : kind = .client)
      (hround : round? = some (.error cause)) :
      TickerTurn kind now round? samples ticker (ticker.taken now)

section

variable {s s' : Recorder} {task : Nat} {now : Moment} {clientTotal : Except String Nat}
  {signals : List Signal} {sampler : SamplingTask} {kind : Resource}

theorem tickerTurn_of_loop {tickers : SamplingTickers} {ticker' : Ticker}
    {round? : Option (Except String Nat)} (hready : tickers.eventLoop.Ready now)
    (hticker : SamplingTickers.of? { tickers with eventLoop := tickers.eventLoop.taken now }
      kind = some ticker') :
    ∃ ticker, tickers.of? kind = some ticker ∧ TickerTurn kind now round?
      (SamplingTask.loopSamples s.config now tickers.eventLoop.due) ticker ticker' := by
  cases kind with
  | cpu | memory => cases hticker
  | client => exact ⟨ticker', hticker, .kept⟩
  | eventLoop =>
      obtain rfl := Option.some.inj hticker
      exact ⟨_, rfl, .sampled hready (List.mem_singleton_self _) rfl⟩

theorem tickerTurn_of_client {tickers : SamplingTickers} {ticker' : Ticker}
    (hready : tickers.client.Ready now)
    (hticker : SamplingTickers.of? { tickers with client := tickers.client.taken now } kind =
      some ticker') :
    ∃ ticker, tickers.of? kind = some ticker ∧ TickerTurn kind now (some clientTotal)
      (sampler.clientSamples s.config now clientTotal) ticker ticker' := by
  cases kind with
  | cpu | memory => cases hticker
  | eventLoop => exact ⟨ticker', hticker, .kept⟩
  | client =>
      obtain rfl := Option.some.inj hticker
      refine ⟨_, rfl, ?_⟩
      cases clientTotal with
      | error cause => exact .failed hready rfl rfl
      | ok total => exact .sampled hready (List.mem_singleton_self _) rfl

theorem tickerTurn_of_turn (h : s.turn task now clientTotal = some (s', signals))
    {sampler' : SamplingTask} (hfound' : s'.sampler? task = some sampler') {ticker' : Ticker}
    (hticker : sampler'.ticker? kind = some ticker') :
    ∃ sampler, s.sampler? task = some sampler ∧
      ∃ ticker, (sampler.clocks s.config now).of? kind = some ticker ∧
      TickerTurn kind now (s.round? task now clientTotal) (s.taken task now clientTotal)
        ticker ticker' := by
  rcases hfound : s.sampler? task with _ | sampler
  · simp only [turn, hfound] at h
    cases h
  -- Whatever else the turn changes, the task that it leaves is the one that it has set.
  have hself {r : Recorder} (hsame : r.samplers = s.samplers) {updated : SamplingTask}
      (hupdated : (r.setSampler task updated).sampler? task = some sampler') :
      updated = sampler' := by
    have hsame' : r.sampler? task = some sampler :=
      (congrArg (List.lookup task) hsame).trans hfound
    rw [sampler?_setSampler r hsame', Function.update_self] at hupdated
    exact Option.some.inj hupdated
  refine ⟨sampler, rfl, ?_⟩
  simp only [turn, hfound] at h
  by_cases hstopping : sampler.stopping = true
  · rw [if_pos hstopping] at h
    obtain ⟨rfl, -⟩ := Prod.mk.inj (Option.some.inj h)
    have hended : (s.samplers.filter (·.1 ≠ task)).lookup task = none :=
      lookup_remove_self s.samplers task
    cases hended.symm.trans hfound'
  rw [if_neg hstopping] at h
  simp only [round?, taken, hfound, if_neg hstopping]
  rcases hreceive : s.bus.receive sampler.subscription with ⟨⟨skipped, _ | m⟩, bus⟩
  · simp only [hreceive] at h ⊢
    by_cases hloop : (sampler.clocks s.config now).eventLoop.Ready now
    · rw [if_pos hloop] at h
      obtain ⟨rfl, -⟩ := Prod.mk.inj (Option.some.inj h)
      simp only [if_pos hloop]
      obtain rfl := hself rfl hfound'
      exact tickerTurn_of_loop hloop hticker
    rw [if_neg hloop] at h
    simp only [if_neg hloop]
    by_cases hready : (sampler.clocks s.config now).client.Ready now
    · rw [if_pos hready] at h
      obtain ⟨rfl, -⟩ := Prod.mk.inj (Option.some.inj h)
      simp only [if_pos hready]
      obtain rfl := hself rfl hfound'
      exact tickerTurn_of_client hready hticker
    · rw [if_neg hready] at h
      cases h
  · simp only [hreceive] at h ⊢
    obtain ⟨rfl, -⟩ := Prod.mk.inj (Option.some.inj h)
    obtain rfl := hself rfl hfound'
    exact ⟨ticker', hticker, .kept⟩

theorem not_ready_of_turn_eq_none (hfound : s.sampler? task = some sampler)
    (h : s.turn task now clientTotal = none) {ticker : Ticker}
    (hticker : (sampler.clocks s.config now).of? kind = some ticker) : ¬ticker.Ready now := by
  simp only [turn, hfound] at h
  split at h
  · cases h
  rcases hreceive : s.bus.receive sampler.subscription with ⟨⟨skipped, _ | m⟩, bus⟩
  · simp only [hreceive] at h
    split at h
    · cases h
    rename_i hloop
    split at h
    · cases h
    rename_i hclient
    cases kind with
    | cpu | memory => cases hticker
    | eventLoop => exact Option.some.inj hticker ▸ hloop
    | client => exact Option.some.inj hticker ▸ hclient
  · simp only [hreceive] at h
    cases h

namespace Shared

open History

variable {config : SamplingConfig} {bus : Bus Measurement} {w w' : Shared} {m : Move}
  {steps : List Step} {period : Span} {log log' : List Delivery} {now' : Moment}
  {ticker ticker' : Ticker}

theorem series_of_move (hmove : w.move? m = some w') (hround : m.moment?.isSome)
    (hnone : ∀ x ∈ (⟨w, m, w'⟩ : Step).brought, x.kind ≠ kind) :
    w'.recorder.history?.map (·.series kind) = w.recorder.history?.map (·.series kind) := by
  cases m with
  | start | stop | resume | giveUp | emit => cases hround
  | record now sample =>
      rcases hhistory : w.recorder.history? with _ | history
      · obtain rfl : w = w' := by simpa [move?, Recorder.record, hhistory] using hmove
        rw [hhistory]
      · simp only [move?, Recorder.record, hhistory] at hmove
        obtain rfl := Option.some.inj hmove
        have hother : kind ≠ sample.kind := Ne.symm (hnone sample (List.mem_singleton_self _))
        exact congrArg some (series_record_of_ne hother)
  | turn task now clientTotal =>
      obtain ⟨⟨recorder, signals⟩, hturn, rfl⟩ := Option.map_eq_some_iff.mp hmove
      obtain ⟨hhistory, -, -⟩ := history?_of_turn hturn
      show recorder.history?.map (·.series kind) = _
      rw [hhistory]
      cases w.recorder.history? with
      | none => rfl
      | some history => exact congrArg some (series_recordAll_of_ne hnone)

theorem Step.extend_eq (e : Step) (log : List Delivery) :
    e.Starts ∧ e.extend log = [] ∨
      ∃ added, e.extend log = log ++ added ∧ ∀ d ∈ added, e.move.moment? = some d.moment := by
  unfold extend
  cases hmove : e.move with
  | start =>
      cases hstart : e.before.recorder.start with
      | ok started => exact .inl ⟨⟨hmove, started, hstart⟩, rfl⟩
      | error => exact .inr ⟨[], (List.append_nil log).symm, by simp⟩
  | record now sample => exact .inr ⟨_, rfl, by simp [Move.moment?]⟩
  | turn task now clientTotal => exact .inr ⟨_, rfl, by simp [Move.moment?]⟩
  | stop | resume | giveUp | emit => exact .inr ⟨[], (List.append_nil log).symm, by simp⟩

/-- The next tick is ready, or it is due within a period of a delivery. -/
structure Follows (kind : Resource) (period : Span) (now : Moment) (log : List Delivery)
    (ticker : Ticker) : Prop where
  period_eq : ticker.period = period
  due_le : ticker.due ≤ now ∨
    ∃ d ∈ log, d.sample.kind = kind ∧ ticker.due.nanos ≤ d.moment.nanos + period.nanos

theorem Follows.mono (h : Follows kind period now log ticker) (hnow : now ≤ now')
    (hlog : log ⊆ log') : Follows kind period now' log' ticker where
  period_eq := h.period_eq
  due_le := by
    rcases h.due_le with hready | ⟨d, hmem, hdue⟩
    · exact .inl (Moment.le_trans hready hnow)
    · exact .inr ⟨d, hlog hmem, hdue⟩

theorem Follows.of_turn {round? : Option (Except String Nat)} {samples : List Sample}
    (h : Follows kind period now log ticker)
    (hturn : TickerTurn kind now round? samples ticker ticker')
    (hreads : kind = .client → ∀ cause, round? ≠ some (.error cause)) :
    Follows kind period now (log ++ samples.map (⟨·, now⟩)) ticker' := by
  cases hturn with
  | kept => exact h.mono (Int.le_refl _) (List.subset_append_left _ _)
  | @sampled x hready hbrought hkind =>
      have hdue : (ticker.nextDue now).nanos ≤ now.nanos + period.nanos :=
        h.period_eq ▸ Ticker.nextDue_le hready
      refine ⟨h.period_eq, .inr ⟨⟨x, now⟩, ?_, hkind, hdue⟩⟩
      exact List.mem_append_right _ (List.mem_map_of_mem hbrought)
  | @failed cause _ hkind hround => exact absurd hround (hreads hkind cause)

def ReadsSucceed (task : Nat) (steps : List Step) : Prop :=
  ∀ e ∈ steps, ∀ round ∈ e.rounds task, round.isOk = true

theorem ReadsSucceed.of_concat {task : Nat} {e : Step} (h : ReadsSucceed task (steps ++ [e])) :
    ReadsSucceed task steps := fun e' hmem => h e' (List.mem_append_left _ hmem)

/-- The ticker of the registered task follows the deliveries since the latest start, that of the
client as long as all of its rounds have succeeded. -/
def Tracks (kind : Resource) (period : Span) (now : Moment) (steps : List Step) (w : Shared) :
    Prop :=
  ∀ task sampler ticker, w.recorder.registered? = some task →
    w.recorder.sampler? task = some sampler → sampler.ticker? kind = some ticker →
    (kind = .client → ReadsSucceed task steps) →
      Follows kind period now (delivered steps) ticker

theorem Tracks.mono (h : Tracks kind period now steps w) (hnow : now ≤ now') :
    Tracks kind period now' steps w :=
  fun task sampler ticker hregistered hfound hticker hreads =>
    (h task sampler ticker hregistered hfound hticker hreads).mono hnow (List.Subset.refl _)

theorem Tracks.of_turn (h : Tracks kind period now steps w)
    (hperiod : w.recorder.config.interval? kind = some period)
    (hregistered : w.recorder.registered? = some task)
    (hmove : w.move? (.turn task now clientTotal) = some w') {sampler' : SamplingTask}
    (hfound : w'.recorder.sampler? task = some sampler')
    (hticker : sampler'.ticker? kind = some ticker')
    (hreads : kind = .client →
      ReadsSucceed task (steps ++ [⟨w, .turn task now clientTotal, w'⟩])) :
    Follows kind period now (delivered (steps ++ [⟨w, .turn task now clientTotal, w'⟩]))
      ticker' := by
  have hearlier (hclient : kind = .client) : ReadsSucceed task steps :=
    (hreads hclient).of_concat
  obtain ⟨⟨recorder, signals⟩, hturn, rfl⟩ := Option.map_eq_some_iff.mp hmove
  obtain ⟨sampler, hsampler, ticker, hread, htick⟩ := tickerTurn_of_turn hturn hfound hticker
  rw [SamplingTask.of?_clocks, hperiod] at hread
  have hfollows : Follows kind period now (delivered steps) ticker := by
    rcases hstarted : sampler.ticker? kind with _ | started
    · rw [hstarted] at hread
      obtain rfl := Option.some.inj hread
      exact ⟨rfl, .inl (Int.le_refl _)⟩
    · rw [hstarted] at hread
      obtain rfl := Option.some.inj hread
      exact h task sampler _ hregistered hsampler hstarted hearlier
  rw [delivered_concat]
  refine hfollows.of_turn htick fun hclient cause hround => ?_
  have hfailed := hreads hclient _ (List.mem_append_right _ (List.mem_singleton_self _))
    (.error cause) (by simp [Step.rounds, hround])
  cases hfailed

theorem Tracks.of_move (h : Tracks kind period now steps w) (hmanned : Manned w)
    (hperiod : w.recorder.config.interval? kind = some period) (hmove : w.move? m = some w')
    (hmoment : ∀ moment ∈ m.moment?, moment = now) :
    Tracks kind period now (steps ++ [⟨w, m, w'⟩]) w' := by
  intro task sampler' ticker' hregistered hfound hticker hreads
  have hearlier (hclient : kind = .client) : ReadsSucceed task steps :=
    (hreads hclient).of_concat
  have hlasting (hsame : w'.recorder.registered? = w.recorder.registered?) :
      ∃ added, delivered (steps ++ [⟨w, m, w'⟩]) = delivered steps ++ added := by
    rw [delivered_concat]
    rcases Step.extend_eq ⟨w, m, w'⟩ (delivered steps) with ⟨⟨-, hstarted⟩, -⟩ | ⟨added, heq, -⟩
    · have hfree : w.recorder.registered? = none := start_isOk_iff.mp hstarted
      rw [hsame, hfree] at hregistered
      cases hregistered
    · exact ⟨added, heq⟩
  have hkept (hsame : w'.recorder.registered? = w.recorder.registered?)
      (hsampler : w'.recorder.sampler? task = w.recorder.sampler? task) :
      Follows kind period now (delivered (steps ++ [⟨w, m, w'⟩])) ticker' := by
    obtain ⟨added, hlog⟩ := hlasting hsame
    rw [hlog]
    exact (h task sampler' ticker' (hsame ▸ hregistered) (hsampler ▸ hfound) hticker
      hearlier).mono (Int.le_refl _) (List.subset_append_left _ _)
  cases restaffs_of_move hmanned hmove with
  | started _ hloop _ hsampler _ hnew =>
      obtain rfl := Option.some.inj (hnew.symm.trans hregistered)
      rw [hsampler, Function.update_self] at hfound
      obtain rfl := Option.some.inj hfound
      -- A task that has not run yet has no tickers.
      rw [SamplingTask.ticker?, Option.map_eq_none_iff.mp hloop] at hticker
      cases hticker
  | told _ _ _ _ hfree =>
      rw [hfree] at hregistered
      cases hregistered
  | @ended ending _ _ _ _ hended hstopping _ hsampler _ hsame =>
      refine hkept hsame ?_
      rw [hsampler, Function.update_of_ne]
      rintro rfl
      rw [hsampler, Function.update_self] at hfound
      cases hfound
  | @turned turning moment clientTotal sampler found _ hturning _ _ _ hsampler _ hsame =>
      by_cases hother : task = turning
      · subst hother
        obtain rfl : moment = now := hmoment moment rfl
        exact h.of_turn hperiod (hsame ▸ hregistered) hmove hfound hticker hreads
      · exact hkept hsame (by rw [hsampler, Function.update_of_ne hother])
  | kept _ hsampler _ hsame => exact hkept hsame (congrFun hsampler task)

/-- The deliveries come in the order of the clock, and none comes later than it shows. -/
structure Timed (now : Moment) (log : List Delivery) : Prop where
  ordered : log.Pairwise (·.moment ≤ ·.moment)
  past : ∀ d ∈ log, d.moment ≤ now

theorem Timed.mono (h : Timed now log) (hnow : now ≤ now') : Timed now' log :=
  ⟨h.ordered, fun d hmem => Moment.le_trans (h.past d hmem) hnow⟩

theorem Timed.of_move (h : Timed now log) (hmoment : ∀ moment ∈ m.moment?, moment = now) :
    Timed now ((⟨w, m, w'⟩ : Step).extend log) := by
  rcases Step.extend_eq ⟨w, m, w'⟩ log with ⟨-, hnew⟩ | ⟨added, heq, hadded⟩
  · rw [hnew]
    exact ⟨.nil, by simp⟩
  rw [heq]
  have hnow (d : Delivery) (hmem : d ∈ added) : d.moment = now := hmoment _ (hadded d hmem)
  constructor
  · refine List.pairwise_append.mpr ⟨h.ordered, ?_, fun d hd d' hd' => ?_⟩
    · refine List.pairwise_of_forall_mem_list fun d hd d' hd' => ?_
      rw [hnow d hd, hnow d' hd']
      exact Int.le_refl _
    · rw [hnow d' hd']
      exact h.past d hd
  · rw [List.forall_mem_append]
    exact ⟨h.past, fun d hmem => hnow d hmem ▸ Int.le_refl _⟩

end Shared

end

namespace Clocked

open History Shared

variable {config : SamplingConfig} {bus : Bus Measurement} {s : Clocked} {steps : List Step}
  {kind : Resource} {period : Span}

theorem now_le_add (s : Clocked) (millis : Nat) :
    s.now ≤ now { s with clock := s.clock + millis } := by
  simp only [now, Moment.ofMillis, Moment.le_def]
  omega

theorem timed_of_execution (h : Execution (fresh config bus) steps s) :
    Timed s.now (delivered (acts steps)) := by
  induction h with
  | start => exact ⟨.nil, by simp [acts, delivered]⟩
  | @next steps s s' m _ hmove ih =>
      rw [acts_concat]
      cases hmove with
      | act hmoment _ =>
          rw [Step.act?, Option.toList_some, delivered_concat]
          exact ih.of_move hmoment
      | @pass millis | @jump millis =>
          rw [Step.act?, Option.toList_none, List.append_nil]
          exact ih.mono (s.now_le_add millis)

theorem tracks_of_execution (h : Execution (fresh config bus) steps s)
    (hperiod : config.interval? kind = some period) :
    Tracks kind period s.now (acts steps) s.shared := by
  induction h with
  | start =>
      intro task sampler ticker hregistered
      cases hregistered
  | @next steps s s' m hsteps hmove ih =>
      rw [acts_concat]
      cases hmove with
      | act hmoment hmove =>
          have hmanned := manned_of_execution hsteps.shared
          rw [← config_of_execution hsteps] at hperiod
          exact ih.of_move hmanned hperiod hmove hmoment
      | @pass millis | @jump millis =>
          rw [Step.act?, Option.toList_none, List.append_nil]
          exact ih.mono (s.now_le_add millis)

/-- In a settled state no tick is ready, so that the latest delivery is less than a period ago. -/
theorem delivered_within_period (h : Execution (fresh config bus) steps s) (hsettled : s.Settled)
    {task : Nat} (hregistered : s.shared.recorder.registered? = some task)
    (hperiod : config.interval? kind = some period)
    (hreads : kind = .client → ReadsSucceed task (acts steps)) :
    ∃ n, latest? kind (delivered (acts steps)) = some n ∧
      s.now.nanos < n.nanos + period.nanos := by
  obtain ⟨sampler, hfound, -⟩ := (manned_of_execution h.shared).going task hregistered
  have hturn : s.shared.recorder.turn task s.now (.ok 0) = none :=
    Option.map_eq_none_iff.mp (hsettled.1 task (.ok 0))
  rcases hticker : sampler.ticker? kind with _ | ticker
  · -- A ticker that starts now is ready at once.
    have hstarts : (sampler.clocks s.shared.recorder.config s.now).of? kind =
        some (.start .delay period s.now) := by
      rw [SamplingTask.of?_clocks, hticker, config_of_execution h, hperiod]
      rfl
    exact absurd (Int.le_refl _) (not_ready_of_turn_eq_none hfound hturn hstarts)
  · have hread : (sampler.clocks s.shared.recorder.config s.now).of? kind = some ticker := by
      rw [SamplingTask.of?_clocks, hticker]
      rfl
    have hwaits := not_ready_of_turn_eq_none hfound hturn hread
    have hfollows :=
      tracks_of_execution h hperiod task sampler ticker hregistered hfound hticker hreads
    obtain ⟨d, hmem, rfl, hdue⟩ := hfollows.due_le.resolve_left hwaits
    obtain ⟨n, hlatest, hle⟩ := moment_le_latest? (timed_of_execution h).ordered hmem
    have hwaits : s.now.nanos < ticker.due.nanos := Int.not_le.mp hwaits
    rw [Moment.le_def] at hle
    exact ⟨n, hlatest, by omega⟩

/-- What an active recorder retains of a kind was taken, at the earliest, the retention before the
latest delivery of the kind, and a round leaves the series alone of which it brings no sample.  At
any settled point of a clock, what is retained of the event loop, and of the client as long as its
errors could be read, is younger than the retention and the interval together. -/
theorem retained_samples_are_recent {steps : List Shared.Step} {w : Shared}
    (h : Shared.Execution (.fresh config bus) steps w) (hactive : w.recorder.active)
    (hnamed : Named (delivered steps)) :
    (∀ kind, ∃ samples, (∀ now, w.recorder.samples now kind none = .ok samples) ∧
      ∀ x ∈ samples, ∃ n, latest? kind (delivered steps) = some n ∧
        n.nanos - config.retention.nanos ≤ x.takenAt.nanos) ∧
    (∀ e ∈ steps, e.move.moment?.isSome → ∀ kind, (∀ x ∈ e.brought, x.kind ≠ kind) →
      e.after.recorder.history?.map (·.series kind) =
        e.before.recorder.history?.map (·.series kind)) ∧
    ∀ timed clock, Execution (fresh config bus) timed ⟨w, clock⟩ → acts timed = steps →
      Settled ⟨w, clock⟩ →
        ((∀ e ∈ steps, ¬e.GivesUp) → w.recorder.registered?.isSome) ∧
        ∀ task, w.recorder.registered? = some task →
          ∀ kind interval, config.interval? kind = some interval →
            (kind = .client → ReadsSucceed task steps) →
            ∀ now samples, w.recorder.samples now kind none = .ok samples → ∀ x ∈ samples,
              (Moment.ofMillis clock).nanos - x.takenAt.nanos <
                config.retention.nanos + interval.nanos := by
  obtain ⟨history, hhistory⟩ := Option.isSome_iff_exists.mp hactive
  have hlogged : history = ofDeliveries config.retention (delivered steps) :=
    (logged_of_execution h).history_eq history hhistory
  have hread (now : Moment) (kind : Resource) :
      w.recorder.samples now kind none = .ok (history.series kind) := by
    rw [samples, hhistory]
    rfl
  have hretained (kind : Resource) (x : Sample) (hmem : x ∈ history.series kind) :
      ∃ n, latest? kind (delivered steps) = some n ∧
        n.nanos - config.retention.nanos ≤ x.takenAt.nanos := by
    rw [hlogged] at hmem
    exact cutoff_le_of_named hnamed hmem
  refine ⟨fun kind => ⟨_, fun now => hread now kind, hretained kind⟩, ?_, ?_⟩
  · intro e hmem hround kind hnone
    obtain ⟨earlier, later, rfl⟩ := List.append_of_mem hmem
    exact series_of_move h.of_append_cons.2 hround hnone
  · rintro timed clock htimed rfl hsettled
    refine ⟨registered_of_settled htimed hsettled hactive, ?_⟩
    intro task hregistered kind interval hinterval hreads now samples hsamples x hmem
    obtain rfl := Except.ok.inj ((hread now kind).symm.trans hsamples)
    obtain ⟨n, hlatest, hcutoff⟩ := hretained kind x hmem
    -- The latest delivery is less than an interval old, and the cutoff goes by it.
    obtain ⟨n', hlatest', hwithin⟩ :=
      delivered_within_period htimed hsettled hregistered hinterval hreads
    obtain rfl := Option.some.inj (hlatest.symm.trans hlatest')
    have hwithin : (Moment.ofMillis clock).nanos < n.nanos + interval.nanos := hwithin
    omega

/-- A client sample that comes twenty-nine seconds late is still there 400 milliseconds later. -/
theorem retained_samples_are_recent_of_late : ∃ timed w old samples,
    Execution (fresh {} (.ofCapacity 1)) timed ⟨w, 400⟩ ∧ (∀ e ∈ timed, ¬e.Jumps) ∧
      Settled ⟨w, 400⟩ ∧ w.recorder.active ∧ Named (delivered (acts timed)) ∧
      old = ⟨.client 5 1, ⟨-29000000000⟩⟩ ∧ ReadsSucceed 0 (acts timed) ∧
      w.recorder.samples (.ofMillis 400) .client none = .ok samples ∧ old ∈ samples ∧
      (∃ n, latest? .client (delivered (acts timed)) = some n ∧
        n.nanos - (Span.ofSeconds 30).nanos ≤ old.takenAt.nanos) ∧
      (Moment.ofMillis 400).nanos - old.takenAt.nanos <
        (Span.ofSeconds 30).nanos + (Span.ofSeconds 1).nanos := by
  let old : Sample := ⟨.client 5 1, ⟨-29000000000⟩⟩
  let moves : List Shared.Move :=
    [.start, .turn 0 (.ofMillis 0) (.ok 0), .turn 0 (.ofMillis 0) (.ok 0),
      .record (.ofMillis 0) old]
  obtain ⟨steps, w, samples, hplay, hactive, hregistered, hawaited, sampler, hsamplers, hturn,
      hlater, htimers, hmoves, hdelivered, hrounds, hread, hmem⟩ :
      ∃ steps w samples, (Shared.fresh {} (.ofCapacity 1)).play moves [] = some (steps, w) ∧
        w.recorder.active ∧ w.recorder.registered? = some 0 ∧ w.awaited = [] ∧
        ∃ sampler, w.recorder.samplers = [(0, sampler)] ∧
          (∀ clientTotal, w.recorder.turn 0 (.ofMillis 0) clientTotal = none) ∧
          (∀ clientTotal, w.recorder.turn 0 (.ofMillis 400) clientTotal = none) ∧
          w.recorder.timers = [(0, .ofMillis 500), (0, .ofMillis 1000)] ∧
          steps.map (·.move) = moves ∧
          (delivered steps).map (fun d => (d.moment, d.sample.takenAt)) =
            [(⟨0⟩, ⟨0⟩), (⟨0⟩, ⟨0⟩), (⟨0⟩, ⟨-29000000000⟩)] ∧
          steps.flatMap (·.rounds 0) = [.ok 0] ∧
          w.recorder.samples (.ofMillis 400) .client none = .ok samples ∧ old ∈ samples :=
    ⟨_, _, _, rfl, rfl, rfl, rfl, _, rfl, fun _ => rfl, fun _ => rfl, rfl, rfl, rfl, rfl, rfl,
      .head _⟩
  have hshared : Shared.Execution _ steps w := execution_of_play .start hplay
  have hearlier : Execution (fresh {} (.ofCapacity 1)) (steps.map (Step.ofAct 0)) ⟨w, 0⟩ := by
    refine execution_of_shared hshared ?_
    rw [hmoves]
    simp [moves, Shared.Move.moment?]
  have hpass : Moves ⟨w, 0⟩ (.pass 400) ⟨w, 400⟩ := by
    refine .pass (settled_of_waiting hawaited (by simpa [hsamplers, now] using hturn)) ?_
    rw [htimers]
    show ∀ timer ∈ [(0, Moment.ofMillis 500), (0, .ofMillis 1000)], 0 + 400 ≤ timer.2.roundedUp
    decide
  have h := hearlier.next hpass
  have hacts : acts (steps.map (Step.ofAct 0) ++ [⟨⟨w, 0⟩, .pass 400, ⟨w, 400⟩⟩]) = steps := by
    rw [acts_concat, acts_map_ofAct]
    exact List.append_nil steps
  have hjumps : ∀ e ∈ steps.map (Step.ofAct 0) ++ [⟨⟨w, 0⟩, .pass 400, ⟨w, 400⟩⟩], ¬e.Jumps := by
    rw [List.forall_mem_append, List.forall_mem_singleton]
    exact ⟨not_jumps_of_ofAct 0 steps, by simp [Step.Jumps]⟩
  have hsettled : Settled ⟨w, 400⟩ :=
    settled_of_waiting hawaited (by simpa [hsamplers, now] using hlater)
  have hnamed : Named (delivered steps) := by
    have hall : ∀ p ∈ [((⟨0⟩ : Moment), (⟨0⟩ : Moment)), (⟨0⟩, ⟨0⟩), (⟨0⟩, ⟨-29000000000⟩)],
        Moment.Nameable p.1.nanos ∧ Moment.Nameable p.2.nanos := by decide
    rw [← hdelivered] at hall
    exact fun d hd => hall _ (List.mem_map_of_mem hd)
  have hreads : ReadsSucceed 0 steps := by
    intro e hmem round hround
    have hall : round ∈ steps.flatMap (·.rounds 0) := List.mem_flatMap.mpr ⟨e, hmem, hround⟩
    rw [hrounds, List.mem_singleton] at hall
    rw [hall]
    rfl
  obtain ⟨hretained, -, hages⟩ := retained_samples_are_recent hshared hactive hnamed
  obtain ⟨samples', hread', hcutoff⟩ := hretained .client
  obtain rfl := Except.ok.inj ((hread' _).symm.trans hread)
  have hage := (hages _ 400 h hacts hsettled).2 0 hregistered .client (.ofSeconds 1) rfl
    (fun _ => hreads) _ _ hread old hmem
  rw [← hacts] at hnamed hreads hcutoff
  exact ⟨_, w, old, samples', h, hjumps, hsettled, hactive, hnamed, rfl, hreads, hread, hmem,
    hcutoff old hmem, hage⟩

/-- After a stop that has been given up there may be no task any more that prunes the series. -/
theorem outdated_of_dropped_stop : ¬∀ (config : SamplingConfig) (bus : Bus Measurement)
    (steps : List Step) (s : Clocked) (samples : List Sample),
    Execution (fresh config bus) steps s → (∀ e ∈ steps, ¬e.Jumps) → s.Settled →
      s.shared.recorder.active → s.shared.recorder.samples s.now .eventLoop none = .ok samples →
      ∀ x ∈ samples, s.now.nanos - x.takenAt.nanos <
        config.retention.nanos + config.eventLoopInterval.nanos := by
  intro hrecent
  obtain ⟨steps, w, h, hjumps, hactive, hawaited, hsamplers, hsamples⟩ := exists_unstaffed
  have hsettled (clock : Nat) : Settled ⟨w, clock⟩ :=
    settled_of_waiting hawaited (by simp [hsamplers])
  have hpass : Moves ⟨w, 0⟩ (.pass 31000) ⟨w, 0 + 31000⟩ :=
    .pass (hsettled 0) (by simp [timers, hsamplers])
  have hnone : ∀ e ∈ steps ++ [⟨⟨w, 0⟩, .pass 31000, ⟨w, 0 + 31000⟩⟩], ¬e.Jumps := by
    rw [List.forall_mem_append, List.forall_mem_singleton]
    exact ⟨hjumps, by simp [Step.Jumps]⟩
  have hage : (Moment.ofMillis 31000).nanos - (Moment.ofMillis 0).nanos <
      (Span.ofSeconds 30).nanos + (Span.ofMillis 500).nanos :=
    hrecent {} (.ofCapacity 1) _ _ _ (h.next hpass) hnone (hsettled _) hactive (hsamples _) _
      (List.mem_singleton_self _)
  exact absurd hage (by decide)

end Clocked

end Recorder

end ElasticPool
