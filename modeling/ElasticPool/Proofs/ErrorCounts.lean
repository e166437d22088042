import ElasticPool.Proofs.SamplingClocks
import Mathlib

namespace ElasticPool

/-- What a counter has risen by since the reading before.  The first reading shows no rise, and
neither does one of a counter that has fallen. -/
def increases (previous? : Option Nat) : List Nat → List Nat
  | [] => []
  | total :: totals => (total - previous?.getD total) :: increases (some total) totals

theorem length_increases (previous? : Option Nat) (totals : List Nat) :
    (increases previous? totals).length = totals.length := by
  induction totals generalizing previous? with
  | nil => rfl
  | cons total totals ih => simp [increases, ih]

theorem increases_concat (previous? : Option Nat) (totals : List Nat) (total : Nat) :
    increases previous? (totals ++ [total]) =
      increases previous? totals ++ [total - (totals.getLast?.or previous?).getD total] := by
  induction totals generalizing previous? with
  | nil => rfl
  | cons first totals ih =>
      simp only [List.cons_append, increases, ih, List.getLast?_cons]
      cases totals.getLast? <;> rfl

theorem head?_increases (totals : List Nat) :
    (increases none totals).head? = totals.head?.map fun _ => 0 := by
  cases totals <;> simp [increases]

theorem getElem?_increases {totals : List Nat} {i previous total : Nat}
    (hprevious : totals[i]? = some previous) (htotal : totals[i + 1]? = some total)
    (previous? : Option Nat) :
    (increases previous? totals)[i + 1]? = some (total - previous) := by
  induction totals generalizing previous? i with
  | nil => simp at hprevious
  | cons first totals ih =>
      rw [List.getElem?_cons_succ] at htotal
      rw [increases, List.getElem?_cons_succ]
      cases i with
      | zero =>
          obtain rfl : first = previous := by simpa using hprevious
          cases totals with
          | nil => simp at htotal
          | cons second totals =>
              obtain rfl : second = total := by simpa using htotal
              rfl
      | succ i =>
          rw [List.getElem?_cons_succ] at hprevious
          exact ih hprevious htotal _

theorem sum_increases {first last : Nat} {totals : List Nat}
    (hrising : (first :: totals).Pairwise (· ≤ ·))
    (hlast : (first :: totals).getLast? = some last) :
    first + (increases (some first) totals).sum = last := by
  induction totals generalizing first with
  | nil => simpa [increases] using hlast
  | cons second totals ih =>
      obtain ⟨hfirst, hrest⟩ := List.pairwise_cons.mp hrising
      have hle : first ≤ second := hfirst second List.mem_cons_self
      have hsum := ih hrest (by simpa [List.getLast?_cons_cons] using hlast)
      simp only [increases, Option.getD_some, List.sum_cons]
      omega

/-- The counts show, total by total, what a counter has risen by. -/
structure CountsRises (totals counts : List Nat) : Prop where
  length_eq : counts.length = totals.length
  head?_eq : counts.head? = totals.head?.map fun _ => 0
  rise_eq : ∀ (i previous total : Nat), totals[i]? = some previous → totals[i + 1]? = some total →
    ∃ count, counts[i + 1]? = some count ∧ (count : Int) = max 0 ((total : Int) - previous)
  sum_eq : totals.Pairwise (· ≤ ·) → ∀ first last, totals.head? = some first →
    totals.getLast? = some last → first + counts.sum = last

theorem countsRises_increases (totals : List Nat) :
    CountsRises totals (increases none totals) where
  length_eq := length_increases none totals
  head?_eq := head?_increases totals
  rise_eq i previous total hprevious htotal :=
    ⟨_, getElem?_increases hprevious htotal none, by omega⟩
  sum_eq hrising first last hfirst hlast := by
    cases totals with
    | nil => simp at hfirst
    | cons head totals =>
        obtain rfl : head = first := by simpa using hfirst
        simpa [increases] using sum_increases hrising hlast

namespace Recorder

def round? (s : Recorder) (task : Nat) (now : Moment) (clientTotal : Except String Nat) :
    Option (Except String Nat) :=
  match s.sampler? task with
  | none => none
  | some sampler =>
      if sampler.stopping then none
      else
        let tickers := sampler.clocks s.config now
        match s.bus.receive sampler.subscription with
        | (⟨_, some _⟩, _) => none
        | (⟨_, none⟩, _) =>
            if tickers.eventLoop.Ready now then none
            else if tickers.client.Ready now then some clientTotal
            else none

def baseline? (s : Recorder) (task : Nat) : Option Nat :=
  (s.sampler? task).bind (·.previousErrors?)

/-- What a turn does with the client, by its round. -/
inductive ClientTurn (c : SamplingConfig) (now : Moment) (sampler sampler' : SamplingTask) :
    Option (Except String Nat) → List Sample → Prop
  | idle {samples : List Sample} (hbaseline : sampler'.previousErrors? = sampler.previousErrors?)
      (hsamples : ∀ x ∈ samples, x.kind ≠ .client) :
        ClientTurn c now sampler sampler' none samples
  | failed {cause : String} (hbaseline : sampler'.previousErrors? = sampler.previousErrors?) :
      ClientTurn c now sampler sampler' (some (.error cause)) []
  | read {total : Nat} (hbaseline : sampler'.previousErrors? = some total) :
      ClientTurn c now sampler sampler' (some (.ok total))
        [⟨.client (total - sampler.previousErrors?.getD total) c.maxClientErrors, now⟩]

variable {s s' : Recorder} {task : Nat} {now : Moment} {clientTotal : Except String Nat}
  {signals : List Signal} {sampler : SamplingTask}

theorem previousErrors?_onMeasurement (c : SamplingConfig) (sampler : SamplingTask)
    (history? : Option History) (now : Moment) (m : Measurement) :
    (sampler.onMeasurement c history? now m).sampler.previousErrors? =
      sampler.previousErrors? := by
  unfold SamplingTask.onMeasurement
  split <;> rfl

/-- A turn ends a task that has been told to end.  Any other one goes on, with a round of the
client or without. -/
theorem clientTurn_of_turn (h : s.turn task now clientTotal = some (s', signals)) :
    ∃ sampler, s.sampler? task = some sampler ∧ s'.starts = s.starts ∧
      (s.round? task now clientTotal = none ∧ s.taken task now clientTotal = [] ∧
          s'.sampler? = Function.update s.sampler? task none ∨
        ∃ sampler', s'.sampler? = Function.update s.sampler? task (some sampler') ∧
          ClientTurn s.config now sampler sampler' (s.round? task now clientTotal)
            (s.taken task now clientTotal)) := by
  rcases hfound : s.sampler? task with _ | sampler
  · simp only [turn, hfound] at h
    cases h
  refine ⟨sampler, rfl, ?_⟩
  simp only [turn, hfound] at h
  by_cases hstopping : sampler.stopping = true
  · rw [if_pos hstopping] at h
    obtain ⟨rfl, -⟩ := Prod.mk.inj (Option.some.inj h)
    exact ⟨rfl, .inl ⟨by simp [round?, hfound, hstopping], by simp [taken, hfound, hstopping],
      sampler?_remove s task⟩⟩
  rw [if_neg hstopping] at h
  simp only [round?, taken, hfound, if_neg hstopping]
  rcases hreceive : s.bus.receive sampler.subscription with ⟨⟨skipped, _ | m⟩, bus⟩
  · simp only [hreceive] at h ⊢
    by_cases hloop : (sampler.clocks s.config now).eventLoop.Ready now
    · rw [if_pos hloop] at h
      obtain ⟨rfl, -⟩ := Prod.mk.inj (Option.some.inj h)
      simp only [if_pos hloop]
      refine ⟨rfl, .inr ⟨_, sampler?_setSampler s hfound _, .idle rfl ?_⟩⟩
      simp [SamplingTask.loopSamples, Sample.kind, Reading.kind]
    rw [if_neg hloop] at h
    simp only [if_neg hloop]
    by_cases hready : (sampler.clocks s.config now).client.Ready now
    · rw [if_pos hready] at h
      obtain ⟨rfl, -⟩ := Prod.mk.inj (Option.some.inj h)
      simp only [if_pos hready]
      refine ⟨rfl, .inr ⟨_, sampler?_setSampler s hfound _, ?_⟩⟩
      cases clientTotal with
      | error cause => exact .failed rfl
      | ok total => exact .read rfl
    · rw [if_neg hready] at h
      cases h
  · simp only [hreceive] at h ⊢
    obtain ⟨rfl, -⟩ := Prod.mk.inj (Option.some.inj h)
    refine ⟨rfl, .inr ⟨_, sampler?_setSampler { s with bus } hfound _,
      .idle ?_ (kind_of_measurement (by decide) (by decide))⟩⟩
    exact previousErrors?_onMeasurement s.config sampler s.history? now m

namespace Shared

def errorsOf? (x : Sample) : Option Nat :=
  match x.reading with
  | .client errors _ => some errors
  | .cpu .. | .memory .. | .eventLoop .. => none

namespace Step

def rounds (e : Step) (task : Nat) : List (Except String Nat) :=
  match e.move with
  | .turn turning now clientTotal =>
      if turning = task then (e.before.recorder.round? task now clientTotal).toList else []
  | .start | .stop | .resume _ | .giveUp _ | .record .. | .emit _ => []

def totals (e : Step) (task : Nat) : List Nat := (e.rounds task).filterMap Except.toOption

def counts (e : Step) (task : Nat) : List Nat :=
  match e.move with
  | .turn turning .. => if turning = task then e.brought.filterMap errorsOf? else []
  | .start | .stop | .resume _ | .giveUp _ | .record .. | .emit _ => []

end Step

/-- A sampling task has had rounds with the given totals, and its samples have the given
counts. -/
structure Counted (task : Nat) (totals counts : List Nat) (w : Shared) : Prop where
  born : task < w.recorder.starts
  baseline : ∀ sampler, w.recorder.sampler? task = some sampler →
    sampler.previousErrors? = totals.getLast?
  counts_eq : counts = increases none totals

variable {config : SamplingConfig} {bus : Bus Measurement} {w w' : Shared} {m : Move}
  {steps earlier later : List Step} {e : Step} {task : Nat} {totals counts : List Nat}

theorem errorsOf?_eq_none {x : Sample} (h : x.kind ≠ .client) : errorsOf? x = none := by
  unfold errorsOf?
  split
  · rename_i hreading
    simp [Sample.kind, hreading, Reading.kind] at h
  all_goals rfl

theorem Counted.of_kept (h : Counted task totals counts w)
    (hstarts : w.recorder.starts ≤ w'.recorder.starts)
    (hbaseline : ∀ sampler, w'.recorder.sampler? task = some sampler →
      ∃ earlier, w.recorder.sampler? task = some earlier ∧
        sampler.previousErrors? = earlier.previousErrors?)
    (htotals : (⟨w, m, w'⟩ : Step).totals task = [])
    (hcounts : (⟨w, m, w'⟩ : Step).counts task = []) :
    Counted task (totals ++ (⟨w, m, w'⟩ : Step).totals task)
      (counts ++ (⟨w, m, w'⟩ : Step).counts task) w' := by
  rw [htotals, hcounts, List.append_nil, List.append_nil]
  refine ⟨Nat.lt_of_lt_of_le h.born hstarts, fun sampler hfound => ?_, h.counts_eq⟩
  obtain ⟨earlier, hearlier, hsame⟩ := hbaseline sampler hfound
  rw [hsame, h.baseline earlier hearlier]

theorem Counted.of_turn {now : Moment} {clientTotal : Except String Nat}
    (h : Counted task totals counts w) (hmove : w.move? (.turn task now clientTotal) = some w') :
    Counted task (totals ++ (⟨w, .turn task now clientTotal, w'⟩ : Step).totals task)
      (counts ++ (⟨w, .turn task now clientTotal, w'⟩ : Step).counts task) w' := by
  obtain ⟨⟨recorder, signals⟩, hturn, rfl⟩ := Option.map_eq_some_iff.mp hmove
  obtain ⟨sampler, hfound, hstarts, ⟨hround, htaken, hended⟩ | ⟨sampler', hgoes, hclient⟩⟩ :=
    clientTurn_of_turn hturn
  · refine h.of_kept hstarts.ge (fun found hfound' => ?_) ?_ ?_
    · have hnone : recorder.sampler? task = none := by rw [hended, Function.update_self]
      rw [hnone] at hfound'
      cases hfound'
    · simp [Step.totals, Step.rounds, hround]
    · simp [Step.counts, Step.brought, htaken]
  have hfound' : recorder.sampler? task = some sampler' := by rw [hgoes, Function.update_self]
  have hbaseline := h.baseline sampler hfound
  generalize hround : w.recorder.round? task now clientTotal = round? at hclient
  generalize htaken : w.recorder.taken task now clientTotal = samples at hclient
  cases hclient with
  | idle hsame hsamples =>
      refine h.of_kept hstarts.ge (fun found hfound'' => ?_) ?_ ?_
      · obtain rfl := Option.some.inj (hfound'.symm.trans hfound'')
        exact ⟨sampler, hfound, hsame⟩
      · simp [Step.totals, Step.rounds, hround]
      · simp only [Step.counts, Step.brought, htaken, if_true, List.filterMap_eq_nil_iff]
        exact fun x hmem => errorsOf?_eq_none (hsamples x hmem)
  | failed hsame =>
      refine h.of_kept hstarts.ge (fun found hfound'' => ?_) ?_ ?_
      · obtain rfl := Option.some.inj (hfound'.symm.trans hfound'')
        exact ⟨sampler, hfound, hsame⟩
      · simp [Step.totals, Step.rounds, hround, Except.toOption]
      · simp [Step.counts, Step.brought, htaken]
  | @read total hread =>
      have htotals : (⟨w, .turn task now clientTotal, { w with recorder }⟩ : Step).totals task =
          [total] := by simp [Step.totals, Step.rounds, hround, Except.toOption]
      have hcounts : (⟨w, .turn task now clientTotal, { w with recorder }⟩ : Step).counts task =
          [total - sampler.previousErrors?.getD total] := by
        simp [Step.counts, Step.brought, htaken, errorsOf?]
      rw [htotals, hcounts]
      refine ⟨hstarts ▸ h.born, fun found hfound'' => ?_, ?_⟩
      · obtain rfl := Option.some.inj (hfound'.symm.trans hfound'')
        rw [hread, List.getLast?_concat]
      · rw [h.counts_eq, hbaseline, increases_concat, Option.or_none]

theorem Counted.of_move (h : Counted task totals counts w) (hmanned : Manned w)
    (hmove : w.move? m = some w') :
    Counted task (totals ++ (⟨w, m, w'⟩ : Step).totals task)
      (counts ++ (⟨w, m, w'⟩ : Step).counts task) w' := by
  have hself (hsame : w'.recorder.sampler? task = w.recorder.sampler? task)
      (sampler : SamplingTask) (hfound : w'.recorder.sampler? task = some sampler) :
      ∃ earlier, w.recorder.sampler? task = some earlier ∧
        sampler.previousErrors? = earlier.previousErrors? := ⟨sampler, hsame ▸ hfound, rfl⟩
  cases restaffs_of_move hmanned hmove with
  | started _ _ _ hsampler hstarts =>
      refine h.of_kept (by omega) (hself ?_) rfl rfl
      rw [hsampler, Function.update_of_ne (Nat.ne_of_lt h.born)]
  | @told told sampler _ _ hfound hsampler hstarts =>
      refine h.of_kept hstarts.ge (fun found hfound' => ?_) rfl rfl
      rw [hsampler, Function.update_apply] at hfound'
      split at hfound'
      · rename_i htold
        obtain rfl := Option.some.inj hfound'
        exact ⟨sampler, htold ▸ hfound, rfl⟩
      · exact ⟨found, hfound', rfl⟩
  | @ended turning _ _ _ _ _ _ _ hsampler hstarts _ _
  | @turned turning _ _ _ _ _ _ _ _ _ hsampler hstarts _ _ =>
      by_cases hother : turning = task
      · subst hother
        exact h.of_turn hmove
      · refine h.of_kept hstarts.ge (hself ?_) ?_ ?_
        · rw [hsampler, Function.update_of_ne (Ne.symm hother)]
        · simp [Step.totals, Step.rounds, hother]
        · simp [Step.counts, hother]
  | kept hturn hsampler hstarts =>
      refine h.of_kept hstarts.ge (hself (by rw [hsampler])) ?_ ?_
      · cases m with
        | turn task now clientTotal => exact absurd rfl (hturn task now clientTotal)
        | start | stop | resume | giveUp | record | emit => rfl
      · cases m with
        | turn task now clientTotal => exact absurd rfl (hturn task now clientTotal)
        | start | stop | resume | giveUp | record | emit => rfl

theorem counted_of_start (hmanned : Manned w) (hmove : w.move? .start = some w')
    (hstarts : (⟨w, .start, w'⟩ : Step).Starts) :
    Counted w.recorder.starts [] [] w' ∧ w'.recorder.registered? = some w.recorder.starts := by
  have hfree : w.recorder.registered? = none := start_isOk_iff.mp hstarts.2
  obtain ⟨s', signals, hstart, -, -, hregistered, hsamplers⟩ := start_eq hfree
  obtain rfl : { w with recorder := s' } = w' := by simpa [move?, hstart] using hmove
  have hborn : s'.starts = w.recorder.starts + 1 := by
    cases restaffs_of_move hmanned hmove with
    | started _ _ _ _ hborn => exact hborn
    | kept _ _ _ hsame =>
        have hnone : s'.registered? = none := hsame.trans hfree
        rw [hregistered] at hnone
        cases hnone
  refine ⟨⟨by simp [hborn], fun sampler hfound => ?_, rfl⟩, hregistered⟩
  have hsampler := sampler?_append w.recorder (hmanned.unborn _ (Nat.le_refl _))
    { subscription := w.recorder.bus.subscribe.1
      warning := ⟨w.recorder.config.warningCooldown, none⟩ }
  rw [← hsamplers] at hsampler
  have hnew := (congrFun hsampler w.recorder.starts).symm.trans hfound
  rw [Function.update_self] at hnew
  obtain rfl := Option.some.inj hnew
  rfl

theorem counted_of_execution (h : Execution (fresh config bus) (earlier ++ e :: later) w)
    (hstarts : e.Starts) :
    Counted e.before.recorder.starts (later.flatMap (·.totals e.before.recorder.starts))
      (later.flatMap (·.counts e.before.recorder.starts)) w := by
  generalize hall : earlier ++ e :: later = all at h
  -- a last step is either the start itself or the latest one of the window
  induction h generalizing later with
  | start => simp at hall
  | @next steps w w' m hsteps hmove ih =>
      have hmanned := manned_of_execution hsteps
      rcases List.eq_nil_or_concat later with rfl | ⟨later', last, rfl⟩
      · obtain ⟨rfl, hlast⟩ := List.append_inj' hall rfl
        obtain rfl : e = ⟨w, m, w'⟩ := by simpa using hlast
        obtain rfl : m = .start := hstarts.1
        exact (counted_of_start hmanned hmove hstarts).1
      · rw [List.concat_eq_append, ← List.cons_append, ← List.append_assoc] at hall
        obtain ⟨hsteps', hlast⟩ := List.append_inj' hall rfl
        obtain rfl : last = ⟨w, m, w'⟩ := by simpa using hlast
        rw [List.concat_eq_append, flatMap_concat, flatMap_concat]
        exact (ih hsteps').of_move hmanned hmove

/-- What a round leaves behind.  One that fails leaves everything as it was, and one that
succeeds brings one sample and is the next one's baseline. -/
inductive RoundLeaves (config : SamplingConfig) (task : Nat) (e : Step) :
    Except String Nat → Prop
  | failed {cause : String} (hbrought : e.brought = [])
      (hhistory : e.after.recorder.history? = e.before.recorder.history?)
      (hbaseline : e.after.recorder.baseline? task = e.before.recorder.baseline? task) :
      RoundLeaves config task e (.error cause)
  | read {total count : Nat} {now : Moment} (hcounts : e.counts task = [count])
      (hbrought : e.brought = [⟨.client count config.maxClientErrors, now⟩])
      (hhistory : e.after.recorder.history? = e.before.recorder.history?.map
        (·.record ⟨.client count config.maxClientErrors, now⟩ now config.retention))
      (hbaseline : e.after.recorder.baseline? task = some total) :
      RoundLeaves config task e (.ok total)

theorem roundLeaves_of_move (hconfig : w.recorder.config = config) (hmove : w.move? m = some w')
    {round : Except String Nat} (hround : round ∈ (⟨w, m, w'⟩ : Step).rounds task) :
    RoundLeaves config task ⟨w, m, w'⟩ round := by
  cases m with
  | start | stop | resume | giveUp | record | emit => simp [Step.rounds] at hround
  | turn turning now clientTotal =>
      obtain ⟨rfl, hturning⟩ : turning = task ∧
          w.recorder.round? turning now clientTotal = some round := by
        by_cases hother : turning = task
        · simpa [Step.rounds, hother] using hround
        · simp [Step.rounds, hother] at hround
      obtain ⟨⟨recorder, signals⟩, hturn, rfl⟩ := Option.map_eq_some_iff.mp hmove
      obtain ⟨hhistory, -, -⟩ := history?_of_turn hturn
      obtain ⟨sampler, hfound, -, ⟨hnone, -, -⟩ | ⟨sampler', hgoes, hclient⟩⟩ :=
        clientTurn_of_turn hturn
      · simp [hturning] at hnone
      have hfound' : recorder.sampler? turning = some sampler' := by
        rw [hgoes, Function.update_self]
      generalize htaken : w.recorder.taken turning now clientTotal = samples at hclient hhistory
      rw [hturning] at hclient
      cases hclient with
      | failed hsame =>
          refine .failed htaken ?_ ?_
          · exact hhistory.trans (SamplingTask.map_recordAll_nil _ _ _)
          · simp [baseline?, hfound, hfound', hsame]
      | read hread =>
          subst hconfig
          refine .read ?_ htaken hhistory ?_
          · simp [Step.counts, Step.brought, htaken, errorsOf?]
          · simp [baseline?, hfound', hread]

/-- The samples of a window count the client errors from round to round.  There is one for each
round that succeeds, the first counts none, and each of the others what the total has risen by.
If the total does not fall, the counts add up to its whole rise.  A round that fails leaves the
history and the baseline as they were. -/
theorem errors_counted_once (h : Execution (fresh config bus) (earlier ++ e :: later) w)
    (hstarts : e.Starts) : ∃ task, e.after.recorder.registered? = some task ∧
      CountsRises (later.flatMap (·.totals task)) (later.flatMap (·.counts task)) ∧
      ∀ e' ∈ later, ∀ round ∈ e'.rounds task, RoundLeaves config task e' round := by
  obtain ⟨hbefore, hmove⟩ := h.of_append_cons
  have hstart : e.before.move? .start = some e.after := hstarts.1 ▸ hmove
  have hregistered := (counted_of_start (manned_of_execution hbefore) hstart ⟨rfl, hstarts.2⟩).2
  have hcounted := counted_of_execution h hstarts
  refine ⟨_, hregistered, ?_, fun e' hmem round hround => ?_⟩
  · rw [hcounted.counts_eq]
    exact countsRises_increases _
  · obtain ⟨before, after, rfl⟩ := List.append_of_mem hmem
    rw [← List.cons_append, ← List.append_assoc] at h
    obtain ⟨hbefore', hmove'⟩ := h.of_append_cons
    exact roundLeaves_of_move (logged_of_execution hbefore').config_eq hmove' hround

/-- The round in the middle fails, and the last one counts the five errors since the first. -/
theorem errors_counted_once_of_failure : ∃ e later w,
    Execution (fresh {} (.ofCapacity 1)) (e :: later) w ∧ e.Starts ∧
      later.flatMap (·.rounds 0) = [.ok 3, .error "gone", .ok 8] ∧
      later.flatMap (·.counts 0) = [0, 5] ∧
      CountsRises [3, 8] (later.flatMap (·.counts 0)) := by
  let turns (millis : Nat) (total : Except String Nat) : List Move :=
    [.turn 0 (.ofMillis millis) total, .turn 0 (.ofMillis millis) total]
  obtain ⟨e, later, w, hplay, hstart, hstarted, hregistered, hrounds, hcounts⟩ :
      ∃ e later w, (fresh {} (.ofCapacity 1)).play
          (.start :: turns 0 (.ok 3) ++ turns 1000 (.error "gone") ++ turns 2000 (.ok 8)) [] =
            some ([] ++ e :: later, w) ∧
        e.move = .start ∧ (∃ started, e.before.recorder.start = .ok started) ∧
        e.after.recorder.registered? = some 0 ∧
        later.flatMap (·.rounds 0) = [.ok 3, .error "gone", .ok 8] ∧
        later.flatMap (·.counts 0) = [0, 5] :=
    ⟨_, _, _, rfl, rfl, ⟨_, rfl⟩, rfl, rfl, rfl⟩
  have h : Execution (fresh {} (.ofCapacity 1)) ([] ++ e :: later) w :=
    execution_of_play .start hplay
  obtain ⟨task, htask, hrises, -⟩ := errors_counted_once h ⟨hstart, hstarted⟩
  obtain rfl : 0 = task := Option.some.inj (hregistered.symm.trans htask)
  have htotals : later.flatMap (·.totals 0) = [3, 8] := by
    have hsuccesses : later.flatMap (·.totals 0) =
        (later.flatMap (·.rounds 0)).filterMap Except.toOption := by
      rw [List.filterMap_flatMap]
      rfl
    rw [hsuccesses, hrounds]
    rfl
  rw [htotals] at hrises
  exact ⟨e, later, w, h, ⟨hstart, hstarted⟩, hrounds, hcounts, hrises⟩

end Shared

end Recorder

end ElasticPool
