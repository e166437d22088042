import ElasticPool.Proofs.StartDiscipline
import ElasticPool.Proofs.Binary64.Arithmetic
/-!
A bucket holds at most one start and is empty after it has granted one.  It then fills from
the moment of the grant on, in as many steps as it is asked, and no time is counted twice.
So two starts of a run are never closer than the time in which the bucket fills, and a
stretch of time holds at most one start more than the rate allows for its length.
-/

namespace ElasticPool

open Journal Scalar

def elapsed (earlier later : Moment) : Rat :=
  ((later.nanos - earlier.nanos : Int) : Rat) / 1000000000

theorem elapsed_add (a b c : Moment) : elapsed a b + elapsed b c = elapsed a c := by
  unfold elapsed
  push_cast
  ring

theorem elapsed_nonneg {earlier later : Moment} (hle : earlier ≤ later) :
    0 ≤ elapsed earlier later := by
  have h : 0 ≤ later.nanos - earlier.nanos := sub_nonneg.mpr hle
  unfold elapsed
  positivity

theorem elapsed_pos_iff {earlier later : Moment} :
    0 < elapsed earlier later ↔ earlier < later := by
  unfold elapsed
  rw [div_pos_iff_of_pos_right (by norm_num), Int.cast_pos, sub_pos]
  rfl

theorem nanos_since_div {earlier later : Moment} (hle : earlier ≤ later) :
    ((later.since earlier).nanos : Rat) / 1000000000 = elapsed earlier later := by
  have hnanos : ((later.since earlier).nanos : Int) = later.nanos - earlier.nanos :=
    Int.toNat_of_nonneg (sub_nonneg.mpr hle)
  rw [elapsed, ← hnanos]
  rfl

/-- No two of the moments are closer than the time that a bucket takes to fill. -/
def Spaced (perSecond : Rat) (moments : List Moment) : Prop :=
  moments.Pairwise fun m m' => 1 ≤ perSecond * elapsed m m'

theorem Spaced.length_le {perSecond : Rat} {m later : Moment} {moments : List Moment}
    (hrate : 0 ≤ perSecond) (h : Spaced perSecond (m :: moments))
    (hlater : ∀ m' ∈ m :: moments, m' ≤ later) :
    (moments.length : Rat) ≤ perSecond * elapsed m later := by
  induction moments generalizing m with
  | nil =>
      have hspan := elapsed_nonneg (hlater m (by simp))
      simp only [List.length_nil, Nat.cast_zero]
      positivity
  | cons next moments ih =>
      have hrest := ih h.of_cons fun m' hmem => hlater m' (by simp [List.mem_cons.mp hmem])
      have hgap : 1 ≤ perSecond * elapsed m next := List.rel_of_pairwise_cons h (by simp)
      calc ((next :: moments).length : Rat) = moments.length + 1 := by simp
        _ ≤ perSecond * elapsed next later + perSecond * elapsed m next := add_le_add hrest hgap
        _ = perSecond * elapsed m later := by rw [← mul_add, add_comm, elapsed_add]

/-- A stretch of time holds one start, and as many more as its length allows. -/
theorem Spaced.countP_le {perSecond : Rat} {moments : List Moment} (hrate : 0 ≤ perSecond)
    (h : Spaced perSecond moments) {earlier later : Moment} (hle : earlier ≤ later) :
    (moments.countP (fun m => earlier ≤ m ∧ m ≤ later) : Rat) ≤
      1 + perSecond * elapsed earlier later := by
  rw [List.countP_eq_length_filter]
  have hspaced : Spaced perSecond (moments.filter fun m => earlier ≤ m ∧ m ≤ later) :=
    List.Pairwise.filter _ h
  have hwithin (m : Moment) (hmem : m ∈ moments.filter fun m => earlier ≤ m ∧ m ≤ later) :
      earlier ≤ m ∧ m ≤ later := by simpa using (List.mem_filter.mp hmem).2
  cases hfilter : moments.filter fun m => earlier ≤ m ∧ m ≤ later with
  | nil =>
      have hspan := elapsed_nonneg hle
      simp only [List.length_nil, Nat.cast_zero]
      positivity
  | cons m rest =>
      rw [hfilter] at hspaced hwithin
      -- The first start of the stretch comes free, and the others are spaced after it.
      have hrest := hspaced.length_le hrate fun m' hmem => (hwithin m' hmem).2
      have hfirst : elapsed m later ≤ elapsed earlier later := by
        rw [← elapsed_add earlier m later]
        have := elapsed_nonneg (hwithin m (by simp)).1
        linarith
      calc ((m :: rest).length : Rat) = 1 + rest.length := by
            rw [List.length_cons, Nat.cast_succ, add_comm]
        _ ≤ 1 + perSecond * elapsed m later := by gcongr
        _ ≤ 1 + perSecond * elapsed earlier later := by gcongr

namespace Bucket

variable {b : Bucket Rat} {now : Moment} {moments : List Moment}

theorem refill_of_le (hle : now ≤ b.last) : b.refill now = b := by
  have hspan : (ofSpan (now.since b.last) : Rat) = 0 := by
    show (((now.since b.last).nanos : Nat) : Rat) / 1000000000 = 0
    rw [Moment.since_eq_zero_iff.mpr hle]
    simp
  unfold refill
  rw [hspan]
  rfl

theorem refill_of_lt (hlt : b.last < now) : b.refill now =
    { b with tokens := min (b.tokens + elapsed b.last now * b.perSecond) 1, last := now } := by
  have hspan : (ofSpan (now.since b.last) : Rat) = elapsed b.last now :=
    nanos_since_div (Moment.lt_def.mp hlt).le
  have hmore : atMost (elapsed b.last now) 0 = false := by
    have hpos := elapsed_pos_iff.mpr hlt
    exact decide_eq_false (not_le.mpr hpos)
  have hcap (tokens : Rat) : (if atMost tokens 1 then tokens else 1) = min tokens 1 := by
    rw [min_def]
    exact if_congr decide_eq_true_iff rfl rfl
  unfold refill
  simp only [hspan, hmore, hcap]
  rfl

/-- A bucket that has granted starts at the given moments. -/
structure Granted (b : Bucket Rat) (moments : List Moment) : Prop where
  tokens_le_one : b.tokens ≤ 1
  lacking : ∀ m ∈ moments, b.tokens < 1
  /-- What the bucket holds has come in since the latest grant. -/
  refilled : ∀ m ∈ moments, b.tokens ≤ b.perSecond * elapsed m b.last
  spaced : Spaced b.perSecond moments

theorem granted_full (perMinute : Float) (now : Moment) :
    (Bucket.full perMinute now : Bucket Rat).Granted [] :=
  ⟨le_rfl, by simp, by simp, .nil⟩

/-- Asking the bucket brings in the time since it was asked last.  Then it holds a start
only if each earlier one is as long ago as it takes to fill. -/
theorem Granted.refill (h : b.Granted moments) (now : Moment) :
    (b.refill now).perSecond = b.perSecond ∧ (b.refill now).tokens ≤ 1 ∧
      (∀ m ∈ moments, (b.refill now).tokens ≤ b.perSecond * elapsed m (b.refill now).last) ∧
      (1 ≤ (b.refill now).tokens → now ≤ (b.refill now).last ∧
        ∀ m ∈ moments, 1 ≤ b.perSecond * elapsed m now) := by
  rcases le_or_gt now.nanos b.last.nanos with hle | hlt
  · rw [refill_of_le hle]
    refine ⟨rfl, h.tokens_le_one, h.refilled, fun hfull => ⟨hle, fun m hmem => ?_⟩⟩
    exact absurd hfull (not_le.mpr (h.lacking m hmem))
  · rw [refill_of_lt hlt]
    have hrefilled (m : Moment) (hmem : m ∈ moments) :
        min (b.tokens + elapsed b.last now * b.perSecond) 1 ≤ b.perSecond * elapsed m now :=
      calc min (b.tokens + elapsed b.last now * b.perSecond) 1
          ≤ b.tokens + elapsed b.last now * b.perSecond := min_le_left _ _
        _ ≤ b.perSecond * elapsed m b.last + elapsed b.last now * b.perSecond := by
            gcongr
            exact h.refilled m hmem
        _ = b.perSecond * elapsed m now := by
            rw [mul_comm (elapsed b.last now), ← mul_add, elapsed_add]
    refine ⟨rfl, min_le_right _ _, hrefilled, fun hfull => ⟨Int.le_refl _, fun m hmem => ?_⟩⟩
    exact hfull.trans (hrefilled m hmem)

theorem take_eq (b : Bucket Rat) (now : Moment) : b.take now =
    if 1 ≤ (b.refill now).tokens then
      (.ok (), { b.refill now with tokens := (b.refill now).tokens - 1 })
    else (.error (b.refill now).wait, b.refill now) :=
  if_congr decide_eq_true_iff rfl rfl

theorem Granted.take (h : b.Granted moments) (hrate : 0 ≤ b.perSecond) (now : Moment) :
    (b.take now).2.perSecond = b.perSecond ∧
      (b.take now).2.Granted (moments ++ if (b.take now).1.isOk then [now] else []) := by
  obtain ⟨hsame, hcap, hrefilled, hspaced⟩ := h.refill now
  rw [take_eq]
  rw [← hsame] at hrefilled
  by_cases hfull : 1 ≤ (b.refill now).tokens
  · rw [if_pos hfull]
    obtain ⟨hlast, hgaps⟩ := hspaced hfull
    have hempty : (b.refill now).tokens - 1 = 0 := sub_eq_zero.mpr (le_antisymm hcap hfull)
    have hgrant : moments ++ (if (Except.ok () : Except Span Unit).isOk then [now] else []) =
        moments ++ [now] := rfl
    rw [hgrant, hempty]
    refine ⟨hsame, zero_le_one, fun _ _ => zero_lt_one, fun m hmem => ?_, ?_⟩
    · rcases List.mem_append.mp hmem with hearlier | hnow
      · exact (zero_le_one.trans hfull).trans (hrefilled m hearlier)
      · obtain rfl := List.mem_singleton.mp hnow
        exact mul_nonneg (hrate.trans_eq hsame.symm) (elapsed_nonneg hlast)
    · rw [hsame]
      refine List.pairwise_append.mpr ⟨h.spaced, List.pairwise_singleton _ _, ?_⟩
      intro m hmem m' hnow
      obtain rfl := List.mem_singleton.mp hnow
      exact hgaps m hmem
  · rw [if_neg hfull]
    have hsame' : moments ++ (if (Except.error (b.refill now).wait : Except Span Unit).isOk
        then [now] else []) = moments := List.append_nil _
    rw [hsame']
    refine ⟨hsame, hcap, fun _ _ => not_le.mp hfull, hrefilled, ?_⟩
    rw [hsame]
    exact h.spaced

end Bucket

namespace Pool

def Move.now? : Move → Option Moment
  | turn _ now _ _ => some now
  | call | abort | drop _ => none

def Step.startMoments {α : Type} (e : Step α) (i : Nat) : List Moment :=
  (starts (e.entries i)).filterMap fun _ => e.move.now?

def startMoments {α : Type} (i : Nat) (steps : List (Step α)) : List Moment :=
  steps.flatMap (·.startMoments i)

section

variable {s : Settings} {c : ScalingConfig} {p : Pool Rat} {steps : List (Step Rat)} {i : Nat}

theorem rate_of_accepted {rate : Float} (h : AcceptedRate rate) :
    ∃ r, Binary64.toRat? rate = some r ∧ 0 < r := by
  obtain ⟨r, hr⟩ := Option.isSome_iff_exists.mp ((Binary64.isFinite_iff rate).mp h.1)
  exact ⟨r, hr, (Binary64.lt_iff Binary64.toRat?_zero hr).mp h.2⟩

theorem startMoments_concat (i : Nat) (steps : List (Step Rat)) (e : Step Rat) :
    startMoments i (steps ++ [e]) = startMoments i steps ++ e.startMoments i := by
  simp [startMoments]

theorem opening_of_inactive {q : Pool Rat} {m : Move} {effects : List Effect} {run : Run Rat}
    (hpart : Part p i m effects q) (hbefore : p.active? i = none)
    (hafter : q.active? i = some run) :
    p.calls[i]? = some .waiting ∧ ∃ now, run = p.opening now := by
  have hcontinues := continues_of_part hpart hafter
  generalize (⟨p, m, effects, q⟩ : Step Rat).entries i = entries at hcontinues
  generalize q.current = current, q.desired = desired at hcontinues
  cases hcontinues with
  | begun hcall => exact ⟨hcall, _, rfl⟩
  | kept hactive | moved hactive _ _ _ _ | cancelled hactive => simp [hbefore] at hactive

/-- The starts of a call are the grants of its bucket. -/
structure Paced (perSecond : Rat) (p : Pool Rat) (i : Nat) (moments : List Moment) : Prop where
  spaced : Spaced perSecond moments
  granted : ∀ run, p.active? i = some run → ∃ b : Bucket Rat, run.budget = some b ∧
    b.perSecond = perSecond ∧ b.Granted moments

section

variable {q : Pool Rat} {m : Move} {effects : List Effect} {perSecond : Rat}
  {moments : List Moment}

/-- What the bucket grants in a step is started at the moment of the step. -/
theorem Paced.of_acquires (h : Paced perSecond p i moments) (hpositive : 0 ≤ perSecond)
    (hlife : p.Lifecycle) (hmove : p.move? m = some (q, effects)) {run : Run Rat} {now : Moment}
    (hacquires : (⟨p, m, effects, q⟩ : Step Rat).Acquires i run now) :
    Paced perSecond q i (moments ++ (⟨p, m, effects, q⟩ : Step Rat).startMoments i) := by
  obtain ⟨run', hafter, hbudget, hstarts⟩ := starts_of_acquires hlife hmove hacquires
  obtain ⟨b, hb, rfl, hgranted⟩ := h.granted run hacquires.active?_eq
  obtain ⟨sampling, hturn⟩ := hacquires.move_eq
  obtain ⟨hsame, hgranted'⟩ := hgranted.take hpositive now
  rw [hb] at hbudget hstarts
  have hmoments : (⟨p, m, effects, q⟩ : Step Rat).startMoments i =
      if (b.take now).1.isOk then [now] else [] := by
    have hanswer : (Budget.take (some b) now).1 = (b.take now).1 := rfl
    rw [Step.startMoments, hstarts, hturn, hanswer]
    split <;> rfl
  rw [hmoments]
  refine ⟨hsame ▸ hgranted'.spaced, fun run'' hactive => ?_⟩
  obtain rfl := Option.some.inj (hafter.symm.trans hactive)
  exact ⟨_, hbudget, hsame, hgranted'⟩

theorem Paced.of_not_acquires (h : Paced perSecond p i moments) (hpart : Part p i m effects q)
    (hnever : ∀ run now, ¬(⟨p, m, effects, q⟩ : Step Rat).Acquires i run now)
    (hopening : ∀ now, p.calls[i]? = some .waiting → ∃ b : Bucket Rat,
      (p.opening now).budget = some b ∧ b.perSecond = perSecond ∧ b.Granted moments) :
    Paced perSecond q i (moments ++ (⟨p, m, effects, q⟩ : Step Rat).startMoments i) := by
  have hnone : starts ((⟨p, m, effects, q⟩ : Step Rat).entries i) = [] := by
    rw [List.eq_nil_iff_forall_not_mem]
    intro k hmem
    obtain ⟨run, now, -, hacquires, -⟩ := acquires_of_started hpart (mem_starts.mp hmem)
    exact hnever run now hacquires
  rw [Step.startMoments, hnone, List.filterMap_nil, List.append_nil]
  refine ⟨h.spaced, fun run' hafter => ?_⟩
  rcases hearlier : p.active? i with _ | run
  · obtain ⟨hcall, now, rfl⟩ := opening_of_inactive hpart hearlier hafter
    exact hopening now hcall
  · obtain ⟨b, hb, hsame, hgranted⟩ := h.granted run hearlier
    have hbudget := budget_eq_of_not_acquires hpart hearlier hafter (hnever run)
    exact ⟨b, hbudget.trans hb, hsame, hgranted⟩

theorem Step.length_startMoments (hpart : Part p i m effects q) :
    ((⟨p, m, effects, q⟩ : Step Rat).startMoments i).length =
      (starts ((⟨p, m, effects, q⟩ : Step Rat).entries i)).length := by
  rw [Step.startMoments]
  rcases hstarts : starts ((⟨p, m, effects, q⟩ : Step Rat).entries i) with _ | ⟨k, rest⟩
  · rfl
  · have hstarted : k ∈ starts ((⟨p, m, effects, q⟩ : Step Rat).entries i) := by simp [hstarts]
    obtain ⟨run, now, -, hacquires, -⟩ := acquires_of_started hpart (mem_starts.mp hstarted)
    obtain ⟨sampling, rfl⟩ := hacquires.move_eq
    simp [Move.now?]

end

theorem length_startMoments (h : Execution (fresh s c) steps p) (i : Nat) :
    (startMoments i steps).length = (starts (journal i steps)).length := by
  induction h with
  | start => rfl
  | next hbefore hmove ih =>
      rw [startMoments_concat, journal_append, journal_singleton, starts_append,
        List.length_append, List.length_append, ih,
        Step.length_startMoments (part_of_execution hbefore hmove i)]

theorem paced_of_execution (h : Execution (fresh s c) steps p) {rate : Float}
    (hrate : s.tasksPerMinute = some rate) (hpositive : (0 : Rat) ≤ ofRate rate / sixty)
    (i : Nat) : Paced (ofRate rate / sixty) p i (startMoments i steps) := by
  induction h with
  | start => exact ⟨.nil, by simp [active?, fresh]⟩
  | @next steps before after m effects hbefore hmove ih =>
      have hlife := lifecycle_of_execution hbefore
      have hpart := part_of_execution hbefore hmove i
      rw [startMoments_concat]
      rcases Classical.em (∃ run now, (⟨before, m, effects, after⟩ : Step Rat).Acquires i run now)
        with ⟨run, now, hacquires⟩ | hnever
      · exact ih.of_acquires hpositive hlife hmove hacquires
      · apply ih.of_not_acquires hpart
        · exact fun run now hacquires => hnever ⟨run, now, hacquires⟩
        · intro now hcall
          have hempty : startMoments i steps = [] := by
            rw [← List.length_eq_zero_iff, length_startMoments hbefore,
              journal_of_unbegun hbefore (.inr hcall)]
            rfl
          rw [hempty]
          refine ⟨.full rate now, ?_, rfl, Bucket.granted_full rate now⟩
          rw [opening, (settings_of_execution hbefore).1, Run.fresh, hrate]
          rfl

/-- For an accepted rate, counted in exact numbers, the starts of a run in a stretch of time
are at most one more than the rate allows for its length. -/
theorem starts_within_rate (h : Execution (fresh s c) steps p) {rate : Float}
    (hrate : s.tasksPerMinute = some rate) : ∃ r, Binary64.toRat? rate = some r ∧ 0 < r ∧
    ∀ i, (startMoments i steps).length = (starts (journal i steps)).length ∧
      ∀ earlier later, earlier ≤ later →
        ((startMoments i steps).countP fun m => earlier ≤ m ∧ m ≤ later : Rat) ≤
          1 + r * elapsed earlier later / 60 := by
  obtain ⟨r, hr, hpositive⟩ := rate_of_accepted (s.accepted_rate rate hrate)
  have hperSecond : (ofRate rate / sixty : Rat) = r / 60 := by
    show (Binary64.toRat? rate).getD 0 / 60 = r / 60
    rw [hr]
    rfl
  have hle : 0 ≤ r / 60 := by positivity
  refine ⟨r, hr, hpositive, fun i => ⟨length_startMoments h i, fun earlier later hwindow => ?_⟩⟩
  have hpaced := paced_of_execution h hrate (hle.trans_eq hperSecond.symm) i
  rw [hperSecond] at hpaced
  calc ((startMoments i steps).countP fun m => earlier ≤ m ∧ m ≤ later : Rat)
      ≤ 1 + r / 60 * elapsed earlier later := hpaced.spaced.countP_le hle hwindow
    _ = 1 + r * elapsed earlier later / 60 := by rw [div_mul_eq_mul_div]

/-- At one start per minute, a refused run starts its second invocation after a minute, and
then the minute holds as many starts as it may. -/
theorem starts_within_rate_of_paced : ∃ steps, ∃ p : Pool Rat,
    Execution (fresh .paced {}) steps p ∧
    startMoments 0 steps = [.ofMillis 0, .ofMillis 60000] ∧
    ∃ r, Binary64.toRat? 1 = some r ∧
      (2 : Rat) ≤ 1 + r * elapsed (.ofMillis 0) (.ofMillis 60000) / 60 := by
  let later (event : RunEvent) : Move := .turn 0 (.ofMillis 60000) true (some event)
  let moves : List Move := [.call, .enter, .answer false, .answer true, .answer true,
    later .waited, later (.answered false), later (.answered true)]
  have hmoments : ((fresh .paced {} : Pool Rat).play moves).map (fun x => startMoments 0 x.1) =
      some [.ofMillis 0, .ofMillis 60000] := by decide +kernel
  obtain ⟨⟨steps, p⟩, hplay, hstarts⟩ := Option.map_eq_some_iff.mp hmoments
  have h := execution_of_play hplay
  obtain ⟨r, hr, -, hbound⟩ := starts_within_rate h rfl
  have hcount := (hbound 0).2 (.ofMillis 0) (.ofMillis 60000) (by decide)
  rw [hstarts] at hcount
  exact ⟨steps, p, h, hstarts, r, hr, hcount⟩

end

end Pool

end ElasticPool
