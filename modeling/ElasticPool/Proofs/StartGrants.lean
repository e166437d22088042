import ElasticPool.Proofs.StartWaits

namespace ElasticPool

open Binary64 Scalar

namespace Bucket

variable {b : Bucket Float} {now : Moment} {moments : List Moment} {s t : Rat}

theorem le_last_refill (b : Bucket Float) (now : Moment) :
    b.last ≤ (b.refill now).last ∧ now ≤ (b.refill now).last := by
  rcases le_total b.last.nanos now.nanos with hseen | hearlier
  · rw [last_refill hseen]
    exact ⟨hseen, Int.le_refl _⟩
  · rw [refill_eq_self hearlier]
    exact ⟨Int.le_refl _, hearlier⟩

inductive Taken (b : Bucket Float) (s t : Rat) (now : Moment) :
    Except Span Unit × Bucket Float → Prop
  | granted {left : Bucket Float} (hleft : left.Holds s 0) (hlast : b.last ≤ left.last)
      (hnow : now ≤ left.last) (hlater : t < 1 → b.last < now) :
      Taken b s t now (.ok (), left)
  | refused {left : Bucket Float} {rest : Rat} {wait : Span} (hleft : left.Holds s rest)
      (hfew : rest < 1) (hlast : b.last ≤ left.last) (hwait : wait = left.wait) :
      Taken b s t now (.error wait, left)

theorem Holds.taken (h : b.Holds s t) (now : Moment) : Taken b s t now (b.take now) := by
  obtain ⟨rest, hrest⟩ := h.refill now
  obtain ⟨hlast, hnow⟩ := b.le_last_refill now
  rcases htake : b.take now with ⟨⟨wait⟩ | ⟨⟩, left⟩
  · obtain ⟨rfl, hwait, hfew⟩ := take_refused htake
    exact .refused hrest (hrest.lt_one hfew) hlast hwait
  · obtain ⟨hfull, rfl⟩ := take_ok htake
    refine .granted (hrest.emptied hfull) hlast hnow fun hlacking => ?_
    by_contra hearlier
    rw [refill_eq_self (Int.not_lt.mp hearlier)] at hfull
    exact absurd ((le_iff toRat?_one h.tokens).mp (of_decide_eq_true hfull)) (not_le.mpr hlacking)

/-- A bucket that has granted starts at the given moments and holds `t`. -/
structure Issued (b : Bucket Float) (s t : Rat) (moments : List Moment) : Prop where
  holds : b.Holds s t
  lacking : ∀ m ∈ moments, t < 1
  seen : ∀ m ∈ moments, m ≤ b.last
  increasing : moments.Pairwise (· < ·)

theorem issued_full {rate : Float} (hrate : AcceptedRate rate) (opened : Moment) :
    ∃ s, (Bucket.full rate opened).Issued s 1 [] := by
  obtain ⟨s, hfull⟩ := holds_full hrate opened
  exact ⟨s, hfull, by simp, by simp, .nil⟩

/-- A bucket that has granted a start before grants the next one at a moment later than any it
has seen. -/
theorem Issued.take (h : b.Issued s t moments) (now : Moment) :
    ∃ t', (b.take now).2.Issued s t' (moments ++ if (b.take now).1.isOk then [now] else []) := by
  have htaken := h.holds.taken now
  generalize b.take now = taken at htaken
  cases htaken with
  | @granted left hleft hlast hnow hlater =>
      refine ⟨0, hleft, fun _ _ => zero_lt_one, ?_, ?_⟩
      · show ∀ m ∈ moments ++ [now], m ≤ left.last
        rw [List.forall_mem_append, List.forall_mem_singleton]
        exact ⟨fun m hmem => Int.le_trans (h.seen m hmem) hlast, hnow⟩
      · refine List.pairwise_append.mpr ⟨h.increasing, List.pairwise_singleton _ _, ?_⟩
        intro m hmem m' hnow
        obtain rfl := List.mem_singleton.mp hnow
        exact Int.lt_of_le_of_lt (h.seen m hmem) (hlater (h.lacking m hmem))
  | @refused left rest wait hleft hfew hlast =>
      have hsame : moments ++ (if (Except.error wait : Except Span Unit).isOk
          then [now] else []) = moments := List.append_nil _
      rw [hsame]
      exact ⟨rest, hleft, fun _ _ => hfew, fun m hmem => Int.le_trans (h.seen m hmem) hlast,
        h.increasing⟩

end Bucket

namespace Budget

variable {α : Type} [Scalar α] {b : Bucket Float} {calls moments : List Moment} {now : Moment}
  {s t : Rat}

def grantMoments (b : Budget α) (calls : List Moment) : List Moment :=
  ((calls.zip (b.answers calls)).filter (·.2.isOk)).map (·.1)

theorem grantMoments_cons (b : Budget α) (now : Moment) (calls : List Moment) :
    b.grantMoments (now :: calls) =
      (if (b.take now).1.isOk then [now] else []) ++ (b.take now).2.grantMoments calls := by
  have hanswers : b.answers (now :: calls) = (b.take now).1 :: (b.take now).2.answers calls := rfl
  rw [grantMoments, hanswers, List.zip_cons_cons, List.filter_cons]
  split <;> rfl

theorem issued_after (h : b.Issued s t moments) (calls : List Moment) :
    ∃ left t', after (some b) calls = some left ∧
      left.Issued s t' (moments ++ grantMoments (some b) calls) := by
  induction calls generalizing b t moments with
  | nil => exact ⟨b, t, rfl, by rwa [grantMoments, List.zip_nil_left, List.filter_nil,
      List.map_nil, List.append_nil]⟩
  | cons now calls ih =>
      obtain ⟨t', h'⟩ := h.take now
      obtain ⟨left, rest, hafter, hissued⟩ := ih h'
      rw [List.append_assoc] at hissued
      rw [grantMoments_cons]
      exact ⟨left, rest, hafter, hissued⟩

/-- A call that is granted leaves an empty bucket.  One that is refused leaves a bucket that lacks
a part of a start, and it waits for an hour at most.  Where the time in which the bucket fills is
no span, it waits for the whole hour. -/
inductive Answered : Except Span Unit × Budget Float → Prop
  | granted {left : Bucket Float} (hempty : toRat? left.tokens = some 0) :
      Answered (.ok (), some left)
  | refused {left : Bucket Float} {t : Rat} {wait : Span} (htokens : toRat? left.tokens = some t)
      (hnonneg : 0 ≤ t) (hfew : t < 1) (hshort : wait ≤ .ofSeconds 3600)
      (hguard : toSpan? ((1 - left.tokens) / left.perSecond) = none → wait = .ofSeconds 3600) :
      Answered (.error wait, some left)

theorem answered_take (h : b.Holds s t) (now : Moment) : Answered (take (some b) now) := by
  have htaken := h.taken now
  unfold take
  dsimp only
  generalize b.take now = taken at htaken
  cases htaken with
  | granted hleft => exact .granted hleft.tokens
  | @refused left _ _ hleft hfew _ hwait =>
      rw [hwait]
      refine .refused hleft.tokens hleft.tokens_nonneg hfew left.wait_le_longestWait ?_
      intro hnone
      unfold Bucket.wait
      rw [hnone]
      rfl

/-- For every accepted rate, and whatever the order of the calls, the bucket holds a number
between nothing and one start, and the next call is answered from it.  The moments of the calls
that are granted are strictly increasing. -/
theorem answered_of_accepted {rate : Float} (hrate : AcceptedRate rate) (opened : Moment)
    (calls : List Moment) :
    (∃ left t, (full (some rate) opened : Budget Float).after calls = some left ∧
      toRat? left.tokens = some t ∧ 0 ≤ t ∧ t ≤ 1) ∧
    (∀ now, Answered (((full (some rate) opened).after calls).take now)) ∧
    ((full (some rate) opened : Budget Float).grantMoments calls).Pairwise (· < ·) := by
  obtain ⟨s, hfull⟩ := Bucket.issued_full hrate opened
  obtain ⟨left, t, hafter, hissued⟩ := issued_after hfull calls
  have hholds := hissued.holds
  have hstart : (full (some rate) opened : Budget Float) = some (Bucket.full rate opened) := rfl
  rw [hstart, hafter]
  exact ⟨⟨left, t, rfl, hholds.tokens, hholds.tokens_nonneg, hholds.tokens_le_one⟩,
    answered_take hholds, hissued.increasing⟩

/-- The least rate fills no bucket.  At the largest one, a bucket is full again a nanosecond after
it was seen last, and not before. -/
theorem answered_of_accepted_of_extremes :
    (AcceptedRate 5e-324 ∧ (full (some 5e-324) ⟨0⟩ : Budget Float).answers
      [⟨7⟩, ⟨5⟩, ⟨86400000000000⟩] =
        [.ok (), .error (.ofSeconds 3600), .error (.ofSeconds 3600)]) ∧
    ∃ calls : List Moment, AcceptedRate 1.7976931348623157e308 ∧
      calls = [⟨86400000000000⟩, ⟨86400000000000⟩, ⟨3⟩, ⟨86400000000001⟩] ∧
      (full (some 1.7976931348623157e308) ⟨0⟩ : Budget Float).grantMoments calls =
        [⟨86400000000000⟩, ⟨86400000000001⟩] ∧
      ∃ left t, (full (some 1.7976931348623157e308) ⟨0⟩ : Budget Float).after calls = some left ∧
        toRat? left.tokens = some t ∧ 0 ≤ t ∧ t ≤ 1 := by
  have hlargest : AcceptedRate 1.7976931348623157e308 := by decide +kernel
  refine ⟨by decide +kernel, _, hlargest, rfl, by decide +kernel, ?_⟩
  exact (answered_of_accepted hlargest ⟨0⟩ _).1

end Budget

/-- The bucket of a live run holds a number between nothing and one start. -/
theorem Pool.bucket_of_execution {settings : Settings} {c : ScalingConfig} {p : Pool Float}
    {steps : List (Step Float)} (h : Execution (fresh settings c) steps p) {i : Nat}
    {run : Run Float} (hactive : p.active? i = some run) {rate : Float}
    (hrate : settings.tasksPerMinute = some rate) :
    ∃ b t, run.budget = some b ∧ toRat? b.tokens = some t ∧ 0 ≤ t ∧ t ≤ 1 := by
  obtain ⟨opened, calls, hbudget, -⟩ := (remembers_of_execution h hactive).budget_eq
  obtain ⟨s, hfull⟩ := Bucket.issued_full (settings.accepted_rate rate hrate) opened
  obtain ⟨left, t, hafter, hissued⟩ := Budget.issued_after hfull calls
  rw [hrate] at hbudget
  have hholds := hissued.holds
  exact ⟨left, t, hbudget.trans hafter, hholds.tokens, hholds.tokens_nonneg, hholds.tokens_le_one⟩

end ElasticPool
