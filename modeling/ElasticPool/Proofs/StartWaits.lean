import ElasticPool.Proofs.StartRate
import ElasticPool.Proofs.Binary64.Bounds

namespace ElasticPool

open Binary64 Scalar

theorem Span.atLeast_seconds (span : Span) :
    AtLeast ((span.nanos : Rat) / 1000000000 * (1 - 1 / 2 ^ 53) ^ 2) span.seconds := by
  set whole := span.nanos / 1000000000
  set rest := span.nanos % 1000000000
  have hwhole : (whole : Rat) * (1 - 1 / 2 ^ 53) ≤ nearest whole := by
    simpa using le_nearest_share (k := whole) (n := 1) (by norm_num)
  have hrest : (rest / 1000000000 : Rat) * (1 - 1 / 2 ^ 53) ≤ nearest (rest / 1000000000) :=
    le_nearest_share (n := 1000000000) (by norm_num)
  have hnanos : (span.nanos : Rat) / 1000000000 = whole + rest / 1000000000 := by
    rw [← Nat.div_add_mod span.nanos 1000000000]
    push_cast
    ring
  have hparts : (span.nanos : Rat) / 1000000000 * (1 - 1 / 2 ^ 53) ≤
      nearest whole + nearest (rest / 1000000000) := by
    rw [hnanos]
    linarith
  -- Whole seconds and the rest are rounded apart, and then their sum is.
  have hsum : (nearest whole + nearest (rest / 1000000000)) * (1 - 1 / 2 ^ 53) ≤
      nearest (nearest whole + nearest (rest / 1000000000)) := by
    apply le_nearest
    rcases span.nanos.eq_zero_or_pos with hzero | hpos
    · left
      have hwhole : whole = 0 := by omega
      have hrest : rest = 0 := by omega
      rw [hwhole, hrest, Nat.cast_zero, zero_div, nearest_zero, zero_add]
    · have hone : (1 : Rat) ≤ span.nanos := by exact_mod_cast hpos
      exact .inr (leastNormal_le_share.trans (by linarith))
  have hsmall : rest < 2 ^ 53 := (Nat.mod_lt _ (by norm_num)).trans (by norm_num)
  have hbillion : toRat? 1e9 = some 1000000000 := by decide +kernel
  have hfloat := (roundsTo_ofNat whole).atLeast.add
    (roundsTo_div (toRat?_ofNat hsmall) hbillion (Nat.cast_nonneg _) (by norm_num)).atLeast
    (nearest_nonneg (Nat.cast_nonneg _)) (nearest_nonneg (by positivity))
  apply hfloat.mono
  calc (span.nanos : Rat) / 1000000000 * (1 - 1 / 2 ^ 53) ^ 2
      = span.nanos / 1000000000 * (1 - 1 / 2 ^ 53) * (1 - 1 / 2 ^ 53) := by ring
    _ ≤ (nearest whole + nearest (rest / 1000000000)) * (1 - 1 / 2 ^ 53) := by gcongr
    _ ≤ nearest (nearest whole + nearest (rest / 1000000000)) := hsum

theorem Span.nanos_of_ofFloat? {x : Float} {span : Span} (h : Span.ofFloat? x = some span) :
    ∃ v, toRat? x = some v ∧ v * 1000000000 ≤ span.nanos + 1 / 2 := by
  obtain ⟨v, hv, hspan⟩ := Option.bind_eq_some_iff.mp h
  refine ⟨v, hv, ?_⟩
  have hround := le_roundHalfEven (v * 1000000000)
  have hword : (roundHalfEven (v * 1000000000) : Rat) ≤
      (roundHalfEven (v * 1000000000)).toNat := by
    exact_mod_cast Int.self_le_toNat _
  unfold ofRat? at hspan
  split at hspan
  · cases hspan
  · dsimp only at hspan
    split at hspan
    · obtain rfl := Option.some.inj hspan
      linarith
    · cases hspan

namespace Bucket

variable {b : Bucket Float} {now later : Moment} {s t : Rat}

/-- The bucket fills by `s` per second and holds `t`, which is one start at most. -/
structure Holds (b : Bucket Float) (s t : Rat) : Prop where
  perSecond : toRat? b.perSecond = some s
  tokens : toRat? b.tokens = some t
  perSecond_nonneg : 0 ≤ s
  tokens_nonneg : 0 ≤ t
  tokens_le_one : t ≤ 1

theorem holds_full {rate : Float} (hrate : AcceptedRate rate) (now : Moment) :
    ∃ s, (Bucket.full rate now : Bucket Float).Holds s 1 := by
  obtain ⟨r, hr, hpos⟩ := Pool.rate_of_accepted hrate
  have hsixty : toRat? 60 = some 60 := by decide +kernel
  have hfits : nearest (r / 60) < 2 ^ 1024 :=
    calc nearest (r / 60) ≤ nearest r :=
          nearest_le_nearest (by positivity) (div_le_self hpos.le (by norm_num))
      _ = r := nearest_eq_self hr hpos.le
      _ < 2 ^ 1024 := toRat?_lt hr
  exact ⟨nearest (r / 60), toRat?_div hr hsixty hpos.le (by norm_num) hfits, toRat?_one,
    nearest_nonneg (by positivity), zero_le_one, le_rfl⟩

theorem refill_eq_self (hle : now ≤ b.last) : b.refill now = b := by
  have hspan : now.since b.last = ⟨0⟩ := Span.ext (Moment.since_eq_zero_iff.mpr hle)
  have hnone : atMost (ofSpan ⟨0⟩ : Float) 0 = true := by decide +kernel
  unfold refill
  simp only [hspan, hnone, if_true]

theorem refill_eq_of_later (hlt : b.last < now) : b.refill now =
    { b with
      tokens :=
        if atMost (b.tokens + (now.since b.last).seconds * b.perSecond) 1
        then b.tokens + (now.since b.last).seconds * b.perSecond else 1
      last := now } := by
  have hmore : atMost (ofSpan (now.since b.last) : Float) 0 = false := by
    have hpos : 0 < (now.since b.last).nanos := by
      rw [Moment.lt_def] at hlt
      simp only [Moment.since]
      omega
    apply decide_eq_false
    apply (Span.atLeast_seconds _).not_le (by positivity) toRat?_zero
    positivity
  unfold refill
  simp only [hmore]
  rfl

theorem last_refill (hle : b.last ≤ now) : (b.refill now).last = now := by
  rcases le_or_gt now.nanos b.last.nanos with hge | hlt
  · rw [refill_eq_self hge]
    exact Moment.ext (le_antisymm hle hge)
  · rw [refill_eq_of_later hlt]

theorem Holds.refill (h : b.Holds s t) (now : Moment) : ∃ t', (b.refill now).Holds s t' := by
  rcases le_or_gt now.nanos b.last.nanos with hle | hlt
  · rw [refill_eq_self hle]
    exact ⟨t, h⟩
  · rw [refill_eq_of_later hlt]
    have hseconds := (Span.atLeast_seconds (now.since b.last)).mono (p := 0) (by positivity)
    have hunsigned := (hseconds.unsigned_mul h.perSecond h.perSecond_nonneg).add h.tokens
      h.tokens_nonneg
    split
    · rename_i hcap
      obtain ⟨t', ht', hpos, hle⟩ := hunsigned.toRat?_of_le (of_decide_eq_true hcap) toRat?_one
      exact ⟨t', h.perSecond, ht', h.perSecond_nonneg, hpos, hle⟩
    · exact ⟨1, h.perSecond, toRat?_one, h.perSecond_nonneg, zero_le_one, le_rfl⟩

theorem take_refused {wait : Span} {b' : Bucket Float} (h : b.take now = (.error wait, b')) :
    b' = b.refill now ∧ wait = b'.wait ∧ ¬atMost 1 b'.tokens := by
  unfold take at h
  dsimp only at h
  split at h
  · cases h
  · rename_i hfew
    obtain ⟨rfl, rfl⟩ : (b.refill now).wait = wait ∧ b.refill now = b' := by simpa using h
    exact ⟨rfl, rfl, hfew⟩

theorem take_ok {b' : Bucket Float} (h : b.take now = (.ok (), b')) :
    atMost 1 (b.refill now).tokens ∧
      b' = { b.refill now with tokens := (b.refill now).tokens - 1 } := by
  unfold take at h
  dsimp only at h
  split at h
  · rename_i hfull
    exact ⟨hfull, (Prod.mk.inj h).2.symm⟩
  · cases h

theorem Holds.lt_one (h : b.Holds s t) (hfew : ¬atMost 1 b.tokens) : t < 1 := by
  by_contra hge
  exact hfew (decide_eq_true ((le_iff toRat?_one h.tokens).mpr (not_lt.mp hge)))

/-- What holds a start holds exactly one, so that nothing is left of it. -/
theorem Holds.emptied (h : b.Holds s t) (hfull : atMost 1 b.tokens) :
    ({ b with tokens := b.tokens - 1 } : Bucket Float).Holds s 0 := by
  have hone : 1 ≤ t := (le_iff toRat?_one h.tokens).mp (of_decide_eq_true hfull)
  have hrounds := roundsTo_sub h.tokens toRat?_one zero_le_one hone
  rw [le_antisymm h.tokens_le_one hone, sub_self, RoundsTo, nearest_zero,
    if_pos (by positivity)] at hrounds
  exact ⟨h.perSecond, hrounds, h.perSecond_nonneg, le_rfl, zero_le_one⟩

theorem Holds.take (h : b.Holds s t) (now : Moment) : ∃ t', (b.take now).2.Holds s t' := by
  obtain ⟨t', h'⟩ := h.refill now
  unfold Bucket.take
  dsimp only
  split
  · rename_i hfull
    exact ⟨0, h'.emptied hfull⟩
  · exact ⟨t', h'⟩

theorem last_take_le (hle : b.last ≤ later) (hnow : now ≤ later) :
    (b.take now).2.last ≤ later := by
  have hlast : (b.refill now).last ≤ later := by
    rcases le_or_gt b.last.nanos now.nanos with hseen | hearlier
    · rwa [last_refill hseen]
    · rwa [refill_eq_self hearlier.le]
  unfold Bucket.take
  dsimp only
  split <;> exact hlast

theorem wait_eq_of_lt (hwait : b.wait < longestWait) :
    Span.ofFloat? ((1 - b.tokens) / b.perSecond) = some b.wait := by
  have hself : ¬longestWait < longestWait := Nat.lt_irrefl _
  unfold wait at hwait ⊢
  show Span.ofFloat? _ = _
  split
  · rename_i span hspan
    rw [hspan] at hwait
    dsimp only at hwait
    split at hwait
    · exact absurd hwait hself
    · rename_i hshort
      rw [if_neg hshort]
      exact hspan
  · rename_i hnone
    rw [hnone] at hwait
    exact absurd hwait hself

theorem Holds.missing (h : b.Holds s t) (hfew : t < 1) : 1 / 2 ^ 53 ≤ 1 - t := by
  have hapart := le_of_lt_one h.tokens hfew
  linarith

/-- A wait shorter than the longest one is the time in which the bucket fills, to the nearest
nanosecond. -/
theorem Holds.wait_covers (h : b.Holds s t) (hfew : t < 1) (hwait : b.wait < longestWait) :
    0 < s ∧ (1 - t) * (1 - 1 / 2 ^ 52) ≤
      s * ((b.wait.nanos + 1 / 2) / 1000000000 + 2 ^ (-1075 : Int)) := by
  have hmissing := h.missing hfew
  have hnormal : (2 : Rat) ^ (-1021 : Int) ≤ 1 - t :=
    leastNormal_le_share.trans (le_trans (by norm_num) hmissing)
  obtain ⟨v, hv, hnanos⟩ := Span.nanos_of_ofFloat? (wait_eq_of_lt hwait)
  set m := nearest (1 - t)
  -- Three roundings: of the difference, of the quotient, and of the wait to whole nanoseconds.
  have hdifference : toRat? (1 - b.tokens) = some m := by
    apply (roundsTo_sub toRat?_one h.tokens h.tokens_nonneg h.tokens_le_one).toRat?_eq
    calc m ≤ nearest 1 := nearest_le_nearest (by linarith) (by linarith [h.tokens_nonneg])
      _ = 1 := nearest_eq_self toRat?_one zero_le_one
      _ < 2 ^ 1024 := one_lt_pow₀ (by norm_num) (by norm_num)
  have hm : (1 - t) * (1 - 1 / 2 ^ 53) ≤ m := le_nearest (.inr hnormal)
  have hmpos : 0 < m := lt_of_lt_of_le (mul_pos (by linarith) (by norm_num)) hm
  have hs : 0 < s := by
    rcases h.perSecond_nonneg.lt_or_eq with hpos | rfl
    · exact hpos
    · rw [toRat?_div_zero hdifference h.perSecond] at hv
      cases hv
  have hquotient : v = nearest (m / s) :=
    (roundsTo_div hdifference h.perSecond hmpos.le hs).eq_nearest hv
  have hloss : m / s * (1 - 1 / 2 ^ 53) ≤ v + 2 ^ (-1075 : Int) :=
    hquotient ▸ le_nearest_add (div_pos hmpos hs)
  refine ⟨hs, ?_⟩
  calc (1 - t) * (1 - 1 / 2 ^ 52) ≤ (1 - t) * (1 - 1 / 2 ^ 53) * (1 - 1 / 2 ^ 53) := by
        rw [mul_assoc]
        gcongr
        norm_num
    _ ≤ m * (1 - 1 / 2 ^ 53) := by gcongr
    _ = s * (m / s * (1 - 1 / 2 ^ 53)) := by field_simp
    _ ≤ s * (v + 2 ^ (-1075 : Int)) := by gcongr
    _ ≤ s * ((b.wait.nanos + 1 / 2) / 1000000000 + 2 ^ (-1075 : Int)) := by
        gcongr
        rwa [le_div_iff₀ (by norm_num)]

theorem le_nearest_of_more {missing seconds : Rat} (hmissing : 1 / 2 ^ 53 ≤ missing)
    (hmore : missing * (1 + 1 / 2 ^ 50) ≤ s * seconds) :
    missing ≤ nearest (seconds * (1 - 1 / 2 ^ 53) ^ 2 * s) := by
  have hpos : 0 < missing := lt_of_lt_of_le (by norm_num) hmissing
  have henough : missing ≤ seconds * (1 - 1 / 2 ^ 53) ^ 2 * s * (1 - 1 / 2 ^ 53) :=
    calc missing ≤ missing * ((1 + 1 / 2 ^ 50) * (1 - 1 / 2 ^ 53) ^ 3) :=
          le_mul_of_one_le_right hpos.le (by norm_num)
      _ = missing * (1 + 1 / 2 ^ 50) * (1 - 1 / 2 ^ 53) ^ 3 := by ring
      _ ≤ s * seconds * (1 - 1 / 2 ^ 53) ^ 3 := by gcongr
      _ = seconds * (1 - 1 / 2 ^ 53) ^ 2 * s * (1 - 1 / 2 ^ 53) := by ring
  apply henough.trans (le_nearest (.inr (leastNormal_le_share.trans _)))
  linarith

theorem Holds.take_granted (h : b.Holds s t) (hfew : t < 1) (hlater : b.last < later)
    (hfull : (1 - t) * (1 + 1 / 2 ^ 50) ≤ s * elapsed b.last later) :
    (b.take later).1 = .ok () := by
  have hmissing := h.missing hfew
  have hspan := elapsed_pos_iff.mpr hlater
  have hs : 0 < s :=
    pos_of_mul_pos_left (lt_of_lt_of_le (mul_pos (by linarith) (by norm_num)) hfull) hspan.le
  have hseconds := Span.atLeast_seconds (later.since b.last)
  rw [nanos_since_div (Moment.lt_def.mp hlater).le] at hseconds
  have hproduct := le_nearest_of_more hmissing hfull
  have hsum := (atLeast_self h.tokens).add (hseconds.mul h.perSecond (by positivity) hs)
    h.tokens_nonneg (hproduct.trans' (by linarith))
  have hone : AtLeast 1 (b.tokens + (later.since b.last).seconds * b.perSecond) := by
    apply hsum.mono
    calc (1 : Rat) = nearest 1 := (nearest_eq_self toRat?_one zero_le_one).symm
      _ ≤ _ := nearest_le_nearest zero_le_one (by linarith)
  have hgranted : atMost 1 (b.refill later).tokens = true := by
    rw [refill_eq_of_later hlater]
    dsimp only
    split
    · exact decide_eq_true (hone.le toRat?_one)
    · decide +kernel
  unfold Bucket.take
  simp only [hgranted, if_true]

/-- One nanosecond more makes up for all that the wait has lost. -/
theorem Holds.filled_after_wait (h : b.Holds s t) (hfew : t < 1) (hwait : b.wait < longestWait)
    {seconds : Rat} (hlate : (b.wait.nanos + 1 : Rat) / 1000000000 ≤ seconds) :
    (1 - t) * (1 + 1 / 2 ^ 50) ≤ s * seconds := by
  obtain ⟨hs, hcovers⟩ := h.wait_covers hfew hwait
  -- a wait of less than an hour times what rounding loses is far less than half a nanosecond
  have hlost : (2 : Rat) ^ (-1075 : Int) ≤ 1 / 2 ^ 60 :=
    leastNormal_le_share.trans' (zpow_le_zpow_right₀ (by norm_num) (by norm_num))
  have hshort : (b.wait.nanos : Rat) < 3600 * 1000000000 := by exact_mod_cast Span.lt_def.mp hwait
  calc (1 - t) * (1 + 1 / 2 ^ 50)
      ≤ (1 - t) * ((1 - 1 / 2 ^ 52) * (1 + 1 / 2 ^ 49)) := by
        gcongr
        norm_num
    _ = (1 - t) * (1 - 1 / 2 ^ 52) * (1 + 1 / 2 ^ 49) := by ring
    _ ≤ s * ((b.wait.nanos + 1 / 2) / 1000000000 + 1 / 2 ^ 60) * (1 + 1 / 2 ^ 49) :=
        mul_le_mul_of_nonneg_right (hcovers.trans (by gcongr)) (by norm_num)
    _ = s * (((b.wait.nanos + 1 / 2) / 1000000000 + 1 / 2 ^ 60) * (1 + 1 / 2 ^ 49)) := by ring
    _ ≤ s * seconds := by
        gcongr
        norm_num at hlate ⊢
        linarith

/-- After a refusal with a wait shorter than the longest one, the next call is granted as soon
as the bucket has filled by a little more than what is missing, and that is so one nanosecond
after the wait. -/
theorem Holds.granted_of_refused (h : b.Holds s t) (hlast : b.last ≤ now) {wait : Span}
    {b' : Bucket Float} (hrefused : b.take now = (.error wait, b')) (hwait : wait < longestWait) :
    ∃ t', b'.Holds s t' ∧ 0 < s ∧ t' < 1 ∧
      (∀ later, now < later → (1 - t') * (1 + 1 / 2 ^ 50) ≤ s * elapsed now later →
        (b'.take later).1 = .ok ()) ∧
      ∀ seconds : Rat, (wait.nanos + 1) / 1000000000 ≤ seconds →
        (1 - t') * (1 + 1 / 2 ^ 50) ≤ s * seconds := by
  obtain ⟨rfl, rfl, hfew⟩ := take_refused hrefused
  obtain ⟨t', h'⟩ := h.refill now
  have hlt : t' < 1 := h'.lt_one hfew
  refine ⟨t', h', (h'.wait_covers hlt hwait).1, hlt, fun later hlater henough => ?_,
    fun seconds => h'.filled_after_wait hlt hwait⟩
  rw [← last_refill hlast] at hlater henough
  exact h'.take_granted hlt hlater henough

end Bucket

namespace Budget

variable {b : Bucket Float} {calls : List Moment} {now : Moment} {s t : Rat}

theorem after_bucket (h : b.Holds s t) (hlast : b.last ≤ now) (hcalls : ∀ m ∈ calls, m ≤ now) :
    ∃ b' t', after (some b) calls = some b' ∧ b'.Holds s t' ∧ b'.last ≤ now := by
  induction calls generalizing b t with
  | nil => exact ⟨b, t, rfl, h, hlast⟩
  | cons m calls ih =>
      obtain ⟨t', h'⟩ := h.take m
      exact ih h' (Bucket.last_take_le hlast (hcalls m List.mem_cons_self))
        fun m' hmem => hcalls m' (List.mem_cons_of_mem _ hmem)

/-- A call is refused with a wait shorter than the longest one.  Whatever calls came before,
the next one is granted if it comes later than the end of the wait, and already when the bucket
has filled by a little more than what was missing.  A wait of nothing is named only where that
takes less than a nanosecond. -/
theorem granted_after_wait {rate : Float} (hrate : AcceptedRate rate) {opened : Moment}
    (hcalls : ∀ m ∈ opened :: calls, m ≤ now) {wait : Span} {left : Budget Float}
    (hrefused : ((full (some rate) opened).after calls).take now = (.error wait, left))
    (hwait : wait < longestWait) :
    (∀ later, now.nanos + wait.nanos < later.nanos → (take left later).1 = .ok ()) ∧
    ∃ b s t, left = some b ∧ toRat? b.perSecond = some s ∧ toRat? b.tokens = some t ∧
      0 < s ∧ 0 ≤ t ∧ t < 1 ∧
      (∀ later, now < later → (1 - t) * (1 + 1 / 2 ^ 50) ≤ s * elapsed now later →
        (take left later).1 = .ok ()) ∧
      (wait = ⟨0⟩ → 1 - t < s / 1000000000) := by
  obtain ⟨s, hfull⟩ := Bucket.holds_full hrate opened
  obtain ⟨earlier, t₀, hearlier, hholds, hlast⟩ := after_bucket hfull
    (hcalls opened List.mem_cons_self) fun m hmem => hcalls m (List.mem_cons_of_mem _ hmem)
  have hstart : (full (some rate) opened : Budget Float) = some (Bucket.full rate opened) := rfl
  rw [hstart, hearlier] at hrefused
  obtain ⟨hanswer, rfl⟩ : (earlier.take now).1 = .error wait ∧ some (earlier.take now).2 = left :=
    Prod.mk.inj hrefused
  obtain ⟨t, hb, hs, hfew, hgranted, hfilled⟩ :=
    hholds.granted_of_refused hlast (Prod.ext hanswer rfl) hwait
  refine ⟨fun later hlater => ?_, _, s, t, rfl, hb.perSecond, hb.tokens, hs, hb.tokens_nonneg,
    hfew, hgranted, ?_⟩
  · have hnow : now < later := by
      rw [Moment.lt_def]
      omega
    have hspan : (wait.nanos + 1 : Rat) ≤ (later.nanos - now.nanos : Int) := by
      exact_mod_cast (by omega : (wait.nanos + 1 : Int) ≤ later.nanos - now.nanos)
    exact hgranted later hnow (hfilled _ (by unfold elapsed; gcongr))
  · rintro rfl
    have hwithin := hfilled (1 / 1000000000) (by norm_num)
    linarith

/-- At three starts a second, a call a nanosecond after the end of the wait is granted. -/
theorem granted_after_wait_of_third : AcceptedRate 180 ∧
    (∀ m ∈ [(⟨0⟩ : Moment), ⟨0⟩], m ≤ ⟨0⟩) ∧ ∃ left : Budget Float,
      ((full (some 180) ⟨0⟩).after [⟨0⟩]).take ⟨0⟩ = (.error ⟨333333333⟩, left) ∧
        (⟨333333333⟩ : Span) < longestWait ∧ (take left ⟨333333334⟩).1 = .ok () := by
  have hrate : AcceptedRate 180 := by decide +kernel
  have hcalls : ∀ m ∈ [(⟨0⟩ : Moment), ⟨0⟩], m ≤ ⟨0⟩ := by decide
  have hanswer : (((full (some 180) ⟨0⟩ : Budget Float).after [⟨0⟩]).take ⟨0⟩).1 =
      .error ⟨333333333⟩ := by decide +kernel
  rcases hrefused : ((full (some 180) ⟨0⟩ : Budget Float).after [⟨0⟩]).take ⟨0⟩
    with ⟨answer, left⟩
  rw [hrefused] at hanswer
  obtain rfl : answer = .error ⟨333333333⟩ := hanswer
  have hwait : (⟨333333333⟩ : Span) < longestWait := by decide +kernel
  exact ⟨hrate, hcalls, left, rfl, hwait,
    (granted_after_wait hrate hcalls hrefused hwait).1 ⟨333333334⟩ (by norm_num)⟩

/-- At the end of the wait itself, a call may be refused once more, and told to wait for no
time at all. -/
theorem refused_after_wait : AcceptedRate 180 ∧ (⟨333333333⟩ : Span) < longestWait ∧
    (full (some 180) ⟨0⟩ : Budget Float).answers [⟨0⟩, ⟨0⟩, ⟨333333333⟩] =
      [.ok (), .error ⟨333333333⟩, .error ⟨0⟩] := by
  decide +kernel

end Budget

end ElasticPool
