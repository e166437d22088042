import ElasticPool.Proofs.LoadReadings
import ElasticPool.Proofs.SamplingWindows

namespace ElasticPool

open Binary64

section Shares

variable {samples : List Sample} {s : Sample}

theorem share_le_succ_share {k n : Nat} (hle : k ≤ n) :
    (k / n : Rat) ≤ (k + 1 : Nat) / (n + 1 : Nat) := by
  rcases n.eq_zero_or_pos with rfl | hpos
  · rw [Nat.cast_zero, div_zero]
    positivity
  · have hk : (k : Rat) ≤ n := by exact_mod_cast hle
    rw [div_le_div_iff₀ (by positivity) (by positivity)]
    push_cast
    linarith

theorem succ_share_le_share {k n : Nat} (hle : k ≤ n) : (k / (n + 1 : Nat) : Rat) ≤ k / n := by
  rcases n.eq_zero_or_pos with rfl | hpos
  · obtain rfl : k = 0 := by omega
    simp
  · gcongr
    exact n.le_succ

/-- An overloaded sample never lowers the rounded share, and another one never raises it. -/
theorem overloadedShare_cons (hsize : samples.length < 2 ^ 53) : ∃ p q,
    toRat? (overloadedShare samples) = some p ∧ toRat? (overloadedShare (s :: samples)) = some q ∧
      (s.overloaded = true → p ≤ q) ∧ (s.overloaded = false → q ≤ p) := by
  have hle : samples.countP (·.overloaded) ≤ samples.length := List.countP_le_length
  have hafter : toRat? (overloadedShare (s :: samples)) = _ := toRat?_overloadedShare hsize
  refine ⟨_, _, toRat?_overloadedShare hsize.le, hafter, ?_, ?_⟩
  · intro hoverloaded
    rw [List.countP_cons_of_pos hoverloaded]
    exact nearest_le_nearest (by positivity) (share_le_succ_share hle)
  · intro hcalm
    rw [List.countP_cons_of_neg (by simp [hcalm])]
    exact nearest_le_nearest (by positivity) (succ_share_le_share hle)

end Shares

namespace History

variable {h : History} {kind : Resource} {now : Moment} {window retention : Span} {s : Sample}

theorem place_perm (s : Sample) (samples : List Sample) :
    (place s samples).Perm (s :: samples) := by
  have hmiddle : (place s samples).Perm (s :: (samples.takeWhile (·.takenAt ≤ s.takenAt) ++
      samples.dropWhile (·.takenAt ≤ s.takenAt))) := List.perm_middle
  rwa [List.takeWhile_append_dropWhile] at hmiddle

theorem filter_dropWhile {p q : Sample → Bool} (hnone : ∀ x, p x → q x = false)
    (samples : List Sample) : (samples.dropWhile p).filter q = samples.filter q := by
  have hdropped : (samples.takeWhile p).filter q = [] := by
    rw [List.filter_eq_nil_iff]
    intro x hx
    simp [hnone x (List.mem_takeWhile_imp hx)]
  rw [← List.nil_append ((samples.dropWhile p).filter q), ← hdropped, ← List.filter_append,
    List.takeWhile_append_dropWhile]

theorem get_prune (hnow : Moment.Nameable now.nanos) (hwindow : window ≤ retention)
    (pruned : Resource) :
    (h.prune pruned now retention).get kind now (some window) = h.get kind now (some window) := by
  rcases hcutoff : now.sub? retention with _ | cutoff
  · rw [prune, hcutoff]
  · obtain ⟨hnameable, heq⟩ := Moment.sub?_eq_some_iff.mp hcutoff
    -- whatever is dropped was taken before the cutoff, and the window begins no earlier than that
    have hnone (x : Sample) (hx : decide (x.takenAt < cutoff) = true) :
        inWindow now window x.takenAt = false := by
      rw [decide_eq_true_eq, Moment.lt_def, heq] at hx
      exact not_inWindow_of_drops (Int.le_refl _) hwindow hnow
        (decide_eq_true ⟨rfl, hnameable, hx⟩ : (Step.prune pruned now retention).drops pruned x)
    simp only [get, prune, hcutoff, series_modify]
    split
    · rename_i hsame
      rw [filter_dropWhile hnone, hsame]
    · rfl

theorem get_record_perm (hnow : Moment.Nameable now.nanos) (hwindow : window ≤ retention)
    (kind : Resource) :
    ((h.record s now retention).get kind now (some window)).Perm
      (if kind = s.kind ∧ inWindow now window s.takenAt then s :: h.get kind now (some window)
        else h.get kind now (some window)) := by
  rw [record, get_prune hnow hwindow]
  simp only [get, series_insert]
  by_cases hkind : kind = s.kind
  · have hplaced := (place_perm s (h.series kind)).filter fun x => inWindow now window x.takenAt
    rw [List.filter_cons] at hplaced
    simpa only [hkind, if_true, true_and] using hplaced
  · simp only [hkind, if_false, false_and]
    exact List.Perm.refl _

end History

theorem SystemLoad.idle_of_idle {load load' : SystemLoad} (h : load'.idle)
    (hrises : ∀ kind, (load.ratio kind).overloaded → (load'.ratio kind).overloaded) :
    load.idle := by
  rw [idle_iff] at h ⊢
  simp only [← LoadRatio.overloaded_iff] at h ⊢
  exact fun kind hoverloaded => h kind (hrises kind hoverloaded)

theorem LoadRatio.overloaded_mono {limit actual actual' : Float} {p q : Rat}
    (hp : toRat? actual = some p) (hq : toRat? actual' = some q) (hle : p ≤ q)
    (h : (⟨limit, actual⟩ : LoadRatio).overloaded) :
    (⟨limit, actual'⟩ : LoadRatio).overloaded := by
  rw [overloaded_iff] at h ⊢
  exact lt_of_lt_of_value_le h hp hq hle

namespace LoadConfig

/-- How the reading over the window changes when a sample is recorded at its moment. -/
structure Weighs (c : LoadConfig) (now : Moment) (s : Sample) (before after : SystemLoad) :
    Prop where
  /-- An overloaded sample never makes a system idle that was not. -/
  busy : s.overloaded = true → before.idle = false → after.idle = false
  /-- Any other sample leaves a system idle that was. -/
  calm : s.overloaded = false → before.idle = true → after.idle = true
  outside : History.inWindow now c.window s.takenAt = false →
    ∀ kind, after.ratio kind = before.ratio kind
  others : ∀ kind, kind ≠ s.kind → after.ratio kind = before.ratio kind

variable {c : LoadConfig} {h : History} {now : Moment} {retention : Span} {s : Sample}
  {kind : Resource}

theorem ratio_windowLoad (c : LoadConfig) (h : History) (now : Moment) (kind : Resource) :
    (c.windowLoad h now).ratio kind =
      ⟨c.threshold kind, overloadedShare (h.get kind now (some c.window))⟩ :=
  c.ratio_load now _ kind

theorem ratio_record_of_absent (hnow : Moment.Nameable now.nanos) (hwindow : c.window ≤ retention)
    (habsent : ¬(kind = s.kind ∧ History.inWindow now c.window s.takenAt)) :
    (c.windowLoad (h.record s now retention) now).ratio kind =
    (c.windowLoad h now).ratio kind := by
  have hperm := History.get_record_perm (h := h) (s := s) hnow hwindow kind
  rw [if_neg habsent] at hperm
  rw [ratio_windowLoad, ratio_windowLoad, overloadedShare_perm hperm]

theorem overloaded_record (hnow : Moment.Nameable now.nanos) (hwindow : c.window ≤ retention)
    (hsize : (h.series kind).length < 2 ^ 53) :
    (s.overloaded = true → ((c.windowLoad h now).ratio kind).overloaded →
      ((c.windowLoad (h.record s now retention) now).ratio kind).overloaded) ∧
    (s.overloaded = false →
      ((c.windowLoad (h.record s now retention) now).ratio kind).overloaded →
      ((c.windowLoad h now).ratio kind).overloaded) := by
  by_cases hpresent : kind = s.kind ∧ History.inWindow now c.window s.takenAt
  · have hperm := History.get_record_perm (h := h) (s := s) hnow hwindow kind
    rw [if_pos hpresent] at hperm
    have hread : (h.get kind now (some c.window)).length < 2 ^ 53 :=
      (List.length_filter_le _ _).trans_lt hsize
    obtain ⟨p, q, hp, hq, hrises, hfalls⟩ := overloadedShare_cons (s := s) hread
    rw [ratio_windowLoad, ratio_windowLoad, overloadedShare_perm hperm]
    exact ⟨fun hs => LoadRatio.overloaded_mono hp hq (hrises hs),
      fun hs => LoadRatio.overloaded_mono hq hp (hfalls hs)⟩
  · rw [ratio_record_of_absent hnow hwindow hpresent]
    exact ⟨fun _ hoverloaded => hoverloaded, fun _ hoverloaded => hoverloaded⟩

theorem weighs_record (hnow : Moment.Nameable now.nanos) (hwindow : c.window ≤ retention)
    (hsize : ∀ kind, (h.series kind).length < 2 ^ 53) (s : Sample) :
    c.Weighs now s (c.windowLoad h now) (c.windowLoad (h.record s now retention) now) where
  busy hs hbusy := by
    rw [← Bool.not_eq_true] at hbusy ⊢
    exact fun hidle => hbusy (SystemLoad.idle_of_idle hidle
      fun kind => (overloaded_record hnow hwindow (hsize kind)).1 hs)
  calm hs hidle := SystemLoad.idle_of_idle hidle
    fun kind => (overloaded_record hnow hwindow (hsize kind)).2 hs
  outside hout kind := by
    apply ratio_record_of_absent hnow hwindow
    simp [hout]
  others kind hne := ratio_record_of_absent hnow hwindow fun hpresent => hne hpresent.1

end LoadConfig

namespace Recorder

/-- Recording a sample turns a reading over a window that is no longer than the retention with
the evidence, and only in the ratio of the sample's kind, if the sample lies in the window. -/
theorem readings_follow_evidence {r : Recorder} {c : LoadConfig} {now : Moment}
    (hactive : r.active) (hnow : Moment.Nameable now.nanos)
    (hwindow : c.window ≤ r.config.retention)
    (hsize : ∀ kind samples, r.samples now kind none = .ok samples → samples.length < 2 ^ 53)
    (s : Sample) : ∃ before recorded after, r.windowLoad c now = .ok before ∧
      r.record now s = .ok recorded ∧ recorded.windowLoad c now = .ok after ∧
      c.Weighs now s before after := by
  obtain ⟨h, hhistory⟩ := Option.isSome_iff_exists.mp hactive
  have hseries (kind : Resource) : (h.series kind).length < 2 ^ 53 := by
    apply hsize kind
    rw [samples, hhistory]
    rfl
  refine ⟨_, { r with history? := some (h.record s now r.config.retention) }, _, ?_, ?_, rfl,
    LoadConfig.weighs_record hnow hwindow hseries s⟩
  · rw [windowLoad, hhistory]
  · rw [record, hhistory]

/-- Two samples of client errors, the first of which has made the system busy. -/
theorem readings_follow_evidence_of_errors : ∃ steps w before recorded after,
    Shared.Execution (.fresh {} (.ofCapacity 1)) steps w ∧
      w.recorder.windowLoad {} (.ofMillis 1000) = .ok before ∧ before.idle = false ∧
      w.recorder.record (.ofMillis 1000) ⟨.client 3 1, .ofMillis 1000⟩ = .ok recorded ∧
      recorded.windowLoad {} (.ofMillis 1000) = .ok after ∧ after.idle = false := by
  let now : Moment := .ofMillis 1000
  let first : Sample := ⟨.client 2 1, .ofMillis 400⟩
  obtain ⟨steps, w, load, hplay, hhistory, hconfig, hload, hbusy⟩ : ∃ steps w load,
      (Shared.fresh {} (.ofCapacity 1)).play [.start, .record first.takenAt first] [] =
        some (steps, w) ∧
      w.recorder.history? = some (History.empty.insert first) ∧ w.recorder.config = {} ∧
      w.recorder.windowLoad {} now = .ok load ∧ load.idle = false :=
    ⟨_, _, _, rfl, rfl, rfl, rfl, by decide +kernel⟩
  have hsize (kind : Resource) (samples : List Sample)
      (hsamples : w.recorder.samples now kind none = .ok samples) : samples.length < 2 ^ 53 := by
    rw [Recorder.samples, hhistory] at hsamples
    obtain rfl := Except.ok.inj hsamples
    cases kind <;> decide
  obtain ⟨before, recorded, after, hbefore, hrecorded, hafter, hweighs⟩ :=
    readings_follow_evidence (c := {}) (by rw [active, hhistory]; rfl)
      (by decide : Moment.Nameable now.nanos) (by rw [hconfig]; decide) hsize ⟨.client 3 1, now⟩
  obtain rfl := Except.ok.inj (hload.symm.trans hbefore)
  exact ⟨steps, w, load, recorded, after, Shared.execution_of_play .start hplay, hbefore, hbusy,
    hrecorded, hafter, hweighs.busy (by decide) hbusy⟩

end Recorder

end ElasticPool
