import ElasticPool.History.Session
/-!
What the series of a history hold.

A series is the stable sort, by the moments at which they were taken, of the samples that have
been added and that no later prune has dropped.  As it is always in order, the place of a new
sample and the end of the samples that a prune drops each divide it into two parts.
-/

namespace ElasticPool

namespace Moment

theorem le_trans {a b c : Moment} (hab : a ≤ b) (hbc : b ≤ c) : a ≤ c := by
  rw [le_def] at *
  omega

theorem le_total (a b : Moment) : a ≤ b ∨ b ≤ a := by
  rw [le_def, le_def]
  omega

theorem le_antisymm {a b : Moment} (hab : a ≤ b) (hba : b ≤ a) : a = b := by
  rw [le_def] at hab hba
  exact Moment.ext (by omega)

theorem sub?_eq_some_iff {m cutoff : Moment} {s : Span} :
    m.sub? s = some cutoff ↔
      Nameable (m.nanos - s.nanos) ∧ cutoff.nanos = m.nanos - s.nanos := by
  unfold sub?
  split
  · rename_i hnameable
    rw [Option.some.injEq, Moment.ext_iff, eq_comm]
    exact ⟨fun heq => ⟨hnameable, heq⟩, fun h => h.2⟩
  · rename_i hnot
    constructor
    · intro h
      cases h
    · intro h
      exact absurd h.1 hnot

end Moment

namespace History

def Ordered (samples : List Sample) : Prop := samples.Pairwise (·.takenAt ≤ ·.takenAt)

theorem Ordered.head_le {s b : Sample} {samples : List Sample} (hordered : Ordered (s :: samples))
    (hmem : b ∈ s :: samples) : s.takenAt ≤ b.takenAt := by
  rcases List.mem_cons.mp hmem with rfl | hmem
  · exact Int.le_refl _
  · exact List.rel_of_pairwise_cons hordered hmem

theorem Ordered.divided {samples : List Sample} (hordered : Ordered samples) {p : Sample → Bool}
    (hearlier : ∀ a b, a.takenAt ≤ b.takenAt → p b → p a) :
    samples.takeWhile p = samples.filter p ∧ samples.dropWhile p = samples.filter (!p ·) := by
  induction samples with
  | nil => exact ⟨rfl, rfl⟩
  | cons s samples ih =>
      cases hs : p s with
      | true =>
          obtain ⟨htake, hdrop⟩ := ih hordered.tail
          simp [hs, htake, hdrop]
      | false =>
          have hnone : ∀ b ∈ samples, ¬p b := by
            intro b hmem hb
            have hps : p s = true := hearlier s b (List.rel_of_pairwise_cons hordered hmem) hb
            simp [hs] at hps
          have hall : samples.filter (!p ·) = samples :=
            List.filter_eq_self.mpr fun b hmem => by simp [hnone b hmem]
          simp [hs, hall, List.filter_eq_nil_iff.mpr hnone]

theorem Ordered.exists_place {samples : List Sample} (hordered : Ordered samples) (s : Sample) :
    ∃ before after, samples = before ++ after ∧ place s samples = before ++ s :: after ∧
      (∀ b ∈ before, b.takenAt ≤ s.takenAt) ∧ ∀ a ∈ after, ¬a.takenAt ≤ s.takenAt := by
  obtain ⟨htake, hdrop⟩ := hordered.divided (p := (·.takenAt ≤ s.takenAt))
    (by simpa using fun a b => Moment.le_trans)
  refine ⟨_, _, List.takeWhile_append_dropWhile.symm, rfl, ?_, ?_⟩
  · rw [htake]
    simp
  · rw [hdrop]
    simp

theorem mem_iff_of_ties {samples samples' : List Sample}
    (hties : ∀ m, samples.filter (·.takenAt = m) = samples'.filter (·.takenAt = m))
    (s : Sample) : s ∈ samples ↔ s ∈ samples' := by
  have h : s ∈ samples.filter (·.takenAt = s.takenAt) ↔
      s ∈ samples'.filter (·.takenAt = s.takenAt) := by rw [hties]
  simpa using h

theorem eq_of_ordered {samples samples' : List Sample} (hordered : Ordered samples)
    (hordered' : Ordered samples')
    (hties : ∀ m, samples.filter (·.takenAt = m) = samples'.filter (·.takenAt = m)) :
    samples = samples' := by
  have hmem := mem_iff_of_ties hties
  induction samples generalizing samples' with
  | nil => exact (List.eq_nil_iff_forall_not_mem.mpr fun s => by simp [← hmem]).symm
  | cons s samples ih =>
      cases samples' with
      | nil =>
          have h := (hmem s).mp (by simp)
          cases h
      | cons s' samples' =>
          have hle : s.takenAt ≤ s'.takenAt := hordered.head_le ((hmem s').mpr (by simp))
          have hge : s'.takenAt ≤ s.takenAt := hordered'.head_le ((hmem s).mp (by simp))
          have hsame : s.takenAt = s'.takenAt := Moment.le_antisymm hle hge
          have hfirst := hties s'.takenAt
          rw [List.filter_cons_of_pos (by simp [hsame]),
            List.filter_cons_of_pos (by simp)] at hfirst
          obtain rfl : s = s' := (List.cons.inj hfirst).1
          have hrest (m : Moment) :
              samples.filter (·.takenAt = m) = samples'.filter (·.takenAt = m) := by
            have h := hties m
            by_cases hm : s.takenAt = m <;> simpa [hm] using h
          have htail : samples = samples' :=
            ih hordered.tail hordered'.tail hrest (mem_iff_of_ties hrest)
          rw [htail]

/-- The samples are those that were added, in the order of their moments, and those of one
moment in the order in which they were added. -/
structure Sorts (added samples : List Sample) : Prop where
  ordered : Ordered samples
  ties : ∀ m, samples.filter (·.takenAt = m) = added.filter (·.takenAt = m)

namespace Sorts

variable {added samples samples' : List Sample}

theorem unique (h : Sorts added samples) (h' : Sorts added samples') : samples = samples' :=
  eq_of_ordered h.ordered h'.ordered fun m => (h.ties m).trans (h'.ties m).symm

theorem nil : Sorts [] [] := ⟨List.Pairwise.nil, fun _ => rfl⟩

theorem filter (h : Sorts added samples) (p : Sample → Bool) :
    Sorts (added.filter p) (samples.filter p) where
  ordered := List.Pairwise.filter p h.ordered
  ties m := by
    have hcomm (l : List Sample) :
        (l.filter p).filter (·.takenAt = m) = (l.filter (·.takenAt = m)).filter p := by
      simp only [List.filter_filter, Bool.and_comm]
    rw [hcomm, hcomm, h.ties]

theorem place (h : Sorts added samples) (s : Sample) :
    Sorts (added ++ [s]) (place s samples) := by
  obtain ⟨before, after, rfl, hplace, hbefore, hafter⟩ := h.ordered.exists_place s
  obtain ⟨hfirst, hlast, hbetween⟩ := List.pairwise_append.mp h.ordered
  have hlater : ∀ a ∈ after, s.takenAt ≤ a.takenAt := fun a hmem =>
    (Moment.le_total s.takenAt a.takenAt).resolve_right (hafter a hmem)
  rw [hplace]
  constructor
  · refine List.pairwise_append.mpr ⟨hfirst, List.pairwise_cons.mpr ⟨hlater, hlast⟩, ?_⟩
    intro b hb a ha
    rcases List.mem_cons.mp ha with rfl | ha
    · exact hbefore b hb
    · exact hbetween b hb a ha
  · intro m
    have hties : (before ++ after).filter (·.takenAt = m) = added.filter (·.takenAt = m) :=
      h.ties m
    by_cases hm : s.takenAt = m
    · -- What lies behind the place was taken later, so the sample comes last of its moment.
      have hnone : after.filter (·.takenAt = m) = [] := by
        rw [List.filter_eq_nil_iff]
        intro a ha heq
        have hsame : a.takenAt = s.takenAt := (of_decide_eq_true heq).trans hm.symm
        exact hafter a ha (hsame ▸ Int.le_refl _)
      simp [← hties, hm, hnone]
    · simp [← hties, hm]

theorem mergeSort (added : List Sample) :
    Sorts added (added.mergeSort (·.takenAt ≤ ·.takenAt)) := by
  have htrans (a b c : Sample) : decide (a.takenAt ≤ b.takenAt) = true →
      decide (b.takenAt ≤ c.takenAt) = true → decide (a.takenAt ≤ c.takenAt) = true := by
    simpa using Moment.le_trans
  have htotal (a b : Sample) :
      (decide (a.takenAt ≤ b.takenAt) || decide (b.takenAt ≤ a.takenAt)) = true := by
    simpa using Moment.le_total a.takenAt b.takenAt
  constructor
  · simpa [Ordered] using List.pairwise_mergeSort htrans htotal added
  · intro m
    -- The samples of one moment are in order already, so that sorting leaves them as they are.
    have hsub : (added.filter (·.takenAt = m)).Sublist
        (added.mergeSort (·.takenAt ≤ ·.takenAt)) := by
      refine List.sublist_mergeSort htrans htotal ?_ List.filter_sublist
      rw [List.pairwise_filter]
      refine List.pairwise_of_forall fun a b => ?_
      simp only [decide_eq_true_eq]
      rintro rfl hb
      exact hb ▸ Int.le_refl _
    have hlength := ((List.mergeSort_perm added (·.takenAt ≤ ·.takenAt)).filter
      (·.takenAt = m)).length_eq
    have hsub' := hsub.filter (·.takenAt = m)
    simp only [List.filter_filter, Bool.and_self] at hsub'
    exact (hsub'.eq_of_length hlength.symm).symm

theorem eq_mergeSort (h : Sorts added samples) :
    samples = added.mergeSort (·.takenAt ≤ ·.takenAt) :=
  h.unique (mergeSort added)

end Sorts

def after (h : History) : List Step → History
  | [] => h
  | step :: steps => (h.perform step).2.after steps

/-- The step prunes the kind, and the sample was taken before a cutoff that can be named. -/
def Step.drops (kind : Resource) (s : Sample) : Step → Bool
  | .prune pruned now retention =>
      pruned = kind ∧ Moment.Nameable (now.nanos - retention.nanos) ∧
        s.takenAt.nanos < now.nanos - retention.nanos
  | .insert _ | .get .. => false

def dropped (kind : Resource) (steps : List Step) (s : Sample) : Bool :=
  steps.any (·.drops kind s)

/-- The samples of a kind that are added and that no later step drops, in the order in which
they are added. -/
def survivors (kind : Resource) : List Step → List Sample
  | [] => []
  | .insert s :: later =>
      if s.kind = kind ∧ ¬dropped kind later s then s :: survivors kind later
      else survivors kind later
  | .prune .. :: later | .get .. :: later => survivors kind later

theorem filter_not_eq_self (p : Sample → Bool) (hnone : ∀ s, p s = false)
    (samples : List Sample) : samples.filter (!p ·) = samples :=
  List.filter_eq_self.mpr fun s _ => by simp [hnone s]

theorem series_prune {h : History} {kind : Resource} (hordered : Ordered (h.series kind))
    (pruned : Resource) (now : Moment) (retention : Span) :
    (h.prune pruned now retention).series kind =
      (h.series kind).filter (!(Step.prune pruned now retention).drops kind ·) := by
  rcases Decidable.em (kind = pruned) with rfl | hne
  · rcases hcutoff : now.sub? retention with _ | cutoff
    · have hnot : ¬Moment.Nameable (now.nanos - retention.nanos) := by
        intro hnameable
        simp [Moment.sub?, hnameable] at hcutoff
      rw [filter_not_eq_self _ fun s => by simp [Step.drops, hnot], prune, hcutoff]
    · obtain ⟨hnameable, heq⟩ := Moment.sub?_eq_some_iff.mp hcutoff
      obtain ⟨-, hdrop⟩ := hordered.divided (p := (·.takenAt < cutoff)) (by
        simp only [decide_eq_true_eq, Moment.lt_def, Moment.le_def]
        intro a b
        omega)
      simp only [prune, hcutoff, series_modify, if_true, hdrop]
      simp only [Step.drops, Moment.lt_def, heq, hnameable, true_and]
  · rw [filter_not_eq_self _ fun s => by simp [Step.drops, Ne.symm hne],
      h.series_prune_of_ne hne]

/-- Whatever samples a series begins with, the steps drop some of them and add others. -/
theorem sorts_after (steps : List Step) {added : List Sample} {h : History} {kind : Resource}
    (hsorts : Sorts added (h.series kind)) :
    Sorts (added.filter (!dropped kind steps ·) ++ survivors kind steps)
      ((h.after steps).series kind) := by
  induction steps generalizing added h with
  | nil =>
      rw [filter_not_eq_self (dropped kind []) fun _ => rfl, survivors, List.append_nil]
      exact hsorts
  | cons step steps ih =>
      have hdrops : added.filter (!dropped kind (step :: steps) ·) =
          (added.filter (!step.drops kind ·)).filter (!dropped kind steps ·) := by
        simp only [List.filter_filter, dropped, List.any_cons, Bool.not_or, Bool.and_comm]
      rw [hdrops, after]
      cases step with
      | insert s =>
          rw [filter_not_eq_self ((Step.insert s).drops kind ·) fun _ => rfl, survivors, perform]
          by_cases hkind : s.kind = kind
          · have hplaced : Sorts (added ++ [s]) ((h.insert s).series kind) := by
              simpa [hkind] using hsorts.place s
            have hlater := ih hplaced
            rw [List.filter_append, List.append_assoc] at hlater
            -- The sample has been placed. A later step drops it, or it survives.
            by_cases hdropped : dropped kind steps s
            · simpa [hkind, hdropped] using hlater
            · simpa [hkind, hdropped] using hlater
          · rw [if_neg fun hkept => hkind hkept.1]
            apply ih
            simpa [Ne.symm hkind] using hsorts
      | prune pruned now retention =>
          rw [survivors, perform]
          apply ih
          rw [series_prune hsorts.ordered]
          exact hsorts.filter _
      | get other now window? =>
          rw [filter_not_eq_self ((Step.get other now window?).drops kind ·) fun _ => rfl]
          exact ih hsorts

theorem sorts_survivors (steps : List Step) (kind : Resource) :
    Sorts (survivors kind steps) ((empty.after steps).series kind) := by
  have hempty : Sorts [] (empty.series kind) := by
    rw [series_empty]
    exact .nil
  simpa using sorts_after steps hempty

theorem inWindow_eq (now : Moment) (window : Span) (m : Moment) :
    inWindow now window m = decide (m.nanos ≤ now.nanos ∧
      (Moment.Nameable (now.nanos - window.nanos) → now.nanos - window.nanos ≤ m.nanos)) := by
  rw [inWindow, Bool.decide_and, Bool.and_comm]
  rcases hfirst : now.sub? window with _ | first
  · have hnot : ¬Moment.Nameable (now.nanos - window.nanos) := by
      intro hnameable
      simp [Moment.sub?, hnameable] at hfirst
    simp [hnot, Moment.le_def]
  · obtain ⟨hnameable, heq⟩ := Moment.sub?_eq_some_iff.mp hfirst
    simp [hnameable, Moment.le_def, heq]

/-- A series holds the samples of its kind that have been added and not been dropped, sorted by
their moments, and samples of one moment in the order in which they were added.  What is read
of a window is the part of the series that lies in it. -/
theorem series_eq_mergeSort_survivors (steps : List Step) (kind : Resource) :
    (empty.after steps).series kind =
        (survivors kind steps).mergeSort (·.takenAt ≤ ·.takenAt) ∧
      ∀ now,
        (empty.after steps).get kind now none =
          (survivors kind steps).mergeSort (·.takenAt ≤ ·.takenAt) ∧
        ∀ window,
          (empty.after steps).get kind now (some window) =
            ((survivors kind steps).mergeSort (·.takenAt ≤ ·.takenAt)).filter fun s =>
              s.takenAt.nanos ≤ now.nanos ∧
                (Moment.Nameable (now.nanos - window.nanos) →
                  now.nanos - window.nanos ≤ s.takenAt.nanos) := by
  rw [← (sorts_survivors steps kind).eq_mergeSort]
  refine ⟨rfl, fun now => ⟨rfl, fun window => ?_⟩⟩
  simp only [get, inWindow_eq]

end History

end ElasticPool
