import ElasticPool.Proofs.LoadReadings

namespace ElasticPool

namespace History

variable {kind : Resource} {retention : Span} {samples samples' : List Sample}
  {moments : List Moment}

theorem drops_of_le {s : Sample} {moment later : Moment} (hle : moment ≤ later)
    (hlater : Moment.Nameable later.nanos)
    (hdrops : (Step.prune kind moment retention).drops kind s) :
    (Step.prune kind later retention).drops kind s := by
  obtain ⟨-, hnameable, hexpired⟩ := of_decide_eq_true hdrops
  rw [Moment.le_def] at hle
  refine decide_eq_true ⟨rfl, ?_, by omega⟩
  unfold Moment.Nameable at *
  omega

def expired (kind : Resource) (retention : Span) (moments : List Moment) (s : Sample) : Bool :=
  moments.any fun moment => (Step.prune kind moment retention).drops kind s

theorem dropped_deliveries {deliveries : List Delivery}
    (hkind : ∀ d ∈ deliveries, d.sample.kind = kind) (s : Sample) :
    dropped kind (deliveries.flatMap (·.steps retention)) s =
      expired kind retention (deliveries.map (·.moment)) s := by
  induction deliveries with
  | nil => rfl
  | cons d deliveries ih =>
      rw [List.forall_mem_cons] at hkind
      obtain ⟨rfl, hrest⟩ := hkind
      have hlater := ih hrest
      simp only [dropped, expired, Delivery.steps, List.flatMap_cons, List.map_cons,
        List.any_append, List.any_cons, List.any_nil, Bool.or_false] at hlater ⊢
      rw [hlater]
      rfl

theorem expired_cons (moment : Moment) (moments : List Moment) (s : Sample) :
    expired kind retention (moment :: moments) s =
      ((Step.prune kind moment retention).drops kind s || expired kind retention moments s) :=
  List.any_cons

theorem expired_of_drops {s : Sample} {moment : Moment} (hlater : moments ≠ [])
    (hclock : ∀ later ∈ moments, moment ≤ later)
    (hnameable : ∀ later ∈ moments, Moment.Nameable later.nanos)
    (hdrops : (Step.prune kind moment retention).drops kind s) :
    expired kind retention moments s := by
  obtain ⟨later, hmem⟩ := List.exists_mem_of_ne_nil moments hlater
  exact List.any_eq_true.mpr
    ⟨later, hmem, drops_of_le (hclock later hmem) (hnameable later hmem) hdrops⟩

/-- With a clock that does not run backwards, those samples are left that no prune would drop,
not even one before they came. -/
theorem survivors_deliveries {deliveries : List Delivery}
    (hkind : ∀ d ∈ deliveries, d.sample.kind = kind)
    (hclock : (deliveries.map (·.moment)).Pairwise (· ≤ ·))
    (hnameable : ∀ moment ∈ deliveries.map (·.moment), Moment.Nameable moment.nanos) :
    survivors kind (deliveries.flatMap (·.steps retention)) =
      (deliveries.map (·.sample)).filter
        (!expired kind retention (deliveries.map (·.moment)) ·) := by
  induction deliveries with
  | nil => rfl
  | cons d deliveries ih =>
      rw [List.forall_mem_cons] at hkind
      rw [List.map_cons, List.pairwise_cons] at hclock
      rw [List.map_cons, List.forall_mem_cons] at hnameable
      obtain ⟨rfl, hrest⟩ := hkind
      have hlater (s : Sample) (hmem : s ∈ deliveries.map (·.sample)) :
          expired d.sample.kind retention (d.moment :: deliveries.map (·.moment)) s =
            expired d.sample.kind retention (deliveries.map (·.moment)) s := by
        have hne : deliveries.map (·.moment) ≠ [] := by
          rintro hnil
          simp [List.map_eq_nil_iff.mp hnil] at hmem
        rw [expired_cons, Bool.or_eq_right_iff_imp]
        exact expired_of_drops hne hclock.1 hnameable.2
      have hfirst : dropped d.sample.kind (.prune d.sample.kind d.moment retention ::
          deliveries.flatMap (·.steps retention)) d.sample =
          expired d.sample.kind retention (d.moment :: deliveries.map (·.moment)) d.sample := by
        rw [expired_cons, ← dropped_deliveries hrest]
        rfl
      -- Each later sample is expired by this prune only if a later one takes it as well.
      have htail : survivors d.sample.kind (deliveries.flatMap (·.steps retention)) =
          (deliveries.map (·.sample)).filter (!expired d.sample.kind retention
            (d.moment :: deliveries.map (·.moment)) ·) := by
        rw [ih hrest hclock.2 hnameable.2]
        exact List.filter_congr fun s hmem => by rw [hlater s hmem]
      show survivors d.sample.kind (.insert d.sample ::
        .prune d.sample.kind d.moment retention :: deliveries.flatMap (·.steps retention)) = _
      rw [survivors, survivors, hfirst, htail, List.map_cons, List.map_cons, List.filter_cons]
      simp

/-- What a series holds after deliveries of its kind, whatever it held before. -/
theorem sorts_deliveries (retention : Span) (earlier : List Delivery) {deliveries : List Delivery}
    (hkind : ∀ d ∈ deliveries, d.sample.kind = kind)
    (hclock : (deliveries.map (·.moment)).Pairwise (· ≤ ·))
    (hnameable : ∀ moment ∈ deliveries.map (·.moment), Moment.Nameable moment.nanos) :
    Sorts (((ofDeliveries retention earlier).series kind ++ deliveries.map (·.sample)).filter
        (!expired kind retention (deliveries.map (·.moment)) ·))
      ((ofDeliveries retention (earlier ++ deliveries)).series kind) := by
  have hearlier : Sorts ((ofDeliveries retention earlier).series kind)
      ((ofDeliveries retention earlier).series kind) := by
    refine ⟨?_, fun _ => rfl⟩
    rw [ofDeliveries_eq_after]
    exact (sorts_survivors _ kind).ordered
  have h := sorts_after (deliveries.flatMap (·.steps retention)) hearlier
  rw [survivors_deliveries hkind hclock hnameable] at h
  rw [ofDeliveries_append, List.filter_append]
  simpa only [dropped_deliveries hkind] using h

/-- At most one sample of a kind was taken at any moment, so their order does not matter. -/
theorem ties_eq_of_perm (hperm : samples.Perm samples')
    (hdistinct : (samples.map (·.takenAt)).Nodup) (p : Sample → Bool) (m : Moment) :
    (samples.filter p).filter (·.takenAt = m) = (samples'.filter p).filter (·.takenAt = m) := by
  have hties := (hperm.filter p).filter (·.takenAt = m)
  have hle : ((samples.filter p).filter (·.takenAt = m)).length ≤ 1 :=
    calc ((samples.filter p).filter (·.takenAt = m)).length
        ≤ (samples.filter (·.takenAt = m)).length := (List.filter_sublist.filter _).length_le
      _ = (samples.map (·.takenAt)).count m := by
          rw [List.count, List.countP_map, List.countP_eq_length_filter]
          rfl
      _ ≤ 1 := List.nodup_iff_count_le_one.mp hdistinct m
  generalize (samples.filter p).filter (·.takenAt = m) = ties at hties hle
  rcases ties with _ | ⟨s, _ | ⟨s', rest⟩⟩
  · exact hties.nil_eq
  · exact List.singleton_perm.mp hties
  · simp at hle

def delivering (retention : Span) (earlier : List Delivery) (samples : List Sample)
    (moments : List Moment) : History :=
  ofDeliveries retention (earlier ++ (samples.zip moments).map fun d => ⟨d.1, d.2⟩)

theorem sorts_delivering (retention : Span) (earlier : List Delivery)
    (hkind : ∀ s ∈ samples, s.kind = kind) (hlength : samples.length = moments.length)
    (hclock : moments.Pairwise (· ≤ ·))
    (hnameable : ∀ moment ∈ moments, Moment.Nameable moment.nanos) :
    Sorts (((ofDeliveries retention earlier).series kind ++ samples).filter
        (!expired kind retention moments ·))
      ((delivering retention earlier samples moments).series kind) := by
  let deliveries : List Delivery := (samples.zip moments).map fun d => ⟨d.1, d.2⟩
  have hsamples : deliveries.map (·.sample) = samples := by
    rw [List.map_map]
    exact List.map_fst_zip hlength.le
  have hmoments : deliveries.map (·.moment) = moments := by
    rw [List.map_map]
    exact List.map_snd_zip hlength.ge
  have hkind' : ∀ d ∈ deliveries, d.sample.kind = kind := by
    intro d hmem
    apply hkind
    rw [← hsamples]
    exact List.mem_map_of_mem hmem
  rw [← hmoments] at hclock hnameable
  have h := sorts_deliveries retention earlier hkind' hclock hnameable
  rw [hsamples, hmoments] at h
  exact h

/-- Samples of one kind that were taken at different moments come to the same series in
whatever order they are delivered at the same moments, and with it to the same readings. -/
theorem series_eq_of_perm (retention : Span) (earlier : List Delivery)
    (hperm : samples.Perm samples')
    (hkind : ∀ s ∈ samples, s.kind = kind) (hdistinct : (samples.map (·.takenAt)).Nodup)
    (hlength : samples.length = moments.length) (hclock : moments.Pairwise (· ≤ ·))
    (hnameable : ∀ moment ∈ moments, Moment.Nameable moment.nanos) :
    let h := delivering retention earlier samples moments
    let h' := delivering retention earlier samples' moments
    h.series kind = h'.series kind ∧
      (∀ now window?, h.get kind now window? = h'.get kind now window?) ∧
      ∀ (c : LoadConfig) now,
        (c.currentLoad h now).ratio kind = (c.currentLoad h' now).ratio kind ∧
        (c.windowLoad h now).ratio kind = (c.windowLoad h' now).ratio kind := by
  intro h h'
  have hseries : h.series kind = h'.series kind := by
    have hsorts := sorts_delivering retention earlier hkind hlength hclock hnameable
    have hsorts' := sorts_delivering retention earlier
      (fun s hmem => hkind s (hperm.mem_iff.mpr hmem)) (hperm.length_eq.symm.trans hlength) hclock
      hnameable
    refine eq_of_ordered hsorts.ordered hsorts'.ordered fun m => ?_
    rw [hsorts.ties, hsorts'.ties]
    simp only [List.filter_append]
    rw [ties_eq_of_perm hperm hdistinct]
  have hget (now : Moment) (window? : Option Span) :
      h.get kind now window? = h'.get kind now window? := by
    cases window? <;> simp only [get, hseries]
  refine ⟨hseries, hget, fun c now => ⟨?_, ?_⟩⟩
  · rw [LoadConfig.currentLoad, LoadConfig.currentLoad, LoadConfig.ratio_load,
      LoadConfig.ratio_load, hget]
  · rw [LoadConfig.windowLoad, LoadConfig.windowLoad, LoadConfig.ratio_load,
      LoadConfig.ratio_load, hget]

/-- The oldest sample is kept for a while if it comes first, and dropped at once if it comes
last. -/
theorem series_eq_of_perm_of_expired : ∃ oldest old recent moments,
    let h := delivering (.ofSeconds 30) [] [oldest, old, recent] moments
    let h' := delivering (.ofSeconds 30) [] [recent, old, oldest] moments
    (delivering (.ofSeconds 30) [] [oldest, old] (moments.take 2)).client = [oldest, old] ∧
      (delivering (.ofSeconds 30) [] [recent, old] (moments.take 2)).client = [old, recent] ∧
      h.client = [recent] ∧ h.client = h'.client := by
  let oldest : Sample := ⟨.client 2 1, .ofMillis 0⟩
  let old : Sample := ⟨.client 0 1, .ofMillis 5000⟩
  let recent : Sample := ⟨.client 2 1, .ofMillis 40000⟩
  let moments : List Moment := [.ofMillis 20000, .ofMillis 30000, .ofMillis 40000]
  have hperm : [oldest, old, recent].Perm [recent, old, oldest] :=
    (List.reverse_perm [oldest, old, recent]).symm
  have hkind : ∀ s ∈ [oldest, old, recent], s.kind = .client := by decide
  have hclock : moments.Pairwise (· ≤ ·) := by decide
  have hseries := series_eq_of_perm (.ofSeconds 30) [] hperm hkind (by decide) rfl hclock
    (by decide)
  exact ⟨oldest, old, recent, moments, rfl, rfl, rfl, hseries.1⟩

end History

end ElasticPool
