import ElasticPool.Simulation.Script
import ElasticPool.Proofs.UnprunedHistory
import ElasticPool.Proofs.Binary64.Bounds

namespace ElasticPool

open Binary64

namespace LoadRatio

/-- The ratio lies between zero and one, and it is zero unless there is an overload.  So it
never exceeds a limit of one, and it exceeds a limit of zero exactly if there is one. -/
structure Reflects (r : LoadRatio) (overload : Prop) : Prop where
  nonneg : 0 ≤ r.actual
  le_one : r.actual ≤ 1
  eq_zero_iff : r.actual == 0 ↔ ¬overload
  tolerated : r.limit == 1 → r.overloaded = false
  detected : r.limit == 0 → (r.overloaded ↔ overload)

theorem overloaded_iff {r : LoadRatio} : r.overloaded ↔ r.limit < r.actual := by
  simp [overloaded]

theorem reflects_of_value {r : LoadRatio} {overload : Prop} {q : Rat}
    (hvalue : toRat? r.actual = some q) (hnonneg : 0 ≤ q) (hone : q ≤ 1)
    (hzero : q = 0 ↔ ¬overload) : r.Reflects overload where
  nonneg := (le_iff toRat?_zero hvalue).mpr hnonneg
  le_one := (le_iff hvalue toRat?_one).mpr hone
  eq_zero_iff := (beq_iff hvalue toRat?_zero).trans hzero
  tolerated hlimit := by
    have h := lt_iff (toRat?_of_beq hlimit toRat?_one) hvalue
    rw [← Bool.not_eq_true, overloaded_iff, h]
    exact not_lt.mpr hone
  detected hlimit := by
    rw [overloaded_iff, lt_iff (toRat?_of_beq hlimit toRat?_zero) hvalue, hnonneg.lt_iff_ne,
      ne_comm, Ne, hzero, not_not]

end LoadRatio

theorem SystemLoad.idle_iff (load : SystemLoad) :
    load.idle ↔ ∀ kind, ¬(load.ratio kind).limit < (load.ratio kind).actual := by
  have hkinds (P : Resource → Prop) :
      (∀ kind, P kind) ↔ P .cpu ∧ P .memory ∧ P .eventLoop ∧ P .client := by
    constructor
    · exact fun h => ⟨h .cpu, h .memory, h .eventLoop, h .client⟩
    · rintro ⟨hcpu, hmemory, heventLoop, hclient⟩ (_ | _ | _ | _) <;> assumption
  simp only [hkinds, ratio, idle, ← LoadRatio.overloaded_iff, Bool.and_eq_true, Bool.not_eq_true',
    Bool.not_eq_true, and_assoc]

theorem overloadedShare_of_ne_nil {samples : List Sample} (hne : samples ≠ []) :
    overloadedShare samples =
      Float.ofNat (samples.countP (·.overloaded)) / Float.ofNat samples.length := by
  simp [overloadedShare, hne]

theorem toRat?_overloadedShare {samples : List Sample} (hsize : samples.length ≤ 2 ^ 53) :
    toRat? (overloadedShare samples) =
      some (nearest (samples.countP (·.overloaded) / samples.length)) := by
  rcases samples with _ | ⟨first, rest⟩
  · have hzero : nearest ((0 : Nat) / (0 : Nat) : Rat) = 0 := by
      rw [Nat.cast_zero, zero_div, nearest_zero]
    show toRat? 0 = some (nearest ((0 : Nat) / (0 : Nat) : Rat))
    rw [hzero, toRat?_zero]
  · rw [overloadedShare_of_ne_nil (List.cons_ne_nil _ _)]
    exact toRat?_share List.countP_le_length (by simp) hsize

theorem overloadedShare_reflects {samples : List Sample} (hsize : samples.length < 2 ^ 53)
    (limit : Float) : (⟨limit, overloadedShare samples⟩ : LoadRatio).Reflects
      (∃ s ∈ samples, s.overloaded) := by
  have hle : samples.countP (·.overloaded) ≤ samples.length := List.countP_le_length
  have hvalue : toRat? (⟨limit, overloadedShare samples⟩ : LoadRatio).actual = _ :=
    toRat?_overloadedShare hsize.le
  apply LoadRatio.reflects_of_value hvalue
  · exact nearest_nonneg (by positivity)
  · exact nearest_share_le_one hle
  · rw [nearest_share_eq_zero_iff hle hsize, List.countP_eq_zero]
    simp

theorem overloadedShare_perm {samples samples' : List Sample} (h : samples.Perm samples') :
    overloadedShare samples = overloadedShare samples' := by
  have hempty : samples.isEmpty = samples'.isEmpty := by
    rw [Bool.eq_iff_iff, List.isEmpty_iff_length_eq_zero, List.isEmpty_iff_length_eq_zero,
      h.length_eq]
  rw [overloadedShare, overloadedShare, hempty, h.countP_eq, h.length_eq]

/-- The sample was taken last, and among those of its moment it has arrived last. -/
def Latest (samples : List Sample) (s : Sample) : Prop :=
  ∃ before after, samples = before ++ s :: after ∧ (∀ b ∈ before, b.takenAt ≤ s.takenAt) ∧
    ∀ a ∈ after, a.takenAt < s.takenAt

theorem not_latest_nil (s : Sample) : ¬Latest [] s := by
  rintro ⟨before, after, hsplit, -⟩
  simp at hsplit

namespace History.Sorts

variable {added samples : List Sample} {s : Sample}

theorem perm (h : Sorts added samples) : samples.Perm added := by
  rw [h.eq_mergeSort]
  exact List.mergeSort_perm _ _

theorem mem_iff (h : Sorts added samples) : s ∈ samples ↔ s ∈ added := mem_iff_of_ties h.ties s

theorem takenAt_le_getLast (h : Sorts added samples) {last b : Sample}
    (hlast : samples.getLast? = some last) (hmem : b ∈ added) : b.takenAt ≤ last.takenAt := by
  obtain ⟨init, rfl⟩ := List.getLast?_eq_some_iff.mp hlast
  rcases List.mem_append.mp (h.mem_iff.mpr hmem) with hinit | hb
  · exact (List.pairwise_append.mp h.ordered).2.2 b hinit last (by simp)
  · obtain rfl := List.mem_singleton.mp hb
    exact Int.le_refl _

theorem getLast?_ties (h : Sorts added samples) {last : Sample}
    (hlast : samples.getLast? = some last) :
    (added.filter (·.takenAt = last.takenAt)).getLast? = some last := by
  obtain ⟨init, rfl⟩ := List.getLast?_eq_some_iff.mp hlast
  rw [← h.ties]
  simp

theorem latest_of_getLast? (h : Sorts added samples) (hlast : samples.getLast? = some s) :
    Latest added s := by
  have hties := h.getLast?_ties hlast
  rw [List.getLast?_eq_head?_reverse, ← List.filter_reverse, List.head?_filter,
    List.find?_eq_some_iff_append] at hties
  obtain ⟨-, after, before, hreverse, hafter⟩ := hties
  have hadded : added = before.reverse ++ s :: after.reverse := by
    rw [← List.reverse_reverse added, hreverse]
    simp
  refine ⟨_, _, hadded, fun b hb => ?_, fun a ha => ?_⟩
  · exact h.takenAt_le_getLast hlast (by simp [hadded, List.mem_reverse.mp hb])
  · have hmem : a ∈ after := List.mem_reverse.mp ha
    have hle : a.takenAt ≤ s.takenAt := h.takenAt_le_getLast hlast (by simp [hadded, hmem])
    have hne : a.takenAt ≠ s.takenAt := by simpa using hafter a hmem
    exact Moment.lt_def.mpr (lt_of_le_of_ne hle fun heq => hne (Moment.ext heq))

theorem getLast?_of_latest (h : Sorts added samples) (hlatest : Latest added s) :
    samples.getLast? = some s := by
  obtain ⟨before, after, rfl, hbefore, hafter⟩ := hlatest
  have hmem : s ∈ samples := h.mem_iff.mpr (by simp)
  obtain ⟨last, hlast⟩ : ∃ last, samples.getLast? = some last :=
    ⟨_, List.getLast?_eq_some_getLast (List.ne_nil_of_mem hmem)⟩
  have hle : s.takenAt ≤ last.takenAt := h.takenAt_le_getLast hlast (by simp)
  have hge : last.takenAt ≤ s.takenAt := by
    have hadded := h.mem_iff.mp (List.mem_of_getLast? hlast)
    rcases List.mem_append.mp hadded with hb | ha
    · exact hbefore last hb
    · rcases List.mem_cons.mp ha with rfl | ha
      · exact Int.le_refl _
      · exact (Moment.lt_def.mp (hafter last ha)).le
  have hsame : last.takenAt = s.takenAt := Moment.le_antisymm hge hle
  have hties := h.getLast?_ties hlast
  have hnone : after.filter (·.takenAt = s.takenAt) = [] := by
    rw [List.filter_eq_nil_iff]
    intro a ha heq
    have hlt := Moment.lt_def.mp (hafter a ha)
    rw [of_decide_eq_true heq] at hlt
    exact lt_irrefl _ hlt
  rw [hsame, List.filter_append, List.filter_cons_of_pos (by simp), hnone] at hties
  rw [hlast, ← hties]
  simp

theorem getLast?_eq_some_iff (h : Sorts added samples) :
    samples.getLast? = some s ↔ Latest added s :=
  ⟨h.latest_of_getLast?, h.getLast?_of_latest⟩

end History.Sorts

/-- What a reading over a window tells of one resource. -/
structure WindowReading (limit : Float) (window : List Sample) (r : LoadRatio) : Prop where
  limit_eq : r.limit = limit
  actual_of_empty : window = [] → r.actual = 0
  actual_eq : window ≠ [] →
    r.actual = Float.ofNat (window.countP (·.overloaded)) / Float.ofNat window.length
  value_eq : toRat? r.actual = some (nearest (window.countP (·.overloaded) / window.length))
  reflects : r.Reflects (∃ s ∈ window, s.overloaded)

structure LatestReading (limit : Float) (retained : List Sample) (r : LoadRatio) : Prop where
  limit_eq : r.limit = limit
  actual_of_empty : retained = [] → r.actual = 0
  exists_latest : retained ≠ [] → ∃ s, Latest retained s
  actual_eq : ∀ s, Latest retained s → r.actual = if s.overloaded then 1 else 0
  reflects : r.Reflects (∃ s, Latest retained s ∧ s.overloaded)

theorem windowReading_of_perm {window samples : List Sample} (hperm : samples.Perm window)
    (hsize : window.length < 2 ^ 53) (limit : Float) :
    WindowReading limit window ⟨limit, overloadedShare samples⟩ := by
  rw [overloadedShare_perm hperm]
  refine ⟨rfl, ?_, overloadedShare_of_ne_nil, toRat?_overloadedShare hsize.le,
    overloadedShare_reflects hsize limit⟩
  rintro rfl
  rfl

theorem latestReading_of_sorts {retained samples : List Sample}
    (hsorts : History.Sorts retained samples) (limit : Float) :
    LatestReading limit retained ⟨limit, latestRatio samples⟩ := by
  rcases hlast : samples.getLast? with _ | last
  · obtain rfl := List.getLast?_eq_none_iff.mp hlast
    obtain rfl : retained = [] := hsorts.perm.symm.eq_nil
    refine ⟨rfl, fun _ => rfl, fun hne => absurd rfl hne,
      fun s hlatest => absurd hlatest (not_latest_nil s),
      LoadRatio.reflects_of_value toRat?_zero le_rfl zero_le_one ?_⟩
    simp [not_latest_nil]
  · have hlatest := hsorts.latest_of_getLast? hlast
    have hunique (s : Sample) (hs : Latest retained s) : s = last :=
      Option.some.inj ((hsorts.getLast?_of_latest hs).symm.trans hlast)
    have hne : retained ≠ [] := by
      rintro rfl
      exact not_latest_nil last hlatest
    have hactual : latestRatio samples = if last.overloaded then 1 else 0 := by
      rw [latestRatio, hlast]
      rfl
    refine ⟨rfl, fun hempty => absurd hempty hne, fun _ => ⟨last, hlatest⟩, ?_, ?_⟩
    · intro s hs
      rw [hunique s hs]
      exact hactual
    · rw [hactual]
      have hsome : (∃ s, Latest retained s ∧ s.overloaded) ↔ last.overloaded := by
        constructor
        · rintro ⟨s, hs, hoverloaded⟩
          rwa [← hunique s hs]
        · exact fun hoverloaded => ⟨last, hlatest, hoverloaded⟩
      rw [hsome]
      cases last.overloaded with
      | true => exact LoadRatio.reflects_of_value toRat?_one zero_le_one le_rfl (by simp)
      | false => exact LoadRatio.reflects_of_value toRat?_zero le_rfl zero_le_one (by simp)

namespace LoadConfig

theorem ratio_load (c : LoadConfig) (now : Moment) (ratioOf : Resource → Float)
    (kind : Resource) : (c.load now ratioOf).ratio kind = ⟨c.threshold kind, ratioOf kind⟩ := by
  cases kind <;> rfl

structure Reads (c : LoadConfig) (now : Moment) (load : SystemLoad)
    (Reading : Resource → LoadRatio → Prop) : Prop where
  takenAt_eq : load.takenAt = now
  ratio : ∀ kind, Reading kind (load.ratio kind)
  idle_iff : load.idle ↔ ∀ kind, ¬c.threshold kind < (load.ratio kind).actual

theorem reads_load {c : LoadConfig} {now : Moment} {ratioOf : Resource → Float}
    {Reading : Resource → LoadRatio → Prop}
    (hratio : ∀ kind, Reading kind ⟨c.threshold kind, ratioOf kind⟩) :
    c.Reads now (c.load now ratioOf) Reading where
  takenAt_eq := rfl
  ratio kind := by
    rw [ratio_load]
    exact hratio kind
  idle_iff := by
    rw [SystemLoad.idle_iff]
    simp only [ratio_load]

end LoadConfig

namespace History

/-- The samples of a kind that have been delivered and not been pruned, in the order of their
arrival. -/
def retained (retention : Span) (log : List Delivery) (kind : Resource) : List Sample :=
  survivors kind (log.flatMap (·.steps retention))

def retainedIn (retention : Span) (log : List Delivery) (now : Moment) (window : Span)
    (kind : Resource) : List Sample :=
  (retained retention log kind).filter fun s => s.takenAt.nanos ≤ now.nanos ∧
    (Moment.Nameable (now.nanos - window.nanos) → now.nanos - window.nanos ≤ s.takenAt.nanos)

theorem sorts_retained (retention : Span) (log : List Delivery) (kind : Resource) :
    Sorts (retained retention log kind) ((ofDeliveries retention log).series kind) := by
  rw [ofDeliveries_eq_after]
  exact sorts_survivors _ kind

theorem get_perm_retainedIn (retention : Span) (log : List Delivery) (now : Moment)
    (window : Span) (kind : Resource) :
    ((ofDeliveries retention log).get kind now (some window)).Perm
      (retainedIn retention log now window kind) := by
  have hperm := ((sorts_retained retention log kind).filter
    fun s => inWindow now window s.takenAt).perm
  simpa only [get, retainedIn, inWindow_eq] using hperm

end History

namespace Recorder.Shared

open History

variable {config : SamplingConfig} {bus : Bus Measurement} {w : Shared} {steps : List Step}

/-- What the two readings of the load tell at any moment of what has been delivered and is
retained.  Neither of them changes anything. -/
theorem loads_of_retained (h : Execution (fresh config bus) steps w)
    (hactive : w.recorder.active)
    (hsize : ∀ kind, (retained config.retention (delivered steps) kind).length < 2 ^ 53)
    (c : LoadConfig) (now : Moment) :
    (∃ load, w.recorder.windowLoad c now = .ok load ∧ c.Reads now load fun kind =>
      WindowReading (c.threshold kind)
        (retainedIn config.retention (delivered steps) now c.window kind)) ∧
    (∃ load, w.recorder.currentLoad c now = .ok load ∧ c.Reads now load fun kind =>
      LatestReading (c.threshold kind) (retained config.retention (delivered steps) kind)) ∧
    ∀ timeline, (Simulation.Script.perform timeline .windowLoad).2 = timeline ∧
      (Simulation.Script.perform timeline .currentLoad).2 = timeline := by
  obtain ⟨history, hhistory⟩ := Option.isSome_iff_exists.mp hactive
  obtain rfl : history = ofDeliveries config.retention (delivered steps) :=
    (logged_of_execution h).history_eq history hhistory
  set history := ofDeliveries config.retention (delivered steps)
  have hwindow : w.recorder.windowLoad c now = .ok (c.windowLoad history now) := by
    rw [windowLoad, hhistory]
  have hcurrent : w.recorder.currentLoad c now = .ok (c.currentLoad history now) := by
    rw [currentLoad, hhistory]
  refine ⟨⟨_, hwindow, LoadConfig.reads_load fun kind => ?_⟩,
    ⟨_, hcurrent, LoadConfig.reads_load fun kind => ?_⟩, fun timeline => ⟨rfl, rfl⟩⟩
  · have hperm := get_perm_retainedIn config.retention (delivered steps) now c.window kind
    exact windowReading_of_perm hperm ((List.length_filter_le _ _).trans_lt (hsize kind)) _
  · exact latestReading_of_sorts (sorts_retained config.retention (delivered steps) kind) _

/-- At ten seconds the window of five seconds holds the first sample and, on its edge, the
second one, which has come late.  The third one is dated ahead, and so it is the latest. -/
theorem loads_of_retained_of_late : ∃ steps w first late ahead load current,
    Execution (fresh {} (.ofCapacity 1)) steps w ∧
      (delivered steps).map (·.sample) = [first, late, ahead] ∧
      (late.takenAt < first.takenAt ∧ Moment.ofMillis 10000 < ahead.takenAt) ∧
      w.recorder.windowLoad {} (.ofMillis 10000) = .ok load ∧
      load.client.actual = Float.ofNat 1 / Float.ofNat 2 ∧
      w.recorder.currentLoad {} (.ofMillis 10000) = .ok current ∧ current.client.actual = 1 := by
  let first : Sample := ⟨.client 2 1, .ofMillis 10000⟩
  let late : Sample := ⟨.client 0 1, .ofMillis 5000⟩
  let ahead : Sample := ⟨.client 2 1, .ofMillis 20000⟩
  let now : Moment := .ofMillis 10000
  obtain ⟨steps, w, hplay, hactive, hdelivered⟩ : ∃ steps w,
      (fresh {} (.ofCapacity 1)).play
        [.start, .record now first, .record now late, .record now ahead] [] = some (steps, w) ∧
      w.recorder.active ∧ delivered steps = [⟨first, now⟩, ⟨late, now⟩, ⟨ahead, now⟩] :=
    ⟨_, _, rfl, rfl, rfl⟩
  have h : Execution (fresh {} (.ofCapacity 1)) steps w := execution_of_play .start hplay
  have hsize : ∀ kind, (retained ({} : SamplingConfig).retention (delivered steps) kind).length <
      2 ^ 53 := by
    rw [hdelivered]
    rintro (_ | _ | _ | _) <;> decide
  obtain ⟨⟨load, hload, hwindow⟩, ⟨current, hcurrent, hlatest⟩, -⟩ :=
    loads_of_retained h hactive hsize {} now
  have hwindow' := hwindow.ratio .client
  have hlatest' := hlatest.ratio .client
  rw [hdelivered] at hwindow' hlatest'
  refine ⟨steps, w, first, late, ahead, load, current, h, by rw [hdelivered]; rfl, by decide,
    hload, hwindow'.actual_eq (by decide), hcurrent, ?_⟩
  exact hlatest'.actual_eq ahead ⟨[first, late], [], rfl, by decide, by decide⟩

end Recorder.Shared

end ElasticPool
