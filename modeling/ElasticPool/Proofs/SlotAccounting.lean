import ElasticPool.Proofs.LiveRun

namespace ElasticPool

open Journal

variable {α : Type}

theorem toNat_succ_of_lt {n bound : UInt64} (h : n < bound) : (n + 1).toNat = n.toNat + 1 := by
  have hlt : n.toNat < bound.toNat := UInt64.lt_iff_toNat_lt.mp h
  have hbound : bound.toNat < 2 ^ 64 := bound.toNat_lt
  rw [UInt64.toNat_add, UInt64.toNat_one, Nat.mod_eq_of_lt (by omega)]

theorem toNat_pred_of_ne_zero {n : UInt64} (h : n ≠ 0) : (n - 1).toNat = n.toNat - 1 := by
  have hpos : 0 < n.toNat := by
    rw [Nat.pos_iff_ne_zero]
    intro hzero
    exact h (UInt64.toNat_inj.mp hzero)
  exact UInt64.toNat_sub_of_le _ _ (UInt64.le_iff_toNat_le.mpr hpos)

namespace Scaling

variable {s : Settings} {desired : UInt64}

theorem next?_mem {c : ScalingConfig} {current next : UInt64} {idle : Bool}
    (hdesired : s.minimum ≤ desired ∧ desired ≤ s.maximum)
    (hnext : next? s c desired current idle = some next) :
    s.minimum ≤ next ∧ next ≤ s.maximum := by
  have hclamped (n : UInt64) : s.minimum ≤ s.clamp n ∧ s.clamp n ≤ s.maximum :=
    ⟨s.minimum_le_clamp n, s.clamp_le_maximum n⟩
  unfold next? at hnext
  split at hnext
  · split at hnext
    · obtain ⟨n, -, rfl⟩ := Option.map_eq_some_iff.mp hnext
      exact hclamped n
    · exact Option.some.inj hnext ▸ hdesired
  · exact Option.some.inj hnext ▸ hclamped _

end Scaling

namespace Pool

theorem rescaled_mem {p : Pool α} (load : SystemLoad)
    (hdesired : p.settings.minimum ≤ p.desired ∧ p.desired ≤ p.settings.maximum) :
    p.settings.minimum ≤ (p.rescaled load).desired ∧
      (p.rescaled load).desired ≤ p.settings.maximum := by
  rw [rescaled]
  cases hnext : Scaling.next? p.settings p.config p.desired p.current load.idle with
  | none => exact hdesired
  | some next => exact Scaling.next?_mem hdesired hnext

/-- The account of a live run under the given settings. -/
structure Balanced (s : Settings) (current desired : UInt64) (run : Run α) (j : List Entry) :
    Prop where
  minimum_le_desired : s.minimum ≤ desired
  desired_le_maximum : desired ≤ s.maximum
  current_le_maximum : current ≤ s.maximum
  current_eq : current.toNat = run.inFlight.length
  inFlight_nodup : run.inFlight.Nodup
  mem_inFlight : ∀ k, k ∈ run.inFlight ↔ .started k ∈ j ∧ ∀ result, .joined k result ∉ j
  starts_eq : starts j = List.range run.started
  started_of_joined : ∀ k result, .joined k result ∈ j → .started k ∈ j

namespace Balanced

variable {s : Settings} {current desired desired' : UInt64} {run run' : Run α}
  {j entries : List Entry}

theorem lt_started (h : Balanced s current desired run j) {k : Nat} (hstarted : .started k ∈ j) :
    k < run.started := by
  rw [← mem_starts, h.starts_eq, List.mem_range] at hstarted
  exact hstarted

theorem inFlight_ne_nil (h : Balanced s current desired run j) (hfull : desired ≤ current) :
    run.inFlight ≠ [] := by
  rintro hempty
  have hzero : current.toNat = 0 := by rw [h.current_eq, hempty, List.length_nil]
  have hone : 1 ≤ s.minimum.toNat := UInt64.le_iff_toNat_le.mp s.one_le_minimum
  have hlow : s.minimum.toNat ≤ desired.toNat := UInt64.le_iff_toNat_le.mp h.minimum_le_desired
  have hhigh : desired.toNat ≤ current.toNat := UInt64.le_iff_toNat_le.mp hfull
  omega

theorem append_of_still (h : Balanced s current desired run j)
    (hlow : s.minimum ≤ desired') (hhigh : desired' ≤ s.maximum)
    (hinFlight : run'.inFlight = run.inFlight) (hcount : run'.started = run.started)
    (hstarted : ∀ k, .started k ∉ entries) (hjoined : ∀ k result, .joined k result ∉ entries) :
    Balanced s current desired' run' (j ++ entries) where
  minimum_le_desired := hlow
  desired_le_maximum := hhigh
  current_le_maximum := h.current_le_maximum
  current_eq := by rw [h.current_eq, hinFlight]
  inFlight_nodup := by
    rw [hinFlight]
    exact h.inFlight_nodup
  mem_inFlight k := by simp [hinFlight, h.mem_inFlight, hstarted, hjoined]
  starts_eq := by
    have hnone : starts entries = [] := by
      rw [List.eq_nil_iff_forall_not_mem]
      intro k hk
      exact hstarted k (mem_starts.mp hk)
    rw [starts_append, hnone, List.append_nil, h.starts_eq, hcount]
  started_of_joined k result hmem := by
    have hold : .joined k result ∈ j := by simpa [hjoined] using hmem
    exact List.mem_append_left _ (h.started_of_joined k result hold)

theorem append_joined (h : Balanced s current desired run j) {k : Nat} (hmem : k ∈ run.inFlight)
    (result : Except String Unit) (hinFlight : run'.inFlight = run.inFlight.erase k)
    (hcount : run'.started = run.started) :
    Balanced s (if current = 0 then 0 else current - 1) desired run'
      (j ++ [.joined k result]) := by
  have hlength : 0 < run.inFlight.length := List.length_pos_of_mem hmem
  have hnonzero : current ≠ 0 := by
    rintro rfl
    have hzero := h.current_eq
    simp at hzero
    omega
  have hpred : (current - 1).toNat = current.toNat - 1 := toNat_pred_of_ne_zero hnonzero
  rw [if_neg hnonzero]
  refine ⟨h.minimum_le_desired, h.desired_le_maximum, ?_, ?_, ?_, fun k' => ?_, ?_, ?_⟩
  · have hbound := UInt64.le_iff_toNat_le.mp h.current_le_maximum
    exact UInt64.le_iff_toNat_le.mpr (by omega)
  · rw [hinFlight, List.length_erase_of_mem hmem, hpred, h.current_eq]
  · rw [hinFlight]
    exact h.inFlight_nodup.erase k
  · rw [hinFlight, h.inFlight_nodup.mem_erase_iff, h.mem_inFlight]
    constructor
    · rintro ⟨hne, hstarted, hopen⟩
      refine ⟨List.mem_append_left _ hstarted, fun result' hmem' => ?_⟩
      rcases List.mem_append.mp hmem' with hold | hnew
      · exact hopen result' hold
      · simp [hne] at hnew
    · rintro ⟨hstarted, hopen⟩
      refine ⟨?_, by simpa using hstarted, fun result' hold =>
        hopen result' (List.mem_append_left _ hold)⟩
      rintro rfl
      exact hopen result (by simp)
  · rw [starts_append, h.starts_eq, hcount]
    simp [starts]
  · intro k' result' hmem'
    rcases List.mem_append.mp hmem' with hold | hnew
    · exact List.mem_append_left _ (h.started_of_joined k' result' hold)
    · obtain ⟨rfl, -⟩ : k' = k ∧ result' = result := by simpa using hnew
      exact List.mem_append_left _ ((h.mem_inFlight k').mp hmem).1

theorem append_started (h : Balanced s current desired run j) (hroom : current < desired)
    (hinFlight : run'.inFlight = run.inFlight ++ [run.started])
    (hcount : run'.started = run.started + 1) :
    Balanced s (current + 1) desired run' (j ++ [.started run.started]) := by
  have hsucc : (current + 1).toNat = current.toNat + 1 := toNat_succ_of_lt hroom
  have hnew : .started run.started ∉ j := fun hmem => absurd (h.lt_started hmem) (Nat.lt_irrefl _)
  have hunjoined : ∀ result, .joined run.started result ∉ j := fun result hmem =>
    hnew (h.started_of_joined _ result hmem)
  refine ⟨h.minimum_le_desired, h.desired_le_maximum, ?_, ?_, ?_, fun k => ?_, ?_, ?_⟩
  · have hless := UInt64.lt_iff_toNat_lt.mp hroom
    have hbound := UInt64.le_iff_toNat_le.mp h.desired_le_maximum
    exact UInt64.le_iff_toNat_le.mpr (by omega)
  · rw [hinFlight, List.length_append, hsucc, h.current_eq]
    rfl
  · rw [hinFlight, List.nodup_append]
    refine ⟨h.inFlight_nodup, by simp, ?_⟩
    rintro k hk k' hk' rfl
    obtain rfl : k = run.started := by simpa using hk'
    exact hnew ((h.mem_inFlight _).mp hk).1
  · rw [hinFlight, List.mem_append, h.mem_inFlight]
    constructor
    · rintro (⟨hstarted, hopen⟩ | hk)
      · exact ⟨List.mem_append_left _ hstarted, by simpa using hopen⟩
      · obtain rfl : k = run.started := by simpa using hk
        exact ⟨by simp, by simpa using hunjoined⟩
    · rintro ⟨hstarted, hopen⟩
      rcases List.mem_append.mp hstarted with hold | hlast
      · exact .inl ⟨hold, fun result hmem => hopen result (List.mem_append_left _ hmem)⟩
      · exact .inr (by simpa using hlast)
  · rw [starts_append, h.starts_eq, hcount, List.range_succ]
    rfl
  · intro k result hmem
    have hold : .joined k result ∈ j := by simpa using hmem
    exact List.mem_append_left _ (h.started_of_joined k result hold)

end Balanced

section

variable [Scalar α] {s : Settings} {c : ScalingConfig} {p : Pool α} {run : Run α}
  {now : Moment} {event : RunEvent} {t : RunTurn α} {j : List Entry}

theorem balanced_of_reaction (hsettings : p.settings = s) (hadmits : run.Admits now event)
    (hreaction : run.Reaction p now event t) (h : Balanced s p.current p.desired run j) :
    Balanced s t.pool.current t.pool.desired t.run (j ++ reactionEntries run event t) := by
  have hlow := h.minimum_le_desired
  have hhigh := h.desired_le_maximum
  have hrescaled (load : SystemLoad) :
      s.minimum ≤ (p.rescaled load).desired ∧ (p.rescaled load).desired ≤ s.maximum := by
    subst hsettings
    exact rescaled_mem load ⟨hlow, hhigh⟩
  have hreaped (k : Nat) (result : Except String Unit) (hmem : k ∈ run.inFlight) (run' : Run α)
      (hinFlight : run'.inFlight = run.inFlight.erase k) (hcount : run'.started = run.started) :
      Balanced s p.freed.current p.desired run' (j ++ [.joined k result]) :=
    h.append_joined hmem result hinFlight hcount
  cases hreaction with
  | @resumed k _ _ =>
      have hjoined := hreaped k (.ok ()) hadmits { run with inFlight := run.inFlight.erase k }
        rfl rfl
      rw [show reactionEntries run (.joined k (.ok ())) _ =
        [.joined k (.ok ())] ++ [.asked .finished] from rfl, ← List.append_assoc]
      exact hjoined.append_of_still hlow hhigh rfl rfl (by simp) (by simp)
  | @reaped k _ _ => exact hreaped k (.ok ()) hadmits _ rfl rfl
  | @draining k result cause signals _ _ | @drained k result cause signals _ _ =>
      rw [reactionEntries_joined signals rfl]
      exact hreaped k result hadmits _ rfl rfl
  | unparked signals _ _ =>
      exact h.append_of_still (hrescaled _).1 (hrescaled _).2 rfl rfl
        (by simp [reactionEntries]) (by simp [reactionEntries])
  | rescaled signals _ =>
      exact h.append_of_still (hrescaled _).1 (hrescaled _).2 rfl rfl
        (by simp [reactionEntries]) (by simp [reactionEntries])
  | sought _ hasked =>
      rw [reactionEntries_sought hasked, RunTurn.seekMore_eq]
      refine h.append_of_still hlow hhigh rfl rfl ?_ ?_ <;> split <;> simp
  | @launched budget _ hasked hroom _ =>
      let charged : RunTurn α := { pool := p, run := { run with budget } }
      -- The start stands between the answer and the next question, and it alone is counted.
      have hanswered :
        Balanced s p.current p.desired charged.run (j ++ [.answered .ready true]) :=
        h.append_of_still hlow hhigh rfl rfl (by simp) (by simp)
      have hstarted : Balanced s (p.current + 1) p.desired charged.startOne.run
          (j ++ [.answered .ready true] ++ [.started run.started]) :=
        hanswered.append_started hroom rfl rfl
      rw [reactionEntries_launched hasked,
        show ([.answered .ready true, .started run.started] : List Entry) =
          [.answered .ready true] ++ [.started run.started] from rfl,
        ← List.append_assoc, ← List.append_assoc, RunTurn.seekMore_eq]
      refine hstarted.append_of_still hlow hhigh rfl rfl ?_ ?_ <;> split <;> simp
  | misjudged | reported _ | finished _ hasked _ | stragglers _ hasked _ | postponed _ hasked
  | overtaken _ hasked _ | exhausted _ _ hasked _ _ | awoke _ _ =>
      refine h.append_of_still hlow hhigh rfl rfl ?_ ?_ <;>
        simp [reactionEntries, *]

theorem balanced_opening (now : Moment) :
    Balanced s 0 s.desired ((fresh s c).opening now : Run α) [.asked .finished] :=
  ⟨s.minimum_le_desired, s.desired_le_maximum, UInt64.zero_le, rfl, List.nodup_nil,
    by simp [opening, Run.fresh], rfl, by simp⟩

/-- A run keeps the account that it had when it was cancelled. -/
theorem exists_balanced_of_execution {steps : List (Step α)} {i : Nat}
    (h : Execution (fresh s c) steps p) (hactive : p.active? i = some run) :
    ∃ current desired,
      Balanced s current desired { run with cancelled := false } (journal i steps) := by
  obtain ⟨current, desired, hbalanced, -⟩ := active_induction (Balanced s) balanced_opening
    (fun hsettings _ _ hadmits hreaction _ hbalanced =>
      balanced_of_reaction hsettings hadmits hreaction hbalanced) h hactive
  exact ⟨current, desired, hbalanced⟩

/-- What a run holds in flight agrees with its journal, also once the run has been cancelled. -/
theorem mem_inFlight_of_execution {steps : List (Step α)} {i : Nat}
    (h : Execution (fresh s c) steps p) (hactive : p.active? i = some run) (k : Nat) :
    k ∈ run.inFlight ↔
      .started k ∈ journal i steps ∧ ∀ result, .joined k result ∉ journal i steps := by
  obtain ⟨_, _, hbalanced⟩ := exists_balanced_of_execution h hactive
  exact hbalanced.mem_inFlight k

theorem balanced_of_execution {steps : List (Step α)} {i : Nat}
    (h : Execution (fresh s c) steps p) (hactive : p.active? i = some run)
    (hlive : run.cancelled = false) :
    Balanced s p.current p.desired run (journal i steps) := by
  refine live_induction (Balanced s) balanced_opening ?_ h hactive hlive
  intro p run now event t j hsettings _ _ hadmits hreaction _ hbalanced
  exact balanced_of_reaction hsettings hadmits hreaction hbalanced

theorem current_eq_zero_of_inactive {steps : List (Step α)} (h : Execution (fresh s c) steps p)
    (hinactive : ∀ i, p.active? i = none) : p.current = 0 := by
  have hlife := lifecycle_of_execution h
  apply hlife.current_of_resting
  intro hrunning
  obtain ⟨i, run, hactive⟩ := hlife.active_of_running hrunning
  simp [hinactive] at hactive

theorem current_le_maximum_of_execution {steps : List (Step α)}
    (h : Execution (fresh s c) steps p) : p.current ≤ s.maximum := by
  rcases Classical.em (∃ i run, p.active? i = some run) with ⟨i, run, hactive⟩ | hnone
  · cases hcancelled : run.cancelled with
    | false => exact (balanced_of_execution h hactive hcancelled).current_le_maximum
    | true =>
        rw [(lifecycle_of_execution h).current_of_cancelled i run hactive hcancelled]
        exact UInt64.zero_le
  · have hinactive : ∀ i, p.active? i = none := by
      intro i
      rw [Option.eq_none_iff_forall_ne_some]
      intro run hactive
      exact hnone ⟨i, run, hactive⟩
    rw [current_eq_zero_of_inactive h hinactive]
    exact UInt64.zero_le

theorem mem_inFlight_of_joined {m : Move} {effects : List Effect} {q : Pool α} {i k : Nat}
    {result : Except String Unit} (hpart : Part p i m effects q)
    (hmem : .joined k result ∈ (⟨p, m, effects, q⟩ : Step α).entries i) :
    ∃ run, p.active? i = some run ∧ run.cancelled = false ∧ k ∈ run.inFlight := by
  have htaken : ∀ {event : RunEvent} {run : Run α} {effects : List Effect},
      .joined k result ∈ (event.entry? run.dispatch.question?).toList ++ Effect.entries effects →
      event = .joined k result := by
    intro event run effects hmem
    rcases List.mem_append.mp hmem with hevent | heffect
    · cases event <;> simp_all
    · exact absurd heffect (Effect.joined_not_mem_entries _ k result)
  cases hpart with
  | bystander hentries _ _ => simp [hentries] at hmem
  | begun hcall => simp [entries_begun hcall] at hmem
  | left hactive hcancelled => simp [entries_left hactive hcancelled] at hmem
  | aborted _ => simp [Step.entries, Move.call?] at hmem
  | @dropped run _ => simp [entries_dropped run] at hmem
  | moved hactive hlive hadmits _ _ | ended hactive hlive hadmits _ _ =>
      rw [entries_of_taken hactive hlive] at hmem
      obtain rfl := htaken hmem
      exact ⟨_, hactive, hlive, hadmits⟩

/-- Between the turns of a live run, the current concurrency is the number of invocations
that have been started and not yet joined, and it is at most the maximum.  Without a run it
is zero.  No invocation that is joined finds it at zero. -/
theorem current_counts_inFlight {steps : List (Step α)} (h : Execution (fresh s c) steps p) :
    (∀ i run, p.active? i = some run → run.cancelled = false →
      p.current.toNat = run.inFlight.length ∧ p.current ≤ s.maximum ∧ run.inFlight.Nodup ∧
        ∀ k, k ∈ run.inFlight ↔
          .started k ∈ journal i steps ∧ ∀ result, .joined k result ∉ journal i steps) ∧
    ((∀ i, p.active? i = none) → p.current = 0) ∧
    ∀ e ∈ steps, ∀ i k result, .joined k result ∈ e.entries i → e.before.current ≠ 0 := by
  refine ⟨?_, ?_, ?_⟩
  · intro i run hactive hlive
    have hbalanced := balanced_of_execution h hactive hlive
    exact ⟨hbalanced.current_eq, hbalanced.current_le_maximum, hbalanced.inFlight_nodup,
      hbalanced.mem_inFlight⟩
  · exact current_eq_zero_of_inactive h
  · intro e hmem i k result hjoined hzero
    obtain ⟨earlier, later, -, hbefore, hmove⟩ := h.of_mem hmem
    have hpart := part_of_execution hbefore hmove i
    obtain ⟨run, hactive, hlive, hinFlight⟩ := mem_inFlight_of_joined hpart hjoined
    have hbalanced := balanced_of_execution hbefore hactive hlive
    have hempty : run.inFlight.length = 0 := by
      rw [← hbalanced.current_eq, hzero]
      rfl
    simp [List.length_eq_zero_iff.mp hempty] at hinFlight

/-- Two invocations have been started and one of them has been joined. -/
theorem current_counts_inFlight_of_pair : ∃ steps, ∃ p : Pool Float, ∃ run,
    Execution (fresh .pair {}) steps p ∧ p.active? 0 = some run ∧ run.cancelled = false ∧
      p.current.toNat = run.inFlight.length ∧ run.inFlight = [1] := by
  let moves : List Move := [.call, .enter, .answer false, .answer true, .answer true,
    .join 0 (.ok ())]
  obtain ⟨steps, p, hplay, run, hactive, hlive, hinFlight⟩ : ∃ steps, ∃ p : Pool Float,
      (fresh .pair {}).play moves = some (steps, p) ∧ ∃ run,
        p.active? 0 = some run ∧ run.cancelled = false ∧ run.inFlight = [1] :=
    ⟨_, _, rfl, _, rfl, rfl, rfl⟩
  have h : Execution (fresh .pair {}) steps p := execution_of_play hplay
  exact ⟨steps, p, run, h, hactive, hlive,
    ((current_counts_inFlight h).1 0 run hactive hlive).1, hinFlight⟩

end

end Pool

end ElasticPool
