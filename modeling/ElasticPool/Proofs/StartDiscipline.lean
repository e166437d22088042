import ElasticPool.Proofs.RunMemory

namespace ElasticPool

open Journal

variable {α : Type}

namespace Pool

structure Step.Acquires (e : Step α) (i : Nat) (run : Run α) (now : Moment) : Prop where
  move_eq : ∃ sampling, e.move = .turn i now sampling (some (.answered true))
  active?_eq : e.before.active? i = some run
  live : run.cancelled = false
  asked : run.dispatch = .askedReady
  room : e.before.current < e.before.desired

section

variable [Scalar α] {s : Settings} {c : ScalingConfig} {p q : Pool α} {run : Run α}
  {now : Moment} {event : RunEvent} {t : RunTurn α} {i : Nat} {m : Move} {effects : List Effect}

theorem reaction_of_asked (hreaction : run.Reaction p now (.answered true) t)
    (hasked : run.dispatch = .askedReady) (hroom : p.current < p.desired) :
    run.failure? = none ∧ t.outcome? = none ∧ t.run.budget = (run.budget.take now).2 ∧
      ∃ more, reactionEntries run (.answered true) t = [.answered .ready true] ++
        (if (run.budget.take now).1.isOk then [.started run.started] else []) ++ more ∧
          (more = [] ∨ more = [.asked .ready]) := by
  cases hreaction with
  | finished _ hfinished _ | stragglers _ hfinished _ => simp [hasked] at hfinished
  | overtaken _ _ hfull => exact absurd hroom (UInt64.not_lt.mpr hfull)
  | exhausted signals hfailure _ _ hbudget =>
      refine ⟨hfailure, rfl, by rw [hbudget], [], ?_, .inl rfl⟩
      simp [reactionEntries, hasked, hbudget, Except.isOk, Except.toBool]
  | launched hfailure _ _ hbudget =>
      rw [reactionEntries_launched hasked, hbudget, RunTurn.seekMore_eq]
      refine ⟨hfailure, rfl, rfl, _, rfl, ?_⟩
      split <;> simp

theorem still_of_reaction (hreaction : run.Reaction p now event t)
    (hother : event = .answered true → run.dispatch = .askedReady → p.desired ≤ p.current) :
    t.run.budget = run.budget ∧ starts (reactionEntries run event t) = [] := by
  have hnever (hevent : event = .answered true) (hasked : run.dispatch = .askedReady) :
      ¬p.current < p.desired := UInt64.not_lt.mpr (hother hevent hasked)
  cases hreaction with
  | exhausted _ _ hasked hroom _ | launched _ hasked hroom _ =>
      exact absurd hroom (hnever rfl hasked)
  | sought _ hasked =>
      rw [reactionEntries_sought hasked, RunTurn.seekMore_eq]
      refine ⟨rfl, ?_⟩
      split <;> simp
  | _ => simp_all [reactionEntries]

theorem acquires_of_started {k : Nat} (hpart : Part p i m effects q)
    (hmem : .started k ∈ (⟨p, m, effects, q⟩ : Step α).entries i) :
    ∃ run now t, (⟨p, m, effects, q⟩ : Step α).Acquires i run now ∧
      run.Reaction p now (.answered true) t ∧
      (⟨p, m, effects, q⟩ : Step α).entries i = reactionEntries run (.answered true) t := by
  have hasked {run : Run α} {now : Moment} {event : RunEvent} {t : RunTurn α}
      (hreaction : run.Reaction p now event t)
      (hstarted : .started k ∈ reactionEntries run event t) :
      event = .answered true ∧ run.dispatch = .askedReady ∧ p.current < p.desired := by
    rcases Classical.em (event = .answered true → run.dispatch = .askedReady →
      p.desired ≤ p.current) with hother | hother
    · rw [← mem_starts, (still_of_reaction hreaction hother).2] at hstarted
      simp at hstarted
    · simpa using hother
  cases hpart with
  | bystander hentries _ _ => simp [hentries] at hmem
  | begun hcall => simp [entries_begun hcall] at hmem
  | left hactive hcancelled => simp [entries_left hactive hcancelled] at hmem
  | aborted _ => simp [Step.entries, Move.call?] at hmem
  | @dropped run _ => simp [entries_dropped run] at hmem
  | @moved now sampling event run t hactive hlive hadmits hreaction houtcome =>
      rw [entries_of_taken hactive hlive] at hmem ⊢
      obtain ⟨rfl, hdispatch, hroom⟩ := hasked hreaction hmem
      exact ⟨run, now, t, ⟨⟨sampling, rfl⟩, hactive, hlive, hdispatch, hroom⟩, hreaction, rfl⟩
  | @ended now sampling event run t outcome hactive hlive hadmits hreaction houtcome =>
      rw [entries_ended hactive hlive] at hmem
      obtain ⟨rfl, hdispatch, hroom⟩ := hasked hreaction (by simpa using hmem)
      simp [(reaction_of_asked hreaction hdispatch hroom).2.1] at houtcome

theorem budget_eq_of_not_acquires {run' : Run α} (hpart : Part p i m effects q)
    (hbefore : p.active? i = some run) (hafter : q.active? i = some run')
    (hother : ∀ now, ¬(⟨p, m, effects, q⟩ : Step α).Acquires i run now) :
    run'.budget = run.budget := by
  have hcontinues := continues_of_part hpart hafter
  generalize (⟨p, m, effects, q⟩ : Step α).entries i = entries at hcontinues
  generalize q.current = current, q.desired = desired at hcontinues
  cases hcontinues with
  | kept hactive =>
      obtain rfl := Option.some.inj (hactive.symm.trans hbefore)
      rfl
  | begun hcall => simp [active?, hcall] at hbefore
  | @moved now sampling event run t hactive hlive hadmits hreaction houtcome =>
      obtain rfl := Option.some.inj (hactive.symm.trans hbefore)
      apply (still_of_reaction hreaction _).1
      rintro rfl hdispatch
      apply UInt64.not_lt.mp
      intro hroom
      exact hother now ⟨⟨sampling, rfl⟩, hactive, hlive, hdispatch, hroom⟩
  | cancelled hactive =>
      obtain rfl := Option.some.inj (hactive.symm.trans hbefore)
      rfl

/-- A call that asks its budget goes on with what is left, and starts what it is granted. -/
theorem starts_of_acquires (hlife : p.Lifecycle) (hmove : p.move? m = some (q, effects))
    (h : (⟨p, m, effects, q⟩ : Step α).Acquires i run now) :
    ∃ run', q.active? i = some run' ∧ run'.budget = (run.budget.take now).2 ∧
      starts ((⟨p, m, effects, q⟩ : Step α).entries i) =
        if (run.budget.take now).1.isOk then [run.started] else [] := by
  obtain ⟨⟨sampling, rfl⟩, hactive, hlive, hasked, hroom⟩ := h
  obtain ⟨t, -, hreaction, hturn⟩ := reaction_of_turn hlife hactive hlive hmove
  obtain ⟨-, houtcome, hbudget, more, hentries, hmore⟩ :=
    reaction_of_asked hreaction hasked hroom
  obtain ⟨-, rfl, rfl⟩ : t.outcome? = none ∧ q = t.pool.setCall i (.active t.run) ∧
      effects = t.effects := by
    simpa [houtcome] using hturn
  refine ⟨t.run, active?_moved_self hactive hreaction, hbudget, ?_⟩
  rw [entries_of_taken hactive hlive, ← reactionEntries, hentries]
  rcases hmore with rfl | rfl <;> split <;> simp

theorem started_of_start_mem {k : Nat} (hlife : p.Lifecycle)
    (hmove : p.move? m = some (q, effects)) (hmem : .start k ∈ effects) :
    ∃ i, .started k ∈ (⟨p, m, effects, q⟩ : Step α).entries i := by
  have hshown : .started k ∈ Effect.entries effects :=
    List.mem_filterMap.mpr ⟨.start k, hmem, rfl⟩
  cases m with
  | call =>
      obtain ⟨-, rfl⟩ : p.call = q ∧ [] = effects := by simpa [move?] using hmove
      simp at hmem
  | turn i _ _ _ => exact ⟨i, by simp [Step.entries, Move.call?, hshown]⟩
  | abort =>
      cases transition_abort hlife hmove <;> simp at hmem
  | drop i => exact ⟨i, by simp [Step.entries, Move.call?, hshown]⟩

/-- An invocation is started only by the answer that work is ready, below the desired
concurrency, with a start that the budget has just granted, and neither after a failure nor
after an abort.  Every such answer starts at most one invocation, and every start that the
budget grants is used. -/
theorem starts_follow_ready_answers {earlier later : List (Step α)} {e : Step α}
    (h : Execution (fresh s c) (earlier ++ e :: later) p) :
    (∀ k, .start k ∈ e.effects → ∃ i, .started k ∈ e.entries i) ∧
    ∀ i, (∀ k, .started k ∈ e.entries i → ∃ run now, e.Acquires i run now ∧
        (run.budget.take now).1 = .ok () ∧ run.failure? = none ∧ k = run.started ∧
        firstError? (journal i earlier) = none ∧
        latest? (journal i earlier) = some (.asked .ready) ∧
        ∃ more, e.entries i = [.answered .ready true, .started k] ++ more ∧
          (more = [] ∨ more = [.asked .ready])) ∧
      (∀ run now, e.Acquires i run now → ∃ run', e.after.active? i = some run' ∧
        run'.budget = (run.budget.take now).2 ∧
        starts (e.entries i) = if (run.budget.take now).1.isOk then [run.started] else []) ∧
      (∀ run run', e.before.active? i = some run → e.after.active? i = some run' →
        (∀ now, ¬e.Acquires i run now) → run'.budget = run.budget) ∧
      ∀ run, p.active? i = some run → ∃ origin moments,
        run.budget = (Budget.full s.tasksPerMinute origin).after moments ∧
        (Budget.full s.tasksPerMinute origin : Budget α).grants moments =
          (starts (journal i (earlier ++ e :: later))).length := by
  obtain ⟨hbefore, hmove⟩ := h.of_append_cons
  have hlife := lifecycle_of_execution hbefore
  refine ⟨fun k => started_of_start_mem hlife hmove, fun i => ?_⟩
  have hpart := part_of_execution hbefore hmove i
  refine ⟨?_, fun run now => starts_of_acquires hlife hmove,
    fun run run' => budget_eq_of_not_acquires hpart, ?_⟩
  · intro k hstarted
    obtain ⟨run, now, t, hacquires, hreaction, hentries⟩ := acquires_of_started hpart hstarted
    obtain ⟨hfailure, -, -, more, hshown, hmore⟩ :=
      reaction_of_asked hreaction hacquires.asked hacquires.room
    have hremembers := remembers_of_execution hbefore hacquires.active?_eq
    rw [hentries, hshown] at hstarted
    -- A refusal shows no start, so the budget has granted one.
    rcases hgrant : (run.budget.take now).1 with wait | _
    · rcases hmore with rfl | rfl <;> simp [hgrant, Except.isOk, Except.toBool] at hstarted
    · obtain rfl : k = run.started := by
        rcases hmore with rfl | rfl <;>
          simpa [hgrant, Except.isOk, Except.toBool] using hstarted
      refine ⟨run, now, hacquires, hgrant, hfailure, rfl, ?_, ?_, more, ?_, hmore⟩
      · rw [← hremembers.failure?_eq, hfailure]
      · exact hremembers.latest?_eq .ready (by rw [hacquires.asked, Dispatch.question?])
      · rw [hentries, hshown, hgrant]
        rfl
  · intro run hactive
    exact (remembers_of_execution h hactive).budget_eq

/-- The first answer that work is ready starts the first invocation. -/
theorem starts_follow_ready_answers_of_pair : ∃ earlier, ∃ e : Step Float, ∃ p,
    Execution (fresh .pair {}) (earlier ++ [e]) p ∧ .started 0 ∈ e.entries 0 ∧
      ∃ run now, e.Acquires 0 run now ∧ (run.budget.take now).1 = .ok () := by
  let moves : List Move := [.call, .enter, .answer false, .answer true]
  obtain ⟨called, entered, asked, e, p, hplay, hentries⟩ :
      ∃ called entered asked, ∃ e : Step Float, ∃ p,
        (fresh .pair {}).play moves = some ([called, entered, asked] ++ [e], p) ∧
          e.entries 0 = [.answered .ready true, .started 0, .asked .ready] :=
    ⟨_, _, _, _, _, rfl, rfl⟩
  have hstarted : .started 0 ∈ e.entries 0 := by simp [hentries]
  have h := execution_of_play hplay
  obtain ⟨run, now, hacquires, hgranted, -⟩ :=
    ((starts_follow_ready_answers h).2 0).1 0 hstarted
  exact ⟨_, e, p, h, hstarted, run, now, hacquires, hgranted⟩

end

end Pool

end ElasticPool
