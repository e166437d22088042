import ElasticPool.Proofs.Lifecycle

namespace ElasticPool

open Journal

variable {α : Type}

namespace Pool

section

variable {p q : Pool α} {m : Move} {effects : List Effect} {i : Nat}

/-- What a reaction of a run shows. -/
def reactionEntries (run : Run α) (event : RunEvent) (t : RunTurn α) : List Entry :=
  (event.entry? run.dispatch.question?).toList ++ Effect.entries t.effects

theorem reactionEntries_joined {run : Run α} {k : Nat} {result : Except String Unit}
    {t : RunTurn α} (signals : List Signal) (heffects : t.effects = signals.map .report) :
    reactionEntries run (.joined k result) t = [.joined k result] := by
  simp [reactionEntries, heffects]

/-- A start shows the answer that allowed it, the start itself and, with room for more,
the next question. -/
theorem reactionEntries_launched {run : Run α} {budget : Budget α}
    (hasked : run.dispatch = .askedReady) :
    reactionEntries run (.answered true)
        ({ pool := p, run := { run with budget } } : RunTurn α).startOne.seekMore =
      [.answered .ready true, .started run.started] ++
        if p.current + 1 < p.desired then [.asked .ready] else [] := by
  rw [RunTurn.seekMore_eq]
  simp [reactionEntries, hasked, RunTurn.startOne, RunTurn.report, RunTurn.perform]
  split <;> simp

theorem reactionEntries_sought {run : Run α} (hasked : run.dispatch = .askedFinished) :
    reactionEntries run (.answered false) ({ pool := p, run } : RunTurn α).seekMore =
      [.answered .finished false] ++ if p.current < p.desired then [.asked .ready] else [] := by
  rw [RunTurn.seekMore_eq]
  simp [reactionEntries, hasked]
  split <;> simp

theorem entries_of_taken {now : Moment} {sampling : Bool} {event : RunEvent}
    {run : Run α} {effects : List Effect} (hactive : p.active? i = some run)
    (hlive : run.cancelled = false) :
    (⟨p, .turn i now sampling (some event), effects, q⟩ : Step α).entries i =
      (event.entry? run.dispatch.question?).toList ++ Effect.entries effects := by
  simp [Step.entries, Step.taken?, Move.call?, hactive, hlive]

theorem entries_ended {now : Moment} {sampling : Bool} {event : RunEvent}
    {run : Run α} {t : RunTurn α} {outcome : Outcome} (hactive : p.active? i = some run)
    (hlive : run.cancelled = false) :
    (⟨p, .turn i now sampling (some event), t.effects ++ (t.pool.leave i t.run outcome).2, q⟩ :
      Step α).entries i = reactionEntries run event t ++ [.cancelled t.run.inFlight] := by
  rw [entries_of_taken hactive hlive]
  simp [reactionEntries, leave]

theorem entries_begun {now : Moment} {sampling : Bool} {event? : Option RunEvent}
    {signal : Signal} (hcall : p.calls[i]? = some .waiting) :
    (⟨p, .turn i now sampling event?, [.report signal, .askFinished], q⟩ : Step α).entries i =
      [.asked .finished] := by
  have hinactive : p.active? i = none := by simp [active?, hcall]
  cases event? <;> simp [Step.entries, Step.taken?, Move.call?, hinactive]

theorem entries_left {now : Moment} {sampling : Bool} {event? : Option RunEvent}
    {run : Run α} (hactive : p.active? i = some run) (hcancelled : run.cancelled = true) :
    (⟨p, .turn i now sampling event?, (p.leave i run .aborted).2, q⟩ : Step α).entries i =
      [.cancelled run.inFlight] := by
  cases event? <;> simp [Step.entries, Step.taken?, Move.call?, hactive, hcancelled, leave]

theorem entries_dropped (run : Run α) :
    (⟨p, .drop i, [.cancel run.inFlight], q⟩ : Step α).entries i =
      [.cancelled run.inFlight] := by
  simp [Step.entries, Step.taken?, Move.call?]

theorem entries_of_ne {j : Nat} (hmove : m.call? = some j) (hne : j ≠ i) :
    (⟨p, m, effects, q⟩ : Step α).entries i = [] := by
  rw [Step.entries, if_neg]
  rw [hmove]
  exact fun heq => hne (Option.some.inj heq)

theorem entries_of_refused {now : Moment} {sampling : Bool} {event? : Option RunEvent} {j : Nat}
    (hinactive : p.active? j = none) :
    (⟨p, .turn j now sampling event?, [], q⟩ : Step α).entries i = [] := by
  cases event? <;> simp [Step.entries, Step.taken?, hinactive]

@[simp] theorem phase_leave (run : Run α) (outcome : Outcome) :
    (p.leave i run outcome).1.phase = outcome.phase := by
  cases outcome <;> rfl

theorem phase_leave_ne_running (run : Run α) (outcome : Outcome) :
    (p.leave i run outcome).1.phase ≠ .running := by
  cases outcome <;> simp [Outcome.phase]

theorem call_leave_self {call : Call α} (hcall : p.calls[i]? = some call) (run : Run α)
    (outcome : Outcome) : (p.leave i run outcome).1.calls[i]? = some (.ended outcome.result) := by
  simp [leave, setCall, release, p.lt_length_of_call hcall]

theorem active?_leave_self {run run' : Run α} (hactive : p.active? i = some run)
    (outcome : Outcome) : (p.leave i run' outcome).1.active? i = none := by
  have hcall : p.calls[i]? = some (.active run) := (p.active?_eq_some_iff).mp hactive
  simp [active?, call_leave_self hcall]

theorem active?_aborted_self {run : Run α} (hactive : p.active? i = some run) :
    (p.setCall i (.active { run with cancelled := true })).active? i =
      some { run with cancelled := true } :=
  p.active?_setCall_self ((p.active?_eq_some_iff).mp hactive)

theorem active?_dropped_self {run : Run α} (hactive : p.active? i = some run) :
    (p.release.setCall i .dropped).active? i = none := by
  have hcall : p.calls[i]? = some (.active run) := (p.active?_eq_some_iff).mp hactive
  exact p.release.active?_setCall_self hcall

def Over (p : Pool α) (i : Nat) : Prop :=
  ∃ call, p.calls[i]? = some call ∧ call.run? = none ∧ call ≠ .waiting

theorem Over.active?_eq_none (h : p.Over i) : p.active? i = none := by
  obtain ⟨call, hcall, hrun, -⟩ := h
  cases call <;> simp_all [active?, Call.run?]

end

section

variable [Scalar α] {p q : Pool α} {m : Move} {effects : List Effect} {i : Nat}

theorem call_of_reaction {run : Run α} {now : Moment} {event : RunEvent} {t : RunTurn α}
    (hactive : p.active? i = some run) (hreaction : run.Reaction p now event t) :
    t.pool.calls[i]? = some (.active run) :=
  (t.pool.active?_eq_some_iff).mp ((hreaction.active?_eq i).trans hactive)

theorem active?_moved_self {run : Run α} {now : Moment} {event : RunEvent} {t : RunTurn α}
    (hactive : p.active? i = some run) (hreaction : run.Reaction p now event t) :
    (t.pool.setCall i (.active t.run)).active? i = some t.run :=
  t.pool.active?_setCall_self (call_of_reaction hactive hreaction)

/-- The part that a call has in a move. -/
inductive Part (p : Pool α) (i : Nat) : Move → List Effect → Pool α → Prop
  | bystander {m : Move} {effects : List Effect} {q : Pool α}
      (hentries : (⟨p, m, effects, q⟩ : Step α).entries i = [])
      (hactive : q.active? i = p.active? i)
      (hlevels : ∀ run, p.active? i = some run → q.current = p.current ∧ q.desired = p.desired) :
      Part p i m effects q
  | begun {now : Moment} {event? : Option RunEvent} {signal : Signal}
      (hcall : p.calls[i]? = some .waiting) :
      Part p i (.turn i now true event?) [.report signal, .askFinished]
        ((p.begun i).setCall i (.active (p.opening now)))
  | moved {now : Moment} {sampling : Bool} {event : RunEvent} {run : Run α} {t : RunTurn α}
      (hactive : p.active? i = some run) (hlive : run.cancelled = false)
      (hadmits : run.Admits now event) (hreaction : run.Reaction p now event t)
      (houtcome : t.outcome? = none) :
      Part p i (.turn i now sampling (some event)) t.effects
        (t.pool.setCall i (.active t.run))
  | ended {now : Moment} {sampling : Bool} {event : RunEvent} {run : Run α} {t : RunTurn α}
      {outcome : Outcome} (hactive : p.active? i = some run) (hlive : run.cancelled = false)
      (hadmits : run.Admits now event) (hreaction : run.Reaction p now event t)
      (houtcome : t.outcome? = some outcome) :
      Part p i (.turn i now sampling (some event))
        (t.effects ++ (t.pool.leave i t.run outcome).2) (t.pool.leave i t.run outcome).1
  | left {now : Moment} {sampling : Bool} {event? : Option RunEvent} {run : Run α}
      (hactive : p.active? i = some run) (hcancelled : run.cancelled = true) :
      Part p i (.turn i now sampling event?) (p.leave i run .aborted).2
        (p.leave i run .aborted).1
  | aborted {run : Run α} (hactive : p.active? i = some run) :
      Part p i .abort [.report .abortRequested]
        { p.setCall i (.active { run with cancelled := true }) with
          revoked := p.revoked ++ [i], current := 0 }
  | dropped {run : Run α} (hactive : p.active? i = some run) :
      Part p i (.drop i) [.cancel run.inFlight] (p.release.setCall i .dropped)

theorem part_of_active (hlife : p.Lifecycle) {j : Nat} {run : Run α}
    (hactive : p.active? j = some run) (hne : j ≠ i)
    (hentries : (⟨p, m, effects, q⟩ : Step α).entries i = [])
    (hafter : q.active? i = p.active? i) : Part p i m effects q := by
  refine .bystander hentries hafter fun run' hactive' => ?_
  exact absurd (hlife.eq_of_active hactive hactive') hne

theorem part_of_transition (hlife : p.Lifecycle) (h : Transition p m q effects) (i : Nat) :
    Part p i m effects q := by
  cases h with
  | called => exact .bystander rfl (p.active?_call i) fun _ _ => ⟨rfl, rfl⟩
  | @refused j _ _ _ _ hcall _ =>
      exact .bystander (entries_of_refused (by simp [active?, hcall]))
        (p.active?_setCall_of_inactive hcall rfl rfl i) fun _ _ => ⟨rfl, rfl⟩
  | @entered j now _ _ hcall hresting =>
      rcases Decidable.em (j = i) with rfl | hne
      · exact .begun hcall
      · refine .bystander (entries_of_ne rfl hne) ((p.begun j).active?_setCall_of_ne hne _) ?_
        intro run hactive
        simp [hlife.active?_eq_none hresting] at hactive
  | @left j _ _ _ run hactive hcancelled =>
      rcases Decidable.em (j = i) with rfl | hne
      · exact .left hactive hcancelled
      · exact part_of_active hlife hactive hne (entries_of_ne rfl hne)
          (active?_setCall_of_ne _ hne _)
  | @moved j _ _ _ run t hactive hlive hadmits hreaction houtcome =>
      rcases Decidable.em (j = i) with rfl | hne
      · exact .moved hactive hlive hadmits hreaction houtcome
      · exact part_of_active hlife hactive hne (entries_of_ne rfl hne)
          ((active?_setCall_of_ne _ hne _).trans (hreaction.active?_eq i))
  | @ended j _ _ _ run t outcome hactive hlive hadmits hreaction houtcome =>
      rcases Decidable.em (j = i) with rfl | hne
      · exact .ended hactive hlive hadmits hreaction houtcome
      · exact part_of_active hlife hactive hne (entries_of_ne rfl hne)
          ((active?_setCall_of_ne _ hne _).trans (hreaction.active?_eq i))
  | @aborted j run hactive =>
      rcases Decidable.em (j = i) with rfl | hne
      · exact .aborted hactive
      · exact part_of_active hlife hactive hne rfl (p.active?_setCall_of_ne hne _)
  | unaborted _ => exact .bystander rfl rfl fun _ _ => ⟨rfl, rfl⟩
  | @withdrawn j hcall =>
      exact .bystander (by simp [Step.entries, Step.taken?])
        (p.active?_setCall_of_inactive hcall rfl rfl i) fun _ _ => ⟨rfl, rfl⟩
  | @dropped j run hactive =>
      rcases Decidable.em (j = i) with rfl | hne
      · exact .dropped hactive
      · exact part_of_active hlife hactive hne (entries_of_ne rfl hne)
          (p.release.active?_setCall_of_ne hne _)
  | @ignored j hinactive =>
      exact .bystander (by simp [Step.entries, Step.taken?]) rfl fun _ _ => ⟨rfl, rfl⟩

/-- How the run of a call comes to be active after a move, with what the move shows of the
call and with the two concurrencies afterwards. -/
inductive Continues (p : Pool α) (i : Nat) :
    Move → List Entry → UInt64 → UInt64 → Run α → Prop
  | kept {m : Move} {run : Run α} (hactive : p.active? i = some run) :
      Continues p i m [] p.current p.desired run
  | begun {now : Moment} {event? : Option RunEvent} (hcall : p.calls[i]? = some .waiting) :
      Continues p i (.turn i now true event?) [.asked .finished] 0 p.settings.desired
        (p.opening now)
  | moved {now : Moment} {sampling : Bool} {event : RunEvent} {run : Run α} {t : RunTurn α}
      (hactive : p.active? i = some run) (hlive : run.cancelled = false)
      (hadmits : run.Admits now event) (hreaction : run.Reaction p now event t)
      (houtcome : t.outcome? = none) :
      Continues p i (.turn i now sampling (some event)) (reactionEntries run event t)
        t.pool.current t.pool.desired t.run
  | cancelled {run : Run α} (hactive : p.active? i = some run) :
      Continues p i .abort [] 0 p.desired { run with cancelled := true }

theorem continues_of_part {run : Run α} (hpart : Part p i m effects q)
    (hactive : q.active? i = some run) :
    Continues p i m ((⟨p, m, effects, q⟩ : Step α).entries i) q.current q.desired run := by
  cases hpart with
  | bystander hentries hsame hlevels =>
      have hearlier : p.active? i = some run := hsame.symm.trans hactive
      obtain ⟨hcurrent, hdesired⟩ := hlevels run hearlier
      rw [hentries, hcurrent, hdesired]
      exact .kept hearlier
  | @begun now event? signal hcall =>
      have hrun := ((p.begun i).active?_setCall_self hcall).symm.trans hactive
      obtain rfl : p.opening now = run := Option.some.inj hrun
      rw [entries_begun hcall]
      exact .begun hcall
  | moved hearlier hlive hadmits hreaction houtcome =>
      obtain rfl := Option.some.inj ((active?_moved_self hearlier hreaction).symm.trans hactive)
      rw [entries_of_taken hearlier hlive]
      exact .moved hearlier hlive hadmits hreaction houtcome
  | aborted hearlier =>
      obtain rfl := Option.some.inj ((active?_aborted_self hearlier).symm.trans hactive)
      exact .cancelled hearlier
  | ended hearlier _ _ hreaction _ =>
      rw [active?_leave_self ((hreaction.active?_eq i).trans hearlier)] at hactive
      simp at hactive
  | left hearlier _ =>
      rw [active?_leave_self hearlier] at hactive
      simp at hactive
  | dropped hearlier =>
      rw [active?_dropped_self hearlier] at hactive
      simp at hactive

/-- How the active run of a call comes to its end in a move, with what the move shows of the
call and with the pool afterwards. -/
inductive Stops (p : Pool α) (i : Nat) (run : Run α) : Move → List Entry → Pool α → Prop
  | left {now : Moment} {sampling : Bool} {event? : Option RunEvent}
      (hcancelled : run.cancelled = true) :
      Stops p i run (.turn i now sampling event?) [.cancelled run.inFlight]
        (p.leave i run .aborted).1
  | ended {now : Moment} {sampling : Bool} {event : RunEvent} {t : RunTurn α}
      {outcome : Outcome} (hlive : run.cancelled = false) (hadmits : run.Admits now event)
      (hreaction : run.Reaction p now event t) (houtcome : t.outcome? = some outcome) :
      Stops p i run (.turn i now sampling (some event))
        (reactionEntries run event t ++ [.cancelled t.run.inFlight])
        (t.pool.leave i t.run outcome).1
  | dropped : Stops p i run (.drop i) [.cancelled run.inFlight] (p.release.setCall i .dropped)

theorem over_of_stops {run : Run α} {entries : List Entry} (hactive : p.active? i = some run)
    (hstops : Stops p i run m entries q) : q.Over i := by
  have hcall : p.calls[i]? = some (.active run) := (p.active?_eq_some_iff).mp hactive
  cases hstops with
  | left _ => exact ⟨_, call_leave_self hcall run .aborted, rfl, by simp⟩
  | @ended now sampling event t outcome _ _ hreaction _ =>
      have hkept := call_of_reaction hactive hreaction
      exact ⟨_, call_leave_self hkept t.run outcome, rfl, by simp⟩
  | dropped =>
      refine ⟨.dropped, ?_, rfl, by simp⟩
      simp [setCall, release, p.lt_length_of_call hcall]

theorem stops_of_part {run : Run α} (hpart : Part p i m effects q)
    (hactive : p.active? i = some run) (hafter : q.active? i = none) :
    Stops p i run m ((⟨p, m, effects, q⟩ : Step α).entries i) q := by
  have hcall := (p.active?_eq_some_iff).mp hactive
  cases hpart with
  | bystander _ hsame _ => simp [hsame, hactive] at hafter
  | begun hwaiting => simp [hwaiting] at hcall
  | moved hactive' _ _ hreaction _ => simp [active?_moved_self hactive' hreaction] at hafter
  | aborted hactive' =>
      exact absurd ((active?_aborted_self hactive').symm.trans hafter) (Option.some_ne_none _)
  | left hactive' hcancelled =>
      obtain rfl := Option.some.inj (hactive'.symm.trans hactive)
      rw [entries_left hactive hcancelled]
      exact .left hcancelled
  | ended hactive' hlive hadmits hreaction houtcome =>
      obtain rfl := Option.some.inj (hactive'.symm.trans hactive)
      rw [entries_ended hactive hlive]
      exact .ended hlive hadmits hreaction houtcome
  | dropped hactive' =>
      obtain rfl := Option.some.inj (hactive'.symm.trans hactive)
      rw [entries_dropped]
      exact .dropped

end

end Pool

end ElasticPool
