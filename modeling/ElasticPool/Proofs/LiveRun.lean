import ElasticPool.Proofs.Part
/-!
The run of a call along an execution.

A run that is active and not cancelled has begun with the question whether all work is
finished, and each later turn of it is a reaction to an event.  Nothing else reaches it.
So a law of runs holds throughout as soon as it holds of a run that has just begun and
every reaction keeps it: `Pool.live_induction`.
-/

namespace ElasticPool

open Journal

variable {α : Type}

namespace Pool

section

variable [Scalar α] {p q : Pool α} {m : Move} {effects : List Effect} {i : Nat}

theorem settings_of_transition (h : Transition p m q effects) :
    q.settings = p.settings ∧ q.config = p.config := by
  cases h with
  | moved _ _ _ hreaction _ =>
      show _ ∧ _
      rw [setCall, hreaction.pool_eq]
      exact ⟨rfl, rfl⟩
  | ended _ _ _ hreaction _ =>
      rw [leave, setCall, release, hreaction.pool_eq]
      exact ⟨rfl, rfl⟩
  | _ => exact ⟨rfl, rfl⟩

/-- A move writes to one call at most, which is waiting or active before and not waiting
afterwards, and it shows nothing of the other calls. -/
theorem calls_of_transition (h : Transition p m q effects) :
    (q.calls = p.calls ∨ q.calls = p.calls ++ [.waiting]) ∧
        (∀ i, (⟨p, m, effects, q⟩ : Step α).entries i = []) ∨
      ∃ j before after, q.calls = p.calls.set j after ∧ p.calls[j]? = some before ∧
        (before = .waiting ∨ before.run?.isSome) ∧ after ≠ .waiting ∧
        ∀ i, j ≠ i → (⟨p, m, effects, q⟩ : Step α).entries i = [] := by
  cases h with
  | called => exact .inl ⟨.inr rfl, fun i => rfl⟩
  | refused hcall _ =>
      exact .inr ⟨_, _, _, rfl, hcall, .inl rfl, by simp, fun i => entries_of_ne rfl⟩
  | entered hcall _ =>
      exact .inr ⟨_, _, _, rfl, hcall, .inl rfl, by simp, fun i => entries_of_ne rfl⟩
  | @left j _ _ _ run hactive _ =>
      exact .inr ⟨j, .active run, _, rfl, (p.active?_eq_some_iff).mp hactive, .inr rfl, by simp,
        fun i => entries_of_ne rfl⟩
  | @moved j _ _ _ run t hactive _ _ hreaction _ =>
      refine .inr ⟨j, .active run, .active t.run, ?_, (p.active?_eq_some_iff).mp hactive,
        .inr rfl, by simp, fun i => entries_of_ne rfl⟩
      rw [setCall, hreaction.pool_eq]
  | @ended j _ _ _ run t outcome hactive _ _ hreaction _ =>
      refine .inr ⟨j, .active run, .ended outcome.result, ?_, (p.active?_eq_some_iff).mp hactive,
        .inr rfl, by simp, fun i => entries_of_ne rfl⟩
      rw [leave, setCall, release, hreaction.pool_eq]
  | @aborted j run hactive =>
      exact .inr ⟨j, .active run, _, rfl, (p.active?_eq_some_iff).mp hactive, .inr rfl, by simp,
        fun _ _ => rfl⟩
  | unaborted _ => exact .inl ⟨.inl rfl, fun i => rfl⟩
  | withdrawn hcall =>
      exact .inr ⟨_, _, _, rfl, hcall, .inl rfl, by simp, fun i => entries_of_ne rfl⟩
  | @dropped j run hactive =>
      exact .inr ⟨j, .active run, _, rfl, (p.active?_eq_some_iff).mp hactive, .inr rfl, by simp,
        fun i => entries_of_ne rfl⟩
  | ignored _ => exact .inl ⟨.inl rfl, by simp [Step.entries, Step.taken?]⟩

def Unbegun (p : Pool α) (i : Nat) : Prop :=
  p.calls[i]? = none ∨ p.calls[i]? = some .waiting

theorem unbegun_of_transition (h : Transition p m q effects) (hafter : q.Unbegun i) :
    p.Unbegun i ∧ (⟨p, m, effects, q⟩ : Step α).entries i = [] := by
  rcases calls_of_transition h with ⟨hcalls | hcalls, hnone⟩ |
    ⟨j, before, after, hcalls, hbefore, -, hbegun, hnone⟩
  · rw [Unbegun, hcalls] at hafter
    exact ⟨hafter, hnone i⟩
  · refine ⟨?_, hnone i⟩
    rcases Nat.lt_or_ge i p.calls.length with hlt | hge
    · simpa [Unbegun, hcalls, List.getElem?_append_left hlt] using hafter
    · exact .inl (List.getElem?_eq_none hge)
  · have hlt : j < p.calls.length := p.lt_length_of_call hbefore
    have hne : j ≠ i := by
      rintro rfl
      simp [Unbegun, hcalls, hlt, hbegun] at hafter
    exact ⟨by simpa [Unbegun, hcalls, hne] using hafter, hnone i hne⟩

theorem settled_of_transition {call : Call α} (h : Transition p m q effects)
    (hcall : p.calls[i]? = some call) (hrun : call.run? = none) (hbegun : call ≠ .waiting) :
    q.calls[i]? = some call ∧ (⟨p, m, effects, q⟩ : Step α).entries i = [] := by
  rcases calls_of_transition h with ⟨hcalls | hcalls, hnone⟩ |
    ⟨j, before, after, hcalls, hbefore, hkind, -, hnone⟩
  · exact ⟨by rw [hcalls, hcall], hnone i⟩
  · have hlt : i < p.calls.length := p.lt_length_of_call hcall
    exact ⟨by rw [hcalls, List.getElem?_append_left hlt, hcall], hnone i⟩
  · have hne : j ≠ i := by
      rintro rfl
      obtain rfl := Option.some.inj (hbefore.symm.trans hcall)
      rcases hkind with hwaiting | hactive
      · exact hbegun hwaiting
      · simp [hrun] at hactive
    exact ⟨by rw [hcalls, List.getElem?_set_ne hne, hcall], hnone i hne⟩

end

section

variable [Scalar α] {s : Settings} {c : ScalingConfig} {p : Pool α} {steps : List (Step α)}
  {i : Nat}

theorem atRest_of_execution {run : Run α} (h : Execution (fresh s c) steps p)
    (hactive : p.active? i = some run) : run.AtRest :=
  (lifecycle_of_execution h).atRest i run hactive

theorem part_of_execution {q : Pool α} {m : Move} {effects : List Effect}
    (h : Execution (fresh s c) steps p) (hmove : p.move? m = some (q, effects)) (i : Nat) :
    Part p i m effects q :=
  part_of_transition (lifecycle_of_execution h)
    (transition_of_move (lifecycle_of_execution h) hmove) i

theorem settings_of_execution (h : Execution (fresh s c) steps p) :
    p.settings = s ∧ p.config = c := by
  induction h with
  | start => exact ⟨rfl, rfl⟩
  | next hbefore hmove ih =>
      have hlife := lifecycle_of_execution hbefore
      obtain ⟨hsettings, hconfig⟩ := settings_of_transition (transition_of_move hlife hmove)
      exact ⟨hsettings.trans ih.1, hconfig.trans ih.2⟩

theorem journal_of_unbegun (h : Execution (fresh s c) steps p) (hunbegun : p.Unbegun i) :
    journal i steps = [] := by
  induction h with
  | start => rfl
  | next hbefore hmove ih =>
      have hlife := lifecycle_of_execution hbefore
      obtain ⟨hearlier, hentries⟩ :=
        unbegun_of_transition (transition_of_move hlife hmove) hunbegun
      rw [journal_append, ih hearlier, journal_singleton, hentries, List.append_nil]

theorem reaction_of_turn (hlife : p.Lifecycle) {q : Pool α} {now : Moment} {sampling : Bool}
    {event : RunEvent} {effects : List Effect} {run : Run α} (hactive : p.active? i = some run)
    (hlive : run.cancelled = false)
    (hmove : p.move? (.turn i now sampling (some event)) = some (q, effects)) :
    ∃ t, run.Admits now event ∧ run.Reaction p now event t ∧
      (t.outcome? = none ∧ q = t.pool.setCall i (.active t.run) ∧ effects = t.effects ∨
        ∃ outcome, t.outcome? = some outcome ∧ q = (t.pool.leave i t.run outcome).1 ∧
          effects = t.effects ++ (t.pool.leave i t.run outcome).2) := by
  have hcall : p.calls[i]? = some (.active run) := (p.active?_eq_some_iff).mp hactive
  cases transition_of_move hlife hmove with
  | refused hwaiting _ | entered hwaiting _ => simp [hwaiting] at hcall
  | left hactive' hcancelled =>
      obtain rfl := Option.some.inj (hactive'.symm.trans hactive)
      simp [hlive] at hcancelled
  | moved hactive' _ hadmits hreaction houtcome =>
      obtain rfl := Option.some.inj (hactive'.symm.trans hactive)
      exact ⟨_, hadmits, hreaction, .inl ⟨houtcome, rfl, rfl⟩⟩
  | ended hactive' _ hadmits hreaction houtcome =>
      obtain rfl := Option.some.inj (hactive'.symm.trans hactive)
      exact ⟨_, hadmits, hreaction, .inr ⟨_, houtcome, rfl, rfl⟩⟩

section

variable (Law : UInt64 → UInt64 → Run α → List Entry → Prop)
  (hbegun : ∀ now, Law 0 s.desired ((fresh s c).opening now) [.asked .finished])
  (hmoved : ∀ {p : Pool α} {run : Run α} {now : Moment} {event : RunEvent} {t : RunTurn α}
    {j : List Entry}, p.settings = s → p.config = c → run.AtRest → run.Admits now event →
    run.Reaction p now event t → t.outcome? = none → Law p.current p.desired run j →
    Law t.pool.current t.pool.desired t.run (j ++ reactionEntries run event t))

include hbegun hmoved

/-- A law that holds of a run that has just begun, and that every reaction keeps, holds of
the active run in every reachable pool, or held of it until it was cancelled.  It may speak
of the two concurrencies of the pool and of the journal of the call. -/
theorem active_induction (h : Execution (fresh s c) steps p) {run : Run α}
    (hactive : p.active? i = some run) : ∃ current desired,
      Law current desired { run with cancelled := false } (journal i steps) ∧
      (run.cancelled = false → current = p.current ∧ desired = p.desired) := by
  induction h generalizing run with
  | start => simp [active?, fresh] at hactive
  | @next steps before after m effects hbefore hmove ih =>
      have hpart := part_of_execution hbefore hmove i
      obtain ⟨hsettings, hconfig⟩ := settings_of_execution hbefore
      rw [journal_append, journal_singleton]
      have hcontinues := continues_of_part hpart hactive
      generalize (⟨before, m, effects, after⟩ : Step α).entries i = entries at hcontinues
      generalize after.current = current, after.desired = desired at hcontinues
      cases hcontinues with
      | kept hearlier =>
          rw [List.append_nil]
          exact ih hearlier
      | @begun now _ hcall =>
          rw [journal_of_unbegun hbefore (.inr hcall)]
          refine ⟨0, before.settings.desired, ?_, fun _ => ⟨rfl, rfl⟩⟩
          show Law 0 before.settings.desired (before.opening now) _
          rw [opening, hsettings, hconfig]
          exact hbegun now
      | @moved now sampling event earlier t hearlier hlive hadmits hreaction houtcome =>
          obtain ⟨current, desired, hlaw, hlevels⟩ := ih hearlier
          obtain ⟨rfl, rfl⟩ := hlevels hlive
          rw [← hlive] at hlaw
          rw [← hlive, ← hreaction.cancelled_eq]
          have hrest := atRest_of_execution hbefore hearlier
          exact ⟨_, _, hmoved hsettings hconfig hrest hadmits hreaction houtcome hlaw,
            fun _ => ⟨rfl, rfl⟩⟩
      | cancelled hearlier =>
          -- Only the current concurrency changes, which the law need not follow any more.
          obtain ⟨current, desired, hlaw, -⟩ := ih hearlier
          refine ⟨current, desired, ?_, by simp⟩
          rw [List.append_nil]
          exact hlaw

theorem live_induction (h : Execution (fresh s c) steps p) {run : Run α}
    (hactive : p.active? i = some run) (hlive : run.cancelled = false) :
    Law p.current p.desired run (journal i steps) := by
  obtain ⟨current, desired, hlaw, hlevels⟩ := active_induction Law hbegun hmoved h hactive
  obtain ⟨rfl, rfl⟩ := hlevels hlive
  rw [← hlive] at hlaw
  exact hlaw

end

end

end Pool

end ElasticPool
