import ElasticPool.Proofs.Completion
import ElasticPool.Proofs.Suspension

namespace ElasticPool

open Journal

variable {α : Type}

theorem Budget.wait_le_of_take [Scalar α] {b b' : Budget α} {now : Moment} {wait : Span}
    (h : b.take now = (.error wait, b')) : wait ≤ longestWait := by
  cases b with
  | none => cases h
  | some bucket =>
      simp only [Budget.take, Bucket.take] at h
      split at h
      · cases h
      · cases h
        exact (bucket.refill now).wait_le_longestWait

namespace Pool

def Dozes (p : Pool α) (i : Nat) (moment : Moment) : Prop :=
  ∃ run, p.active? i = some run ∧ run.dispatch = .waiting moment ∧ run.inFlight = []

def Move.Precedes (i : Nat) (moment : Moment) (m : Move) : Prop :=
  ∀ now sampling event?, m = .turn i now sampling event? → now < moment

/-- The move joins the only invocation that is in flight, which has ended well.  The run is live,
none of its invocations has failed, and it has no question open. -/
structure JoinsLast (i : Nat) (run : Run α) (now : Moment) (m : Move) : Prop where
  live : run.cancelled = false
  not_failed : run.failure? = none
  not_asking : ¬run.dispatch.asking
  joined : ∃ k sampling, run.inFlight = [k] ∧
    m = .turn i now sampling (some (.joined k (.ok ())))

section

variable [Scalar α] {s : Settings} {c : ScalingConfig} {p q : Pool α} {run : Run α}
  {now moment : Moment} {i : Nat} {m : Move} {effects : List Effect}
  {steps earlier later : List (Step α)} {e : Step α}

theorem still_of_reaction_early {event : RunEvent} {t : RunTurn α}
    (hwaiting : run.dispatch = .waiting moment) (hempty : run.inFlight = [])
    (hadmits : run.Admits now event) (hearly : now < moment)
    (hreaction : run.Reaction p now event t) :
    t.run.dispatch = .waiting moment ∧ t.run.inFlight = [] ∧
      ∀ entry ∈ reactionEntries run event t, entry.question? = none := by
  have hnone (k : Nat) (result : Except String Unit) : ¬run.Admits now (.joined k result) := by
    simp [Run.Admits, hempty]
  cases hreaction with
  | resumed | reaped | draining | drained => exact absurd hadmits (hnone _ _)
  | rescaled signals _ | reported signals =>
      exact ⟨hwaiting, hempty, by simp [reactionEntries]⟩
  | misjudged => exact ⟨hwaiting, hempty, by simp [reactionEntries]⟩
  | awoke _ _ =>
      obtain ⟨m, hle, hm⟩ := hadmits
      obtain rfl : m = moment := Dispatch.waiting.inj (hm.symm.trans hwaiting)
      rw [Moment.lt_def] at hearly
      rw [Moment.le_def] at hle
      omega
  | unparked _ _ hparked => simp [hwaiting] at hparked
  | finished _ hasked _ | stragglers _ hasked _ | sought _ hasked | postponed _ hasked
  | overtaken _ hasked _ | exhausted _ _ hasked _ _ | launched _ hasked _ _ =>
      simp [hwaiting] at hasked

theorem dozes_of_part (hpart : Part p i m effects q) (hdozes : p.Dozes i moment)
    (hearly : m.Precedes i moment) :
    (q.Dozes i moment ∨ q.Over i) ∧
      ∀ entry ∈ (⟨p, m, effects, q⟩ : Step α).entries i, entry.question? = none := by
  obtain ⟨run, hactive, hwaiting, hempty⟩ := hdozes
  rcases hafter : q.active? i with _ | run'
  · have hstops := stops_of_part hpart hactive hafter
    refine ⟨.inr (over_of_stops hactive hstops), ?_⟩
    generalize (⟨p, m, effects, q⟩ : Step α).entries i = entries at hstops
    cases hstops with
    | left _ | dropped => simp
    | @ended now sampling event t outcome _ hadmits hreaction _ =>
        -- The moment has not come, so the event is a tick.
        have hnow : now < moment := hearly now sampling _ rfl
        obtain ⟨-, -, hquiet⟩ :=
          still_of_reaction_early hwaiting hempty hadmits hnow hreaction
        rw [List.forall_mem_append]
        exact ⟨hquiet, by simp⟩
  · have hcontinues := continues_of_part hpart hafter
    rw [Dozes, hafter]
    generalize (⟨p, m, effects, q⟩ : Step α).entries i = entries at hcontinues
    generalize q.current = current, q.desired = desired at hcontinues
    cases hcontinues with
    | kept hactive' =>
        obtain rfl := Option.some.inj (hactive'.symm.trans hactive)
        exact ⟨.inl ⟨_, rfl, hwaiting, hempty⟩, by simp⟩
    | begun hcall => simp [active?, hcall] at hactive
    | @moved now sampling event _ t hactive' _ hadmits hreaction _ =>
        obtain rfl := Option.some.inj (hactive'.symm.trans hactive)
        have hnow : now < moment := hearly now sampling _ rfl
        obtain ⟨hwaiting', hempty', hquiet⟩ :=
          still_of_reaction_early hwaiting hempty hadmits hnow hreaction
        exact ⟨.inl ⟨_, rfl, hwaiting', hempty'⟩, hquiet⟩
    | cancelled hactive' =>
        obtain rfl := Option.some.inj (hactive'.symm.trans hactive)
        exact ⟨.inl ⟨_, rfl, hwaiting, hempty⟩, by simp⟩

theorem quiet_until_moment (h : Execution (fresh s c) steps p) (hdozes : p.Dozes i moment)
    (hlater : Execution p later q) (hearly : ∀ e ∈ later, e.move.Precedes i moment) :
    (q.Dozes i moment ∨ q.Over i) ∧ ∀ entry ∈ journal i later, entry.question? = none := by
  induction hlater with
  | start => exact ⟨.inl hdozes, by simp⟩
  | @next later q r m effects hbefore hmove ih =>
      rw [List.forall_mem_append, List.forall_mem_singleton] at hearly
      obtain ⟨hstill, hquiet⟩ := ih hearly.1
      rw [journal_append, journal_singleton, List.forall_mem_append]
      rcases hstill with hstill | ⟨call, hcall, hrun, hbegun⟩
      · have hpart := part_of_execution (h.trans hbefore) hmove i
        obtain ⟨hnext, hentries⟩ := dozes_of_part hpart hstill hearly.2
        exact ⟨hnext, hquiet, hentries⟩
      · have hlife := lifecycle_of_execution (h.trans hbefore)
        obtain ⟨hkept, hentries⟩ :=
          settled_of_transition (transition_of_move hlife hmove) hcall hrun hbegun
        rw [hentries]
        exact ⟨.inr ⟨call, hkept, hrun, hbegun⟩, hquiet, by simp⟩

theorem exists_move_of_admits {event : RunEvent} (hactive : p.active? i = some run)
    (hlive : run.cancelled = false) (hadmits : run.Admits now event)
    (hfits : p.overflows event = false) (sampling : Bool) :
    ∃ q effects, p.move? (.turn i now sampling (some event)) = some (q, effects) := by
  obtain ⟨⟨q, effects⟩, hmove⟩ :=
    Option.ne_none_iff_exists'.mp (turn_ne_none_of_admits hactive hlive hadmits hfits sampling)
  exact ⟨q, effects, hmove⟩

theorem asks_of_dozes (h : Execution (fresh s c) steps p) (hdozes : p.Dozes i moment)
    (hactive : p.active? i = some run) (hlive : run.cancelled = false) (hnow : moment ≤ now)
    (sampling : Bool) :
    ∃ q, p.move? (.turn i now sampling (some .waited)) = some (q, [.askFinished]) := by
  obtain ⟨run', hactive', hwaiting, -⟩ := hdozes
  obtain rfl : run' = run := Option.some.inj (hactive'.symm.trans hactive)
  have hadmits : run'.Admits now .waited := ⟨moment, hnow, hwaiting⟩
  obtain ⟨q, effects, hmove⟩ := exists_move_of_admits hactive hlive hadmits rfl sampling
  obtain ⟨t, -, hreaction, hturn⟩ :=
    reaction_of_turn (lifecycle_of_execution h) hactive hlive hmove
  cases hreaction
  rcases hturn with ⟨-, -, rfl⟩ | ⟨outcome, houtcome, -⟩
  · exact ⟨q, hmove⟩
  · cases houtcome

/-- A wait that begins with an answer whether work is ready: after a no it is the dispatch wait,
and after a yes what the budget has told, which is an hour at most. -/
def WaitBegins (c : ScalingConfig) (asked moment : Moment) (yes : Bool) : Prop :=
  yes = false ∧ moment = momentAfter asked c.dispatchWait ∨
    yes = true ∧ ∃ wait ≤ longestWait, moment = momentAfter asked wait

def WaitsSince (c : ScalingConfig) (i : Nat) (moment : Moment) (steps : List (Step α)) : Prop :=
  ∃ e ∈ steps, ∃ asked sampling yes, e.move = .turn i asked sampling (some (.answered yes)) ∧
    .answered .ready yes ∈ e.entries i ∧ WaitBegins c asked moment yes

theorem waitBegins_of_reaction {event : RunEvent} {t : RunTurn α}
    (hreaction : run.Reaction p now event t) (houtcome : t.outcome? = none)
    (hwaiting : t.run.dispatch = .waiting moment) :
    run.dispatch = .waiting moment ∨ ∃ yes, event = .answered yes ∧
      run.dispatch = .askedReady ∧ WaitBegins p.config now moment yes := by
  cases hreaction with
  | reaped | rescaled | reported => exact .inl hwaiting
  | postponed _ hasked =>
      have hmoment := Dispatch.waiting.inj hwaiting
      exact .inr ⟨false, rfl, hasked, .inl ⟨rfl, hmoment.symm⟩⟩
  | @exhausted wait budget _ _ hasked _ hbudget =>
      have hmoment := Dispatch.waiting.inj hwaiting
      have hwait : wait ≤ longestWait := Budget.wait_le_of_take hbudget
      exact .inr ⟨true, rfl, hasked, .inr ⟨rfl, wait, hwait, hmoment.symm⟩⟩
  | sought | launched =>
      rw [RunTurn.seekMore_eq] at hwaiting
      dsimp only at hwaiting
      split at hwaiting <;> cases hwaiting
  | drained | misjudged | finished => simp at houtcome
  | _ => simp at hwaiting

theorem waitsSince_of_execution (h : Execution (fresh s c) steps p)
    (hactive : p.active? i = some run) (hwaiting : run.dispatch = .waiting moment) :
    WaitsSince c i moment steps := by
  induction h generalizing run with
  | start => simp [active?, fresh] at hactive
  | @next steps before after m effects hbefore hmove ih =>
      have hearlier {run : Run α} (hactive : before.active? i = some run)
          (hwaiting : run.dispatch = .waiting moment) :
          WaitsSince c i moment (steps ++ [⟨before, m, effects, after⟩]) := by
        obtain ⟨e, hmem, hsince⟩ := ih hactive hwaiting
        exact ⟨e, List.mem_append_left _ hmem, hsince⟩
      have hcontinues := continues_of_part (part_of_execution hbefore hmove i) hactive
      generalize hentries : (⟨before, m, effects, after⟩ : Step α).entries i = entries
        at hcontinues
      generalize after.current = current, after.desired = desired at hcontinues
      cases hcontinues with
      | kept hactive' | cancelled hactive' => exact hearlier hactive' hwaiting
      | begun _ => simp [opening] at hwaiting
      | @moved now sampling event run' t hactive' _ _ hreaction houtcome =>
          rcases waitBegins_of_reaction hreaction houtcome hwaiting with
            hwaiting' | ⟨yes, rfl, hasked, hbegins⟩
          · exact hearlier hactive' hwaiting'
          · rw [(settings_of_execution hbefore).2] at hbegins
            refine ⟨_, List.mem_append_right _ (List.mem_singleton_self _), now, sampling,
              yes, rfl, ?_, hbegins⟩
            simp [hentries, reactionEntries, hasked]

theorem moved_of_joinsLast (h : Execution (fresh s c) steps p)
    (hmove : p.move? m = some (q, effects)) (hactive : p.active? i = some run)
    (hlast : JoinsLast i run now m) :
    ∃ run', q.active? i = some run' ∧ run'.cancelled = false ∧ run'.inFlight = [] ∧
      (run.dispatch = .parked ∧ run'.dispatch = .askedFinished ∧
          .asked .finished ∈ (⟨p, m, effects, q⟩ : Step α).entries i ∨
        run.dispatch ≠ .parked ∧ run'.dispatch = run.dispatch ∧
          ∀ entry ∈ (⟨p, m, effects, q⟩ : Step α).entries i, entry.question? = none) := by
  obtain ⟨hlive, hfailure, -, k, sampling, hinFlight, rfl⟩ := hlast
  obtain ⟨t, -, hreaction, hturn⟩ :=
    reaction_of_turn (lifecycle_of_execution h) hactive hlive hmove
  rw [entries_of_taken hactive hlive]
  have hafter := active?_moved_self hactive hreaction
  have hcancelled := hreaction.cancelled_eq.trans hlive
  cases hreaction with
  | resumed _ hparked =>
      obtain ⟨-, rfl, rfl⟩ := hturn.resolve_right (by simp)
      exact ⟨_, hafter, hcancelled, by simp [hinFlight], .inl ⟨hparked, rfl, by simp⟩⟩
  | reaped _ hbusy =>
      obtain ⟨-, rfl, rfl⟩ := hturn.resolve_right (by simp)
      exact ⟨_, hafter, hcancelled, by simp [hinFlight], .inr ⟨hbusy, rfl, by simp⟩⟩
  | draining _ hcause _ | drained _ hcause _ => simp [hfailure] at hcause

theorem ends_of_yes (h : Execution (fresh s c) steps p) (hactive : p.active? i = some run)
    (hlive : run.cancelled = false) (hasked : run.dispatch = .askedFinished)
    (hempty : run.inFlight = []) (now : Moment) (sampling : Bool) :
    ∃ q effects, p.move? (.turn i now sampling (some (.answered true))) = some (q, effects) ∧
      q.phase = .finished ∧ q.calls[i]? = some (.ended (.ok ())) := by
  have hadmits : run.Admits now (.answered true) := by simp [Run.Admits, hasked, Dispatch.asking]
  obtain ⟨q, effects, hmove⟩ := exists_move_of_admits hactive hlive hadmits rfl sampling
  have hlife := lifecycle_of_execution h
  have hfinishes : Finishes i run (.turn i now sampling (some (.answered true))) :=
    ⟨hlive, hasked, hempty, now, sampling, rfl⟩
  obtain ⟨hnone, hphase⟩ := finished_of_finishes hlife hactive hfinishes hmove
  have hstops := stops_of_part (part_of_execution h hmove i) hactive hnone
  exact ⟨q, effects, hmove, hphase, (finishes_of_stops hlife hactive hstops hphase).2.1⟩

/-- The run asks at once whether all work is finished, and it ends at that moment if it is told
so. -/
structure AsksAtOnce (i : Nat) (now : Moment) (e : Step α) : Prop where
  asked : .asked .finished ∈ e.entries i
  ends : ∀ sampling, ∃ q effects,
    e.after.move? (.turn i now sampling (some (.answered true))) = some (q, effects) ∧
      q.phase = .finished ∧ q.calls[i]? = some (.ended (.ok ()))

/-- Once the last invocation has been joined, a parked run asks at once whether all work is
finished.  A run that waits for a moment, after an answer whether work is ready, asks nothing
before that moment has come, and then it asks whether all work is finished. -/
theorem asks_after_last_join (h : Execution (fresh s c) (earlier ++ e :: later) p)
    (hactive : e.before.active? i = some run) (hlast : JoinsLast i run now e.move) :
    run.dispatch = .parked ∧ AsksAtOnce i now e ∨
      ∃ moment, run.dispatch = .waiting moment ∧ WaitsSince c i moment earlier ∧
        ((∀ e' ∈ later, e'.move.Precedes i moment) →
          (∀ entry ∈ journal i (e :: later), entry.question? = none) ∧
          ∀ run', p.active? i = some run' → run'.cancelled = false →
            ∀ now sampling, moment ≤ now →
              ∃ q, p.move? (.turn i now sampling (some .waited)) = some (q, [.askFinished])) := by
  obtain ⟨hbefore, hmove⟩ := h.of_append_cons
  have hafter : Execution (fresh s c) (earlier ++ [e]) e.after := hbefore.next hmove
  obtain ⟨run', hrun', hlive', hempty', ⟨hparked, hasked, hentries⟩ | ⟨hbusy, hsame, hentries⟩⟩ :=
    moved_of_joinsLast hbefore hmove hactive hlast
  · exact .inl ⟨hparked, hentries, ends_of_yes hafter hrun' hlive' hasked hempty' now⟩
  · have hrest := atRest_of_execution hbefore hactive
    -- Nothing is open and the run is not parked, so it waits for a moment.
    obtain ⟨moment, hwaiting⟩ : ∃ moment, run.dispatch = .waiting moment := by
      rcases hdispatch : run.dispatch with _ | _ | _ | moment | _
      case idle => exact absurd hdispatch hrest.not_idle
      case waiting => exact ⟨moment, rfl⟩
      case parked => exact absurd hdispatch hbusy
      all_goals exact absurd (by simp [hdispatch, Dispatch.asking]) hlast.not_asking
    refine .inr ⟨moment, hwaiting, waitsSince_of_execution hbefore hactive hwaiting, ?_⟩
    intro hearly
    have hdozes : e.after.Dozes i moment := ⟨run', hrun', hsame.trans hwaiting, hempty'⟩
    obtain ⟨hstill, hquiet⟩ := quiet_until_moment hafter hdozes h.after_append_cons hearly
    constructor
    · rw [← List.singleton_append, journal_append, journal_singleton, List.forall_mem_append]
      exact ⟨hentries, hquiet⟩
    · intro run'' hactive'' hlive'' now' sampling hnow
      rcases hstill with hdozes' | ⟨call, hcall, hover, -⟩
      · exact asks_of_dozes h hdozes' hactive'' hlive'' hnow sampling
      · rw [(p.active?_eq_some_iff).mp hactive''] at hcall
        obtain rfl := Option.some.inj hcall
        cases hover

/-- The run has been told that all work is finished, with one invocation left. -/
theorem asks_after_last_join_of_pair : ∃ earlier, ∃ e : Step Float, ∃ run,
    Execution (fresh .pair {}) (earlier ++ [e]) e.after ∧ e.before.active? 0 = some run ∧
      JoinsLast 0 run ⟨0⟩ e.move ∧ AsksAtOnce 0 ⟨0⟩ e := by
  let moves : List Move := [.call, .enter, .answer false, .answer true, .answer true,
    .join 1 (.ok ()), .answer true]
  obtain ⟨earlier, p, hplay, run, hactive, hlive, hfailure, hparked, hinFlight, q, effects,
      hmove⟩ :
      ∃ earlier, ∃ p : Pool Float, (fresh .pair {}).play moves = some (earlier, p) ∧
        ∃ run, p.active? 0 = some run ∧ run.cancelled = false ∧ run.failure? = none ∧
          run.dispatch = .parked ∧ run.inFlight = [0] ∧
          ∃ q effects, p.move? (.join 0 (.ok ())) = some (q, effects) :=
    ⟨_, _, rfl, _, rfl, rfl, rfl, rfl, rfl, _, _, rfl⟩
  let e : Step Float := ⟨p, .join 0 (.ok ()), effects, q⟩
  have h : Execution (fresh .pair {}) (earlier ++ [e]) q := (execution_of_play hplay).next hmove
  have hlast : JoinsLast 0 run ⟨0⟩ e.move :=
    ⟨hlive, hfailure, by simp [hparked, Dispatch.asking], 0, true, hinFlight, rfl⟩
  rcases asks_after_last_join h hactive hlast with ⟨-, hasks⟩ | ⟨moment, hwaiting, -⟩
  · exact ⟨earlier, e, run, h, hactive, hlast, hasks⟩
  · simp [hparked] at hwaiting

/-- The only invocation ends while the run waits a minute for its budget, and the run goes on
waiting. -/
theorem not_asked_of_exhausted : ∃ earlier, ∃ e : Step Float, ∃ run run',
    Execution (fresh .paced {}) (earlier ++ [e]) e.after ∧ e.before.active? 0 = some run ∧
      JoinsLast 0 run ⟨0⟩ e.move ∧ .asked .finished ∉ e.entries 0 ∧
      e.after.active? 0 = some run' ∧ run'.inFlight = [] ∧
      run'.dispatch = .waiting (.ofMillis 60000) := by
  have hseen : ((fresh .paced {} : Pool Float).play
      [.call, .enter, .answer false, .answer true, .answer true]).bind (fun (_, p) =>
        (p.active? 0).map fun run => (run.dispatch, run.inFlight, run.failure?, run.cancelled)) =
      some (.waiting (.ofMillis 60000), [0], none, false) := by
    decide +kernel
  obtain ⟨⟨earlier, p⟩, hplay, hrun⟩ := Option.bind_eq_some_iff.mp hseen
  obtain ⟨run, hactive, hstate⟩ := Option.map_eq_some_iff.mp hrun
  simp only [Prod.mk.injEq] at hstate
  obtain ⟨hwaiting, hinFlight, hfailure, hlive⟩ := hstate
  have h : Execution (fresh .paced {}) earlier p := execution_of_play hplay
  have hadmits : run.Admits ⟨0⟩ (.joined 0 (.ok ())) := by simp [Run.Admits, hinFlight]
  obtain ⟨q, effects, hmove⟩ := exists_move_of_admits hactive hlive hadmits rfl true
  have hlast : JoinsLast 0 run ⟨0⟩ (.turn 0 ⟨0⟩ true (some (.joined 0 (.ok ())))) :=
    ⟨hlive, hfailure, by simp [hwaiting, Dispatch.asking], 0, true, hinFlight, rfl⟩
  obtain ⟨run', hrun', -, hempty, ⟨hparked, -⟩ | ⟨-, hsame, hquiet⟩⟩ :=
    moved_of_joinsLast h hmove hactive hlast
  · simp [hwaiting] at hparked
  · refine ⟨earlier, _, run, run', h.next hmove, hactive, hlast, ?_, hrun', hempty,
      hsame.trans hwaiting⟩
    intro hasked
    simpa using hquiet _ hasked

end

end Pool

end ElasticPool
