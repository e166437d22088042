import Mathlib.Data.List.Nodup
import ElasticPool.Proofs.RunAccount
import ElasticPool.Proofs.WorkplaceExecution

namespace ElasticPool

open Journal

namespace Pool

variable {α : Type}

def inFlightOf (p : Pool α) (i : Nat) : List Nat := ((p.active? i).map (·.inFlight)).getD []

theorem inFlightOf_of_active {p : Pool α} {i : Nat} {run : Run α}
    (hactive : p.active? i = some run) : p.inFlightOf i = run.inFlight := by
  rw [inFlightOf, hactive]
  rfl

theorem inFlightOf_of_inactive {p : Pool α} {i : Nat} (hinactive : p.active? i = none) :
    p.inFlightOf i = [] := by
  rw [inFlightOf, hinactive]
  rfl

theorem active?_of_part_of_ne [Scalar α] {p q : Pool α} {m : Move} {effects : List Effect}
    {i j : Nat} (hpart : Part p j m effects q) (hmove : m.call? = some i) (hne : j ≠ i) :
    q.active? j = p.active? j := by
  cases hpart with
  | bystander _ hsame _ => exact hsame
  | begun | moved | ended | left | dropped => exact absurd (Option.some.inj hmove) hne
  | aborted => simp [Move.call?] at hmove

end Pool

namespace Simulation

namespace Invocation

def origin (i : Invocation) : Nat × Nat := (i.call, i.number)

def slept (number : Nat) (wakesAt : Moment) (i : Invocation) : Invocation :=
  if i.number = number then { i with wakesAt? := some wakesAt } else i

theorem slept_eq (number : Nat) (wakesAt : Moment) (i : Invocation) :
    (i.slept number wakesAt).call = i.call ∧ (i.slept number wakesAt).name = i.name ∧
      (i.slept number wakesAt).origin = i.origin := by
  unfold slept
  split <;> exact ⟨rfl, rfl, rfl⟩

end Invocation

namespace Workplace

def roster (w : Workplace) (call : Nat) : List Nat :=
  (w.invocations.filter (·.call = call)).map (·.name)

def joinable (w : Workplace) (call : Nat) : List Nat :=
  (w.ended.filter (·.call = call)).map (·.name)

def crew (w : Workplace) (call : Nat) : List Nat := w.roster call ++ w.joinable call

section

variable {w w' : Workplace} {t : WorkplaceTurn} {call j : Nat} {now : Moment} {m : Pool.Move}
  {q : Pool Float} {effects : List Effect}

theorem ended_foldl_carryOut :
    (effects.foldl (carryOut call now) t).place.ended = t.place.ended := by
  induction effects generalizing t with
  | nil => rfl
  | cons effect effects ih =>
      rw [List.foldl_cons, ih]
      cases effect <;> rfl

theorem roster_carryOut_of_ne (hne : j ≠ call) (effect : Effect) :
    (carryOut call now t effect).place.roster j = t.place.roster j := by
  cases effect with
  | start name => simp [carryOut, roster, Ne.symm hne]
  | cancel names =>
      rw [carryOut, roster, List.filter_filter, roster]
      congr 1
      refine List.filter_congr fun i _ => ?_
      by_cases hcall : i.call = j <;> simp [hcall, hne]
  | _ => rfl

theorem roster_foldl_carryOut_of_ne (hne : j ≠ call) :
    (effects.foldl (carryOut call now) t).place.roster j = t.place.roster j := by
  induction effects generalizing t with
  | nil => rfl
  | cons effect effects ih => rw [List.foldl_cons, ih, roster_carryOut_of_ne hne]

theorem roster_carryOut_cancel {names : List Nat} (hall : t.place.roster call ⊆ names) :
    (carryOut call now t (.cancel names)).place.roster call = [] := by
  rw [carryOut, roster, List.filter_filter, List.map_eq_nil_iff, List.filter_eq_nil_iff]
  intro i hmem
  by_cases hcall : i.call = call
  · have hname : i.name ∈ t.place.roster call :=
      List.mem_map_of_mem (List.mem_filter.mpr ⟨hmem, by simp [hcall]⟩)
    simp [hcall, hall hname]
  · simp [hcall]

theorem roster_foldl_carryOut (hquiet : cancellations (Effect.entries effects) = []) :
    (effects.foldl (carryOut call now) t).place.roster call =
      t.place.roster call ++ starts (Effect.entries effects) := by
  induction effects generalizing t with
  | nil => simp
  | cons effect effects ih =>
      rw [Effect.entries_cons, cancellations_append, List.append_eq_nil_iff] at hquiet
      rw [List.foldl_cons, ih hquiet.2, Effect.entries_cons, starts_append, ← List.append_assoc]
      congr 1
      cases effect with
      | start name => simp [carryOut, roster]
      | cancel names =>
          obtain rfl : names = [] := by simpa using hquiet.1
          simp [carryOut, roster]
      | _ => simp [carryOut, roster, ask]

theorem roster_tidy : (w.tidy call).roster j = w.roster j := by
  unfold tidy
  dsimp only
  split
  · split <;> rfl
  · rfl

theorem joinable_tidy_of_ne (hne : j ≠ call) : (w.tidy call).joinable j = w.joinable j := by
  unfold tidy
  dsimp only
  split
  · split <;> rfl
  · rw [joinable, List.filter_filter, joinable]
    congr 1
    refine List.filter_congr fun x _ => ?_
    by_cases hcall : x.call = j <;> simp [hcall, hne]

theorem joinable_tidy_of_active {run : Run Float} (hactive : w.pool.active? call = some run) :
    (w.tidy call).joinable call = w.joinable call := by
  unfold tidy
  rw [hactive]
  dsimp only
  split <;> rfl

theorem joinable_tidy_of_inactive (hinactive : w.pool.active? call = none) :
    (w.tidy call).joinable call = [] := by
  unfold tidy
  rw [hinactive]
  simp [joinable]

theorem crew_after_of_ne (hne : j ≠ call) (turn : Pool Float × List Effect) :
    (w.after call now turn).place.crew j = w.crew j := by
  rw [after, crew, roster_tidy, joinable_tidy_of_ne hne, roster_foldl_carryOut_of_ne hne,
    joinable, ended_foldl_carryOut]
  rfl

theorem crew_after_of_active {run : Run Float} (hactive : q.active? call = some run)
    (hquiet : cancellations (Effect.entries effects) = []) :
    (w.after call now (q, effects)).place.crew call =
      w.roster call ++ starts (Effect.entries effects) ++ w.joinable call := by
  rw [after, crew, roster_tidy, roster_foldl_carryOut hquiet,
    joinable_tidy_of_active (by rw [pool_foldl_carryOut]; exact hactive), joinable,
    ended_foldl_carryOut]
  rfl

theorem crew_after_of_inactive (hinactive : q.active? call = none) :
    (w.after call now (q, effects)).place.crew call = (effects.foldl (carryOut call now)
      { place := { w with pool := q } }).place.roster call := by
  rw [after, crew, roster_tidy,
    joinable_tidy_of_inactive (by rw [pool_foldl_carryOut]; exact hinactive), List.append_nil]

/-- A turn that cancels the whole crew of its call leaves none of it. -/
theorem crew_after_of_cancel (hinactive : q.active? call = none) (before : List Effect)
    {names : List Nat} (signals : List Signal)
    (heffects : effects = before ++ .cancel names :: signals.map .report)
    (hquiet : cancellations (Effect.entries before) = [])
    (hall : w.roster call ++ starts (Effect.entries before) ⊆ names) :
    (w.after call now (q, effects)).place.crew call = [] := by
  rw [crew_after_of_inactive hinactive, heffects, List.foldl_append, List.foldl_cons,
    roster_foldl_carryOut]
  · rw [Effect.entries_reports, starts_nil, List.append_nil]
    apply roster_carryOut_cancel
    rw [roster_foldl_carryOut hquiet]
    exact hall
  · rw [Effect.entries_reports, cancellations_nil]

theorem crew_after_of_idle (hcrew : w.crew call = [])
    (hquiet : cancellations (Effect.entries effects) = [])
    (hstarts : starts (Effect.entries effects) = []) :
    (w.after call now (q, effects)).place.crew call = [] := by
  obtain ⟨hroster, hjoinable⟩ := List.append_eq_nil_iff.mp hcrew
  rcases hactive : q.active? call with _ | run
  · rw [crew_after_of_inactive hactive, roster_foldl_carryOut hquiet, hstarts, List.append_nil]
    exact hroster
  · rw [crew_after_of_active hactive hquiet, hroster, hstarts, hjoinable]
    rfl

theorem crew_after_of_moved {p : Pool Float} {run : Run Float} {moment : Moment}
    {event : RunEvent} {turn : RunTurn Float} (hreaction : run.Reaction p moment event turn)
    (hafter : q.active? call = some turn.run)
    (htaken : (w.crew call).Perm (event.leaves run.inFlight)) :
    ((w.after call now (q, turn.effects)).place.crew call).Perm turn.run.inFlight := by
  obtain ⟨hinFlight, hquiet⟩ := hreaction.inFlight_eq
  rw [crew_after_of_active hafter hquiet, hinFlight, List.append_assoc]
  refine .trans ?_ (htaken.append_right _)
  rw [crew, List.append_assoc]
  exact List.perm_append_comm.append_left _

theorem crew_after_of_ended {p : Pool Float} {run : Run Float} {moment : Moment}
    {event : RunEvent} {turn : RunTurn Float} (hreaction : run.Reaction p moment event turn)
    (hafter : q.active? call = none) (signal : Signal)
    (htaken : (w.crew call).Perm (event.leaves run.inFlight)) :
    (w.after call now (q, turn.effects ++ [.cancel turn.run.inFlight, .report signal])).place.crew
      call = [] := by
  obtain ⟨hinFlight, hquiet⟩ := hreaction.inFlight_eq
  refine crew_after_of_cancel hafter turn.effects [signal] rfl hquiet ?_
  rw [hinFlight]
  refine List.append_subset.mpr ⟨fun k hk => ?_, List.subset_append_right _ _⟩
  exact List.mem_append_left _ (htaken.subset (List.mem_append_left _ hk))

theorem exists_ended_eq {x : Ended} (h : w.endedOf? call = some x) : ∃ before after,
    w.ended = before ++ x :: after ∧ w.ended.eraseP (·.call = call) = before ++ after ∧
      x.call = call := by
  obtain ⟨hcall, before, after, hended, hbefore⟩ := List.find?_eq_some_iff_append.mp h
  refine ⟨before, after, hended, ?_, by simpa using hcall⟩
  rw [hended, List.eraseP_append_right _ (by simpa using hbefore)]
  rw [List.eraseP_cons, hcall, cond_true]

theorem roster_of_takes (h : w.Takes call m w') : w'.roster j = w.roster j := by
  cases h <;> rfl

theorem joinable_of_takes_of_ne (h : w.Takes call m w') (hne : j ≠ call) :
    w'.joinable j = w.joinable j := by
  cases h with
  | gaveUp | brokeOff | other => rfl
  | joined hended =>
      obtain ⟨before, after, hbefore, hafter, hcall⟩ := exists_ended_eq hended
      rw [joinable, joinable, hafter, hbefore]
      simp [hcall, Ne.symm hne]

theorem crew_of_takes_of_ne (h : w.Takes call m w') (hne : j ≠ call) : w'.crew j = w.crew j := by
  rw [crew, roster_of_takes h, joinable_of_takes_of_ne h hne, crew]

theorem joinable_perm_of_takes {sampling : Bool} {k : Nat} {result : Except String Unit}
    (h : w.Takes call (.turn call now sampling (some (.joined k result))) w') :
    (w.joinable call).Perm (k :: w'.joinable call) := by
  cases h with
  | joined hended =>
      obtain ⟨before, after, hbefore, hafter, hcall⟩ := exists_ended_eq hended
      rw [joinable, joinable, hafter, hbefore]
      simp [hcall]
  | other hother => exact absurd rfl (hother k result)

/-- An event is taken from the crew of the call that it concerns. -/
theorem crew_perm_of_takes {sampling : Bool} {event : RunEvent}
    (h : w.Takes call (.turn call now sampling (some event)) w') {inFlight : List Nat}
    (hcrew : (w.crew call).Perm inFlight) : (w'.crew call).Perm (event.leaves inFlight) := by
  cases event with
  | joined k result =>
      have hsplit := (joinable_perm_of_takes h).symm.append_left (w.roster call)
      have htaken := (List.perm_middle.symm.trans hsplit).trans hcrew
      rw [crew, roster_of_takes h]
      simpa using htaken.erase k
  | scaleTick _ | statusTick _ | answered _ | waited =>
      cases h
      exact hcrew

theorem crew_eq_nil_of_takes (h : w.Takes call m w') (hcrew : w.crew call = []) :
    w'.crew call = [] := by
  cases h with
  | gaveUp | brokeOff | other => exact hcrew
  | joined hended =>
      obtain ⟨before, after, hbefore, -, hcall⟩ := exists_ended_eq hended
      simp [crew, joinable, hbefore, hcall] at hcrew

theorem crew_perm_of_transition {i : Nat} (htakes : w.Takes i m w')
    (htransition : Pool.Transition w.pool m q effects)
    (hcrew : (w.crew i).Perm (w.pool.inFlightOf i)) :
    ((w'.after i now (q, effects)).place.crew i).Perm (q.inFlightOf i) := by
  have hcall := call?_of_takes htakes
  have hidle (hinactive : w.pool.active? i = none) : w'.crew i = [] := by
    rw [Pool.inFlightOf_of_inactive hinactive] at hcrew
    exact crew_eq_nil_of_takes htakes hcrew.eq_nil
  -- What ends a call cancels all that its run has in flight, which covers its roster.
  have hroster {run : Run Float} (hactive : w.pool.active? i = some run) :
      w'.roster i ⊆ run.inFlight := by
    rw [Pool.inFlightOf_of_active hactive] at hcrew
    rw [roster_of_takes htakes]
    exact fun k hk => hcrew.subset (List.mem_append_left _ hk)
  cases htransition with
  | called | unaborted | aborted => cases htakes
  | refused hwaiting _ | withdrawn hwaiting =>
      obtain rfl := Option.some.inj hcall
      rw [crew_after_of_idle (hidle (by simp [Pool.active?, hwaiting])) rfl rfl,
        Pool.inFlightOf_of_inactive (w.pool.active?_setCall_self hwaiting)]
  | ignored hinactive =>
      obtain rfl := Option.some.inj hcall
      rw [crew_after_of_idle (hidle hinactive) rfl rfl, Pool.inFlightOf_of_inactive hinactive]
  | @entered j now _ _ hwaiting _ =>
      obtain rfl := Option.some.inj hcall
      rw [crew_after_of_idle (hidle (by simp [Pool.active?, hwaiting])) rfl rfl,
        Pool.inFlightOf_of_active ((w.pool.begun j).active?_setCall_self hwaiting)]
      exact .nil
  | @left j _ _ _ run hactive _ =>
      obtain rfl := Option.some.inj hcall
      have hafter : (w.pool.leave j run .aborted).1.active? j = none :=
        Pool.active?_leave_self hactive .aborted
      rw [Pool.inFlightOf_of_inactive hafter]
      have hall : w'.roster j ++ [] ⊆ run.inFlight := by simpa using hroster hactive
      exact .of_eq (crew_after_of_cancel hafter [] [.runAborted] rfl rfl hall)
  | @dropped j run hactive =>
      obtain rfl := Option.some.inj hcall
      have hafter := Pool.active?_dropped_self hactive
      rw [Pool.inFlightOf_of_inactive hafter]
      have hall : w'.roster j ++ [] ⊆ run.inFlight := by simpa using hroster hactive
      exact .of_eq (crew_after_of_cancel hafter [] [] rfl rfl hall)
  | @moved j _ _ _ run t hactive _ _ hreaction _ =>
      obtain rfl := Option.some.inj hcall
      have hafter := Pool.active?_moved_self hactive hreaction
      rw [Pool.inFlightOf_of_active hactive] at hcrew
      rw [Pool.inFlightOf_of_active hafter]
      exact crew_after_of_moved hreaction hafter (crew_perm_of_takes htakes hcrew)
  | @ended j _ _ _ run t outcome hactive _ _ hreaction _ =>
      obtain rfl := Option.some.inj hcall
      have hafter : (t.pool.leave j t.run outcome).1.active? j = none :=
        Pool.active?_leave_self ((hreaction.active?_eq j).trans hactive) outcome
      rw [Pool.inFlightOf_of_active hactive] at hcrew
      rw [Pool.inFlightOf_of_inactive hafter]
      exact .of_eq (crew_after_of_ended hreaction hafter _ (crew_perm_of_takes htakes hcrew))

theorem crew_perm_of_callTurn {s : Recorder} {c : LoadConfig} (hlife : w.pool.Lifecycle)
    (hcrew : ∀ i, (w.crew i).Perm (w.pool.inFlightOf i))
    (h : w.callTurn call now s c = some t) (i : Nat) :
    (t.place.crew i).Perm (t.place.pool.inFlightOf i) := by
  obtain ⟨m, taken, ⟨q, effects⟩, htakes, hmove, rfl⟩ := takes_of_callTurn h
  have htransition := Pool.transition_of_move hlife hmove
  rw [pool_after]
  by_cases hi : i = call
  · subst hi
    exact crew_perm_of_transition htakes htransition (hcrew i)
  · have hpart := Pool.part_of_transition hlife htransition i
    rw [crew_after_of_ne hi, crew_of_takes_of_ne htakes hi, Pool.inFlightOf,
      Pool.active?_of_part_of_ne hpart (call?_of_takes htakes) hi]
    exact hcrew i

/-- The invocations that have not ended are among those that have been started, in the same
order, and those have been numbered one by one. -/
structure Registered (launched : List (Nat × Nat)) (w : Workplace) : Prop where
  sublist : (w.invocations.map Invocation.origin).Sublist launched
  numbers_eq : launched.map Prod.snd = List.range w.tally.started

namespace Registered

variable {launched : List (Nat × Nat)}

theorem numbers_nodup (h : Registered launched w) : (w.invocations.map (·.number)).Nodup := by
  have hsublist := h.sublist.map Prod.snd
  rw [List.map_map, h.numbers_eq] at hsublist
  exact List.nodup_range.sublist hsublist

theorem call_eq (h : Registered launched w) {i : Invocation} (hmem : i ∈ w.invocations)
    (hlaunched : (call, i.number) ∈ launched) : i.call = call := by
  have hnodup : (launched.map Prod.snd).Nodup := by
    rw [h.numbers_eq]
    exact List.nodup_range
  have horigin : i.origin ∈ launched := h.sublist.subset (List.mem_map_of_mem hmem)
  exact congrArg Prod.fst (List.inj_on_of_nodup_map hnodup horigin hlaunched rfl)

theorem carryOut (h : Registered (launched ++ t.started.map (call, ·)) t.place)
    (effect : Effect) :
    Registered (launched ++ (carryOut call now t effect).started.map (call, ·))
      (carryOut call now t effect).place := by
  cases effect with
  | start name =>
      constructor
      · simpa [Workplace.carryOut, Invocation.origin] using h.sublist.append_right [_]
      · rw [Workplace.carryOut, List.range_succ, ← h.numbers_eq]
        simp
  | cancel names => exact ⟨(List.filter_sublist.map _).trans h.sublist, h.numbers_eq⟩
  | askFinished | askReady | report _ => exact ⟨h.sublist, h.numbers_eq⟩

theorem foldl_carryOut {effects : List Effect}
    (h : Registered (launched ++ t.started.map (call, ·)) t.place) :
    Registered (launched ++ (effects.foldl (Workplace.carryOut call now) t).started.map (call, ·))
      (effects.foldl (Workplace.carryOut call now) t).place := by
  induction effects generalizing t with
  | nil => exact h
  | cons effect effects ih => exact ih (h.carryOut effect)

theorem tidy (h : Registered launched w) : Registered launched (w.tidy call) := by
  unfold Workplace.tidy
  dsimp only
  split
  · split <;> exact ⟨h.sublist, h.numbers_eq⟩
  · exact ⟨h.sublist, h.numbers_eq⟩

theorem of_takes (h : Registered launched w) (htakes : w.Takes call m w') :
    Registered launched w' := by
  cases htakes <;> exact ⟨h.sublist, h.numbers_eq⟩

theorem callTurn (h : Registered launched w) {s : Recorder} {c : LoadConfig}
    (hturn : w.callTurn call now s c = some t) :
    Registered (launched ++ t.started.map (call, ·)) t.place := by
  obtain ⟨m, taken, turn, htakes, -, rfl⟩ := takes_of_callTurn hturn
  have hbegun : Registered (launched ++ [].map (call, ·)) { taken with pool := turn.1 } := by
    have htaken := h.of_takes htakes
    exact ⟨by simpa using htaken.sublist, by simpa using htaken.numbers_eq⟩
  exact (foldl_carryOut (t := { place := { taken with pool := turn.1 } }) hbegun).tidy

theorem exists_invocations_eq (h : Registered launched w) {number : Nat} {i : Invocation}
    (hfind : w.invocations.find? (·.number = number) = some i) : ∃ before after,
    w.invocations = before ++ i :: after ∧
      w.invocations.filter (·.number ≠ number) = before ++ after := by
  obtain ⟨hnumber, before, after, hsplit, hbefore⟩ := List.find?_eq_some_iff_append.mp hfind
  obtain rfl : i.number = number := by simpa using hnumber
  have hnodup := h.numbers_nodup
  rw [hsplit, List.map_append, List.map_cons, List.nodup_append, List.nodup_cons] at hnodup
  obtain ⟨-, ⟨hafter, -⟩, -⟩ := hnodup
  refine ⟨before, after, hsplit, ?_⟩
  rw [hsplit, List.filter_append, List.filter_cons_of_neg (by simp)]
  congr 1
  · exact List.filter_eq_self.mpr fun k hk => by simpa using hbefore k hk
  · refine List.filter_eq_self.mpr fun k hk => ?_
    have hne : k.number ≠ i.number := fun heq => hafter (heq ▸ List.mem_map_of_mem hk)
    simp [hne]

end Registered

inductive Polled (w : Workplace) (number : Nat) : Workplace → Prop
  | asleep (wakesAt : Moment) :
      Polled w number { w with invocations := w.invocations.map (·.slept number wakesAt) }
  | ended {i : Invocation} (hfind : w.invocations.find? (·.number = number) = some i)
      (result : Except String Unit) (tally : Tally) (hstarted : tally.started = w.tally.started) :
      Polled w number { w with
        invocations := w.invocations.filter (·.number ≠ number)
        ended := w.ended ++ [⟨i.call, i.name, result⟩]
        tally }

theorem polled_of_invocationTurn {number errors : Nat} {calls : List Nat}
    (h : w.invocationTurn number now = some (w', errors, calls)) : w.Polled number w' := by
  unfold invocationTurn at h
  dsimp only at h
  split at h
  · simp at h
  · next i hfind =>
      split at h
      · obtain ⟨rfl, -⟩ := Prod.mk.inj (Option.some.inj h)
        exact .asleep _
      · split at h
        · obtain ⟨rfl, -⟩ := Prod.mk.inj (Option.some.inj h)
          refine .ended hfind _ _ ?_
          split <;> rfl
        · simp at h

theorem crew_perm_of_polled {launched : List (Nat × Nat)} {number : Nat}
    (hregistered : Registered launched w) (h : w.Polled number w') (i : Nat) :
    (w'.crew i).Perm (w.crew i) := by
  cases h with
  | asleep wakesAt =>
      refine .of_eq (congrArg (· ++ w.joinable i) ?_)
      simp only [roster, List.filter_map, List.map_map, Function.comp_def, Invocation.slept_eq]
  | @ended k hfind result tally _ =>
      obtain ⟨before, after, hbefore, hafter⟩ := hregistered.exists_invocations_eq hfind
      simp only [crew, roster, joinable, hafter]
      rw [hbefore]
      by_cases hcall : k.call = i
      · -- The name moves from the end of the crew to its place among the invocations.
        simp only [List.filter_append, List.filter_cons, hcall, decide_true, if_true,
          List.filter_nil, List.map_append, List.map_cons, List.map_nil]
        refine List.perm_iff_count.mpr fun name => ?_
        simp only [List.count_append, List.count_cons, List.count_nil]
        omega
      · simp [hcall]

theorem Registered.of_polled {launched : List (Nat × Nat)} {number : Nat}
    (h : Registered launched w) (hpolled : w.Polled number w') : Registered launched w' := by
  cases hpolled with
  | asleep wakesAt =>
      refine ⟨?_, h.numbers_eq⟩
      simpa only [List.map_map, Function.comp_def, Invocation.slept_eq] using h.sublist
  | ended _ _ _ hstarted =>
      refine ⟨(List.filter_sublist.map _).trans h.sublist, ?_⟩
      rw [hstarted]
      exact h.numbers_eq

end

/-- What the moves of a workplace keep, given the invocations that they have started. -/
structure Staffed (launched : List (Nat × Nat)) (w : Workplace) : Prop where
  crew_perm : ∀ i, (w.crew i).Perm (w.pool.inFlightOf i)
  registered : Registered launched w

section

variable {workload : Workload} {s : Settings} {c : ScalingConfig} {w w' : Workplace}
  {steps earlier later : List Step} {m : Move} {started : List Nat}
  {launched : List (Nat × Nat)} {i : Nat}

theorem inFlightOf_of_abort {p q : Pool Float} {effects : List Effect} (hlife : p.Lifecycle)
    (hmove : p.move? .abort = some (q, effects)) (i : Nat) : q.inFlightOf i = p.inFlightOf i := by
  cases Pool.part_of_transition hlife (Pool.transition_of_move hlife hmove) i with
  | bystander _ hsame _ => rw [Pool.inFlightOf, hsame, Pool.inFlightOf]
  | aborted hactive =>
      have hafter := Pool.inFlightOf_of_active (Pool.active?_aborted_self hactive)
      rw [Pool.inFlightOf_of_active hactive]
      exact hafter

theorem Staffed.congr (h : Staffed launched w) (hinvocations : w'.invocations = w.invocations)
    (hended : w'.ended = w.ended) (htally : w'.tally = w.tally)
    (hinFlight : ∀ i, w'.pool.inFlightOf i = w.pool.inFlightOf i) : Staffed launched w' := by
  refine ⟨fun i => ?_, ?_, ?_⟩
  · rw [crew, roster, joinable, hinvocations, hended, hinFlight]
    exact h.crew_perm i
  · rw [hinvocations]
    exact h.registered.sublist
  · rw [htally]
    exact h.registered.numbers_eq

theorem staffed_of_move (hlife : w.pool.Lifecycle) (h : Staffed launched w)
    (hmove : w.move? m = some (w', started)) :
    Staffed (launched ++ launches [⟨w, m, w', started⟩]) w' := by
  -- Only the turns of calls start anything.
  have hstill (hcall : m.call? = none) (hkept : Staffed launched w') :
      Staffed (launched ++ launches [⟨w, m, w', started⟩]) w' := by
    simpa [launches, hcall] using hkept
  cases m with
  | call =>
      obtain ⟨rfl, rfl⟩ := Prod.mk.inj (Option.some.inj hmove)
      refine hstill rfl (h.congr rfl rfl rfl fun i => ?_)
      rw [Pool.inFlightOf, Pool.active?_call, Pool.inFlightOf]
  | abort =>
      simp only [move?] at hmove
      split at hmove
      · next pool effects habort =>
          obtain ⟨rfl, rfl⟩ := Prod.mk.inj (Option.some.inj hmove)
          have hpool : w.pool.move? .abort = some (pool, effects) := by simp [Pool.move?, habort]
          exact hstill rfl (h.congr rfl rfl rfl (inFlightOf_of_abort hlife hpool))
      · obtain ⟨rfl, rfl⟩ := Prod.mk.inj (Option.some.inj hmove)
        exact hstill rfl h
  | giveUp call =>
      obtain ⟨rfl, rfl⟩ := Prod.mk.inj (Option.some.inj hmove)
      exact hstill rfl (h.congr rfl rfl rfl fun _ => rfl)
  | turn call now recorder evaluator =>
      obtain ⟨t, hturn, heq⟩ := Option.map_eq_some_iff.mp hmove
      obtain ⟨rfl, rfl⟩ := Prod.mk.inj heq
      refine ⟨crew_perm_of_callTurn hlife h.crew_perm hturn, ?_⟩
      simpa [launches, Move.call?] using h.registered.callTurn hturn
  | poll number now =>
      obtain ⟨⟨place, errors, calls⟩, hturn, heq⟩ := Option.map_eq_some_iff.mp hmove
      obtain ⟨rfl, rfl⟩ := Prod.mk.inj heq
      have hpolled := polled_of_invocationTurn hturn
      refine hstill rfl ⟨fun i => ?_, h.registered.of_polled hpolled⟩
      rw [pool_invocationTurn hturn]
      exact (crew_perm_of_polled h.registered hpolled i).trans (h.crew_perm i)

theorem staffed_of_execution (h : Execution (fresh workload s c) steps w) :
    Staffed (launches steps) w := by
  induction h with
  | start => exact ⟨fun i => .nil, .slnil, rfl⟩
  | next hbefore hmove ih =>
      obtain ⟨moves, hmoves, -⟩ := hbefore.pool
      rw [launches_append]
      exact staffed_of_move (Pool.lifecycle_of_execution hmoves) ih hmove

theorem Staffed.crew_eq_nil (h : Staffed launched w) (hinactive : w.pool.active? i = none) :
    w.crew i = [] := by
  have hcrew := h.crew_perm i
  rw [Pool.inFlightOf_of_inactive hinactive] at hcrew
  exact hcrew.eq_nil

theorem Staffed.exists_active (h : Staffed launched w) {k : Invocation}
    (hmem : k ∈ w.invocations) : ∃ run, w.pool.active? k.call = some run := by
  rcases hactive : w.pool.active? k.call with _ | run
  · have hname : k.name ∈ w.crew k.call :=
      List.mem_append_left _ (List.mem_map_of_mem (List.mem_filter.mpr ⟨hmem, by simp⟩))
    simp [h.crew_eq_nil hactive] at hname
  · exact ⟨run, rfl⟩

/-- An invocation is not polled any more once the run that has started it is not active. -/
theorem Staffed.invocationTurn_eq_none (h : Staffed launched w)
    (hinactive : w.pool.active? i = none) {number : Nat} (hmem : (i, number) ∈ launched)
    (now : Moment) : w.invocationTurn number now = none := by
  have hnone : w.invocations.find? (·.number = number) = none := by
    refine List.find?_eq_none.mpr fun k hk => ?_
    rw [decide_eq_true_iff]
    rintro rfl
    obtain ⟨run, hactive⟩ := h.exists_active hk
    rw [h.registered.call_eq hk hmem, hinactive] at hactive
    cases hactive
  simp [invocationTurn, hnone]

theorem over_of_execution (h : Execution (fresh workload s c) earlier w) (hover : w.pool.Over i)
    (hlater : Execution w later w') : w'.pool.Over i := by
  obtain ⟨call, hcall, hrun, hbegun⟩ := hover
  obtain ⟨moves, hmoves, -⟩ := h.pool
  obtain ⟨since, hsince, -⟩ := hlater.pool
  obtain ⟨hkept, -⟩ := Pool.settled_of_execution hmoves hsince hcall hrun hbegun
  exact ⟨call, hkept, hrun, hbegun⟩

/-- A run accounts for every invocation that it has started, however it ends: as joined well, as
joined with an error, or as cancelled at the end.  It has cancelled none if it has finished or
ends with the error of an invocation.  Once its call is over, none of its invocations is left to
be polled or joined, and what a later run counts has been started by the later run. -/
theorem invocations_end_with_run {α : Type} [Scalar α] {s : Settings} {c : ScalingConfig} :
    (∀ {earlier later : List (Pool.Step α)} {e : Pool.Step α} {p : Pool α} {i : Nat} {run : Run α}
      {j : List Entry}, Pool.Execution (.fresh s c) (earlier ++ e :: later) p →
      Pool.journal i (earlier ++ e :: later) = j →
      e.before.active? i = some run → e.after.active? i = none →
        Pool.journal i later = [] ∧ (starts j).Nodup ∧
        (starts j).Perm (successes j ++ failures j ++ cancellations j) ∧
        (starts j).length =
          (successes j).length + (failures j).length + (cancellations j).length ∧
        (e.after.phase = .finished → cancellations j = [] ∧ failures j = []) ∧
        ∀ cause, e.after.calls[i]? = some (.ended (.error (.taskFailed cause))) →
          cancellations j = [] ∧ failures j ≠ []) ∧
    ∀ {workload : Workload} {earlier later : List Step} {w w' : Workplace} {i : Nat},
      Execution (fresh workload s c) earlier w → w.pool.Over i → Execution w later w' →
        (∃ moves, Pool.Execution (.fresh s c) moves w.pool ∧
          (starts (Pool.journal i moves)).length = (launches earlier).countP (·.1 = i)) ∧
        (∀ number, (i, number) ∈ launches earlier →
          ∀ now, w'.invocationTurn number now = none) ∧
        w'.crew i = [] ∧
        ∀ k run, w'.pool.active? k = some run → k ≠ i ∧ (w'.crew k).Perm run.inFlight ∧
          (∀ inv ∈ w'.invocations, inv.call = k ∧ (k, inv.number) ∈ launches (earlier ++ later)) ∧
          (run.cancelled = false → w'.pool.current.toNat = (w'.crew k).length) := by
  constructor
  · intro earlier later e p i run j h hjournal hactive hinactive
    obtain ⟨hquiet, haccount, hends⟩ := Pool.account_of_ended h hjournal hactive hinactive
    exact ⟨hquiet, haccount.starts_nodup, haccount.starts_perm, haccount.length_eq, hends⟩
  · intro workload earlier later w w' i h hover hlater
    have hwhole := h.trans hlater
    have hstaffed := staffed_of_execution hwhole
    have hinactive := (over_of_execution h hover hlater).active?_eq_none
    obtain ⟨moves, hmoves, hcount⟩ := h.pool
    obtain ⟨all, hall, -⟩ := hwhole.pool
    have hlife := Pool.lifecycle_of_execution hall
    refine ⟨⟨moves, hmoves, hcount i⟩, fun number hmem now => ?_, hstaffed.crew_eq_nil hinactive,
      fun k run hactive => ?_⟩
    · refine hstaffed.invocationTurn_eq_none hinactive ?_ now
      rw [launches_append]
      exact List.mem_append_left _ hmem
    · have hcrew := hstaffed.crew_perm k
      rw [Pool.inFlightOf_of_active hactive] at hcrew
      refine ⟨?_, hcrew, fun inv hinv => ?_, fun hlive => ?_⟩
      · rintro rfl
        simp [hinactive] at hactive
      · obtain ⟨run', hactive'⟩ := hstaffed.exists_active hinv
        obtain rfl := hlife.eq_of_active hactive' hactive
        exact ⟨rfl, hstaffed.registered.sublist.subset (List.mem_map_of_mem hinv)⟩
      · rw [(Pool.balanced_of_execution hall hactive hlive).current_eq, hcrew.length_eq]

/-- One of two invocations has been joined and the other one is asleep when the call is given up.
The next call starts one of its own. -/
theorem invocations_end_with_run_of_dropped :
    (∃ earlier, ∃ e : Pool.Step Float, ∃ p j,
      Pool.Execution (.fresh .pair {}) (earlier ++ [e]) p ∧
      Pool.journal 0 (earlier ++ [e]) = j ∧ successes j = [0] ∧ cancellations j = [1] ∧
      (starts j).Perm (successes j ++ failures j ++ cancellations j)) ∧
    ∃ workload earlier later w w', Execution (fresh workload .pair {}) earlier w ∧
      w.pool.Over 0 ∧ Execution w later w' ∧ launches earlier = [(0, 0), (0, 1)] ∧
      (∀ now, w'.invocationTurn 1 now = none) ∧ w'.crew 1 = [0] ∧
      w'.pool.current.toNat = (w'.crew 1).length := by
  constructor
  · let moves : List Pool.Move := [.call, .enter, .answer false, .answer true, .answer true,
      .join 0 (.ok ())]
    obtain ⟨earlier, p, hplay, run, hactive, q, effects, hmove, hinactive, j, hjournal, hjoined,
        hcancelled⟩ :
        ∃ earlier, ∃ p : Pool Float, (Pool.fresh .pair {}).play moves = some (earlier, p) ∧
          ∃ run, p.active? 0 = some run ∧ ∃ q effects, p.move? (.drop 0) = some (q, effects) ∧
            q.active? 0 = none ∧ ∃ j, Pool.journal 0 (earlier ++ [⟨p, .drop 0, effects, q⟩]) = j ∧
              successes j = [0] ∧ cancellations j = [1] :=
      ⟨_, _, rfl, _, rfl, _, _, rfl, rfl, _, rfl, rfl, rfl⟩
    have h := (Pool.execution_of_play hplay).next hmove
    obtain ⟨-, -, hperm, -⟩ := invocations_end_with_run.1 h hjournal hactive hinactive
    exact ⟨earlier, _, q, j, h, hjournal, hjoined, hcancelled, hperm⟩
  · obtain ⟨earlier, w, hplay, hcall, hlaunches, later, w', hplay', run, hactive, hlive, hcrew⟩ :
        ∃ earlier w, (fresh .steady .pair {}).play [.call, .turnAtOnce 0, .turnAtOnce 0,
            .turnAtOnce 0, .turnAtOnce 0, .pollAtOnce 0, .pollAtOnce 0, .turnAtOnce 0,
            .pollAtOnce 1, .giveUp 0, .turnAtOnce 0] = some (earlier, w) ∧
          w.pool.calls[0]? = some .dropped ∧ launches earlier = [(0, 0), (0, 1)] ∧
          ∃ later w', w.play [.call, .turnAtOnce 1, .turnAtOnce 1, .turnAtOnce 1] =
              some (later, w') ∧
            ∃ run, w'.pool.active? 1 = some run ∧ run.cancelled = false ∧ w'.crew 1 = [0] :=
      ⟨_, _, rfl, rfl, rfl, _, _, rfl, _, rfl, rfl, rfl⟩
    have h := execution_of_play hplay
    have hover : w.pool.Over 0 := ⟨.dropped, hcall, rfl, by simp⟩
    have hlater := execution_of_play hplay'
    obtain ⟨-, hpolls, -, hcounts⟩ := invocations_end_with_run (α := Float) |>.2 h hover hlater
    obtain ⟨-, -, -, hcurrent⟩ := hcounts 1 run hactive
    exact ⟨.steady, earlier, later, w, w', h, hover, hlater, hlaunches,
      hpolls 1 (by simp [hlaunches]), hcrew, hcurrent hlive⟩

end

end Workplace

end Simulation

end ElasticPool
