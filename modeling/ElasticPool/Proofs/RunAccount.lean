import ElasticPool.Proofs.Completion

namespace ElasticPool

open Journal

variable {α : Type}

namespace Journal

namespace Entry

@[simp] def succeeded : Entry → List Nat
  | joined invocation (.ok _) => [invocation]
  | _ => []

@[simp] def failed : Entry → List Nat
  | joined invocation (.error _) => [invocation]
  | _ => []

@[simp] def discarded : Entry → List Nat
  | cancelled invocations => invocations
  | _ => []

end Entry

def successes (j : List Entry) : List Nat := j.flatMap Entry.succeeded

def failures (j : List Entry) : List Nat := j.flatMap Entry.failed

def cancellations (j : List Entry) : List Nat := j.flatMap Entry.discarded

@[simp] theorem successes_append (j j' : List Entry) :
    successes (j ++ j') = successes j ++ successes j' :=
  List.flatMap_append

@[simp] theorem failures_append (j j' : List Entry) :
    failures (j ++ j') = failures j ++ failures j' :=
  List.flatMap_append

@[simp] theorem cancellations_append (j j' : List Entry) :
    cancellations (j ++ j') = cancellations j ++ cancellations j' :=
  List.flatMap_append

@[simp] theorem cancellations_nil : cancellations [] = [] := rfl

@[simp] theorem cancellations_cons (entry : Entry) (j : List Entry) :
    cancellations (entry :: j) = entry.discarded ++ cancellations j :=
  List.flatMap_cons

theorem failures_eq_nil_iff {j : List Entry} : failures j = [] ↔ firstError? j = none := by
  rw [failures, List.flatMap_eq_nil_iff, firstError?, List.findSome?_eq_none_iff]
  refine forall₂_congr fun entry _ => ?_
  rcases entry with _ | _ | _ | ⟨k, result⟩ | _ | _
  case joined => cases result <;> simp
  all_goals simp

/-- Every invocation that has been started has been joined well, joined with an error, or left
as given, and only one of these. -/
structure Account (j : List Entry) (left : List Nat) : Prop where
  starts_nodup : (starts j).Nodup
  starts_perm : (starts j).Perm (successes j ++ failures j ++ left)

theorem Account.length_eq {j : List Entry} {left : List Nat} (h : Account j left) :
    (starts j).length = (successes j).length + (failures j).length + left.length := by
  rw [h.starts_perm.length_eq, List.length_append, List.length_append]

end Journal

@[simp] def RunEvent.leaves (inFlight : List Nat) : RunEvent → List Nat
  | joined invocation _ => inFlight.erase invocation
  | scaleTick _ | statusTick _ | answered _ | waited => inFlight

namespace Run

section

variable [Scalar α] {p : Pool α} {r : Run α} {now : Moment} {event : RunEvent} {t : RunTurn α}

/-- A turn takes from what is in flight what its event has joined and adds what it starts.  It
cancels nothing. -/
theorem Reaction.inFlight_eq (h : Reaction p r now event t) :
    t.run.inFlight = event.leaves r.inFlight ++ starts (Effect.entries t.effects) ∧
      cancellations (Effect.entries t.effects) = [] := by
  cases h with
  | sought =>
      rw [RunTurn.seekMore_eq]
      dsimp only
      split <;> simp
  | launched =>
      rw [RunTurn.seekMore_eq]
      dsimp only
      split <;> simp [RunTurn.startOne, RunTurn.report, RunTurn.perform]
  | _ => simp

end

end Run

namespace Pool

section

variable [Scalar α] {s : Settings} {c : ScalingConfig} {p q : Pool α} {run : Run α}
  {now : Moment} {event : RunEvent} {t : RunTurn α} {i : Nat} {m : Move} {j : List Entry}
  {steps : List (Step α)} {cause : String}

structure Open (run : Run α) (j : List Entry) : Prop where
  starts_perm : (starts j).Perm (successes j ++ failures j ++ run.inFlight)
  cancellations_eq_nil : cancellations j = []

omit [Scalar α] in
theorem inFlight_perm_of_admits (hadmits : run.Admits now event) (open? : Option Question) :
    run.inFlight.Perm (successes (event.entry? open?).toList ++
      failures (event.entry? open?).toList ++ event.leaves run.inFlight) := by
  cases event with
  | joined k result =>
      cases result <;> simpa [successes, failures] using List.perm_cons_erase hadmits
  | answered yes => cases open? <;> simp [successes, failures]
  | scaleTick _ | statusTick _ | waited => simp [successes, failures]

theorem cancellations_entry? (event : RunEvent) (open? : Option Question) :
    cancellations (event.entry? open?).toList = [] := by
  cases event with
  | answered yes => cases open? <;> simp
  | joined _ _ | scaleTick _ | statusTick _ | waited => simp

theorem entries_joinless (effects : List Effect) :
    successes (Effect.entries effects) = [] ∧ failures (Effect.entries effects) = [] := by
  constructor
  all_goals
    refine List.flatMap_eq_nil_iff.mpr fun entry hmem => ?_
    rcases entry with _ | _ | _ | ⟨k, result⟩ | _ | _
    case joined => exact absurd hmem (Effect.joined_not_mem_entries effects k result)
    all_goals rfl

/-- Every turn keeps the account, also one that ends its run. -/
theorem open_of_reaction (hadmits : run.Admits now event)
    (hreaction : run.Reaction p now event t) (h : Open run j) :
    Open t.run (j ++ reactionEntries run event t) := by
  have hstarts := event.starts_entry? run.dispatch.question?
  obtain ⟨hsuccesses, hfailures⟩ := entries_joinless t.effects
  obtain ⟨hinFlight, hquiet⟩ := hreaction.inFlight_eq
  constructor
  · rw [reactionEntries, hinFlight]
    refine List.perm_iff_count.mpr fun k => ?_
    have hold := List.perm_iff_count.mp h.starts_perm k
    have hleft := List.perm_iff_count.mp
      (inFlight_perm_of_admits hadmits run.dispatch.question?) k
    simp only [starts_append, successes_append, failures_append, List.count_append, hstarts,
      hsuccesses, hfailures, List.count_nil] at *
    omega
  · rw [reactionEntries, cancellations_append, cancellations_append, h.cancellations_eq_nil,
      cancellations_entry?, hquiet]
    rfl

theorem open_of_execution (h : Execution (fresh s c) steps p)
    (hactive : p.active? i = some run) : Open run (journal i steps) := by
  obtain ⟨_, _, hopen, -⟩ := active_induction (fun _ _ => Open)
    (fun now => ⟨.nil, rfl⟩)
    (fun _ _ _ hadmits hreaction _ hopen => open_of_reaction hadmits hreaction hopen) h hactive
  exact ⟨hopen.starts_perm, hopen.cancellations_eq_nil⟩

omit [Scalar α] in
theorem Open.account (h : Open run j) (hstarts : (starts j).Nodup) :
    Account (j ++ [.cancelled run.inFlight])
      (cancellations (j ++ [.cancelled run.inFlight])) where
  starts_nodup := by simpa using hstarts
  starts_perm := by
    simpa [h.cancellations_eq_nil, successes, failures] using h.starts_perm

/-- Whatever ends a run cancels what it has in flight. -/
theorem account_of_stops (h : Execution (fresh s c) steps p) (hactive : p.active? i = some run)
    {entries : List Entry} (hstops : Stops p i run m entries q) :
    Account (journal i steps ++ entries) (cancellations (journal i steps ++ entries)) := by
  have hopen := open_of_execution h hactive
  cases hstops with
  | left _ | dropped =>
      obtain ⟨_, _, hbalanced⟩ := exists_balanced_of_execution h hactive
      refine hopen.account ?_
      rw [hbalanced.starts_eq]
      exact List.nodup_range
  | ended hlive hadmits hreaction _ =>
      have hbalanced := balanced_of_reaction (settings_of_execution h).1 hadmits hreaction
        (balanced_of_execution h hactive hlive)
      rw [← List.append_assoc]
      refine (open_of_reaction hadmits hreaction hopen).account ?_
      rw [hbalanced.starts_eq]
      exact List.nodup_range

theorem drained_of_stops (hactive : p.active? i = some run) {entries : List Entry}
    (hstops : Stops p i run m entries q)
    (hfailed : q.calls[i]? = some (.ended (.error (.taskFailed cause)))) :
    cancellations entries = [] ∧ run.failure?.or (firstError? entries) = some cause := by
  have hcall : p.calls[i]? = some (.active run) := (p.active?_eq_some_iff).mp hactive
  cases hstops with
  | left _ => simp [call_leave_self hcall, Outcome.result] at hfailed
  | dropped => simp [setCall, release, p.lt_length_of_call hcall] at hfailed
  | @ended now sampling event t outcome _ _ hreaction houtcome =>
      rw [call_leave_self (call_of_reaction hactive hreaction)] at hfailed
      have hresult : outcome.result = .error (.taskFailed cause) := by simpa using hfailed
      obtain rfl : outcome = .taskFailed cause := by
        cases outcome <;> simp_all [Outcome.result]
      cases hreaction with
      | @drained k result known signals hknown hlast =>
          obtain rfl : known = cause := by simpa using houtcome
          rw [reactionEntries_joined signals rfl]
          exact ⟨by simp [hlast], by simpa using hknown⟩
      | _ => simp at houtcome

theorem settled_of_finished (h : Execution (fresh s c) steps p)
    (hactive : p.active? i = some run) {entries : List Entry}
    (hstops : Stops p i run m entries q) (hphase : q.phase = .finished) :
    cancellations (journal i steps ++ entries) = [] ∧
      failures (journal i steps ++ entries) = [] := by
  obtain ⟨hfinishes, -, rfl⟩ :=
    finishes_of_stops (lifecycle_of_execution h) hactive hstops hphase
  have hnone := firstError?_of_busy h hactive (by simp [hfinishes.asked])
  constructor
  · simp [(open_of_execution h hactive).cancellations_eq_nil]
  · rw [failures_eq_nil_iff, firstError?_append, hnone]
    rfl

/-- A run that ends with the error of an invocation has joined everything, and not all of it
well. -/
theorem settled_of_failed (h : Execution (fresh s c) steps p)
    (hactive : p.active? i = some run) {entries : List Entry}
    (hstops : Stops p i run m entries q)
    (hfailed : q.calls[i]? = some (.ended (.error (.taskFailed cause)))) :
    cancellations (journal i steps ++ entries) = [] ∧
      failures (journal i steps ++ entries) ≠ [] := by
  obtain ⟨hnothing, hcause⟩ := drained_of_stops hactive hstops hfailed
  constructor
  · rw [cancellations_append, (open_of_execution h hactive).cancellations_eq_nil, hnothing]
    rfl
  · rw [Ne, failures_eq_nil_iff, firstError?_append,
      ← (remembers_of_execution h hactive).failure?_eq, hcause]
    simp

/-- The journal of a run that is over accounts for every invocation that the run has started,
however the run has ended. -/
theorem account_of_ended {earlier later : List (Step α)} {e : Step α} {j : List Entry}
    (h : Execution (fresh s c) (earlier ++ e :: later) p)
    (hjournal : journal i (earlier ++ e :: later) = j)
    (hactive : e.before.active? i = some run) (hinactive : e.after.active? i = none) :
    journal i later = [] ∧ Account j (cancellations j) ∧
      (e.after.phase = .finished → cancellations j = [] ∧ failures j = []) ∧
      ∀ cause, e.after.calls[i]? = some (.ended (.error (.taskFailed cause))) →
        cancellations j = [] ∧ failures j ≠ [] := by
  obtain ⟨hbefore, hmove⟩ := h.of_append_cons
  have hstops := stops_of_part (part_of_execution hbefore hmove i) hactive hinactive
  obtain ⟨call, hcall, hrun, hbegun⟩ := over_of_stops hactive hstops
  obtain ⟨-, hquiet⟩ :=
    settled_of_execution (hbefore.next hmove) h.after_append_cons hcall hrun hbegun
  obtain rfl : journal i earlier ++ e.entries i = j := by
    rw [← hjournal, List.append_cons, journal_append, journal_append, journal_singleton, hquiet,
      List.append_nil]
  exact ⟨hquiet, account_of_stops hbefore hactive hstops,
    fun hphase => settled_of_finished hbefore hactive hstops hphase,
    fun cause hfailed => settled_of_failed hbefore hactive hstops hfailed⟩

end

end Pool

end ElasticPool
