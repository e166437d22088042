import ElasticPool.Proofs.LiveRun

namespace ElasticPool

open Journal

variable {α : Type}

namespace Budget

variable [Scalar α]

def after (b : Budget α) : List Moment → Budget α
  | [] => b
  | now :: calls => after (b.take now).2 calls

def grants (b : Budget α) (calls : List Moment) : Nat := (b.answers calls).countP (·.isOk)

theorem after_concat (b : Budget α) (calls : List Moment) (now : Moment) :
    b.after (calls ++ [now]) = ((b.after calls).take now).2 := by
  induction calls generalizing b with
  | nil => rfl
  | cons first calls ih => exact ih _

theorem answers_concat (b : Budget α) (calls : List Moment) (now : Moment) :
    b.answers (calls ++ [now]) = b.answers calls ++ [((b.after calls).take now).1] := by
  induction calls generalizing b with
  | nil => rfl
  | cons first calls ih =>
      show (b.take first).1 :: answers (b.take first).2 (calls ++ [now]) = _
      rw [ih]
      rfl

theorem grants_concat (b : Budget α) (calls : List Moment) (now : Moment) :
    b.grants (calls ++ [now]) =
      b.grants calls + if ((b.after calls).take now).1.isOk then 1 else 0 := by
  rw [grants, answers_concat, List.countP_append, List.countP_singleton]
  rfl

end Budget

namespace Pool

/-- What a run holds agrees with its journal. -/
structure Remembers [Scalar α] (s : Settings) (run : Run α) (j : List Entry) : Prop where
  failure?_eq : run.failure? = firstError? j
  latest?_eq : ∀ question, run.dispatch.question? = some question →
    latest? j = some (.asked question)
  budget_eq : ∃ origin calls, run.budget = (Budget.full s.tasksPerMinute origin).after calls ∧
    (Budget.full s.tasksPerMinute origin : Budget α).grants calls = (starts j).length

namespace Remembers

variable [Scalar α] {s : Settings} {run run' : Run α} {j entries : List Entry}

theorem append_of_still (h : Remembers s run j) (hbudget : run'.budget = run.budget)
    (hfailure : run'.failure? = (firstError? j).or (firstError? entries))
    (hlatest : ∀ question, run'.dispatch.question? = some question →
      (latest? entries).or (latest? j) = some (.asked question))
    (hstarts : starts entries = []) : Remembers s run' (j ++ entries) where
  failure?_eq := by rw [firstError?_append, hfailure]
  latest?_eq := by simpa only [latest?_append] using hlatest
  budget_eq := by
    obtain ⟨origin, calls, hcalls, hgrants⟩ := h.budget_eq
    refine ⟨origin, calls, hbudget.trans hcalls, ?_⟩
    rw [starts_append, hstarts, List.append_nil, hgrants]

/-- A budget that is asked grants exactly the start that follows, if there is one. -/
theorem append_of_asked {now : Moment} {answer : Except Span Unit} (h : Remembers s run j)
    (hbudget : run.budget.take now = (answer, run'.budget))
    (hfailure : run'.failure? = (firstError? j).or (firstError? entries))
    (hlatest : ∀ question, run'.dispatch.question? = some question →
      (latest? entries).or (latest? j) = some (.asked question))
    (hstarts : (starts entries).length = if answer.isOk then 1 else 0) :
    Remembers s run' (j ++ entries) where
  failure?_eq := by rw [firstError?_append, hfailure]
  latest?_eq := by simpa only [latest?_append] using hlatest
  budget_eq := by
    obtain ⟨origin, calls, hcalls, hgrants⟩ := h.budget_eq
    refine ⟨origin, calls ++ [now], ?_, ?_⟩
    · rw [Budget.after_concat, ← hcalls, hbudget]
    · rw [Budget.grants_concat, hgrants, ← hcalls, hbudget, starts_append, List.length_append,
        hstarts]

end Remembers

section

variable [Scalar α] {s : Settings} {c : ScalingConfig} {p : Pool α} {run : Run α}
  {now : Moment} {event : RunEvent} {t : RunTurn α} {j : List Entry} {steps : List (Step α)}
  {i : Nat}

theorem remembers_of_reaction (hreaction : run.Reaction p now event t)
    (houtcome : t.outcome? = none) (h : Remembers s run j) :
    Remembers s t.run (j ++ reactionEntries run event t) := by
  have hfailure := h.failure?_eq
  have hlatest := h.latest?_eq
  cases hreaction with
  | @draining k result cause signals hcause _ =>
      rw [hfailure] at hcause
      rw [reactionEntries_joined signals rfl]
      refine h.append_of_still rfl ?_ (by simp) rfl
      exact hcause.symm.trans (by simp)
  | sought hnone hasked =>
      rw [reactionEntries_sought hasked, RunTurn.seekMore_eq]
      refine h.append_of_still rfl ?_ ?_ ?_ <;> split <;> simp_all [latest?]
  | exhausted signals hnone hasked _ hbudget =>
      refine h.append_of_asked hbudget ?_ (by simp) ?_
      · simp_all [reactionEntries]
      · simp [reactionEntries, hasked, Except.isOk, Except.toBool]
  | launched hnone hasked hroom hbudget =>
      rw [reactionEntries_launched hasked, RunTurn.seekMore_eq]
      refine h.append_of_asked hbudget ?_ ?_ ?_
      · show run.failure? = _
        split <;> simp_all
      · show ∀ question, (if p.current + 1 < p.desired then Dispatch.askedReady
          else .parked).question? = some question → _
        split <;> simp [latest?]
      · split <;> simp <;> rfl
  | drained | misjudged | finished => simp at houtcome
  | resumed hnone _ | reaped hnone _ | stragglers hnone hasked _ | postponed hnone hasked
  | overtaken hnone hasked _ | awoke hnone _ | unparked _ hnone _ | rescaled | reported =>
      refine h.append_of_still rfl ?_ ?_ ?_ <;> simp_all [reactionEntries, latest?]

theorem remembers_of_execution (h : Execution (fresh s c) steps p)
    (hactive : p.active? i = some run) : Remembers s run (journal i steps) := by
  obtain ⟨_, _, hremembers, -⟩ := active_induction (fun _ _ => Remembers s)
    (fun now => ⟨rfl, by simp [opening, latest?], now, [], rfl, rfl⟩)
    (fun _ _ _ _ hreaction houtcome hremembers =>
      remembers_of_reaction hreaction houtcome hremembers) h hactive
  exact ⟨hremembers.failure?_eq, hremembers.latest?_eq, hremembers.budget_eq⟩

/-- None of the invocations of a run has failed unless the run is parked. -/
theorem firstError?_of_busy (h : Execution (fresh s c) steps p) (hactive : p.active? i = some run)
    (hbusy : run.dispatch ≠ .parked) : firstError? (journal i steps) = none := by
  rw [← (remembers_of_execution h hactive).failure?_eq]
  exact (atRest_of_execution h hactive).failure?_eq_none hbusy

end

end Pool

end ElasticPool
