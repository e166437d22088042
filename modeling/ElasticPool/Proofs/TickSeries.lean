import ElasticPool.Time.Ticker
import Mathlib.Data.List.Chain

namespace ElasticPool.Ticker

variable {t t' : Ticker} {now : Moment}

/-- How far a tick that is taken late moves the schedule on. -/
def stride (t : Ticker) (late : Nat) : Nat :=
  if tolerance.nanos < late then
    match t.pacing with
    | .delay => late + t.period.nanos
    | .skip => (late / t.period.nanos + 1) * t.period.nanos
  else t.period.nanos

theorem nanos_eq_of_ready (hready : t.Ready now) :
    now.nanos = t.due.nanos + (now.since t.due).nanos := by
  have hle : t.due.nanos ≤ now.nanos := hready
  simp only [Moment.since]
  omega

theorem planned_eq (hready : t.Ready now) :
    (t.planned now).nanos = t.due.nanos + t.stride (now.since t.due).nanos := by
  have hnow := nanos_eq_of_ready hready
  generalize (now.since t.due).nanos = late at hnow
  have hlate : now.nanos - t.due.nanos = late := by omega
  have hmissed : t.due.nanos + tolerance.nanos < now.nanos ↔ tolerance.nanos < late := by omega
  have hsplit : (late / t.period.nanos + 1) * t.period.nanos + late % t.period.nanos =
      late + t.period.nanos := by
    have hdiv := Nat.div_add_mod' late t.period.nanos
    rw [Nat.add_mul, Nat.one_mul]
    omega
  simp only [planned, stride, hmissed, hlate]
  split
  · cases t.pacing with
    | delay => simp only; omega
    | skip =>
        have hrest : (late : Int) % (t.period.nanos : Int) = (late % t.period.nanos : Nat) :=
          (Int.natCast_emod _ _).symm
        simp only [hrest]
        omega
  · rfl

theorem period_le_stride (t : Ticker) (late : Nat) : t.period.nanos ≤ t.stride late := by
  unfold stride
  split
  · cases t.pacing with
    | delay => exact Nat.le_add_left _ _
    | skip => exact Nat.le_mul_of_pos_left _ (Nat.succ_pos _)
  · exact Nat.le_refl _

theorem stride_le (t : Ticker) (late : Nat) : t.stride late ≤ late + t.period.nanos := by
  unfold stride
  split
  · cases t.pacing with
    | delay => exact Nat.le_refl _
    | skip =>
        have hdiv := Nat.div_mul_le_self late t.period.nanos
        simp only [Nat.add_mul, Nat.one_mul]
        omega
  · exact Nat.le_add_left _ _

/-- With a period that is not tolerated as a delay, the schedule moves on by whole periods. -/
theorem stride_of_skip (hpacing : t.pacing = .skip) (hperiod : tolerance < t.period)
    (late : Nat) : t.stride late = (late / t.period.nanos + 1) * t.period.nanos := by
  have hperiod : tolerance.nanos < t.period.nanos := hperiod
  unfold stride
  split
  · rw [hpacing]
  · rw [Nat.div_eq_of_lt (by omega), Nat.zero_add, Nat.one_mul]

theorem due_add_le_planned (hready : t.Ready now) :
    t.due.nanos + t.period.nanos ≤ (t.planned now).nanos := by
  have hstride := t.period_le_stride (now.since t.due).nanos
  rw [planned_eq hready]
  omega

theorem planned_le (hready : t.Ready now) :
    (t.planned now).nanos ≤ now.nanos + t.period.nanos := by
  have hnow := nanos_eq_of_ready hready
  have hstride := t.stride_le (now.since t.due).nanos
  rw [planned_eq hready]
  omega

theorem not_settable_of_planned (hready : t.Ready now)
    (hfar : ¬((t.planned now).since now).Settable) : ¬t.period.Settable := by
  have hplanned := planned_le hready
  simp only [Span.Settable, Moment.since] at hfar ⊢
  omega

theorem due_add_le_nextDue (hready : t.Ready now) :
    t.due.nanos + t.period.kept.nanos ≤ (t.nextDue now).nanos := by
  have hle : t.due.nanos ≤ now.nanos := hready
  rw [nextDue]
  split
  case isTrue =>
      have hplanned := due_add_le_planned hready
      have hkept := t.period.kept_le
      omega
  case isFalse hfar =>
      rw [Span.kept_of_not_settable (not_settable_of_planned hready hfar)]
      show _ ≤ now.nanos + Span.far.nanos
      omega

theorem nextDue_le (hready : t.Ready now) :
    (t.nextDue now).nanos ≤ now.nanos + t.period.nanos := by
  rw [nextDue]
  split
  case isTrue => exact planned_le hready
  case isFalse hfar =>
      have hlong := Span.far_lt_of_not_settable (not_settable_of_planned hready hfar)
      show now.nanos + Span.far.nanos ≤ _
      omega

structure Tick where
  due : Moment
  takenAt : Moment
  deriving DecidableEq, Repr

def Tick.late (x : Tick) : Span := x.takenAt.since x.due

/-- The ticks that lead from one state of a ticker to another, each taken once it was ready. -/
inductive Takes (t : Ticker) : List Tick → Ticker → Prop
  | none : Takes t [] t
  | next {ticks : List Tick} {t' : Ticker} {now : Moment} (htakes : Takes t ticks t')
      (hready : t'.Ready now) : Takes t (ticks ++ [⟨t'.due, now⟩]) (t'.taken now)

def dueAfter (t : Ticker) (x : Tick) : Moment := { t with due := x.due }.nextDue x.takenAt

theorem Tick.takenAt_eq {x : Tick} (hdue : x.due ≤ x.takenAt) :
    x.takenAt.nanos = x.due.nanos + x.late.nanos :=
  nanos_eq_of_ready (t := ⟨x.due, ⟨0⟩, .skip⟩) hdue

/-- The clock is set to the rest of the stride, as far as that is still to come. -/
theorem dueAfter_nanos (t : Ticker) {x : Tick} (hdue : x.due ≤ x.takenAt)
    (hlate : x.late.nanos ≤ t.stride x.late.nanos) :
    (t.dueAfter x).nanos = x.takenAt.nanos +
      (⟨t.stride x.late.nanos - x.late.nanos⟩ : Span).kept.nanos := by
  have hready : { t with due := x.due }.Ready x.takenAt := hdue
  have hplanned : ({ t with due := x.due }.planned x.takenAt).nanos =
      x.due.nanos + t.stride x.late.nanos := planned_eq hready
  have htaken := Tick.takenAt_eq hdue
  have hwait : ({ t with due := x.due }.planned x.takenAt).since x.takenAt =
      ⟨t.stride x.late.nanos - x.late.nanos⟩ := by
    simp only [Moment.since, hplanned, Span.mk.injEq]
    omega
  rw [dueAfter, nextDue, hwait, Span.kept]
  split
  · rw [hplanned]
    show _ = x.takenAt.nanos + ((t.stride x.late.nanos - x.late.nanos : Nat) : Int)
    omega
  · rfl

/-- With skipped ticks the next one comes at the next moment of the schedule, however close
that is. -/
theorem dueAfter_of_skip (hpacing : t.pacing = .skip) (hperiod : tolerance < t.period) {x : Tick}
    (hdue : x.due ≤ x.takenAt) :
    (t.dueAfter x).nanos = x.takenAt.nanos +
      (⟨t.period.nanos - x.late.nanos % t.period.nanos⟩ : Span).kept.nanos := by
  have hpos : 0 < t.period.nanos := Nat.lt_of_le_of_lt (Nat.zero_le _) hperiod
  have hrest := Nat.mod_lt x.late.nanos hpos
  have hdiv := Nat.div_add_mod' x.late.nanos t.period.nanos
  have hstride : t.stride x.late.nanos =
      x.late.nanos + (t.period.nanos - x.late.nanos % t.period.nanos) := by
    rw [stride_of_skip hpacing hperiod, Nat.add_mul, Nat.one_mul]
    omega
  rw [dueAfter_nanos t hdue (by omega), hstride, Nat.add_sub_cancel_left]

variable {ticks : List Tick}

namespace Takes

theorem kept (h : t.Takes ticks t') : t'.period = t.period ∧ t'.pacing = t.pacing := by
  induction h with
  | none => exact ⟨rfl, rfl⟩
  | next _ _ ih => exact ih

theorem due_le_takenAt (h : t.Takes ticks t') : ∀ x ∈ ticks, x.due ≤ x.takenAt := by
  induction h with
  | none => simp
  | next _ hready ih =>
      rw [List.forall_mem_append, List.forall_mem_singleton]
      exact ⟨ih, hready⟩

theorem chain (h : t.Takes ticks t') :
    ticks.IsChain (fun x y => y.due = t.dueAfter x) ∧
      ∀ x ∈ ticks.getLast?, t'.due = t.dueAfter x := by
  induction h with
  | none => simp
  | @next ticks t' now htakes hready ih =>
      have hsame : t' = { t with due := t'.due } := by
        obtain ⟨hperiod, hpacing⟩ := htakes.kept
        rw [← hperiod, ← hpacing]
      constructor
      · rw [List.isChain_append]
        refine ⟨ih.1, List.isChain_singleton _, ?_⟩
        intro x hlast y hy
        obtain rfl : (⟨t'.due, now⟩ : Tick) = y := by simpa using hy
        exact ih.2 x hlast
      · intro x hlast
        obtain rfl : (⟨t'.due, now⟩ : Tick) = x := by simpa using hlast
        show t'.nextDue now = _
        rw [dueAfter, ← hsame]

theorem due_eq_dueAfter (h : t.Takes ticks t') {earlier later : List Tick} {x y : Tick}
    (hsplit : ticks = earlier ++ x :: y :: later) : y.due = t.dueAfter x := by
  have hchain := h.chain.1
  rw [hsplit, List.isChain_append_cons_cons] at hchain
  exact hchain.2.1

end Takes

end ElasticPool.Ticker
