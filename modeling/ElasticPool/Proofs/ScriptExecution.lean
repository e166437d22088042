import ElasticPool.Proofs.SlotAccounting
import ElasticPool.Proofs.WorkplaceExecution
import ElasticPool.Simulation.Script

namespace ElasticPool

namespace Schedule

variable {σ τ : Type} [BEq τ] {sys : TaskSystem σ τ} {P : σ → Prop}

section

variable (hturn : ∀ {now task state state' woken},
  sys.turn now task state = some (state', woken) → P state → P state')

include hturn

theorem settleWithin_induction (turns : Nat) (s : Schedule σ τ) (h : P s.state) :
    P (s.settleWithin sys turns).state := by
  fun_induction settleWithin sys turns s with
  | case1 => exact h
  | case2 => exact h
  | case3 _ _ _ _ _ _ _ hsome ih => exact ih (hturn hsome h)
  | case4 _ _ _ _ _ _ ih => exact ih h

theorem advanceWithin_induction (target firings : Nat) (s : Schedule σ τ) (h : P s.state) :
    P (s.advanceWithin sys target firings).state := by
  fun_induction advanceWithin sys target firings s with
  | case1 => exact h
  | case2 _ _ _ _ _ ih => exact ih (settleWithin_induction hturn _ _ h)
  | case3 => exact h
  | case4 => exact h

theorem advance_induction (millis : Nat) (s : Schedule σ τ) (h : P s.state) :
    P (s.advance sys millis).state := by
  have hsettled : P (s.settle sys).state := settleWithin_induction hturn _ s h
  simp only [advance]
  split
  · exact h
  · exact advanceWithin_induction hturn _ _ _ hsettled

end

end Schedule

namespace Simulation

def World.Reached (origin : Workplace) (w : World) : Prop :=
  ∀ place, w.place? = some place → ∃ steps, Workplace.Execution origin steps place

namespace World

variable {origin : Workplace} {w : World}

theorem place?_reportAll (signals : List Signal) : (w.reportAll signals).place? = w.place? := by
  unfold reportAll
  induction signals generalizing w with
  | nil => rfl
  | cons signal signals ih => rw [List.foldl_cons, ih]; rfl

theorem reached_reportAll (signals : List Signal) :
    (w.reportAll signals).Reached origin ↔ w.Reached origin := by
  unfold Reached
  rw [place?_reportAll]

theorem Reached.congr {w' : World} (h : w.Reached origin) (hplace : w'.place? = w.place?) :
    w'.Reached origin := by
  unfold Reached
  rw [hplace]
  exact h

theorem Reached.move {place place' : Workplace} {m : Workplace.Move} {started : List Nat}
    (h : w.Reached origin) (hplace : w.place? = some place)
    (hmove : place.move? m = some (place', started)) :
    ({ w with place? := some place' } : World).Reached origin := by
  rintro last hlast
  obtain rfl : place' = last := Option.some.inj hlast
  obtain ⟨steps, hsteps⟩ := h place hplace
  exact ⟨_, hsteps.next hmove⟩

theorem reached_turn {now : Moment} {task : Task} {w' : World} {woken : List Task}
    (hturn : tasks.turn now task w = some (w', woken)) (h : w.Reached origin) :
    w'.Reached origin := by
  cases task with
  | sampling task =>
      obtain ⟨⟨recorder, signals⟩, -, heq⟩ := Option.map_eq_some_iff.mp hturn
      obtain ⟨rfl, -⟩ := Prod.mk.inj heq
      exact (reached_reportAll signals).mpr (h.congr rfl)
  | call call =>
      obtain ⟨t, hcall, heq⟩ := Option.map_eq_some_iff.mp hturn
      obtain ⟨rfl, -⟩ := Prod.mk.inj heq
      obtain ⟨place, hplace, hcallTurn⟩ := Option.bind_eq_some_iff.mp hcall
      have hmove : place.move? (.turn call now w.recorder w.evaluator) =
          some (t.place, t.started) := by simp [Workplace.move?, hcallTurn]
      exact (reached_reportAll t.signals).mpr (h.move hplace hmove)
  | invocation number =>
      obtain ⟨⟨place', errors, calls⟩, hinvocation, heq⟩ := Option.map_eq_some_iff.mp hturn
      obtain ⟨rfl, -⟩ := Prod.mk.inj heq
      obtain ⟨place, hplace, hplaceTurn⟩ := Option.bind_eq_some_iff.mp hinvocation
      have hmove : place.move? (.poll number now) = some (place', []) := by
        simp [Workplace.move?, hplaceTurn]
      exact (h.move hplace hmove).congr rfl

end World

namespace Script

variable {origin : Workplace} {s : Timeline}

theorem reached_settle (h : s.state.Reached origin) : (settle s).state.Reached origin :=
  Schedule.settleWithin_induction World.reached_turn _ s h

theorem reached_perform (step : Step) (h : s.state.Reached origin) :
    (perform s step).2.state.Reached origin := by
  cases step with
  | advance millis => exact Schedule.advance_induction World.reached_turn millis s h
  | start =>
      unfold perform
      dsimp only
      split
      · exact h
      · exact (World.reached_reportAll _).mpr (h.congr rfl)
  | stop =>
      unfold perform
      dsimp only
      split
      · exact h.congr rfl
      · next task recorder _ =>
          let stopping := change s (fun w => { w with recorder }) [.sampling task]
          have hstopping : stopping.state.Reached origin := h.congr rfl
          exact (reached_settle hstopping).congr rfl
  | record sample =>
      unfold perform
      dsimp only
      split
      · exact h
      · exact h.congr rfl
  | emit measurements => exact (World.reached_reportAll _).mpr (h.congr rfl)
  | run =>
      unfold perform
      dsimp only
      split
      · exact h
      · next place hplace => exact h.move (m := .call) hplace rfl
  | abort =>
      unfold perform
      dsimp only
      split
      · exact h
      · next place hplace =>
          split
          · exact h
          · next pool effects habort =>
              have hmove : place.move? .abort = some ({ place with pool }, []) := by
                simp [Workplace.move?, habort]
              exact (World.reached_reportAll _).mpr (h.move hplace hmove)
  | dropCall call =>
      unfold perform
      dsimp only
      split
      · exact h
      · next place hplace => exact h.move (m := .giveUp call) hplace rfl
  | _ => exact h.congr rfl

theorem reached_record (step : Step) (settles : Bool) (h : s.state.Reached origin) :
    (record s step settles).2.state.Reached origin := by
  have hperformed := reached_perform step h
  cases settles with
  | false => exact hperformed.congr rfl
  | true => exact (reached_settle hperformed).congr rfl

/-- What a script shows of the workplace is a workplace that an execution reaches. -/
theorem execution_of_records (script : List (Step × Bool)) (h : s.state.Reached origin) :
    ∀ r ∈ records s script, ∀ status, r.status? = some status →
      ∃ steps place, Workplace.Execution origin steps place ∧ Script.status place = status := by
  induction script generalizing s with
  | nil => simp [records]
  | cons first script ih =>
      obtain ⟨step, settles⟩ := first
      have hfirst := reached_record step settles h
      intro r hmem status hstatus
      rcases List.mem_cons.mp hmem with rfl | hlater
      · have hplace : (record s step settles).2.state.place?.map Script.status = some status :=
          hstatus
        obtain ⟨place, hlast, rfl⟩ := Option.map_eq_some_iff.mp hplace
        obtain ⟨steps, hsteps⟩ := hfirst place hlast
        exact ⟨steps, place, hsteps, rfl⟩
      · exact ih hfirst r hlater status hstatus

theorem workplace?_of_build {setup : Setup} (h : setup.build = .ok s) :
    setup.workplace? = .ok s.state.place? := by
  simp only [Setup.build, bind, Except.bind] at h
  split at h
  · simp at h
  · split at h
    · simp at h
    · split at h
      · simp at h
      · next place? hplace =>
          obtain rfl := Except.ok.inj h
          exact hplace

theorem fresh_of_workplace? {setup : Setup} {fields : Settings.Fields} {c : ScalingConfig}
    {workload : Workload} {place? : Option Workplace}
    (hpool : setup.pool? = some (fields, c, workload)) (h : setup.workplace? = .ok place?) :
    ∃ settings, Settings.build fields = .ok settings ∧
      ∀ place, place? = some place → place = .fresh workload settings c := by
  simp only [Setup.workplace?, hpool, bind, Except.bind] at h
  split at h
  · simp at h
  · next settings hsettings =>
      split at h
      · simp at h
      · obtain rfl := Except.ok.inj h
        refine ⟨settings, hsettings, ?_⟩
        rintro place hplace
        obtain rfl := Option.some.inj hplace
        rfl

/-- No script sees more invocations at a time than the settings allow. -/
theorem current_le_maximum_of_records {setup : Setup} {fields : Settings.Fields}
    {c : ScalingConfig} {workload : Workload} (hpool : setup.pool? = some (fields, c, workload))
    (hbuild : setup.build = .ok s) (script : List (Step × Bool)) :
    ∃ settings, Settings.build fields = .ok settings ∧
      ∀ r ∈ records s script, ∀ status, r.status? = some status →
        status.current ≤ settings.maximum := by
  obtain ⟨settings, hsettings, hfresh⟩ := fresh_of_workplace? hpool (workplace?_of_build hbuild)
  have hreached : s.state.Reached (.fresh workload settings c) := by
    intro place hplace
    rw [hfresh place hplace]
    exact ⟨[], .start⟩
  refine ⟨settings, hsettings, fun r hmem status hstatus => ?_⟩
  obtain ⟨steps, place, hsteps, rfl⟩ := execution_of_records script hreached r hmem status hstatus
  obtain ⟨moves, hmoves, -⟩ := hsteps.pool
  exact Pool.current_le_maximum_of_execution hmoves

end Script

end Simulation

end ElasticPool
