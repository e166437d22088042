import ElasticPool.WarningGate
import Mathlib.Data.List.Basic

namespace ElasticPool

namespace WarningGate

variable {w : WarningGate} {m t t' : Moment} {cooldown : Span} {call : Bool × Moment}
  {calls : List (Bool × Moment)} {i j : Nat}

inductive Answered (w : WarningGate) (now : Moment) : Bool → Bool × WarningGate → Prop
  | calm : Answered w now false (false, { w with last? := none })
  | suppressed {last : Moment} (hlast : w.last? = some last)
      (hrecent : now.since last < w.cooldown) : Answered w now true (false, w)
  | warned (hold : ∀ last, w.last? = some last → w.cooldown ≤ now.since last) :
      Answered w now true (true, { w with last? := some now })

theorem answered_ask (w : WarningGate) (overloaded : Bool) (now : Moment) :
    Answered w now overloaded (w.ask overloaded now) := by
  cases overloaded with
  | false => exact .calm
  | true =>
      rcases hlast : w.last? with _ | last
      · rw [ask_true_of_none hlast]
        exact .warned fun last hsome => by simp [hlast] at hsome
      · by_cases hrecent : now.since last < w.cooldown
        · have hask : w.ask true now = (false, w) := by simp [ask, hlast, hrecent]
          rw [hask]
          exact .suppressed hlast hrecent
        · have hask : w.ask true now = (true, { w with last? := some now }) := by
            simp [ask, hlast, hrecent]
          rw [hask]
          refine .warned fun last' hsome => ?_
          obtain rfl := Option.some.inj (hlast.symm.trans hsome)
          exact Nat.not_lt.mp hrecent

theorem Answered.cooldown_eq {overloaded : Bool} {answer : Bool × WarningGate}
    (h : Answered w m overloaded answer) : answer.2.cooldown = w.cooldown := by
  cases h <;> rfl

theorem exists_answers_cons (w : WarningGate) (overloaded : Bool) (now : Moment)
    (calls : List (Bool × Moment)) :
    ∃ answer w', w.answers ((overloaded, now) :: calls) = answer :: w'.answers calls ∧
      Answered w now overloaded (answer, w') :=
  ⟨_, _, rfl, answered_ask w overloaded now⟩

theorem length_answers (w : WarningGate) (calls : List (Bool × Moment)) :
    (w.answers calls).length = calls.length := by
  induction calls generalizing w with
  | nil => rfl
  | cons call calls ih =>
      obtain ⟨answer, w', hanswers, -⟩ := w.exists_answers_cons call.1 call.2 calls
      simp [hanswers, ih]

/-- The calls from one to another, these two included, are all overloaded. -/
def Episode (calls : List (Bool × Moment)) (i j : Nat) : Prop :=
  ∀ k, i ≤ k → k ≤ j → ∃ t, calls[k]? = some (true, t)

theorem Episode.head (h : Episode (call :: calls) 0 j) : call.1 = true := by
  obtain ⟨t, hcall⟩ := h 0 (Nat.le_refl 0) (Nat.zero_le j)
  obtain rfl : call = (true, t) := by simpa using hcall
  rfl

theorem Episode.tail (h : Episode (call :: calls) 0 (j + 1)) : Episode calls 0 j :=
  fun k _ hle => h (k + 1) (Nat.zero_le _) (Nat.succ_le_succ hle)

theorem Episode.cons_succ (h : Episode calls i j) : Episode (call :: calls) (i + 1) (j + 1) := by
  rintro (_ | k) hi hj
  · exact absurd hi (Nat.not_succ_le_zero i)
  · exact h k (Nat.le_of_succ_le_succ hi) (Nat.le_of_succ_le_succ hj)

theorem Episode.cons_zero (h : Episode calls 0 j) (hcall : call.1 = true) :
    Episode (call :: calls) 0 (j + 1) := by
  rintro (_ | k) hi hj
  · exact ⟨call.2, by rw [← hcall]; rfl⟩
  · exact h k (Nat.zero_le k) (Nat.le_of_succ_le_succ hj)

theorem Episode.of_succ (h : Episode (call :: calls) (i + 1) (j + 1)) : Episode calls i j :=
  fun k hi hj => h (k + 1) (Nat.succ_le_succ hi) (Nat.succ_le_succ hj)

theorem overloaded_of_warned (h : (w.answers calls)[i]? = some true) :
    ∃ t, calls[i]? = some (true, t) := by
  induction calls generalizing w i with
  | nil => cases h
  | cons call calls ih =>
      obtain ⟨overloaded, now⟩ := call
      obtain ⟨answer, w', hanswers, hanswered⟩ := w.exists_answers_cons overloaded now calls
      rw [hanswers] at h
      cases i with
      | zero =>
          cases hanswered with
          | calm | suppressed => cases h
          | warned => exact ⟨now, rfl⟩
      | succ i => exact ih h

/-- As long as an episode lasts, a warning comes a cooldown or more after the one before. -/
theorem cooldown_le_of_warned (hlast : w.last? = some m) (hafter : ∀ call ∈ calls, m ≤ call.2)
    (hclock : calls.Pairwise (·.2 ≤ ·.2)) (hepisode : Episode calls 0 j)
    (hcall : calls[j]? = some (true, t)) (hwarned : (w.answers calls)[j]? = some true) :
    w.cooldown.nanos ≤ t.nanos - m.nanos := by
  induction calls generalizing w m j with
  | nil => cases hcall
  | cons call calls ih =>
      obtain ⟨overloaded, now⟩ := call
      obtain rfl : overloaded = true := hepisode.head
      rw [List.forall_mem_cons] at hafter
      rw [List.pairwise_cons] at hclock
      have hle : m.nanos ≤ now.nanos := hafter.1
      obtain ⟨answer, w', hanswers, hanswered⟩ := w.exists_answers_cons true now calls
      rw [hanswers] at hwarned
      cases j with
      | zero =>
          obtain rfl : now = t := by simpa using hcall
          cases hanswered with
          | suppressed => cases hwarned
          | warned hold =>
              have hapart : w.cooldown.nanos ≤ (now.since m).nanos := hold m hlast
              simp only [Moment.since] at hapart
              omega
      | succ j =>
          cases hanswered with
          | suppressed => exact ih hlast hafter.2 hclock.2 hepisode.tail hcall hwarned
          | warned _ =>
              have hapart : w.cooldown.nanos ≤ t.nanos - now.nanos :=
                ih (w := { w with last? := some now }) rfl hclock.1 hclock.2 hepisode.tail hcall
                  hwarned
              omega

theorem cooldown_le_of_episode (hclock : calls.Pairwise (·.2 ≤ ·.2)) (hlt : i < j)
    (hepisode : Episode calls i j) (hcall : calls[i]? = some (true, t))
    (hcall' : calls[j]? = some (true, t')) (hwarned : (w.answers calls)[i]? = some true)
    (hwarned' : (w.answers calls)[j]? = some true) :
    w.cooldown.nanos ≤ t'.nanos - t.nanos := by
  induction calls generalizing w i j with
  | nil => cases hcall
  | cons call calls ih =>
      rw [List.pairwise_cons] at hclock
      obtain ⟨j, rfl⟩ := Nat.exists_eq_succ_of_ne_zero (Nat.ne_zero_of_lt hlt)
      obtain ⟨answer, w', hanswers, hanswered⟩ := w.exists_answers_cons call.1 call.2 calls
      rw [hanswers] at hwarned hwarned'
      cases i with
      | zero =>
          obtain rfl : call = (true, t) := by simpa using hcall
          cases hanswered with
          | suppressed => cases hwarned
          | warned _ =>
              exact cooldown_le_of_warned (w := { w with last? := some t }) rfl hclock.1 hclock.2
                hepisode.tail hcall' hwarned'
      | succ i =>
          have hapart := ih hclock.2 (Nat.lt_of_succ_lt_succ hlt) hepisode.of_succ hcall hcall'
            hwarned hwarned'
          rwa [hanswered.cooldown_eq] at hapart

/-- An overloaded call has a warning in its episode that is younger than the cooldown, or it
belongs to an episode that has begun before the calls and that the gate remembers. -/
theorem exists_warned_or_last (hcall : calls[j]? = some (true, t)) :
    (∃ i t', i ≤ j ∧ Episode calls i j ∧ calls[i]? = some (true, t') ∧
      (w.answers calls)[i]? = some true ∧ (i = j ∨ t.nanos - t'.nanos < w.cooldown.nanos)) ∨
    (Episode calls 0 j ∧ ∃ m, w.last? = some m ∧ t.nanos - m.nanos < w.cooldown.nanos) := by
  induction calls generalizing w j with
  | nil => cases hcall
  | cons call calls ih =>
      obtain ⟨overloaded, now⟩ := call
      obtain ⟨answer, w', hanswers, hanswered⟩ := w.exists_answers_cons overloaded now calls
      rw [hanswers]
      cases j with
      | zero =>
          obtain ⟨rfl, rfl⟩ : overloaded = true ∧ now = t := by simpa using hcall
          have hepisode : Episode ((true, now) :: calls) 0 0 := by
            intro k _ hk
            obtain rfl := Nat.le_zero.mp hk
            exact ⟨now, rfl⟩
          cases hanswered with
          | @suppressed last hlast hrecent =>
              rw [Span.lt_def] at hrecent
              simp only [Moment.since] at hrecent
              exact .inr ⟨hepisode, last, hlast, by omega⟩
          | warned _ => exact .inl ⟨0, now, Nat.le_refl 0, hepisode, rfl, rfl, .inl rfl⟩
      | succ j =>
          rcases ih (w := w') hcall with
            ⟨i, t', hle, hepisode, hcall', hwarned, hrecent⟩ | ⟨hepisode, m, hlast, hrecent⟩
          · rw [hanswered.cooldown_eq] at hrecent
            refine .inl ⟨i + 1, t', Nat.succ_le_succ hle, hepisode.cons_succ, hcall', hwarned, ?_⟩
            exact hrecent.imp_left (congrArg Nat.succ)
          -- What the later calls find remembered may be the warning of this one.
          · cases hanswered with
            | calm => cases hlast
            | suppressed _ _ => exact .inr ⟨hepisode.cons_zero rfl, m, hlast, hrecent⟩
            | warned _ =>
                obtain rfl := Option.some.inj hlast
                exact .inl ⟨0, now, Nat.zero_le _, hepisode.cons_zero rfl, rfl, rfl, .inr hrecent⟩

/-- What the warnings tell.  They belong to overloaded calls, those of one episode are a cooldown
apart, and an overloaded call has one in its episode that is younger than the cooldown. -/
structure Warns (cooldown : Span) (calls : List (Bool × Moment)) (answers : List Bool) :
    Prop where
  length_eq : answers.length = calls.length
  overloaded : ∀ i : Nat, answers[i]? = some true → ∃ t, calls[i]? = some (true, t)
  calm_between : ∀ (i j : Nat) (t t' : Moment), i < j →
    answers[i]? = some true → answers[j]? = some true →
    calls[i]? = some (true, t) → calls[j]? = some (true, t') →
    t'.nanos - t.nanos < cooldown.nanos → ∃ k m, i < k ∧ k < j ∧ calls[k]? = some (false, m)
  recent : ∀ (j : Nat) (t : Moment), calls[j]? = some (true, t) →
    ∃ i t', i ≤ j ∧ Episode calls i j ∧ calls[i]? = some (true, t') ∧
      answers[i]? = some true ∧ (i = j ∨ t.nanos - t'.nanos < cooldown.nanos)
  /-- The first call of every episode is warned about. -/
  first : ∀ (j : Nat) (t : Moment), calls[j]? = some (true, t) →
    (∀ k, j = k + 1 → ∃ m, calls[k]? = some (false, m)) → answers[j]? = some true
  /-- An episode that has gone on for a cooldown is warned about again. -/
  again : ∀ (i j : Nat) (t t' : Moment), i < j → Episode calls i j →
    calls[i]? = some (true, t) → calls[j]? = some (true, t') →
    cooldown.nanos ≤ t'.nanos - t.nanos → ∃ k, i < k ∧ k ≤ j ∧ answers[k]? = some true

theorem moment_le (hclock : calls.Pairwise (·.2 ≤ ·.2)) (hle : i ≤ j) {a b : Bool × Moment}
    (ha : calls[i]? = some a) (hb : calls[j]? = some b) : a.2 ≤ b.2 := by
  rcases Nat.lt_or_eq_of_le hle with hlt | rfl
  · obtain ⟨hi, rfl⟩ := List.getElem?_eq_some_iff.mp ha
    obtain ⟨hj, rfl⟩ := List.getElem?_eq_some_iff.mp hb
    exact List.pairwise_iff_getElem.mp hclock i j hi hj hlt
  · obtain rfl := Option.some.inj (ha.symm.trans hb)
    exact Int.le_refl _

theorem episode_or_calm (hle : i ≤ j) (hcall : calls[i]? = some (true, t))
    (hcall' : calls[j]? = some (true, t')) :
    Episode calls i j ∨ ∃ k m, i < k ∧ k < j ∧ calls[k]? = some (false, m) := by
  by_contra hneither
  rw [not_or] at hneither
  refine hneither.1 fun k hi hj => ?_
  have hlength : j < calls.length := (List.getElem?_eq_some_iff.mp hcall').1
  obtain ⟨⟨overloaded, m⟩, hk⟩ : ∃ call, calls[k]? = some call :=
    ⟨_, List.getElem?_eq_getElem (Nat.lt_of_le_of_lt hj hlength)⟩
  cases overloaded with
  | true => exact ⟨m, hk⟩
  | false =>
      have hi' : i ≠ k := by
        rintro rfl
        simp [hcall] at hk
      have hj' : k ≠ j := by
        rintro rfl
        simp [hcall'] at hk
      exact absurd ⟨k, m, Nat.lt_of_le_of_ne hi hi', Nat.lt_of_le_of_ne hj hj', hk⟩ hneither.2

/-- A gate that is asked under a clock that does not run backwards warns of overload only.  Two
warnings less than a cooldown apart have a call without overload between them, and every
overloaded call is warned about, or has a warning behind it in its episode that is younger than
the cooldown.  So the first call of an episode is warned about, and no warning is held back for a
whole cooldown. -/
theorem warns_of_overload (cooldown : Span) (hclock : calls.Pairwise (·.2 ≤ ·.2)) :
    Warns cooldown calls (answers ⟨cooldown, none⟩ calls) := by
  have hrecent (j : Nat) (t : Moment) (hcall : calls[j]? = some (true, t)) :
      ∃ i t', i ≤ j ∧ Episode calls i j ∧ calls[i]? = some (true, t') ∧
        (answers ⟨cooldown, none⟩ calls)[i]? = some true ∧
        (i = j ∨ t.nanos - t'.nanos < cooldown.nanos) := by
    -- A new gate remembers nothing, so the warning is one of these calls.
    rcases exists_warned_or_last (w := ⟨cooldown, none⟩) hcall with hwarned | ⟨-, m, hlast, -⟩
    · exact hwarned
    · cases hlast
  constructor
  · exact length_answers _ calls
  · exact fun i => overloaded_of_warned
  · intro i j t t' hlt hwarned hwarned' hcall hcall' hclose
    rcases episode_or_calm (Nat.le_of_lt hlt) hcall hcall' with hepisode | hcalm
    · have hapart : cooldown.nanos ≤ t'.nanos - t.nanos :=
        cooldown_le_of_episode hclock hlt hepisode hcall hcall' hwarned hwarned'
      omega
    · exact hcalm
  · exact hrecent
  · intro j t hcall hbegins
    obtain ⟨i, t', hle, hepisode, hcall', hwarned, -⟩ := hrecent j t hcall
    rcases Nat.lt_or_eq_of_le hle with hlt | rfl
    · obtain ⟨k, rfl⟩ := Nat.exists_eq_succ_of_ne_zero (Nat.ne_zero_of_lt hlt)
      obtain ⟨m, hcalm⟩ := hbegins k rfl
      obtain ⟨m', hoverloaded⟩ := hepisode k (Nat.le_of_lt_succ hlt) k.le_succ
      simp [hcalm] at hoverloaded
    · exact hwarned
  · intro i j t t' hlt hepisode hcall hcall' hlong
    obtain ⟨k, m, hle, -, hk, hwarned, rfl | hyoung⟩ := hrecent j t' hcall'
    · exact ⟨k, hlt, Nat.le_refl k, hwarned⟩
    · refine ⟨k, ?_, hle, hwarned⟩
      by_contra hearlier
      have hbefore : m.nanos ≤ t.nanos := moment_le hclock (Nat.not_lt.mp hearlier) hk hcall
      omega

/-- The fourth call comes after exactly a cooldown, the sixth one begins a new episode. -/
theorem warns_of_overload_of_relapse : ∃ calls : List (Bool × Moment),
    calls = [(true, ⟨0⟩), (true, ⟨4⟩), (true, ⟨9⟩), (true, ⟨10⟩), (false, ⟨11⟩), (true, ⟨12⟩)] ∧
      calls.Pairwise (·.2 ≤ ·.2) ∧
      answers ⟨⟨10⟩, none⟩ calls = [true, false, false, true, false, true] ∧
      Warns ⟨10⟩ calls [true, false, false, true, false, true] := by
  have hclock : [(true, (⟨0⟩ : Moment)), (true, ⟨4⟩), (true, ⟨9⟩), (true, ⟨10⟩), (false, ⟨11⟩),
      (true, ⟨12⟩)].Pairwise (·.2 ≤ ·.2) := by decide
  exact ⟨_, rfl, hclock, rfl, warns_of_overload ⟨10⟩ hclock⟩

end WarningGate

end ElasticPool
