import Mathlib.Data.List.Nodup

namespace ElasticPool

variable {β : Type} {entries : List (Nat × β)} {bound : Nat}

/-- All entries have different numbers below a bound. -/
structure Numbered (entries : List (Nat × β)) (bound : Nat) : Prop where
  below : ∀ entry ∈ entries, entry.1 < bound
  distinct : (entries.map Prod.fst).Nodup

namespace Numbered

theorem nil (bound : Nat) : Numbered ([] : List (Nat × β)) bound where
  below _ hmem := nomatch hmem
  distinct := List.nodup_nil

theorem add (h : Numbered entries bound) (value : β) :
    Numbered (entries ++ [(bound, value)]) (bound + 1) where
  below entry hmem := by
    rcases List.mem_append.mp hmem with hold | hnew
    · exact Nat.lt_succ_of_lt (h.below entry hold)
    · rw [List.mem_singleton.mp hnew]
      exact Nat.lt_succ_self bound
  distinct := by
    rw [List.map_append, List.nodup_append]
    refine ⟨h.distinct, List.nodup_singleton _, ?_⟩
    intro number hold new hnew heq
    obtain ⟨entry, hmem, rfl⟩ := List.mem_map.mp hold
    have hbound : entry.1 = bound := heq.trans (List.mem_singleton.mp hnew)
    exact Nat.ne_of_lt (h.below entry hmem) hbound

theorem update (h : Numbered entries bound) (number : Nat) (f : β → β) :
    Numbered (entries.map fun entry => if entry.1 = number then (entry.1, f entry.2) else entry)
      bound where
  below entry hmem := by
    obtain ⟨old, hold, rfl⟩ := List.mem_map.mp hmem
    split <;> exact h.below old hold
  distinct := by
    have hsame : Prod.fst ∘ (fun entry : Nat × β =>
        if entry.1 = number then (entry.1, f entry.2) else entry) = Prod.fst := by
      funext entry
      dsimp only [Function.comp_apply]
      split <;> rfl
    rw [List.map_map, hsame]
    exact h.distinct

theorem change (h : Numbered entries bound) (number : Nat) (value : β) :
    Numbered (entries.map fun entry => if entry.1 = number then (entry.1, value) else entry)
      bound :=
  h.update number fun _ => value

theorem remove (h : Numbered entries bound) (number : Nat) :
    Numbered (entries.filter (·.1 ≠ number)) bound where
  below entry hmem := h.below entry (List.mem_of_mem_filter hmem)
  distinct := h.distinct.sublist (List.filter_sublist.map _)

theorem lookup_eq_none (h : Numbered entries bound) {number : Nat} (hbound : bound ≤ number) :
    entries.lookup number = none := by
  rw [List.lookup_eq_none_iff]
  intro entry hmem
  have hlt := Nat.lt_of_lt_of_le (h.below entry hmem) hbound
  simpa using (Nat.ne_of_lt hlt).symm

theorem lookup_add (h : Numbered entries bound) (value : β) :
    (entries ++ [(bound, value)]).lookup bound = some value := by
  rw [List.lookup_append, h.lookup_eq_none (Nat.le_refl bound)]
  simp

end Numbered

theorem lookup_mem {number : Nat} {value : β} (h : entries.lookup number = some value) :
    (number, value) ∈ entries := by
  obtain ⟨before, after, rfl, -⟩ := List.lookup_eq_some_iff.mp h
  simp

theorem lookup_update (entries : List (Nat × β)) (number other : Nat) (f : β → β) :
    (entries.map fun entry => if entry.1 = number then (entry.1, f entry.2) else entry).lookup
        other =
      if other = number then (entries.lookup other).map f else entries.lookup other := by
  induction entries with
  | nil => simp
  | cons entry entries ih =>
      obtain ⟨k, old⟩ := entry
      rw [List.map_cons]
      by_cases hnumber : k = number
      · cases hfound : other == k with
        | true =>
            have heq : other = number := (eq_of_beq hfound).trans hnumber
            simp [hnumber, heq]
        | false =>
            rw [if_pos hnumber, List.lookup_cons, List.lookup_cons, hfound]
            exact ih
      · cases hfound : other == k with
        | true =>
            have hne : other ≠ number := (eq_of_beq hfound).trans_ne hnumber
            simp only [hnumber, if_false, List.lookup_cons, hfound, hne]
        | false => simp only [hnumber, if_false, List.lookup_cons, hfound, ih]

theorem lookup_change (entries : List (Nat × β)) (number other : Nat) (value : β) :
    (entries.map fun entry => if entry.1 = number then (entry.1, value) else entry).lookup other =
      if other = number then (entries.lookup other).map fun _ => value
      else entries.lookup other :=
  lookup_update entries number other fun _ => value

theorem lookup_add_of_ne (entries : List (Nat × β)) {number other : Nat}
    (hother : other ≠ number) (value : β) :
    (entries ++ [(number, value)]).lookup other = entries.lookup other := by
  have hnone : [(number, value)].lookup other = none := by simp [hother]
  rw [List.lookup_append, hnone, Option.or_none]

theorem lookup_remove_self (entries : List (Nat × β)) (number : Nat) :
    (entries.filter (·.1 ≠ number)).lookup number = none := by
  rw [List.lookup_eq_none_iff]
  intro entry hmem
  have hne : entry.1 ≠ number := of_decide_eq_true (List.mem_filter.mp hmem).2
  simpa using hne.symm

theorem lookup_remove (entries : List (Nat × β)) {number other : Nat} (hother : other ≠ number) :
    (entries.filter (·.1 ≠ number)).lookup other = entries.lookup other := by
  induction entries with
  | nil => rfl
  | cons entry entries ih =>
      obtain ⟨k, value⟩ := entry
      by_cases hnumber : k = number
      · have hnot : (other == k) = false := by simp [hnumber, hother]
        rw [List.filter_cons_of_neg (by simp [hnumber]), ih, List.lookup_cons, hnot]
      · rw [List.filter_cons_of_pos (by simp [hnumber]), List.lookup_cons, List.lookup_cons, ih]

theorem Numbered.length_remove (h : Numbered entries bound) {number : Nat} {value : β}
    (hfound : entries.lookup number = some value) :
    (entries.filter (·.1 ≠ number)).length + 1 = entries.length := by
  obtain ⟨before, after, rfl, -⟩ := List.lookup_eq_some_iff.mp hfound
  have hdistinct := h.distinct
  rw [List.map_append, List.map_cons, List.nodup_middle, List.nodup_cons] at hdistinct
  have hothers : ∀ entry ∈ before ++ after, decide (entry.1 ≠ number) = true := by
    intro entry hmem
    refine decide_eq_true fun heq => hdistinct.1 ?_
    rw [← List.map_append]
    exact List.mem_map.mpr ⟨entry, hmem, heq⟩
  have hrest := List.filter_eq_self.mpr hothers
  rw [List.filter_append] at hrest
  rw [List.filter_append, List.filter_cons_of_neg (by simp), hrest]
  simp [Nat.add_assoc]

end ElasticPool
