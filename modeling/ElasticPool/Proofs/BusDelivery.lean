import ElasticPool.Bus
import ElasticPool.Proofs.NumberedEntries
import Mathlib.Data.List.Induction
/-!
What a subscription receives from a bus.

The bus keeps one ring of events and one cursor for each subscription.  Every subscription sees
it as a queue of its own: what is published joins the queue, and a read hands over the oldest of
the events that the ring still holds.  All facts about the deliveries are proved of that queue,
which knows nothing of the other subscriptions.
-/

namespace ElasticPool.Bus

variable {ε : Type}

inductive Move (ε : Type)
  | emit (e : ε)
  | subscribe
  | unsubscribe (subscription : Nat)
  | receive (subscription : Nat)
  | close

def apply (b : Bus ε) : Move ε → Bus ε
  | .emit e => b.emit e
  | .subscribe => b.subscribe.2
  | .unsubscribe k => b.unsubscribe k
  | .receive k => (b.receive k).2
  | .close => b.close

def after (b : Bus ε) (moves : List (Move ε)) : Bus ε := moves.foldl apply b

def receipt? (k : Nat) (b : Bus ε) : Move ε → Option (Receipt ε)
  | .receive j => if j = k then some (b.receive k).1 else none
  | .emit _ | .subscribe | .unsubscribe _ | .close => none

/-- What subscription `k` gets, one receipt for each time that it asks. -/
def receipts (k : Nat) : Bus ε → List (Move ε) → List (Receipt ε)
  | _, [] => []
  | b, move :: moves => (receipt? k b move).toList ++ receipts k (b.apply move) moves

def Move.emission? : Move ε → Option ε
  | .emit e => some e
  | .subscribe | .unsubscribe _ | .receive _ | .close => none

def emissions (moves : List (Move ε)) : List ε := moves.filterMap (·.emission?)

/-- What of a move concerns subscription `k`: an event, or that it asks for one. -/
def concern? (k : Nat) : Move ε → Option (Option ε)
  | .emit e => some (some e)
  | .receive j => if j = k then some none else none
  | .subscribe | .unsubscribe _ | .close => none

def delivered (rs : List (Receipt ε)) : List ε := rs.filterMap (·.event?)

def skipped : List (Receipt ε) → Nat
  | [] => 0
  | r :: rs => r.skipped + skipped rs

def pending? (b : Bus ε) (k : Nat) : Option Nat := (b.next? k).map (b.emitted - ·)

theorem receipts_append (k : Nat) (b : Bus ε) (earlier later : List (Move ε)) :
    receipts k b (earlier ++ later) =
      receipts k b earlier ++ receipts k (b.after earlier) later := by
  induction earlier generalizing b with
  | nil => rfl
  | cons move earlier ih =>
      rw [List.cons_append, receipts, receipts, ih, List.append_assoc]
      rfl

theorem emissions_filterMap_concern? (k : Nat) (moves : List (Move ε)) :
    (moves.filterMap (concern? k)).filterMap id = emissions moves := by
  rw [List.filterMap_filterMap]
  congr 1
  funext move
  cases move with
  | receive j =>
      by_cases hown : j = k <;> simp [concern?, hown, Move.emission?]
  | emit | subscribe | unsubscribe | close => rfl

/-- What is handed over from a queue of which only the last events are kept, and what stays. -/
def handOver (slots : Nat) (queue : List ε) : Receipt ε × List ε :=
  let kept := queue.drop (queue.length - slots)
  (⟨queue.length - slots, kept.head?⟩, kept.tail)

def serve (slots : Nat) : List ε → List (Option ε) → List (Receipt ε) × List ε
  | queue, [] => ([], queue)
  | queue, some e :: view => serve slots (queue ++ [e]) view
  | queue, none :: view =>
      let (rs, left) := serve slots (handOver slots queue).2 view
      ((handOver slots queue).1 :: rs, left)

variable {slots : Nat} {queue : List ε} {view : List (Option ε)}

theorem serve_emit (e : ε) :
    serve slots queue (some e :: view) = serve slots (queue ++ [e]) view := rfl

theorem serve_ask : serve slots queue (none :: view) =
    ((handOver slots queue).1 :: (serve slots (handOver slots queue).2 view).1,
      (serve slots (handOver slots queue).2 view).2) := rfl

theorem serve_append (earlier later : List (Option ε)) :
    serve slots queue (earlier ++ later) =
      ((serve slots queue earlier).1 ++ (serve slots (serve slots queue earlier).2 later).1,
        (serve slots (serve slots queue earlier).2 later).2) := by
  induction earlier generalizing queue with
  | nil => rfl
  | cons seen earlier ih =>
      cases seen with
      | some e => exact ih
      | none => rw [List.cons_append, serve_ask, ih, serve_ask, List.cons_append]

theorem delivered_cons (r : Receipt ε) (rs : List (Receipt ε)) :
    delivered (r :: rs) = r.event?.toList ++ delivered rs := by
  cases hevent : r.event? <;> simp [delivered, hevent]

theorem handOver_split (slots : Nat) (queue : List ε) :
    (handOver slots queue).1.event?.toList ++ (handOver slots queue).2 =
      queue.drop (handOver slots queue).1.skipped := by
  unfold handOver
  dsimp only
  cases queue.drop (queue.length - slots) with
  | nil => rfl
  | cons e kept => rfl

theorem serve_sublist (slots : Nat) (queue : List ε) (view : List (Option ε)) :
    (delivered (serve slots queue view).1 ++ (serve slots queue view).2).Sublist
      (queue ++ view.filterMap id) := by
  induction view generalizing queue with
  | nil => simp [serve, delivered]
  | cons seen view ih =>
      cases seen with
      | some e => simpa [serve_emit] using ih (queue ++ [e])
      | none =>
          rw [serve_ask, delivered_cons, List.append_assoc, List.filterMap_cons_none rfl]
          refine ((ih (handOver slots queue).2).append_left _).trans ?_
          rw [← List.append_assoc, handOver_split]
          exact (List.drop_sublist _ _).append_right _

/-- What has been delivered or skipped is gone from the front of the queue, and nothing else. -/
theorem serve_split (slots : Nat) (queue : List ε) (view : List (Option ε)) :
    ∃ gone, queue ++ view.filterMap id = gone ++ (serve slots queue view).2 ∧
      gone.length = (delivered (serve slots queue view).1).length +
        skipped (serve slots queue view).1 := by
  induction view generalizing queue with
  | nil => exact ⟨[], by simp [serve, delivered, skipped]⟩
  | cons seen view ih =>
      cases seen with
      | some e => simpa [serve_emit] using ih (queue ++ [e])
      | none =>
          obtain ⟨gone, hgone, hlength⟩ := ih (handOver slots queue).2
          refine ⟨queue.take (handOver slots queue).1.skipped ++
            ((handOver slots queue).1.event?.toList ++ gone), ?_, ?_⟩
          · rw [serve_ask, List.append_assoc, List.append_assoc, ← hgone,
              ← List.append_assoc _ _ (List.filterMap _ _), handOver_split, ← List.append_assoc,
              List.take_append_drop, List.filterMap_cons_none rfl]
          · have hskipped : (handOver slots queue).1.skipped ≤ queue.length := Nat.sub_le _ _
            rw [serve_ask, delivered_cons, skipped]
            simp only [List.length_append, List.length_take, hlength]
            omega

theorem serve_complete (hskipped : skipped (serve slots queue view).1 = 0) :
    delivered (serve slots queue view).1 ++ (serve slots queue view).2 =
      queue ++ view.filterMap id := by
  obtain ⟨gone, hgone, hlength⟩ := serve_split slots queue view
  refine (serve_sublist slots queue view).eq_of_length ?_
  rw [hgone, List.length_append, List.length_append]
  omega

/-- The bus holds the end of the log of all that was published. -/
structure Keeps (b : Bus ε) (log : List ε) : Prop where
  slots_pos : 0 < b.slots
  emitted : b.emitted = log.length
  retained : b.retained = log.drop (log.length - b.slots)
  numbered : Numbered b.cursors b.subscriptions
  behind : ∀ c ∈ b.cursors, c.2 ≤ log.length

open private Nat.nextPowerOfTwo.go from Init.Data.Nat.Power2.Basic in
theorem le_doubled (n power : Nat) (hpower : 0 < power) :
    n ≤ Nat.nextPowerOfTwo.go n power hpower := by
  fun_induction Nat.nextPowerOfTwo.go n power hpower with
  | case1 power hpower hlt ih => exact ih
  | case2 power hpower hge => exact Nat.le_of_not_lt hge

theorem capacity_le_slots (capacity : Nat) : capacity ≤ capacity.nextPowerOfTwo :=
  le_doubled capacity 1 _

theorem keeps_ofCapacity {capacity : Nat} (hcapacity : 0 < capacity) :
    (ofCapacity capacity : Bus ε).Keeps [] where
  slots_pos := Nat.lt_of_lt_of_le hcapacity (capacity_le_slots capacity)
  emitted := rfl
  retained := List.drop_nil.symm
  numbered := .nil 0
  behind _ hmem := nomatch hmem

variable {b : Bus ε} {log : List ε}

theorem slots_apply (b : Bus ε) (move : Move ε) : (b.apply move).slots = b.slots := by
  cases move with
  | receive k =>
      simp only [apply, receive]
      split
      · rfl
      · split <;> rfl
  | emit | subscribe | unsubscribe | close => rfl

theorem slots_after (b : Bus ε) (moves : List (Move ε)) : (b.after moves).slots = b.slots := by
  induction moves generalizing b with
  | nil => rfl
  | cons move moves ih => exact (ih _).trans (slots_apply b move)

namespace Keeps

theorem emit (h : b.Keeps log) (e : ε) : (b.emit e).Keeps (log ++ [e]) where
  slots_pos := h.slots_pos
  emitted := by simp [h.emitted]
  retained := by
    have hkept : b.retained ++ [e] = (log ++ [e]).drop (log.length - b.slots) := by
      rw [h.retained, List.drop_append_of_le_length (Nat.sub_le _ _)]
    show (b.retained ++ [e]).drop ((b.retained ++ [e]).length - b.slots) = _
    rw [hkept, List.drop_drop]
    congr 1
    simp [Bus.emit]
    omega
  numbered := h.numbered
  behind c hmem := by
    have hbehind := h.behind c hmem
    rw [List.length_append]
    omega

theorem subscribe (h : b.Keeps log) : b.subscribe.2.Keeps log where
  slots_pos := h.slots_pos
  emitted := h.emitted
  retained := h.retained
  numbered := h.numbered.add b.emitted
  behind c hmem := by
    rcases List.mem_append.mp hmem with hold | hnew
    · exact h.behind c hold
    · rw [List.mem_singleton.mp hnew]
      exact Nat.le_of_eq h.emitted

theorem unsubscribe (h : b.Keeps log) (k : Nat) : (b.unsubscribe k).Keeps log where
  slots_pos := h.slots_pos
  emitted := h.emitted
  retained := h.retained
  numbered := h.numbered.remove k
  behind c hmem := h.behind c (List.mem_of_mem_filter hmem)

theorem moveTo (h : b.Keeps log) (k : Nat) {n : Nat} (hn : n ≤ log.length) :
    (b.moveTo k n).Keeps log where
  slots_pos := h.slots_pos
  emitted := h.emitted
  retained := h.retained
  numbered := h.numbered.change k n
  behind c hmem := by
    obtain ⟨old, hold, rfl⟩ := List.mem_map.mp hmem
    split
    · exact hn
    · exact h.behind old hold

theorem next?_le (h : b.Keeps log) {k n : Nat} (hnext : b.next? k = some n) : n ≤ log.length :=
  h.behind (k, n) (lookup_mem hnext)

theorem oldest (h : b.Keeps log) : b.oldest = log.length - b.slots := by
  rw [Bus.oldest, h.emitted, h.retained, List.length_drop]
  omega

theorem receive_cases (h : b.Keeps log) {k n : Nat} (hnext : b.next? k = some n) :
    (n = log.length ∧ b.receive k = (⟨0, none⟩, b)) ∨
      ∃ e, log[max n (log.length - b.slots)]? = some e ∧
        b.receive k = (⟨max n (log.length - b.slots) - n, some e⟩,
          b.moveTo k (max n (log.length - b.slots) + 1)) := by
  have hle := h.next?_le hnext
  have hslots := h.slots_pos
  have hread : b.retained[max n (log.length - b.slots) - (log.length - b.slots)]? =
      log[max n (log.length - b.slots)]? := by
    rw [h.retained, List.getElem?_drop]
    congr 1
    omega
  cases hfirst : log[max n (log.length - b.slots)]? with
  | some e =>
      refine .inr ⟨e, rfl, ?_⟩
      simp only [Bus.receive, hnext, h.oldest, hread, hfirst]
  | none =>
      have hpast := List.getElem?_eq_none_iff.mp hfirst
      refine .inl ⟨by omega, ?_⟩
      simp only [Bus.receive, hnext, h.oldest, hread, hfirst]

theorem receive (h : b.Keeps log) (k : Nat) : (b.receive k).2.Keeps log := by
  cases hnext : b.next? k with
  | none => simpa [Bus.receive, hnext] using h
  | some n =>
      rcases h.receive_cases hnext with ⟨-, hreceive⟩ | ⟨e, hfirst, hreceive⟩
      · rwa [hreceive]
      · rw [hreceive]
        exact h.moveTo k (List.getElem?_eq_some_iff.mp hfirst).1

theorem apply (h : b.Keeps log) (move : Move ε) :
    (b.apply move).Keeps (log ++ move.emission?.toList) := by
  cases move with
  | emit e => exact h.emit e
  | subscribe => exact (List.append_nil log).symm ▸ h.subscribe
  | unsubscribe k => exact (List.append_nil log).symm ▸ h.unsubscribe k
  | receive k => exact (List.append_nil log).symm ▸ h.receive k
  | close =>
      rw [Move.emission?, Option.toList_none, List.append_nil]
      exact ⟨h.slots_pos, h.emitted, h.retained, h.numbered, h.behind⟩

end Keeps

theorem emissions_cons (move : Move ε) (moves : List (Move ε)) :
    emissions (move :: moves) = move.emission?.toList ++ emissions moves := by
  cases hemission : move.emission? <;> simp [emissions, hemission]

theorem Keeps.after (h : b.Keeps log) (moves : List (Move ε)) :
    (b.after moves).Keeps (log ++ emissions moves) := by
  induction moves generalizing b log with
  | nil => exact (List.append_nil log).symm ▸ h
  | cons move moves ih =>
      rw [emissions_cons, ← List.append_assoc]
      exact ih (h.apply move)

theorem Keeps.emitAll (h : b.Keeps log) (events : List ε) :
    (events.foldl Bus.emit b).Keeps (log ++ events) := by
  induction events generalizing b log with
  | nil => exact (List.append_nil log).symm ▸ h
  | cons e events ih => simpa using ih (h.emit e)

theorem cursors_emitAll (b : Bus ε) (events : List ε) :
    (events.foldl emit b).cursors = b.cursors := by
  induction events generalizing b with
  | nil => rfl
  | cons e events ih => exact ih (b.emit e)

theorem Keeps.live_unsubscribe (h : b.Keeps log) {k n : Nat} (hnext : b.next? k = some n) :
    (b.unsubscribe k).live + 1 = b.live :=
  h.numbered.length_remove hnext

theorem next?_receive (b : Bus ε) {j k : Nat} (hother : j ≠ k) :
    (b.receive k).2.next? j = b.next? j := by
  unfold receive
  split
  · rfl
  · dsimp only
    split
    · exact (lookup_change b.cursors k j _).trans (if_neg hother)
    · rfl

theorem next?_moveTo {k n : Nat} (hnext : b.next? k = some n) (next : Nat) :
    (b.moveTo k next).next? k = some next := by
  have hmoved := lookup_change b.cursors k k next
  have hcursor : b.cursors.lookup k = some n := hnext
  rw [if_pos rfl, hcursor] at hmoved
  exact hmoved

theorem Keeps.received (h : b.Keeps log) {k n skipped : Nat} {e : ε} {b' : Bus ε}
    (hnext : b.next? k = some n) (hreceive : b.receive k = (⟨skipped, some e⟩, b')) :
    b'.Keeps log ∧ b'.live = b.live ∧
      ∃ first, n ≤ first ∧ log[first]? = some e ∧ b'.next? k = some (first + 1) := by
  have hkeeps := h.receive k
  rcases h.receive_cases hnext with ⟨-, hnone⟩ | ⟨e', hfirst, hsome⟩
  · rw [hreceive] at hnone
    cases hnone
  · rw [hreceive] at hkeeps hsome
    obtain ⟨hreceipt, rfl⟩ := Prod.ext_iff.mp hsome
    obtain rfl : e = e' := by simpa using congrArg Receipt.event? hreceipt
    exact ⟨hkeeps, List.length_map _, _, Nat.le_max_left _ _, hfirst, next?_moveTo hnext _⟩

theorem next?_subscribe {j n : Nat} (hnext : b.next? j = some n) :
    b.subscribe.2.next? j = some n := by
  have hold : b.cursors.lookup j = some n := hnext
  rw [next?, Bus.subscribe, List.lookup_append, hold]
  rfl

theorem handOver_drop (slots : Nat) (log : List ε) (n : Nat) :
    handOver slots (log.drop n) =
      (⟨max n (log.length - slots) - n, log[max n (log.length - slots)]?⟩,
        log.drop (max n (log.length - slots) + 1)) := by
  have hskip : (log.drop n).length - slots = max n (log.length - slots) - n := by
    rw [List.length_drop]
    omega
  have hkept : (log.drop n).drop (max n (log.length - slots) - n) =
      log.drop (max n (log.length - slots)) := by
    rw [List.drop_drop]
    congr 1
    omega
  unfold handOver
  dsimp only
  rw [hskip, hkept, List.head?_drop, List.tail_drop]

/-- A held subscription gets from each move what its queue gives it. -/
theorem Keeps.serves (h : b.Keeps log) {k n : Nat} {move : Move ε}
    (hnext : b.next? k = some n) (hheld : move ≠ .unsubscribe k) :
    (receipt? k b move).toList = (serve b.slots (log.drop n) (concern? k move).toList).1 ∧
      ∃ n', (b.apply move).next? k = some n' ∧ (log ++ move.emission?.toList).drop n' =
        (serve b.slots (log.drop n) (concern? k move).toList).2 := by
  cases move with
  | emit e => exact ⟨rfl, n, hnext, List.drop_append_of_le_length (h.next?_le hnext)⟩
  | subscribe =>
      exact ⟨rfl, n, next?_subscribe hnext, by simp [Move.emission?, concern?, serve]⟩
  | unsubscribe j =>
      have hother : k ≠ j := fun heq => hheld (heq ▸ rfl)
      exact ⟨rfl, n, (lookup_remove b.cursors hother).trans hnext,
        by simp [Move.emission?, concern?, serve]⟩
  | close => exact ⟨rfl, n, hnext, by simp [Move.emission?, concern?, serve]⟩
  | receive j =>
      by_cases hown : j = k
      · subst hown
        simp only [receipt?, concern?, if_true, Option.toList_some, serve, handOver_drop,
          Move.emission?, Option.toList_none, List.append_nil, Bus.apply]
        -- With nothing new the skip reaches beyond the log, and the queue is empty.
        rcases h.receive_cases hnext with ⟨rfl, hreceive⟩ | ⟨e, hfirst, hreceive⟩
        · have hpast : log.length ≤ max log.length (log.length - b.slots) := by omega
          rw [hreceive, List.getElem?_eq_none_iff.mpr hpast]
          refine ⟨by simp, log.length, hnext, ?_⟩
          rw [List.drop_length, List.drop_of_length_le (Nat.le_succ_of_le hpast)]
        · rw [hreceive, hfirst]
          exact ⟨rfl, _, next?_moveTo hnext _, rfl⟩
      · have hother : k ≠ j := fun heq => hown heq.symm
        have hkeep : (b.apply (.receive j)).next? k = some n :=
          (next?_receive b hother).trans hnext
        simp [receipt?, concern?, hown, serve, Move.emission?, hkeep]

/-- A subscription receives what a queue of its own gives, whatever the others do. -/
theorem Keeps.receipts_eq (h : b.Keeps log) {k n : Nat} {moves : List (Move ε)}
    (hnext : b.next? k = some n) (hheld : .unsubscribe k ∉ moves) :
    receipts k b moves = (serve b.slots (log.drop n) (moves.filterMap (concern? k))).1 ∧
      ∃ n', (b.after moves).next? k = some n' ∧ (log ++ emissions moves).drop n' =
        (serve b.slots (log.drop n) (moves.filterMap (concern? k))).2 := by
  induction moves generalizing b log n with
  | nil => exact ⟨rfl, n, hnext, by simp [emissions, serve]⟩
  | cons move moves ih =>
      rw [List.mem_cons, not_or] at hheld
      obtain ⟨hreceipt, n', hnext', hqueue⟩ := h.serves hnext (Ne.symm hheld.1)
      have hview : (move :: moves).filterMap (concern? k) =
          (concern? k move).toList ++ moves.filterMap (concern? k) := by
        cases hconcern : concern? k move <;> simp [hconcern]
      have hrest := ih (h.apply move) hnext' hheld.2
      rw [slots_apply, hqueue, List.append_assoc, ← emissions_cons] at hrest
      rw [hview, serve_append, receipts, hreceipt]
      exact ⟨congrArg _ hrest.1, hrest.2⟩

theorem Keeps.next?_new (h : b.Keeps log) :
    b.subscribe.2.next? b.subscribe.1 = some log.length :=
  h.emitted ▸ h.numbered.lookup_add b.emitted

section Subscribed

variable {made : Bus ε} {k : Nat} {since : List (Move ε)}

theorem Keeps.served (h : made.Keeps log) (hsubscribe : made.subscribe = (k, b))
    (hheld : .unsubscribe k ∉ since) :
    receipts k b since = (serve made.slots [] (since.filterMap (concern? k))).1 ∧
      (b.after since).pending? k =
        some (serve made.slots [] (since.filterMap (concern? k))).2.length ∧
      ((b.after since).receive k).1 =
        (handOver made.slots (serve made.slots [] (since.filterMap (concern? k))).2).1 := by
  have hkeeps := h.subscribe
  have hnew := h.next?_new
  have hsize : made.subscribe.2.slots = made.slots := rfl
  rw [hsubscribe] at hkeeps hnew hsize
  rw [← hsize]
  obtain ⟨hreceipts, n, hnext, hqueue⟩ := hkeeps.receipts_eq hnew hheld
  rw [List.drop_length] at hreceipts hqueue
  have hlater := hkeeps.after since
  have hasked : Move.receive k ≠ (.unsubscribe k : Move ε) := nofun
  have hread := (hlater.serves hnext hasked).1
  rw [slots_after, hqueue] at hread
  refine ⟨hreceipts, ?_, ?_⟩
  · rw [pending?, hnext, Option.map_some, hlater.emitted, ← List.length_drop, hqueue]
  · simpa [receipt?, concern?, serve] using hread

/-- Only events that have as many newer ones as there are slots are skipped, and the next one
is read. -/
theorem Keeps.read (h : made.Keeps log) (hsubscribe : made.subscribe = (k, b))
    (hheld : .unsubscribe k ∉ since) :
    let seen := (delivered (b.receipts k since)).length + skipped (b.receipts k since)
    let read := ((b.after since).receive k).1
    read.event? = (emissions since)[seen + read.skipped]? ∧
      ∀ x, seen ≤ x → x < seen + read.skipped →
        made.slots ≤ ((emissions since).drop (x + 1)).length := by
  obtain ⟨hreceipts, -, hread⟩ := h.served hsubscribe hheld
  obtain ⟨gone, hgone, hlength⟩ := serve_split made.slots [] (since.filterMap (concern? k))
  rw [emissions_filterMap_concern?, List.nil_append] at hgone
  rw [← hreceipts] at hlength
  generalize (serve made.slots [] (since.filterMap (concern? k))).2 = queue at *
  intro seen read
  have hseen : seen = gone.length := hlength.symm
  have hevent : read = (handOver made.slots queue).1 := hread
  rw [hgone, hseen, hevent]
  constructor
  · rw [List.getElem?_append_right (Nat.le_add_right _ _), Nat.add_sub_cancel_left]
    exact List.head?_drop
  · intro x _ hx
    have hskipped : x < gone.length + (queue.length - made.slots) := hx
    rw [List.length_drop, List.length_append]
    omega

theorem skipped_append (earlier later : List (Receipt ε)) :
    skipped (earlier ++ later) = skipped earlier + skipped later := by
  induction earlier with
  | nil => exact (Nat.zero_add _).symm
  | cons r earlier ih => rw [List.cons_append, skipped, skipped, ih, Nat.add_assoc]

theorem Keeps.skipped_eq_zero (h : made.Keeps log) (hsubscribe : made.subscribe = (k, b))
    (hheld : .unsubscribe k ∉ since)
    (hpending : ∀ earlier pending, earlier <+: since →
      (b.after earlier).pending? k = some pending → pending ≤ made.slots) :
    skipped (b.receipts k since) = 0 := by
  induction since using List.reverseRecOn with
  | nil => rfl
  | append_singleton since move ih =>
      rw [List.mem_append, not_or] at hheld
      have hbefore := ih hheld.1 fun earlier pending hearlier =>
        hpending earlier pending (hearlier.trans (List.prefix_append _ _))
      obtain ⟨-, hnow, hread⟩ := h.served hsubscribe hheld.1
      have hqueue := hpending since _ (List.prefix_append _ _) hnow
      rw [receipts_append, skipped_append, hbefore, Nat.zero_add]
      cases move with
      | receive j =>
          by_cases hown : j = k
          · subst hown
            have hnone : ((b.after since).receive j).1.skipped = 0 := by
              rw [hread]
              exact Nat.sub_eq_zero_of_le hqueue
            simpa [receipts, receipt?, skipped] using hnone
          · simp [receipts, receipt?, hown, skipped]
      | emit | subscribe | unsubscribe | close => rfl

end Subscribed

/-- A subscription delivers events in the order of their emission and loses only overwritten
ones, however many others there are and whatever they read. -/
theorem subscription_receives {capacity k : Nat} {b : Bus ε} {before since : List (Move ε)}
    (hcapacity : 0 < capacity)
    (hsubscribe : ((ofCapacity capacity).after before).subscribe = (k, b))
    (hheld : .unsubscribe k ∉ since) :
    (delivered (b.receipts k since)).Sublist (emissions since) ∧
    (∃ pending, (b.after since).pending? k = some pending ∧
      (delivered (b.receipts k since)).length + skipped (b.receipts k since) + pending =
        (emissions since).length) ∧
    (∀ earlier later, since = earlier ++ .receive k :: later →
      let seen := (delivered (b.receipts k earlier)).length + skipped (b.receipts k earlier)
      let read := ((b.after earlier).receive k).1
      read.event? = (emissions earlier)[seen + read.skipped]? ∧
      ∀ x, seen ≤ x → x < seen + read.skipped →
        capacity.nextPowerOfTwo ≤ ((emissions earlier).drop (x + 1)).length) ∧
    ((∀ earlier pending, earlier <+: since → (b.after earlier).pending? k = some pending →
        pending ≤ capacity) →
      skipped (b.receipts k since) = 0 ∧ delivered (b.receipts k since) <+: emissions since) ∧
    ∀ k' b' before' since', ((ofCapacity capacity).after before').subscribe = (k', b') →
      .unsubscribe k' ∉ since' →
      since'.filterMap (concern? k') = since.filterMap (concern? k) →
      receipts k' b' since' = receipts k b since := by
  have hsize : ((ofCapacity capacity : Bus ε).after before).slots = capacity.nextPowerOfTwo :=
    slots_after _ before
  have hroom := capacity_le_slots capacity
  have hkeeps := fun before : List (Move ε) => (keeps_ofCapacity hcapacity).after before
  obtain ⟨hreceipts, hpending, -⟩ := (hkeeps before).served hsubscribe hheld
  rw [hsize] at hreceipts hpending
  have hsublist := serve_sublist capacity.nextPowerOfTwo [] (since.filterMap (concern? k))
  obtain ⟨gone, hgone, hlength⟩ :=
    serve_split capacity.nextPowerOfTwo [] (since.filterMap (concern? k))
  rw [emissions_filterMap_concern?, List.nil_append, ← hreceipts] at hsublist
  rw [emissions_filterMap_concern?, List.nil_append] at hgone
  rw [← hreceipts] at hlength
  refine ⟨(List.sublist_append_left _ _).trans hsublist, ⟨_, hpending, ?_⟩, ?_, ?_, ?_⟩
  · rw [hgone, List.length_append, hlength]
  · rintro earlier later rfl
    rw [← hsize]
    exact (hkeeps before).read hsubscribe fun hmem =>
      hheld (List.mem_append_left _ hmem)
  · intro hclose
    have hnone : skipped (b.receipts k since) = 0 :=
      (hkeeps before).skipped_eq_zero hsubscribe hheld
        fun earlier pending hearlier hnow =>
          hsize ▸ Nat.le_trans (hclose earlier pending hearlier hnow) hroom
    refine ⟨hnone, ?_⟩
    rw [hreceipts] at hnone ⊢
    have hall := serve_complete hnone
    rw [emissions_filterMap_concern?, List.nil_append] at hall
    exact ⟨_, hall⟩
  -- Queues of one size that see the same moves give the same.
  · intro k' b' before' since' hsubscribe' hheld' hview
    rw [hreceipts, ((hkeeps before').served hsubscribe' hheld').1, hview,
      slots_after]
    rfl

/-- A subscription that reads after five events on a bus for two has lost three of them. -/
theorem subscription_receives_of_lag : ∃ (b : Bus Nat) (since : List (Move Nat)),
    ((ofCapacity 2).after [.subscribe, .emit 0]).subscribe = (1, b) ∧
      .unsubscribe 1 ∉ since ∧ emissions since = [1, 2, 3, 4, 5] ∧
      delivered (b.receipts 1 since) = [4] ∧ skipped (b.receipts 1 since) = 3 ∧
      (b.after since).pending? 1 = some 1 ∧ (2).nextPowerOfTwo ≤ [2, 3, 4, 5].length := by
  let made : Bus Nat := (ofCapacity 2).after [.subscribe, .emit 0]
  let earlier : List (Move Nat) := [.emit 1, .emit 2, .receive 0, .emit 3, .emit 4, .emit 5]
  let since := earlier ++ [.receive 1]
  have hsubscribe : made.subscribe = (1, made.subscribe.2) := rfl
  have hheld : .unsubscribe 1 ∉ since := by simp [since, earlier]
  obtain ⟨-, ⟨pending, hpending, hcount⟩, hread, -⟩ :=
    subscription_receives (by decide) hsubscribe hheld
  have hdelivered : delivered (made.subscribe.2.receipts 1 since) = [4] := by decide +kernel
  have hskipped : skipped (made.subscribe.2.receipts 1 since) = 3 := by decide +kernel
  have hone : pending = 1 := by
    have hfive : (emissions since).length = 5 := rfl
    rw [hdelivered, hskipped, hfive, List.length_singleton] at hcount
    omega
  have hlost := (hread earlier [] rfl).2 0 (by decide +kernel) (by decide +kernel)
  exact ⟨made.subscribe.2, since, hsubscribe, hheld, rfl, hdelivered, hskipped,
    hone ▸ hpending, hlost⟩

end ElasticPool.Bus
