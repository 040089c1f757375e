import Mathlib

/-!
# Cleaning up the events of a command list

`resetCommandList` moves completed events of a command list to a list of events to clean up. In
the immediate list of an in-order queue it looks for a completed event from the end, with at most
four checks and steps that are halved, and moves this event and all before it.

The list is that of the source, in the order of submission; a reverse iterator is its distance
from `rbegin`. An answer belongs to the number of the check, since events complete meanwhile.

- `search_inRange`: the iterator stays within the list.
- `search_found`: where it stops, an event was seen complete.
- `inOrder_cleanup`: what is moved and what remains.
-/

namespace UnifiedRuntime.LevelZero.Bisect

variable {α : Type}

/-! ## The source -/

inductive ZeResult where
  | success
  | notReady
  | error (code : Nat)
deriving DecidableEq

/-- `Event->Completed` and `zeEventQueryStatus`, at each check. -/
structure Answers (α : Type) where
  completed : Nat → α → Bool
  query : Nat → α → ZeResult

/-- `EventCompleted`. -/
def eventCompleted (a : Answers α) (check : Nat) (event : α) : Bool :=
  let zeResult := if a.completed check event then .success else a.query check event
  zeResult == .success

/-- How the search ends. -/
inductive Search where
  | found (it : Nat)
  | stopped
  /-- The iterator was advanced past `rend`. -/
  | pastEnd

/-- `*it`, if the reverse iterator is before `rend`. -/
def deref (eventList : List α) (it : Nat) : Option α := eventList.reverse[it]?

/-- The loop over the reverse iterator `it`, with at most 3 steps. -/
def search (a : Answers α) (eventList : List α) (it iter bisect : Nat) : Search :=
  match deref eventList it with
  | none => if it = eventList.length then .stopped else .pastEnd
  | some event =>
    if eventCompleted a iter event then .found it
    else if 1 < bisect ∧ iter < 3 then
      search a eventList (it + bisect / 2) (iter + 1) (bisect / 2)
    else .stopped
termination_by bisect

/-- The events that remain, and those to clean up; nothing if an iterator left the list. -/
abbrev Cleaned (α : Type) := Option (List α × List α)

/-- The branch of an in-order queue: `std::move(it, rend)` and `erase(begin, it.base())`. -/
def resetInOrder (a : Answers α) (eventList cleanup : List α) : Cleaned α :=
  match search a eventList 0 0 eventList.length with
  | .pastEnd => none
  | .stopped => some (eventList, cleanup)
  | .found it => some (eventList.drop (eventList.length - it), cleanup ++ eventList.reverse.drop it)

/-- The loop that moves events up to the first that is not complete. -/
def resetOutOfOrder (a : Answers α) (check : Nat) (cleanup : List α) : List α → List α × List α
  | [] => ([], cleanup)
  | event :: eventList =>
    if eventCompleted a check event then
      resetOutOfOrder a (check + 1) (cleanup ++ [event]) eventList
    else (event :: eventList, cleanup)

/-- What the branches depend on. -/
structure ListState where
  zeFence : Bool
  inOrderQueue : Bool
  lastCommandEvent : Bool
  discardEvents : Bool

/-- `resetCommandList` on the events, with what `tryCleanup` of the list's completions leaves if
it succeeds. -/
def resetCommandList (s : ListState) (checkStatus : Bool) (a : Answers α)
    (tryCleanup : Option (List α × List α)) (eventList cleanup : List α) : Cleaned α :=
  if !checkStatus || s.zeFence || (s.inOrderQueue && !s.lastCommandEvent) then
    some ([], cleanup ++ eventList)
  else if s.discardEvents then some (eventList, cleanup)
  else if s.inOrderQueue then resetInOrder a eventList cleanup
  else match tryCleanup with
  | some cleaned => some cleaned
  | none => some (resetOutOfOrder a 0 cleanup eventList)

/-! ## The search -/

variable {a : Answers α} {eventList : List α}

theorem eventCompleted_iff {check : Nat} {event : α} :
    eventCompleted a check event = true ↔
      a.completed check event = true ∨ a.query check event = .success := by
  unfold eventCompleted
  cases a.completed check event with
  | true => exact ⟨fun _ => Or.inl rfl, fun _ => rfl⟩
  | false =>
    exact ⟨fun h => Or.inr (beq_iff_eq.mp h), fun h => beq_iff_eq.mpr (h.resolve_left nofun)⟩

/-- **The iterator stays within the list**: the halves that are left always fit. -/
theorem search_inRange (a : Answers α) (eventList : List α) (it iter bisect : Nat)
    (h : it + bisect ≤ eventList.length) : search a eventList it iter bisect ≠ .pastEnd := by
  fun_induction search a eventList it iter bisect with
  | case1 => nofun
  | case2 it iter bisect hnone hend =>
    unfold deref at hnone
    rw [List.getElem?_eq_none_iff, List.length_reverse] at hnone
    omega
  | case3 => nofun
  | case4 it iter bisect event hsome hcomplete hstep ih => exact ih (by omega)
  | case5 => nofun

/-- **Where it stops, an event was seen complete.** -/
theorem search_found (a : Answers α) (eventList : List α) (it iter bisect : Nat) {i : Nat}
    (h : search a eventList it iter bisect = .found i) :
    ∃ check event, deref eventList i = some event ∧ eventCompleted a check event = true := by
  fun_induction search a eventList it iter bisect with
  | case1 => cases h
  | case2 => cases h
  | case3 it iter bisect event hsome hcomplete =>
    obtain rfl := Search.found.inj h
    exact ⟨iter, event, hsome, hcomplete⟩
  | case4 it iter bisect event hsome hcomplete hstep ih => exact ih h
  | case5 => cases h

/-! ## What is cleaned up -/

/-- The events that are complete at each check are a prefix of the list, and no answer says of an
event that is not that it is. -/
structure Consistent (eventList : List α) (a : Answers α) (done : Nat → α → Prop) : Prop where
  isInitial : ∀ check i j (hij : i < j) (hj : j < eventList.length),
    done check eventList[j] → done check eventList[i]
  right : ∀ check, ∀ event ∈ eventList, eventCompleted a check event = true → done check event

/-- The events before one that is complete are complete. -/
theorem Consistent.before {done : Nat → α → Prop} (h : Consistent eventList a done) {check i : Nat}
    {event : α} (hi : deref eventList i = some event) (hdone : done check event) :
    ∀ e ∈ eventList.reverse.drop i, done check e := by
  intro e he
  obtain ⟨k, hk, rfl⟩ := List.mem_iff_getElem.mp he
  rw [List.length_drop, List.length_reverse] at hk
  obtain ⟨hlt, hget⟩ := List.getElem?_eq_some_iff.mp hi
  rw [List.getElem_reverse] at hget
  rw [List.getElem_drop, List.getElem_reverse]
  rcases Nat.eq_zero_or_pos k with rfl | hpos
  · have hsame : eventList[eventList.length - 1 - (i + 0)] = event := hget
    rw [hsame]
    exact hdone
  · rw [← hget] at hdone
    exact h.isInitial check _ _ (by omega) (by omega) hdone

/-- **The bisecting cleanup, exactly.** For an in-order queue with a last event, on the immediate
list of a queue that does not discard events, the events that are moved are complete and, in
reverse order, the first ones of the list; the others remain in their order. -/
theorem inOrder_cleanup (s : ListState) (a : Answers α) (tryCleanup : Option (List α × List α))
    (eventList cleanup : List α) (done : Nat → α → Prop)
    (hbranch : s.zeFence = false ∧ s.inOrderQueue = true ∧ s.lastCommandEvent = true ∧
      s.discardEvents = false)
    (hconsistent : Consistent eventList a done) :
    ∃ moved rest, resetCommandList s true a tryCleanup eventList cleanup =
        some (rest, cleanup ++ moved) ∧
      moved.reverse ++ rest = eventList ∧ ∃ check, ∀ event ∈ moved, done check event := by
  obtain ⟨hfence, hinOrder, hlast, hdiscard⟩ := hbranch
  have hreset : resetCommandList s true a tryCleanup eventList cleanup =
      resetInOrder a eventList cleanup := by
    unfold resetCommandList
    rw [hfence, hinOrder, hlast, hdiscard]
    rfl
  rw [hreset]
  unfold resetInOrder
  have hrange := search_inRange a eventList 0 0 eventList.length (by omega)
  cases hsearch : search a eventList 0 0 eventList.length with
  | pastEnd => exact absurd hsearch hrange
  | stopped =>
    refine ⟨[], eventList, ?_, rfl, 0, nofun⟩
    rw [List.append_nil]
  | found i =>
    obtain ⟨check, event, hget, hcomplete⟩ := search_found a eventList 0 0 _ hsearch
    have hmem : event ∈ eventList := List.mem_reverse.mp (List.mem_of_getElem? hget)
    have hdone := hconsistent.right check event hmem hcomplete
    refine ⟨eventList.reverse.drop i, _, rfl, ?_, check, hconsistent.before hget hdone⟩
    rw [List.drop_reverse, List.reverse_reverse, List.take_append_drop]

/-- Four events of which the first two are complete: they are found in the first step back. -/
theorem inOrder_cleanup_four :
    ∃ moved rest, resetCommandList ⟨false, true, true, false⟩ true
        ⟨fun _ event => decide (event < 3), fun _ _ => .notReady⟩ none [1, 2, 3, 4] [] =
        some (rest, [] ++ moved) ∧
      moved.reverse ++ rest = [1, 2, 3, 4] ∧
        ∃ check : Nat, ∀ event ∈ moved, (fun (_ : Nat) (e : Nat) => e < 3) check event := by
  refine inOrder_cleanup _ _ none [1, 2, 3, 4] [] _ ⟨rfl, rfl, rfl, rfl⟩ ⟨?_, ?_⟩
  · intro check i j hij hj
    have hget : ∀ k (hk : k < 4), [1, 2, 3, 4][k] = k + 1 := by decide
    have hj4 : j < 4 := hj
    rw [hget j hj4, hget i (by omega)]
    omega
  · intro check event _ h
    rcases eventCompleted_iff.mp h with h | h
    · exact of_decide_eq_true h
    · cases h

end UnifiedRuntime.LevelZero.Bisect
