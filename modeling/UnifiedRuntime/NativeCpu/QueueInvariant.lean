import Mathlib
import UnifiedRuntime.NativeCpu.Queue

/-!
# The invariant of the queues, and waits

An event is in the set of its queue until it is done, its queue is there for as long, and it is
deleted once the application has given it back and its tasks have finished.

- `Frame`: what waits leave alone.
- `Inv.waited`, `Inv.waitAll`, `Inv.finish`: waits keep the invariant.
-/

namespace UnifiedRuntime.NativeCpu.Queue

open Function (update update_eq_self update_of_ne update_self)
open Host

variable {s s' : Host} {e i q : Nat} {c : Command} {ev : Event} {events : List Nat}

/-! ## Events of commands -/

theorem eventOf_iff : s.eventOf e = some (c, ev) ↔ s.commands e = some c ∧ c.event = some ev := by
  unfold Host.eventOf
  cases hc : s.commands e with
  | none => exact ⟨nofun, fun h => nomatch h.1⟩
  | some c' =>
    rw [Option.map_eq_some_iff]
    constructor
    · rintro ⟨ev', hev, heq⟩
      obtain ⟨rfl, rfl⟩ := Prod.mk.inj heq
      exact ⟨rfl, hev⟩
    · rintro ⟨hc', hev⟩
      obtain rfl := Option.some.inj hc'
      exact ⟨ev, hev, rfl⟩

/-- The event that a command is given. -/
theorem eventOf_setEvent {ev' : Event} (i : Nat) :
    (s.setEvent e c ev').eventOf i =
      if i = e then some ({ c with event := some ev' }, ev') else s.eventOf i := by
  unfold Host.eventOf Host.setEvent
  dsimp only
  by_cases hi : i = e
  · rw [if_pos hi, hi, update_self]
    rfl
  · rw [if_neg hi, update_of_ne hi]

theorem eventOf_congr (h : s'.commands = s.commands) (i : Nat) : s'.eventOf i = s.eventOf i := by
  unfold Host.eventOf
  rw [h]

/-! ## The invariant -/

/-- **What holds in every run.** -/
structure Inv (s : Host) : Prop where
  fresh : ∀ i, s.next ≤ i → s.commands i = none
  unborn : ∀ q, s.nextQueue ≤ q → (s.queues q).alive = false
  born : ∀ i c, s.commands i = some c → c.queue < s.nextQueue
  set : ∀ q e, e ∈ (s.queues q).events ↔
    ∃ c ev, s.eventOf e = some (c, ev) ∧ c.queue = q ∧ ev.done = false
  nodup : ∀ q, (s.queues q).events.Nodup
  owner : ∀ e c ev, s.eventOf e = some (c, ev) → ev.done = false →
    (s.queues c.queue).alive = true
  tasks : ∀ e c, s.commands e = some c → c.tasks ≠ 0 →
    ∃ ev, c.event = some ev ∧ ev.done = false
  deleted : ∀ e c ev, s.eventOf e = some (c, ev) → ev.deleted ≠ 0 →
    ev.done = true ∧ ev.deleted = 1 ∧ ev.refCount = 0
  counted : ∀ e c ev, s.eventOf e = some (c, ev) → ev.deleted = 0 → 0 < ev.refCount
  blocked : ∀ e, s.blocked = some e → e + 1 = s.next ∧
    ∃ c ev, s.eventOf e = some (c, ev) ∧ ev.deleted = 0

theorem Inv.init : Inv .init where
  fresh := fun _ _ => rfl
  unborn := fun _ _ => rfl
  born := nofun
  set := fun _ _ => ⟨nofun, fun ⟨_, _, h, _⟩ => nomatch h⟩
  nodup := fun _ => List.nodup_nil
  owner := nofun
  tasks := nofun
  deleted := nofun
  counted := nofun
  blocked := nofun

theorem Inv.lt (h : Inv s) (hc : s.commands i = some c) : i < s.next := by
  by_contra hge
  rw [h.fresh i (Nat.le_of_not_lt hge)] at hc
  cases hc

/-- A wait that comes back is for a command that is complete. -/
theorem Inv.complete (h : Inv s) (he : s.Returns e) : s.Complete e := by
  intro c hc
  by_contra hne
  obtain ⟨ev, hev, hdone⟩ := h.tasks e c hc hne
  exact hne (he c ev (eventOf_iff.mpr ⟨hc, hev⟩) hdone)

/-- The events in a set are there. -/
theorem Inv.mem (h : Inv s) (he : e ∈ (s.queues q).events) :
    ∃ c ev, s.eventOf e = some (c, ev) ∧ c.queue = q ∧ ev.done = false ∧ ev.deleted = 0 := by
  obtain ⟨c, ev, hev, hq, hdone⟩ := (h.set q e).mp he
  refine ⟨c, ev, hev, hq, hdone, ?_⟩
  by_contra hdel
  rw [(h.deleted e c ev hev hdel).1] at hdone
  cases hdone

/-- What the application holds has not been deleted. -/
theorem Inv.held (h : Inv s) (he : s.Held e) :
    ∃ c ev, s.eventOf e = some (c, ev) ∧ ev.requested = true ∧ 0 < ev.refCount ∧
      ev.deleted = 0 := by
  obtain ⟨c, ev, hev, hreq, hcount⟩ := he
  refine ⟨c, ev, hev, hreq, hcount, ?_⟩
  by_contra hdel
  have hzero := (h.deleted e c ev hev hdel).2.2
  omega

/-! ## Waits -/

/-- A command without its event. -/
def Command.bare (c : Command) : Command := { c with event := none }

/-- The queues and kernels of the events that are not done are there. -/
def Safe (s : Host) : Prop :=
  ∀ i c ev, s.eventOf i = some (c, ev) → ev.done = false →
    (s.queues c.queue).alive = true ∧ s.kernelGone c.kernel = false

/-- **What waits leave alone**: the commands but for events that become done, and the queues but
for their sets. -/
structure Frame (s s' : Host) : Prop where
  next : s'.next = s.next
  nextQueue : s'.nextQueue = s.nextQueue
  kernels : s'.kernels = s.kernels
  nextKernel : s'.nextKernel = s.nextKernel
  blocked : s'.blocked = s.blocked
  queues : ∀ q, s'.queues q = { s.queues q with events := (s'.queues q).events }
  commands : ∀ i, (s'.commands i).map Command.bare = (s.commands i).map Command.bare
  events : ∀ i c' ev', s'.eventOf i = some (c', ev') → ∃ c ev, s.eventOf i = some (c, ev) ∧
    c'.bare = c.bare ∧ ev'.requested = ev.requested ∧ ev'.refCount = ev.refCount ∧
    ev'.deleted = ev.deleted ∧ (ev.done = true → ev'.done = true)
  kept : ∀ i c ev, s.eventOf i = some (c, ev) → ∃ c' ev', s'.eventOf i = some (c', ev') ∧
    c'.bare = c.bare ∧ ev'.requested = ev.requested ∧ ev'.refCount = ev.refCount ∧
    ev'.deleted = ev.deleted ∧ (ev.done = true → ev'.done = true)
  fault : Safe s → s'.fault = s.fault

theorem Frame.refl (s : Host) : Frame s s :=
  ⟨rfl, rfl, rfl, rfl, rfl, fun _ => rfl, fun _ => rfl,
    fun _ c ev h => ⟨c, ev, h, rfl, rfl, rfl, rfl, id⟩,
    fun _ c ev h => ⟨c, ev, h, rfl, rfl, rfl, rfl, id⟩, fun _ => rfl⟩

/-- An event that is not done was not done before. -/
theorem Frame.undone (h : Frame s s') (hev : s'.eventOf i = some (c, ev))
    (hdone : ev.done = false) : ∃ c₀ ev₀, s.eventOf i = some (c₀, ev₀) ∧ c.bare = c₀.bare ∧
      ev₀.done = false := by
  obtain ⟨c₀, ev₀, hev₀, hbare, -, -, -, himp⟩ := h.events i c ev hev
  refine ⟨c₀, ev₀, hev₀, hbare, ?_⟩
  by_contra hne
  rw [himp (Bool.not_eq_false _ ▸ hne)] at hdone
  cases hdone

theorem Frame.safe (h : Frame s s') (hsafe : Safe s) : Safe s' := by
  intro i c' ev' hev' hdone'
  obtain ⟨c, ev, hev, hbare, hdone⟩ := h.undone hev' hdone'
  obtain ⟨halive, hgone⟩ := hsafe i c ev hev hdone
  have hqueue : c'.queue = c.queue := congrArg (·.queue) hbare
  have hkernel : c'.kernel = c.kernel := congrArg (·.kernel) hbare
  constructor
  · rw [hqueue, h.queues]
    exact halive
  · unfold Host.kernelGone at hgone ⊢
    rw [hkernel, h.kernels]
    exact hgone

theorem Frame.returns (h : Frame s s') (he : s.Returns e) : s'.Returns e := by
  intro c' ev' hev' hdone'
  obtain ⟨c, ev, hev, hbare, hdone⟩ := h.undone hev' hdone'
  have htasks : c'.tasks = c.tasks := congrArg (·.tasks) hbare
  rw [htasks]
  exact he c ev hev hdone

theorem Frame.trans {s₁ s₂ s₃ : Host} (h : Frame s₁ s₂) (h' : Frame s₂ s₃) : Frame s₁ s₃ where
  next := h'.next.trans h.next
  nextQueue := h'.nextQueue.trans h.nextQueue
  kernels := h'.kernels.trans h.kernels
  nextKernel := h'.nextKernel.trans h.nextKernel
  blocked := h'.blocked.trans h.blocked
  queues := fun q => by rw [h'.queues q, h.queues q]
  commands := fun i => (h'.commands i).trans (h.commands i)
  events := fun i c₃ ev₃ h₃ => by
    obtain ⟨c₂, ev₂, h₂, hbare₂, hreq₂, hcount₂, hdel₂, hdone₂⟩ := h'.events i c₃ ev₃ h₃
    obtain ⟨c₁, ev₁, h₁, hbare₁, hreq₁, hcount₁, hdel₁, hdone₁⟩ := h.events i c₂ ev₂ h₂
    exact ⟨c₁, ev₁, h₁, hbare₂.trans hbare₁, hreq₂.trans hreq₁, hcount₂.trans hcount₁,
      hdel₂.trans hdel₁, fun hd => hdone₂ (hdone₁ hd)⟩
  kept := fun i c₁ ev₁ h₁ => by
    obtain ⟨c₂, ev₂, h₂, hbare₂, hreq₂, hcount₂, hdel₂, hdone₂⟩ := h.kept i c₁ ev₁ h₁
    obtain ⟨c₃, ev₃, h₃, hbare₃, hreq₃, hcount₃, hdel₃, hdone₃⟩ := h'.kept i c₂ ev₂ h₂
    exact ⟨c₃, ev₃, h₃, hbare₃.trans hbare₂, hreq₃.trans hreq₂, hcount₃.trans hcount₂,
      hdel₃.trans hdel₂, fun hd => hdone₃ (hdone₂ hd)⟩
  fault := fun hsafe => (h'.fault (h.safe hsafe)).trans (h.fault hsafe)

theorem Frame.held (h : Frame s s') (he : s.Held e) : s'.Held e := by
  obtain ⟨c, ev, hev, hreq, hcount⟩ := he
  obtain ⟨c', ev', hev', -, hreq', hcount', -, -⟩ := h.kept e c ev hev
  exact ⟨c', ev', hev', hreq'.trans hreq, by rw [hcount']; exact hcount⟩

/-- The state after a wait for an event that was not done. -/
def waited (s : Host) (e : Nat) (c : Command) (ev : Event) : Host :=
  ((s.touchFault (!(s.queues c.queue).alive || s.kernelGone c.kernel)).setQueue c.queue
    { s.queues c.queue with events := (s.queues c.queue).events.erase e }).setEvent e c
      { ev with done := true }

theorem wait_eq (hev : s.eventOf e = some (c, ev)) (hdel : ev.deleted = 0) :
    s.wait e = if ev.done then s else waited s e c ev := by
  unfold Host.wait
  rw [hev]
  dsimp only
  rw [if_neg (not_not_intro hdel)]
  rfl

theorem eventOf_waited (i : Nat) : (waited s e c ev).eventOf i =
    if i = e then some ({ c with event := some { ev with done := true } }, { ev with done := true })
    else s.eventOf i := by
  unfold waited
  rw [eventOf_setEvent]
  exact if_congr Iff.rfl rfl (eventOf_congr rfl i)

theorem queues_waited (q : Nat) : (waited s e c ev).queues q =
    if q = c.queue then { s.queues q with events := (s.queues q).events.erase e }
    else s.queues q := by
  show update s.queues c.queue _ q = _
  by_cases hq : q = c.queue
  · rw [if_pos hq, hq, update_self]
  · rw [if_neg hq, update_of_ne hq]

theorem frame_waited (hev : s.eventOf e = some (c, ev)) (hdone : ev.done = false) :
    Frame s (waited s e c ev) := by
  obtain ⟨hc, -⟩ := eventOf_iff.mp hev
  refine ⟨rfl, rfl, rfl, rfl, rfl, fun q => ?_, fun i => ?_, fun i c' ev' h => ?_,
    fun i c' ev' h => ?_, fun hsafe => ?_⟩
  · rw [queues_waited]
    split
    · rfl
    · rfl
  · show (update s.commands e _ i).map Command.bare = _
    by_cases hi : i = e
    · rw [hi, update_self, hc]
      rfl
    · rw [update_of_ne hi]
  · rw [eventOf_waited] at h
    split at h
    next hi =>
      obtain ⟨rfl, rfl⟩ := Prod.mk.inj (Option.some.inj h)
      exact ⟨c, ev, hi ▸ hev, rfl, rfl, rfl, rfl, fun _ => rfl⟩
    next => exact ⟨c', ev', h, rfl, rfl, rfl, rfl, id⟩
  · rw [eventOf_waited]
    split
    next hi =>
      subst hi
      obtain ⟨rfl, rfl⟩ := Prod.mk.inj (Option.some.inj (h.symm.trans hev))
      exact ⟨_, _, rfl, rfl, rfl, rfl, rfl, fun _ => rfl⟩
    next => exact ⟨c', ev', h, rfl, rfl, rfl, rfl, id⟩
  · obtain ⟨halive, hgone⟩ := hsafe e c ev hev hdone
    show (s.fault || (!(s.queues c.queue).alive || s.kernelGone c.kernel)) = s.fault
    rw [halive, hgone]
    exact Bool.or_false _

/-- **A wait for a command that is complete** keeps the invariant. -/
theorem Inv.waited (h : Inv s) (hev : s.eventOf e = some (c, ev)) (hdone : ev.done = false)
    (hdel : ev.deleted = 0) (hreturns : s.Returns e) : Inv (Queue.waited s e c ev) := by
  obtain ⟨hc, hcev⟩ := eventOf_iff.mp hev
  have hframe := frame_waited hev hdone
  have htasks := hreturns c ev hev hdone
  -- the event is done and leaves the set of its queue, the rest is the frame
  refine
    { fresh := fun i hi => ?_
      unborn := fun q hq => ?_
      born := fun i c' hc' => ?_
      set := fun q i => ?_
      nodup := fun q => ?_
      owner := fun i c' ev' hi hdone => ?_
      tasks := fun i c' hc' hne => ?_
      deleted := fun i c' ev' hi hne => ?_
      counted := fun i c' ev' hi hzero => ?_
      blocked := fun i hi => ?_ }
  · have hi : s.next ≤ i := hi
    have hlt := h.lt hc
    show update s.commands e _ i = none
    rw [update_of_ne (by omega)]
    exact h.fresh i hi
  · rw [hframe.queues q]
    exact h.unborn q hq
  · have hmap := hframe.commands i
    rw [hc'] at hmap
    obtain ⟨c₀, hc₀, hbare⟩ := Option.map_eq_some_iff.mp hmap.symm
    have hqueue : c₀.queue = c'.queue := congrArg (·.queue) hbare
    rw [← hqueue]
    exact h.born i c₀ hc₀
  · rw [eventOf_waited, queues_waited]
    have hset := h.set q i
    by_cases hie : i = e
    · subst hie
      rw [if_pos rfl]
      constructor
      · intro hmem
        split at hmem
        · exact absurd hmem (List.Nodup.not_mem_erase (h.nodup q))
        next hq =>
          obtain ⟨c', ev', hev', hq', -⟩ := hset.mp hmem
          obtain ⟨rfl, -⟩ := Prod.mk.inj (Option.some.inj (hev'.symm.trans hev))
          exact absurd hq'.symm hq
      · rintro ⟨c', ev', heq, -, hdone⟩
        obtain ⟨-, rfl⟩ := Prod.mk.inj (Option.some.inj heq)
        cases hdone
    · rw [if_neg hie, ← hset]
      split
      · exact List.mem_erase_of_ne hie
      · exact Iff.rfl
  · rw [queues_waited]
    split
    · exact (h.nodup q).erase e
    · exact h.nodup q
  · rw [hframe.queues]
    rw [eventOf_waited] at hi
    split at hi
    · obtain ⟨-, rfl⟩ := Prod.mk.inj (Option.some.inj hi)
      cases hdone
    · exact h.owner i c' ev' hi hdone
  · have hc' : update s.commands e _ i = some c' := hc'
    by_cases hi : i = e
    · rw [hi, update_self] at hc'
      obtain rfl := Option.some.inj hc'
      exact absurd htasks hne
    · rw [update_of_ne hi] at hc'
      exact h.tasks i c' hc' hne
  · rw [eventOf_waited] at hi
    split at hi
    · obtain ⟨-, rfl⟩ := Prod.mk.inj (Option.some.inj hi)
      exact absurd hdel hne
    · exact h.deleted i c' ev' hi hne
  · rw [eventOf_waited] at hi
    split at hi
    · obtain ⟨-, rfl⟩ := Prod.mk.inj (Option.some.inj hi)
      exact h.counted e c ev hev hdel
    · exact h.counted i c' ev' hi hzero
  · obtain ⟨hnext, c', ev', hi', hdel'⟩ := h.blocked i hi
    obtain ⟨c'', ev'', hi'', -, -, -, hdel'', -⟩ := hframe.kept i c' ev' hi'
    exact ⟨hnext, c'', ev'', hi'', hdel''.trans hdel'⟩

/-- A wait, whether or not the event was done. -/
theorem Inv.wait (h : Inv s) (hev : s.eventOf e = some (c, ev)) (hdel : ev.deleted = 0)
    (hreturns : s.Returns e) : Inv (s.wait e) ∧ Frame s (s.wait e) := by
  rw [wait_eq hev hdel]
  split
  · exact ⟨h, Frame.refl s⟩
  next hne =>
    have hdone : ev.done = false := Bool.not_eq_true _ ▸ hne
    exact ⟨h.waited hev hdone hdel hreturns, frame_waited hev hdone⟩

/-- **A wait list.** -/
theorem Inv.waitAll : ∀ {events : List Nat} {s : Host}, Inv s → s.Waits events →
    Inv (s.waitAll events) ∧ Frame s (s.waitAll events)
  | [], s, h, _ => ⟨h, Frame.refl s⟩
  | e :: events, s, h, hwaits => by
    obtain ⟨hheld, hreturns⟩ := hwaits e List.mem_cons_self
    obtain ⟨c, ev, hev, -, -, hdel⟩ := h.held hheld
    obtain ⟨hinv, hframe⟩ := h.wait hev hdel hreturns
    obtain ⟨hinv', hframe'⟩ := Inv.waitAll hinv fun e' he' => by
      obtain ⟨hheld', hreturns'⟩ := hwaits e' (List.mem_cons_of_mem _ he')
      exact ⟨hframe.held hheld', hframe.returns hreturns'⟩
    exact ⟨hinv', hframe.trans hframe'⟩

/-- **The loop of a finish** takes every event out of the set. -/
theorem Inv.drain (q : Nat) : ∀ {n : Nat} {s : Host}, Inv s → s.Finishes q →
    (s.queues q).events.length ≤ n →
    Inv (Host.drain q n s) ∧ Frame s (Host.drain q n s) ∧
      ((Host.drain q n s).queues q).events = []
  | 0, s, h, _, hlen => ⟨h, Frame.refl s, List.length_eq_zero_iff.mp (Nat.le_zero.mp hlen)⟩
  | n + 1, s, h, hfinishes, hlen => by
    unfold Host.drain
    cases hevents : (s.queues q).events with
    | nil => exact ⟨h, Frame.refl s, hevents⟩
    | cons e rest =>
      dsimp only
      have he : e ∈ (s.queues q).events := by
        rw [hevents]
        exact List.mem_cons_self
      obtain ⟨c, ev, hev, hq, hdone, hdel⟩ := h.mem he
      have hwait : s.wait e = Queue.waited s e c ev := by
        rw [wait_eq hev hdel, hdone]
        rfl
      have hrest : ((Queue.waited s e c ev).queues q).events = rest := by
        rw [queues_waited, if_pos hq.symm]
        show (s.queues q).events.erase e = rest
        rw [hevents, List.erase_cons_head]
      rw [hwait]
      have hframe := frame_waited hev hdone
      obtain ⟨hinv', hframe', hempty⟩ := Inv.drain q (n := n)
        (h.waited hev hdone hdel (hfinishes e he)) (fun e' he' => hframe.returns <| hfinishes e' <| by
          rw [hrest] at he'
          rw [hevents]
          exact List.mem_cons_of_mem _ he')
        (by rw [hrest]; rw [hevents, List.length_cons] at hlen; omega)
      exact ⟨hinv', hframe.trans hframe', hempty⟩

/-- A queue that is what it was. -/
theorem setQueue_self (h : (s.queues q).events = []) :
    s.setQueue q { s.queues q with events := [] } = s := by
  have hq : ({ s.queues q with events := [] } : QueueState) = s.queues q := by rw [← h]
  unfold Host.setQueue
  rw [hq, update_eq_self]

/-- **A finish** leaves no event in the set. -/
theorem Inv.finish (h : Inv s) (hfinishes : s.Finishes q) :
    Inv (s.finish q) ∧ Frame s (s.finish q) ∧ ((s.finish q).queues q).events = [] := by
  obtain ⟨hinv, hframe, hempty⟩ := h.drain q hfinishes (Nat.le_refl _)
  unfold Host.finish
  rw [setQueue_self hempty]
  exact ⟨hinv, hframe, hempty⟩

end UnifiedRuntime.NativeCpu.Queue
