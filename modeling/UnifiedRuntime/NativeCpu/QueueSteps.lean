import UnifiedRuntime.NativeCpu.QueueInvariant

/-!
# What a call does to the queues

A call leaves the commands as they are but for tasks that finish and events that become done, and
enqueues at most one.

- `Evolves`: what a call can do.
- `Inv.enqueue`, `Inv.releaseEvent`, `Inv.releaseQueue`, `Inv.task`: the calls other than waits.
- `Inv.step`: every call keeps the invariant.
-/

namespace UnifiedRuntime.NativeCpu.Queue

open Function (update update_of_ne update_self update_apply update_idem)
open Host

variable {s s' : Host} {e i k q : Nat} {c c' : Command} {ev ev' : Event} {events : List Nat}
  {call : Call}

/-! ## What a call can do -/

/-- `c'` is the command `c` at a later time. -/
structure Later (c c' : Command) : Prop where
  queue : c'.queue = c.queue
  kernel : c'.kernel = c.kernel
  waits : c'.waits = c.waits
  emptyBarrier : c'.emptyBarrier = c.emptyBarrier
  tasks : c'.tasks ≤ c.tasks
  event : ∀ ev', c'.event = some ev' → ∃ ev, c.event = some ev ∧
    ev'.requested = ev.requested ∧ (ev.done = true → ev'.done = true)

theorem Later.refl (c : Command) : Later c c :=
  ⟨rfl, rfl, rfl, rfl, Nat.le_refl _, fun ev h => ⟨ev, h, rfl, id⟩⟩

theorem Later.trans {c₁ c₂ c₃ : Command} (h : Later c₁ c₂) (h' : Later c₂ c₃) : Later c₁ c₃ where
  queue := h'.queue.trans h.queue
  kernel := h'.kernel.trans h.kernel
  waits := h'.waits.trans h.waits
  emptyBarrier := h'.emptyBarrier.trans h.emptyBarrier
  tasks := h'.tasks.trans h.tasks
  event := fun ev₃ h₃ => by
    obtain ⟨ev₂, h₂, hreq₂, hdone₂⟩ := h'.event ev₃ h₃
    obtain ⟨ev₁, h₁, hreq₁, hdone₁⟩ := h.event ev₂ h₂
    exact ⟨ev₁, h₁, hreq₂.trans hreq₁, fun hdone => hdone₂ (hdone₁ hdone)⟩

/-- The command that a call enqueues. -/
def enqueued : Call → Option Command
  | .launch q k waits phEvent tasks =>
    some ⟨q, some k, waits, false, tasks, some (newEvent phEvent)⟩
  | .command q waits phEvent =>
    some ⟨q, none, waits, false, 0, if phEvent then some (newEvent true) else none⟩
  | .barrier q waits phEvent =>
    some ⟨q, none, waits, waits.isEmpty, 0, if phEvent then some (newEvent true) else none⟩
  | _ => none

/-- **What a call can do**; `new` is the command that it enqueues, and `drop` the kernel that it
releases. -/
structure Evolves (new : Option Command) (drop : Option Nat) (s s' : Host) : Prop where
  commands : ∀ i c', s'.commands i = some c' →
    (∃ c, s.commands i = some c ∧ Later c c') ∨ (i = s.next ∧ new = some c')
  inOrder : ∀ q, q < s.nextQueue → (s'.queues q).inOrder = (s.queues q).inOrder
  kernels : ∀ k, drop ≠ some k → (s.kernels k).alive = true → (s'.kernels k).alive = true
  fault : Safe s → s'.fault = s.fault

variable {new : Option Command} {drop : Option Nat}

/-- The commands are as they were. -/
theorem Evolves.same (hcommands : s'.commands = s.commands)
    (hinOrder : ∀ q, q < s.nextQueue → (s'.queues q).inOrder = (s.queues q).inOrder)
    (hkernels : ∀ k, drop ≠ some k → (s.kernels k).alive = true → (s'.kernels k).alive = true)
    (hfault : Safe s → s'.fault = s.fault) : Evolves none drop s s' where
  commands := fun _ c' hc' => Or.inl ⟨c', hcommands ▸ hc', Later.refl c'⟩
  inOrder := hinOrder
  kernels := hkernels
  fault := hfault

theorem Frame.evolves (h : Frame s s') : Evolves none drop s s' where
  commands := fun i c' hc' => by
    have hmap := h.commands i
    rw [hc'] at hmap
    obtain ⟨c, hc, hbare⟩ := Option.map_eq_some_iff.mp hmap.symm
    refine Or.inl ⟨c, hc, (congrArg (·.queue) hbare).symm, (congrArg (·.kernel) hbare).symm,
      (congrArg (·.waits) hbare).symm, (congrArg (·.emptyBarrier) hbare).symm,
      Nat.le_of_eq (congrArg (·.tasks) hbare).symm, fun ev' hev' => ?_⟩
    obtain ⟨c₀, ev, hev, -, hreq, -, -, hdone⟩ := h.events i c' ev' (eventOf_iff.mpr ⟨hc', hev'⟩)
    obtain ⟨hc₀, hev⟩ := eventOf_iff.mp hev
    obtain rfl := Option.some.inj (hc₀.symm.trans hc)
    exact ⟨ev, hev, hreq, hdone⟩
  inOrder := fun q _ => by rw [h.queues q]
  kernels := fun k _ halive => by
    rw [h.kernels]
    exact halive
  fault := h.fault

/-- One thing after another; only the second enqueues. -/
theorem Evolves.then {s₁ s₂ : Host} (h : Evolves none drop s s₁) (hnext : s₁.next = s.next)
    (hnextQueue : s₁.nextQueue = s.nextQueue) (hsafe : Safe s → Safe s₁)
    (h' : Evolves new drop s₁ s₂) : Evolves new drop s s₂ where
  commands := fun i c₂ hc₂ => by
    rcases h'.commands i c₂ hc₂ with ⟨c₁, hc₁, hlater⟩ | ⟨hi, hnew⟩
    · rcases h.commands i c₁ hc₁ with ⟨c, hc, hlater₁⟩ | ⟨-, hnone⟩
      · exact Or.inl ⟨c, hc, hlater₁.trans hlater⟩
      · cases hnone
    · exact Or.inr ⟨hi.trans hnext, hnew⟩
  inOrder := fun q hq => by
    rw [h'.inOrder q (by rw [hnextQueue]; exact hq), h.inOrder q hq]
  kernels := fun k hdrop halive => h'.kernels k hdrop (h.kernels k hdrop halive)
  fault := fun hs => (h'.fault (hsafe hs)).trans (h.fault hs)

/-- What a call does behind its waits. -/
theorem Frame.then {s₁ s₂ : Host} (h : Frame s s₁) (h' : Evolves new drop s₁ s₂) :
    Evolves new drop s s₂ :=
  h.evolves.then h.next h.nextQueue h.safe h'

/-! ## Queues and kernels -/

theorem Inv.events_of_dead (h : Inv s) (hdead : (s.queues q).alive = false) :
    (s.queues q).events = [] := by
  refine List.eq_nil_iff_forall_not_mem.mpr fun e he => ?_
  obtain ⟨c, ev, hev, hq, hdone, -⟩ := h.mem he
  have halive := h.owner e c ev hev hdone
  rw [hq, hdead] at halive
  cases halive

theorem Inv.lt_of_alive (h : Inv s) (halive : (s.queues q).alive = true) : q < s.nextQueue := by
  by_contra hge
  rw [h.unborn q (Nat.le_of_not_lt hge)] at halive
  cases halive

/-- **The commands and the sets are as they were.** -/
theorem Inv.same (h : Inv s) (hcommands : s'.commands = s.commands) (hnext : s'.next = s.next)
    (hblocked : s'.blocked = s.blocked ∨ s'.blocked = none)
    (hevents : ∀ q, (s'.queues q).events = (s.queues q).events)
    (halive : ∀ q, (s.queues q).events ≠ [] → (s.queues q).alive = true →
      (s'.queues q).alive = true)
    (hnextQueue : s.nextQueue ≤ s'.nextQueue)
    (hunborn : ∀ q, s'.nextQueue ≤ q → (s'.queues q).alive = false) : Inv s' where
  fresh := fun i hi => by
    rw [hcommands]
    exact h.fresh i (by rw [← hnext]; exact hi)
  unborn := hunborn
  born := fun i c hc => by
    have hlt := h.born i c (by rw [← hcommands]; exact hc)
    omega
  set := fun q e => by
    rw [hevents, eventOf_congr hcommands]
    exact h.set q e
  nodup := fun q => by
    rw [hevents]
    exact h.nodup q
  owner := fun e c ev hev hdone => by
    rw [eventOf_congr hcommands] at hev
    have hmem := (h.set c.queue e).mpr ⟨c, ev, hev, rfl, hdone⟩
    exact halive c.queue (List.ne_nil_of_mem hmem) (h.owner e c ev hev hdone)
  tasks := fun e c hc hne => h.tasks e c (by rw [← hcommands]; exact hc) hne
  deleted := fun e c ev hev => h.deleted e c ev (by rw [← eventOf_congr hcommands]; exact hev)
  counted := fun e c ev hev => h.counted e c ev (by rw [← eventOf_congr hcommands]; exact hev)
  blocked := fun e he => by
    rcases hblocked with hsame | hnone
    · obtain ⟨hlast, c, ev, hev, hdel⟩ := h.blocked e (by rw [← hsame]; exact he)
      exact ⟨hlast.trans hnext.symm, c, ev, by rw [eventOf_congr hcommands]; exact hev, hdel⟩
    · rw [hnone] at he
      cases he

/-- A queue gets another reference count, or goes once its set is empty. -/
theorem Inv.setQueue {queue : QueueState} (h : Inv s)
    (hevents : queue.events = (s.queues q).events)
    (hinOrder : queue.inOrder = (s.queues q).inOrder)
    (halive : (s.queues q).events ≠ [] → queue.alive = (s.queues q).alive)
    (hq : q < s.nextQueue) :
    Inv (s.setQueue q queue) ∧ Evolves none drop s (s.setQueue q queue) := by
  have hqueues : ∀ q', (s.setQueue q queue).queues q' = if q' = q then queue else s.queues q' := by
    intro q'
    show update s.queues q queue q' = _
    rw [update_apply]
  constructor
  · refine h.same rfl rfl (Or.inl rfl) (fun q' => ?_) (fun q' hne hal => ?_) (Nat.le_refl _)
      fun q' hq' => ?_
    · rw [hqueues]
      split
      next heq => rw [heq, hevents]
      next => rfl
    · rw [hqueues]
      split
      next heq =>
        subst heq
        rw [halive hne]
        exact hal
      next => exact hal
    · have hq' : s.nextQueue ≤ q' := hq'
      rw [hqueues, if_neg (by omega)]
      exact h.unborn q' hq'
  · refine Evolves.same rfl (fun q' _ => ?_) (fun _ _ hal => hal) fun _ => rfl
    rw [hqueues]
    split
    next heq => rw [heq, hinOrder]
    next => rfl

/-- A kernel is created, retained or released. -/
theorem Inv.setKernel {kernel : KernelState} {n : Nat} (h : Inv s)
    (halive : drop ≠ some k → (s.kernels k).alive = true → kernel.alive = true) :
    Inv { s.setKernel k kernel with nextKernel := n } ∧
      Evolves none drop s { s.setKernel k kernel with nextKernel := n } := by
  refine ⟨h.same rfl rfl (Or.inl rfl) (fun _ => rfl) (fun _ _ hal => hal) (Nat.le_refl _) h.unborn,
    Evolves.same rfl (fun _ _ => rfl) (fun k' hdrop hal => ?_) fun _ => rfl⟩
  show (update s.kernels k kernel k').alive = true
  by_cases hk : k' = k
  · subst hk
    rw [update_self]
    exact halive hdrop hal
  · rw [update_of_ne hk]
    exact hal

theorem Inv.createQueue (h : Inv s) (inOrder : Bool) :
    Inv (s.step (.createQueue inOrder)) ∧ Evolves none drop s (s.step (.createQueue inOrder)) := by
  have hqueues : ∀ q, (s.step (.createQueue inOrder)).queues q =
      if q = s.nextQueue then ⟨inOrder, [], 1, true⟩ else s.queues q := by
    intro q
    show update s.queues s.nextQueue _ q = _
    rw [update_apply]
  constructor
  · refine h.same rfl rfl (Or.inl rfl) (fun q => ?_) (fun q hne hal => ?_) (Nat.le_succ _)
      fun q hq => ?_
    · rw [hqueues]
      split
      next heq =>
        rw [heq, h.events_of_dead (h.unborn _ (Nat.le_refl _))]
      next => rfl
    · rw [hqueues]
      split
      · rfl
      · exact hal
    · have hq : s.nextQueue + 1 ≤ q := hq
      rw [hqueues, if_neg (by omega)]
      exact h.unborn q (by omega)
  · refine Evolves.same rfl (fun q hq => ?_) (fun _ _ hal => hal) fun _ => rfl
    rw [hqueues, if_neg (by omega)]

/-! ## Commands -/

theorem eventOf_enqueue (i : Nat) : (s.enqueue c).eventOf i =
    if i = s.next then c.event.map fun ev => (c, ev) else s.eventOf i := by
  unfold Host.eventOf Host.enqueue
  dsimp only
  by_cases hi : i = s.next
  · rw [if_pos hi, hi, update_self]
  · rw [if_neg hi, update_of_ne hi]

theorem queues_enqueue (q : Nat) : (s.enqueue c).queues q =
    if q = c.queue ∧ c.event.isSome then
      { s.queues q with events := (s.queues q).events ++ [s.next] }
    else s.queues q := by
  unfold Host.enqueue
  dsimp only
  by_cases hev : c.event.isSome
  · rw [if_pos hev]
    by_cases hq : q = c.queue
    · rw [if_pos ⟨hq, hev⟩, hq, update_self]
    · rw [if_neg (fun h => hq h.1), update_of_ne hq]
  · rw [if_neg hev, if_neg (fun h => hev h.2)]

/-- The command that is enqueued has no tasks without an event, and its event is new. -/
structure New (s : Host) (c : Command) : Prop where
  alive : (s.queues c.queue).alive = true
  event : (c.event = none ∧ c.tasks = 0) ∨ ∃ requested, c.event = some (newEvent requested)

/-- **A command is enqueued.** -/
theorem Inv.enqueue (h : Inv s) (hblocked : s.blocked = none) (hnew : New s c) :
    Inv (s.enqueue c) ∧ Evolves (some c) drop s (s.enqueue c) := by
  have hcommands : ∀ i, (s.enqueue c).commands i =
      if i = s.next then some c else s.commands i := by
    intro i
    show update s.commands s.next (some c) i = _
    rw [update_apply]
  have hqueues : ∀ q, (s.enqueue c).queues q =
      { s.queues q with events := ((s.enqueue c).queues q).events } := by
    intro q
    rw [queues_enqueue]
    split
    · rfl
    · rfl
  have hnone : s.eventOf s.next = none := by
    unfold Host.eventOf
    rw [h.fresh s.next (Nat.le_refl _)]
  have hnotin : ∀ q, s.next ∉ (s.queues q).events := by
    intro q hmem
    obtain ⟨c', ev, hev, -⟩ := h.mem hmem
    rw [hnone] at hev
    cases hev
  -- an event that is there is the new one or an old one
  have hold : ∀ e c' ev, (s.enqueue c).eventOf e = some (c', ev) →
      (e = s.next ∧ c' = c ∧ c.event = some ev ∧ ∃ requested, ev = newEvent requested) ∨
        s.eventOf e = some (c', ev) := by
    intro e c' ev hev
    rw [eventOf_enqueue] at hev
    split at hev
    next heq =>
      obtain ⟨ev', hev', hpair⟩ := Option.map_eq_some_iff.mp hev
      obtain ⟨rfl, rfl⟩ := Prod.mk.inj hpair
      rcases hnew.event with ⟨hno, -⟩ | ⟨requested, hreq⟩
      · rw [hno] at hev'
        cases hev'
      · rw [hreq] at hev'
        exact Or.inl ⟨heq, rfl, hev' ▸ hreq, requested, (Option.some.inj hev').symm⟩
    next => exact Or.inr hev
  constructor
  · refine
      { fresh := fun i hi => ?_
        unborn := fun q hq => ?_
        born := fun i c' hc' => ?_
        set := fun q e => ?_
        nodup := fun q => ?_
        owner := fun e c' ev hev hdone => ?_
        tasks := fun e c' hc' hne => ?_
        deleted := fun e c' ev hev hne => ?_
        counted := fun e c' ev hev hzero => ?_
        blocked := fun e he => ?_ }
    · have hi : s.next + 1 ≤ i := hi
      rw [hcommands, if_neg (by omega)]
      exact h.fresh i (by omega)
    · rw [hqueues]
      exact h.unborn q hq
    · rw [hcommands] at hc'
      split at hc'
      · obtain rfl := Option.some.inj hc'
        exact h.lt_of_alive hnew.alive
      · exact h.born i c' hc'
    · rw [queues_enqueue, eventOf_enqueue]
      by_cases he : e = s.next
      · subst he
        rw [if_pos rfl]
        constructor
        · intro hmem
          split at hmem
          next hq =>
            obtain ⟨ev, hev⟩ := Option.isSome_iff_exists.mp hq.2
            rcases hnew.event with ⟨hno, -⟩ | ⟨requested, hreq⟩
            · rw [hno] at hev
              cases hev
            · exact ⟨c, newEvent requested, by rw [hreq]; rfl, hq.1.symm, rfl⟩
          next => exact absurd hmem (hnotin q)
        · rintro ⟨c', ev, hev, hq, -⟩
          obtain ⟨ev', hev', hpair⟩ := Option.map_eq_some_iff.mp hev
          obtain ⟨rfl, -⟩ := Prod.mk.inj hpair
          rw [if_pos ⟨hq.symm, by rw [hev']; rfl⟩]
          exact List.mem_append_right _ List.mem_cons_self
      · rw [if_neg he, ← h.set q e]
        split
        · show e ∈ (s.queues q).events ++ [s.next] ↔ _
          rw [List.mem_append, List.mem_singleton]
          exact or_iff_left he
        · exact Iff.rfl
    · rw [queues_enqueue]
      split
      · exact List.Nodup.append (h.nodup q) (List.nodup_singleton _)
          (List.disjoint_singleton.mpr (hnotin q))
      · exact h.nodup q
    · rw [hqueues]
      rcases hold e c' ev hev with ⟨-, rfl, -⟩ | hev
      · exact hnew.alive
      · exact h.owner e c' ev hev hdone
    · rw [hcommands] at hc'
      split at hc'
      · obtain rfl := Option.some.inj hc'
        rcases hnew.event with ⟨-, hzero⟩ | ⟨requested, hreq⟩
        · exact absurd hzero hne
        · exact ⟨newEvent requested, hreq, rfl⟩
      · exact h.tasks e c' hc' hne
    · rcases hold e c' ev hev with ⟨-, -, -, requested, rfl⟩ | hev
      · exact absurd rfl hne
      · exact h.deleted e c' ev hev hne
    · rcases hold e c' ev hev with ⟨-, -, -, requested, rfl⟩ | hev
      · exact Nat.one_pos
      · exact h.counted e c' ev hev hzero
    · have he : s.blocked = some e := he
      rw [hblocked] at he
      cases he
  · refine ⟨fun i c' hc' => ?_, fun q _ => by rw [hqueues], fun _ _ hal => hal, fun _ => rfl⟩
    rw [hcommands] at hc'
    split at hc'
    next hi => exact Or.inr ⟨hi, hc'⟩
    next => exact Or.inl ⟨c', hc', Later.refl c'⟩

/-- The calling thread waits for the launch that it has just enqueued. -/
theorem Inv.block (h : Inv s) (hlast : e + 1 = s.next)
    (hev : s.eventOf e = some (c, ev)) (hdel : ev.deleted = 0) :
    Inv { s with blocked := some e } :=
  ⟨h.fresh, h.unborn, h.born, h.set, h.nodup, h.owner, h.tasks, h.deleted, h.counted,
    fun e' he' => by
      obtain rfl := Option.some.inj he'
      exact ⟨hlast, c, ev, hev, hdel⟩⟩

/-- **A task finishes.** -/
theorem Inv.task (h : Inv s) (hc : s.commands e = some c) (hpos : 0 < c.tasks) :
    Inv (s.task e) ∧ Evolves none drop s (s.task e) := by
  have htask : s.task e =
      { s with commands := update s.commands e (some { c with tasks := c.tasks - 1 }) } := by
    unfold Host.task
    rw [hc]
  have hcommands : ∀ i, (s.task e).commands i =
      if i = e then some { c with tasks := c.tasks - 1 } else s.commands i := by
    intro i
    rw [htask]
    show update s.commands e _ i = _
    rw [update_apply]
  have hlt := h.lt hc
  -- the event of the command is the same one
  have hold : ∀ i c' ev, (s.task e).eventOf i = some (c', ev) →
      ∃ c₀, s.eventOf i = some (c₀, ev) ∧ c'.queue = c₀.queue := by
    intro i c' ev hev
    obtain ⟨hc', hev⟩ := eventOf_iff.mp hev
    rw [hcommands] at hc'
    split at hc'
    next hi =>
      obtain rfl := Option.some.inj hc'
      exact ⟨c, eventOf_iff.mpr ⟨hi ▸ hc, hev⟩, rfl⟩
    next => exact ⟨c', eventOf_iff.mpr ⟨hc', hev⟩, rfl⟩
  have hkept : ∀ i c₀ ev, s.eventOf i = some (c₀, ev) →
      ∃ c', (s.task e).eventOf i = some (c', ev) ∧ c'.queue = c₀.queue := by
    intro i c₀ ev hev
    obtain ⟨hc₀, hev⟩ := eventOf_iff.mp hev
    by_cases hi : i = e
    · subst hi
      obtain rfl := Option.some.inj (hc₀.symm.trans hc)
      exact ⟨{ c₀ with tasks := c₀.tasks - 1 },
        eventOf_iff.mpr ⟨by rw [hcommands, if_pos rfl], hev⟩, rfl⟩
    · exact ⟨c₀, eventOf_iff.mpr ⟨by rw [hcommands, if_neg hi]; exact hc₀, hev⟩, rfl⟩
  have hqueues : (s.task e).queues = s.queues := by rw [htask]
  have hnext : (s.task e).next = s.next := by rw [htask]
  have hnextQueue : (s.task e).nextQueue = s.nextQueue := by rw [htask]
  constructor
  · refine
      { fresh := fun i hi => ?_
        unborn := fun q hq => ?_
        born := fun i c' hc' => ?_
        set := fun q i => ?_
        nodup := fun q => by rw [hqueues]; exact h.nodup q
        owner := fun i c' ev hev hdone => ?_
        tasks := fun i c' hc' hne => ?_
        deleted := fun i c' ev hev hne => ?_
        counted := fun i c' ev hev hzero => ?_
        blocked := fun i hi => ?_ }
    · rw [hnext] at hi
      rw [hcommands, if_neg (by omega)]
      exact h.fresh i hi
    · rw [hqueues]
      rw [hnextQueue] at hq
      exact h.unborn q hq
    · rw [hnextQueue]
      rw [hcommands] at hc'
      split at hc'
      · obtain rfl := Option.some.inj hc'
        exact h.born e c hc
      · exact h.born i c' hc'
    · rw [hqueues, h.set q i]
      constructor
      · rintro ⟨c₀, ev, hev, hq, hdone⟩
        obtain ⟨c', hev', hqueue⟩ := hkept i c₀ ev hev
        exact ⟨c', ev, hev', hqueue.trans hq, hdone⟩
      · rintro ⟨c', ev, hev, hq, hdone⟩
        obtain ⟨c₀, hev₀, hqueue⟩ := hold i c' ev hev
        exact ⟨c₀, ev, hev₀, hqueue.symm.trans hq, hdone⟩
    · obtain ⟨c₀, hev₀, hqueue⟩ := hold i c' ev hev
      rw [hqueues, hqueue]
      exact h.owner i c₀ ev hev₀ hdone
    · rw [hcommands] at hc'
      split at hc'
      · obtain rfl := Option.some.inj hc'
        exact h.tasks e c hc (by omega)
      · exact h.tasks i c' hc' hne
    · obtain ⟨c₀, hev₀, -⟩ := hold i c' ev hev
      exact h.deleted i c₀ ev hev₀ hne
    · obtain ⟨c₀, hev₀, -⟩ := hold i c' ev hev
      exact h.counted i c₀ ev hev₀ hzero
    · rw [hnext]
      rw [htask] at hi
      obtain ⟨hlast, c₀, ev, hev, hdel⟩ := h.blocked i hi
      obtain ⟨c', hev', -⟩ := hkept i c₀ ev hev
      exact ⟨hlast, c', ev, hev', hdel⟩
  · refine ⟨fun i c' hc' => ?_, fun q _ => by rw [hqueues], fun k _ hal => ?_, fun _ => ?_⟩
    · rw [hcommands] at hc'
      split at hc'
      next hi =>
        obtain rfl := Option.some.inj hc'
        exact Or.inl ⟨c, hi ▸ hc, rfl, rfl, rfl, rfl, Nat.sub_le _ _,
          fun ev hev => ⟨ev, hev, rfl, id⟩⟩
      next => exact Or.inl ⟨c', hc', Later.refl c'⟩
    · rw [htask]
      exact hal
    · rw [htask]

/-! ## References -/

/-- **The reference count of an event changes**, or the event is deleted once it is done. -/
theorem Inv.setEvent (h : Inv s) (hev : s.eventOf e = some (c, ev)) (hdone : ev'.done = ev.done)
    (hrequested : ev'.requested = ev.requested)
    (hdeleted : ev'.deleted ≠ 0 → ev'.done = true ∧ ev'.deleted = 1 ∧ ev'.refCount = 0)
    (hcounted : ev'.deleted = 0 → 0 < ev'.refCount) (hblocked : s.blocked = none) :
    Inv (s.setEvent e c ev') ∧ Evolves none drop s (s.setEvent e c ev') := by
  obtain ⟨hc, hcev⟩ := eventOf_iff.mp hev
  have hlt := h.lt hc
  have hcommands : ∀ i, (s.setEvent e c ev').commands i =
      if i = e then some { c with event := some ev' } else s.commands i := by
    intro i
    show update s.commands e _ i = _
    rw [update_apply]
  -- the event is done if it was, so the sets of the queues need no change
  constructor
  · refine
      { fresh := fun i hi => ?_
        unborn := h.unborn
        born := fun i c' hc' => ?_
        set := fun q i => ?_
        nodup := h.nodup
        owner := fun i c' ev₁ hev₁ hdone₁ => ?_
        tasks := fun i c' hc' hne => ?_
        deleted := fun i c' ev₁ hev₁ hne => ?_
        counted := fun i c' ev₁ hev₁ hzero => ?_
        blocked := fun i hi => by rw [show s.blocked = some i from hi] at hblocked; cases hblocked }
    · have hi : s.next ≤ i := hi
      rw [hcommands, if_neg (by omega)]
      exact h.fresh i hi
    · rw [hcommands] at hc'
      split at hc'
      · obtain rfl := Option.some.inj hc'
        exact h.born e c hc
      · exact h.born i c' hc'
    · rw [eventOf_setEvent]
      show i ∈ (s.queues q).events ↔ _
      rw [h.set q i]
      split
      next hi =>
        subst hi
        constructor
        · rintro ⟨c₀, ev₀, hev₀, hq, hdone₀⟩
          obtain ⟨rfl, rfl⟩ := Prod.mk.inj (Option.some.inj (hev₀.symm.trans hev))
          exact ⟨_, ev', rfl, hq, hdone.trans hdone₀⟩
        · rintro ⟨c₁, ev₁, hev₁, hq, hdone₁⟩
          obtain ⟨rfl, rfl⟩ := Prod.mk.inj (Option.some.inj hev₁)
          exact ⟨c, ev, hev, hq, hdone.symm.trans hdone₁⟩
      next => exact Iff.rfl
    · rw [eventOf_setEvent] at hev₁
      split at hev₁
      · obtain ⟨rfl, rfl⟩ := Prod.mk.inj (Option.some.inj hev₁)
        exact h.owner e c ev hev (hdone.symm.trans hdone₁)
      · exact h.owner i c' ev₁ hev₁ hdone₁
    · rw [hcommands] at hc'
      split at hc'
      · obtain rfl := Option.some.inj hc'
        obtain ⟨ev₀, hev₀, hdone₀⟩ := h.tasks e c hc hne
        obtain rfl := Option.some.inj (hev₀.symm.trans hcev)
        exact ⟨ev', rfl, hdone.trans hdone₀⟩
      · exact h.tasks i c' hc' hne
    · rw [eventOf_setEvent] at hev₁
      split at hev₁
      · obtain ⟨-, rfl⟩ := Prod.mk.inj (Option.some.inj hev₁)
        exact hdeleted hne
      · exact h.deleted i c' ev₁ hev₁ hne
    · rw [eventOf_setEvent] at hev₁
      split at hev₁
      · obtain ⟨-, rfl⟩ := Prod.mk.inj (Option.some.inj hev₁)
        exact hcounted hzero
      · exact h.counted i c' ev₁ hev₁ hzero
  · refine ⟨fun i c' hc' => ?_, fun _ _ => rfl, fun _ _ hal => hal, fun _ => rfl⟩
    rw [hcommands] at hc'
    split at hc'
    next hi =>
      obtain rfl := Option.some.inj hc'
      refine Or.inl ⟨c, hi ▸ hc, rfl, rfl, rfl, rfl, Nat.le_refl _, fun ev₁ hev₁ => ?_⟩
      obtain rfl := Option.some.inj hev₁
      exact ⟨ev, hcev, hrequested, fun hd => hdone.trans hd⟩
    next => exact Or.inl ⟨c', hc', Later.refl c'⟩

/-- The last release waits for the event and deletes it. -/
theorem releaseEvent_last (hev : s.eventOf e = some (c, ev)) (hdel : ev.deleted = 0)
    (hcount : ev.refCount = 1) :
    s.releaseEvent e = (s.wait e).setEvent e c ⟨true, 0, ev.requested, 1⟩ := by
  obtain ⟨done, refCount, requested, deleted⟩ := ev
  obtain rfl : deleted = 0 := hdel
  obtain rfl : refCount = 1 := hcount
  have hev₀ : (s.setEvent e c ⟨done, 0, requested, 0⟩).eventOf e =
      some ({ c with event := some ⟨done, 0, requested, 0⟩ }, ⟨done, 0, requested, 0⟩) := by
    rw [eventOf_setEvent, if_pos rfl]
  have hrelease : s.releaseEvent e = (s.setEvent e c ⟨done, 0, requested, 0⟩).deleteEvent e := by
    unfold Host.releaseEvent
    rw [hev]
    rfl
  rw [hrelease]
  unfold Host.deleteEvent
  dsimp only
  rw [wait_eq hev rfl, wait_eq hev₀ rfl]
  cases done with
  | true =>
    rw [if_pos rfl, if_pos rfl, hev₀]
    dsimp only
    unfold Host.setEvent
    rw [update_idem]
  | false =>
    rw [if_neg Bool.false_ne_true, if_neg Bool.false_ne_true, eventOf_waited, if_pos rfl]
    unfold waited Host.setEvent Host.setQueue Host.touchFault
    dsimp only
    rw [update_idem, update_idem, update_idem]
    rfl

theorem Inv.releaseEvent (h : Inv s) (hblocked : s.blocked = none) (hheld : s.Held e)
    (hreturns : ∀ c ev, s.eventOf e = some (c, ev) → ev.refCount = 1 → s.Returns e) :
    Inv (s.releaseEvent e) ∧ Evolves none drop s (s.releaseEvent e) := by
  obtain ⟨c, ev, hev, -, hpos, hdel⟩ := h.held hheld
  by_cases hlast : ev.refCount = 1
  · have hreturns := hreturns c ev hev hlast
    obtain ⟨hinv, hframe⟩ := h.wait hev hdel hreturns
    rw [releaseEvent_last hev hdel hlast]
    -- the event is there after the wait, and done
    obtain ⟨c', ev', hev', hbare, hrequested, hdone'⟩ : ∃ c' ev',
        (s.wait e).eventOf e = some (c', ev') ∧ c'.bare = c.bare ∧
          ev'.requested = ev.requested ∧ ev'.done = true := by
      rw [wait_eq hev hdel]
      split
      next hdone => exact ⟨c, ev, hev, rfl, rfl, hdone⟩
      next =>
        exact ⟨{ c with event := some { ev with done := true } }, { ev with done := true },
          by rw [eventOf_waited, if_pos rfl], rfl, rfl, rfl⟩
    have hset : (s.wait e).setEvent e c ⟨true, 0, ev.requested, 1⟩ =
        (s.wait e).setEvent e c' ⟨true, 0, ev.requested, 1⟩ := by
      have hsame : ∀ ev₁ : Event,
          ({ c with event := some ev₁ } : Command) = { c' with event := some ev₁ } :=
        fun ev₁ => (congrArg (fun b : Command => { b with event := some ev₁ }) hbare).symm
      unfold Host.setEvent
      rw [hsame]
    rw [hset]
    have hgone : Inv ((s.wait e).setEvent e c' ⟨true, 0, ev.requested, 1⟩) ∧
        Evolves none drop (s.wait e) ((s.wait e).setEvent e c' ⟨true, 0, ev.requested, 1⟩) :=
      hinv.setEvent hev' hdone'.symm hrequested.symm (fun _ => ⟨rfl, rfl, rfl⟩) nofun
        (hframe.blocked.trans hblocked)
    exact ⟨hgone.1, hframe.then hgone.2⟩
  · have hrelease : s.releaseEvent e = s.setEvent e c { ev with refCount := ev.refCount - 1 } := by
      unfold Host.releaseEvent
      rw [hev]
      dsimp only
      rw [if_neg (by omega)]
    rw [hrelease]
    exact h.setEvent hev rfl rfl (fun hne => absurd hdel hne)
      (fun _ => show 0 < ev.refCount - 1 by omega) hblocked

theorem Inv.retainEvent (h : Inv s) (hblocked : s.blocked = none) (hheld : s.Held e) :
    Inv (s.retainEvent e) ∧ Evolves none drop s (s.retainEvent e) := by
  obtain ⟨c, ev, hev, -, hpos, hdel⟩ := h.held hheld
  have hretain : s.retainEvent e = s.setEvent e c { ev with refCount := ev.refCount + 1 } := by
    unfold Host.retainEvent
    rw [hev]
  rw [hretain]
  exact h.setEvent hev rfl rfl (fun hne => absurd hdel hne) (fun _ => Nat.succ_pos _) hblocked

/-- **The last release of a queue** finishes it before it goes. -/
theorem Inv.releaseQueue (h : Inv s) (hq : s.HoldsQueue q)
    (hfinishes : (s.queues q).refCount = 1 → s.Finishes q) :
    Inv (s.releaseQueue q) ∧ Evolves none drop s (s.releaseQueue q) := by
  have hlt := h.lt_of_alive hq.1
  have hpos := hq.2
  unfold Host.releaseQueue
  dsimp only
  generalize hqueue : { s.queues q with refCount := (s.queues q).refCount - 1 } = queue
  have hcounted : Inv (s.setQueue q queue) ∧ Evolves none drop s (s.setQueue q queue) :=
    h.setQueue (by rw [← hqueue]) (by rw [← hqueue]) (fun _ => by rw [← hqueue]) hlt
  obtain ⟨hinv, hevolves⟩ := hcounted
  split
  next hzero =>
    have hreturns := hfinishes (by omega)
    generalize hs' : s.setQueue q queue = s' at hinv hevolves
    have hevents : (s'.queues q).events = (s.queues q).events := by
      rw [← hs', ← hqueue]
      show (update s.queues q _ q).events = _
      rw [update_self]
    have hreturns' : s'.Finishes q := by
      intro e he c ev hev
      rw [hevents] at he
      rw [← hs'] at hev
      exact hreturns e he c ev hev
    have hsafe : Safe s → Safe s' := by
      intro hsafe i c ev hev hdone
      rw [← hs', ← hqueue] at hev ⊢
      obtain ⟨halive, hgone⟩ := hsafe i c ev hev hdone
      refine ⟨?_, hgone⟩
      show (update s.queues q _ c.queue).alive = true
      rw [update_apply]
      split
      · exact hq.1
      · exact halive
    obtain ⟨hinv₁, hframe, hempty⟩ := hinv.finish hreturns'
    have hnextQueue : (s'.finish q).nextQueue = s.nextQueue := by
      rw [hframe.nextQueue, ← hs']
      rfl
    have hgone : Inv ((s'.finish q).setQueue q { (s'.finish q).queues q with alive := false }) ∧
        Evolves none drop (s'.finish q)
          ((s'.finish q).setQueue q { (s'.finish q).queues q with alive := false }) :=
      hinv₁.setQueue rfl rfl (fun hne => absurd hempty hne) (by rw [hnextQueue]; exact hlt)
    exact ⟨hgone.1, hevolves.then (by rw [← hs']; rfl) (by rw [← hs']; rfl) hsafe
      (hframe.then hgone.2)⟩
  next => exact ⟨hinv, hevolves⟩

/-! ## Every call -/

/-- The kernel that a call releases. -/
def dropped : Call → Option Nat
  | .releaseKernel k => some k
  | _ => none

/-- A command behind its waits. -/
theorem Inv.withTimingEvent (h : Inv s) {emptyBarrier phEvent : Bool} {waits : List Nat}
    (hblocked : s.blocked = none) (hq : s.HoldsQueue q) (hwaits : s.Waits waits) :
    Inv (s.withTimingEvent q waits emptyBarrier phEvent) ∧
      Evolves (some ⟨q, none, waits, emptyBarrier, 0,
        if phEvent then some (newEvent true) else none⟩) drop s
        (s.withTimingEvent q waits emptyBarrier phEvent) := by
  obtain ⟨hinv, hframe⟩ := h.waitAll hwaits
  have hnew : New (s.waitAll waits) ⟨q, none, waits, emptyBarrier, 0,
      if phEvent then some (newEvent true) else none⟩ := by
    constructor
    · rw [hframe.queues]
      exact hq.1
    · cases phEvent with
      | true => exact Or.inr ⟨true, rfl⟩
      | false => exact Or.inl ⟨rfl, rfl⟩
  obtain ⟨hinv', hevolves⟩ := hinv.enqueue (hframe.blocked.trans hblocked) hnew
  exact ⟨hinv', hframe.then hevolves⟩

theorem Inv.launch (h : Inv s) {phEvent : Bool} {waits : List Nat} {tasks : Nat}
    (hblocked : s.blocked = none) (hq : s.HoldsQueue q) (hwaits : s.Waits waits) :
    Inv (s.launch q k waits phEvent tasks) ∧
      Evolves (some ⟨q, some k, waits, false, tasks, some (newEvent phEvent)⟩) drop s
        (s.launch q k waits phEvent tasks) := by
  obtain ⟨hinv, hframe⟩ := h.waitAll hwaits
  have hnew : New (s.waitAll waits)
      ⟨q, some k, waits, false, tasks, some (newEvent phEvent)⟩ :=
    ⟨by rw [hframe.queues]; exact hq.1, Or.inr ⟨phEvent, rfl⟩⟩
  obtain ⟨hinv', hevolves⟩ := hinv.enqueue (hframe.blocked.trans hblocked) hnew
  have hall := hframe.then hevolves
  unfold Host.launch
  dsimp only
  split
  · exact ⟨hinv'.block rfl (by rw [eventOf_enqueue, if_pos rfl]; rfl) rfl,
      hall.commands, hall.inOrder, hall.kernels, hall.fault⟩
  · exact ⟨hinv', hall⟩

/-- **Every call keeps the invariant**, and does what a call can do. -/
theorem Inv.step (h : Inv s) : ∀ (call : Call), Allowed s call →
    Inv (s.step call) ∧ Evolves (enqueued call) (dropped call) s (s.step call)
  | .createQueue inOrder, _ => h.createQueue inOrder
  | .createKernel, _ => h.setKernel fun _ _ => rfl
  | .launch q k waits phEvent tasks, ⟨hblocked, hq, _, hwaits⟩ => h.launch hblocked hq hwaits
  | .unblock, ⟨e, he, hreturns⟩ => by
    obtain ⟨-, c, ev, hev, hdel⟩ := h.blocked e he
    obtain ⟨hinv, hframe⟩ := h.wait hev hdel hreturns
    have hstep : s.step .unblock = { s.wait e with blocked := none } := by
      unfold Host.step
      rw [he]
    rw [hstep]
    have hevolves : Evolves none none s (s.wait e) := hframe.evolves
    exact ⟨hinv.same rfl rfl (Or.inr rfl) (fun _ => rfl) (fun _ _ hal => hal) (Nat.le_refl _)
        hinv.unborn,
      hevolves.commands, hevolves.inOrder, hevolves.kernels, hevolves.fault⟩
  | .command q waits phEvent, ⟨hblocked, hq, hwaits⟩ => h.withTimingEvent hblocked hq hwaits
  | .barrier q waits phEvent, ⟨hblocked, hq, hwaits⟩ => h.withTimingEvent hblocked hq hwaits
  | .wait events, ⟨_, hwaits⟩ => by
    obtain ⟨hinv, hframe⟩ := h.waitAll hwaits
    exact ⟨hinv, hframe.evolves⟩
  | .finish q, ⟨_, _, hfinishes⟩ => by
    obtain ⟨hinv, hframe, -⟩ := h.finish hfinishes
    exact ⟨hinv, hframe.evolves⟩
  | .retainEvent e, ⟨hblocked, hheld⟩ => h.retainEvent hblocked hheld
  | .releaseEvent e, ⟨hblocked, hheld, hreturns⟩ => h.releaseEvent hblocked hheld hreturns
  | .query e, ⟨_, hheld⟩ => by
    obtain ⟨c, ev, hev, -, -, hdel⟩ := h.held hheld
    have hquery : s.query e = s := by
      unfold Host.query
      rw [hev]
      dsimp only
      rw [hdel]
      unfold Host.touchFault
      rw [show decide (0 ≠ 0) = false from rfl, Bool.or_false]
    show Inv (s.query e) ∧ Evolves none none s (s.query e)
    rw [hquery]
    exact ⟨h, (Frame.refl s).evolves⟩
  | .retainKernel k, _ => h.setKernel fun _ hal => hal
  | .releaseKernel k, _ => h.setKernel fun hdrop _ => absurd rfl hdrop
  | .retainQueue q, ⟨_, hq⟩ => h.setQueue rfl rfl (fun _ => rfl) (h.lt_of_alive hq.1)
  | .releaseQueue q, ⟨_, hq, hfinishes⟩ => h.releaseQueue hq hfinishes
  | .task e, ⟨c, hc, hpos⟩ => h.task hc hpos

end UnifiedRuntime.NativeCpu.Queue
