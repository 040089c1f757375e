import UnifiedRuntime.Lib.GuardedRuns
import UnifiedRuntime.NativeCpu.QueueSteps

/-!
# Queues order their commands

A command waits for its wait list on the calling thread before it starts. An in-order queue waits
for each launch before the call returns. A barrier waits for its wait list only: with an empty
list it waits for nothing, whatever has been enqueued before it.

- `Ordered.step`: one call.
- `queues_order`: a run.
-/

namespace UnifiedRuntime.NativeCpu.Queue.Order

open Host

variable {s : Host} {i d e q : Nat} {c c' : Command} {call : Call}

/-! ## The order of commands -/

/-- The command `i` starts after `d` has completed: `d` is in its wait list, or was enqueued
before it on an in-order queue, or before a barrier with an empty wait list that comes before
it. -/
def MustWait (s : Host) (i d : Nat) : Prop :=
  ∃ c, s.commands i = some c ∧ (d ∈ c.waits ∨
    ∃ c', s.commands d = some c' ∧ d < i ∧ c'.queue = c.queue ∧
      ((s.queues c.queue).inOrder = true ∨ ∃ b barrier, s.commands b = some barrier ∧
        barrier.queue = c.queue ∧ barrier.emptyBarrier = true ∧ d < b ∧ b < i))

/-- **A call is right**: what its commands start after has completed, an event that is done
belongs to a command that has completed, and a finish comes back when every command of the queue
has completed. -/
structure Right (s : Host) (call : Call) : Prop where
  ordered : ∀ i d, MustWait (s.step call) i d → (s.step call).Complete d
  reports : ∀ e c ev, (s.step call).eventOf e = some (c, ev) → ev.done = true → c.tasks = 0
  finished : ∀ q, call = .finish q → ∀ i c, (s.step call).commands i = some c → c.queue = q →
    c.tasks = 0

/-! ## The condition -/

/-- **When a call is right**: a barrier with an empty wait list on an out-of-order queue has
nothing to wait for. -/
def Fine (s : Host) : Call → Prop
  | .barrier q waits _ => waits = [] → (s.queues q).inOrder = false →
    ∀ i c, s.commands i = some c → c.queue = q → c.tasks = 0
  | _ => True

/-! ## The invariant -/

/-- A launch on an in-order queue has completed unless the calling thread waits for it, and wait
lists and what comes before a barrier have completed. -/
structure Ordered (s : Host) : Prop where
  inOrder : ∀ i c, s.commands i = some c → (s.queues c.queue).inOrder = true → c.tasks ≠ 0 →
    s.blocked = some i
  waits : ∀ i c, s.commands i = some c → ∀ d ∈ c.waits, d < i ∧ s.Complete d
  barriers : ∀ b barrier, s.commands b = some barrier → barrier.emptyBarrier = true →
    ∀ d c, s.commands d = some c → d < b → c.queue = barrier.queue → c.tasks = 0

theorem Ordered.init : Ordered .init := ⟨nofun, nofun, nofun⟩

/-- The events of an allowed wait list are there and complete. -/
theorem waits_complete (h : Inv s) {waits : List Nat} (hwaits : s.Waits waits) :
    ∀ d ∈ waits, d < s.next ∧ s.Complete d := by
  intro d hd
  obtain ⟨⟨c, ev, hev, -⟩, hreturns⟩ := hwaits d hd
  exact ⟨h.lt (eventOf_iff.mp hev).1, h.complete hreturns⟩

/-- What the command of a call waits for. -/
theorem enqueued_waits (h : Inv s) (hallowed : Allowed s call) (hc : enqueued call = some c) :
    ∀ d ∈ c.waits, d < s.next ∧ s.Complete d := by
  cases call with
  | launch q k waits phEvent tasks =>
    obtain rfl := Option.some.inj hc
    exact waits_complete h hallowed.2.2.2
  | command q waits phEvent =>
    obtain rfl := Option.some.inj hc
    exact waits_complete h hallowed.2.2
  | barrier q waits phEvent =>
    obtain rfl := Option.some.inj hc
    exact waits_complete h hallowed.2.2
  | _ => cases hc

/-- The calling thread stays with a launch until it has completed. -/
theorem blocked_step (h : Inv s) (hallowed : Allowed s call) (he : s.blocked = some e)
    (hc : s.commands e = some c) (hne : c.tasks ≠ 0) : (s.step call).blocked = some e := by
  cases call with
  | unblock =>
    obtain ⟨e', he', hreturns⟩ := hallowed
    obtain rfl := Option.some.inj (he.symm.trans he')
    exact absurd (h.complete hreturns c hc) hne
  | task i =>
    obtain ⟨c', hc', -⟩ := hallowed
    show (s.task i).blocked = some e
    unfold Host.task
    rw [hc']
    exact he
  | createQueue inOrder => cases he.symm.trans hallowed
  | createKernel => cases he.symm.trans hallowed
  | _ => cases he.symm.trans hallowed.1

/-- A launch on an in-order queue is waited for. -/
theorem blocked_launch (h : Inv s) {k : Nat} {waits : List Nat} {phEvent : Bool} {tasks : Nat}
    (hwaits : s.Waits waits)
    (hinOrder : ((s.launch q k waits phEvent tasks).queues q).inOrder = true) :
    (s.launch q k waits phEvent tasks).blocked = some s.next := by
  obtain ⟨-, hframe⟩ := h.waitAll hwaits
  unfold Host.launch at hinOrder ⊢
  dsimp only at hinOrder ⊢
  split
  · exact congrArg some hframe.next
  next hnot =>
    rw [if_neg hnot] at hinOrder
    exact absurd hinOrder hnot

/-- The new command of a call that leaves tasks behind is a launch. -/
theorem enqueued_blocked (h : Inv s) (hallowed : Allowed s call) (hc : enqueued call = some c)
    (hinOrder : ((s.step call).queues c.queue).inOrder = true) (hne : c.tasks ≠ 0) :
    (s.step call).blocked = some s.next := by
  cases call with
  | launch q k waits phEvent tasks =>
    obtain rfl := Option.some.inj hc
    exact blocked_launch h hallowed.2.2.2 hinOrder
  | command q waits phEvent =>
    obtain rfl := Option.some.inj hc
    exact absurd rfl hne
  | barrier q waits phEvent =>
    obtain rfl := Option.some.inj hc
    exact absurd rfl hne
  | _ => cases hc

/-- **In front of a barrier** that meets the condition every command has completed. -/
theorem enqueued_barrier (ho : Ordered s) (hallowed : Allowed s call) (hfine : Fine s call)
    (hc : enqueued call = some c) (hbarrier : c.emptyBarrier = true)
    (hd : s.commands d = some c') (hqueue : c'.queue = c.queue) : c'.tasks = 0 := by
  cases call with
  | launch q k waits phEvent tasks =>
    obtain rfl := Option.some.inj hc
    cases hbarrier
  | command q waits phEvent =>
    obtain rfl := Option.some.inj hc
    cases hbarrier
  | barrier q waits phEvent =>
    obtain rfl := Option.some.inj hc
    cases hinOrder : (s.queues q).inOrder with
    | true =>
      by_contra hne
      have hblocked := ho.inOrder d c' hd (by rw [hqueue]; exact hinOrder) hne
      cases hallowed.1.symm.trans hblocked
    | false => exact hfine (List.isEmpty_iff.mp hbarrier) hinOrder d c' hd hqueue
  | _ => cases hc

/-- **One call** keeps the order. -/
theorem Ordered.step (ho : Ordered s) (h : Inv s) (hallowed : Allowed s call)
    (hfine : Fine s call) : Ordered (s.step call) := by
  obtain ⟨-, hevolves⟩ := h.step call hallowed
  -- what was complete stays so
  have hcomplete : ∀ d, d < s.next → s.Complete d → (s.step call).Complete d := by
    intro d hd hcomplete c' hc'
    rcases hevolves.commands d c' hc' with ⟨c, hc, hlater⟩ | ⟨heq, -⟩
    · have hzero := hcomplete c hc
      have hle := hlater.tasks
      omega
    · omega
  constructor
  · intro i c' hc' hinOrder hne
    rcases hevolves.commands i c' hc' with ⟨c, hc, hlater⟩ | ⟨rfl, hnew⟩
    · have hle := hlater.tasks
      rw [hlater.queue, hevolves.inOrder _ (h.born i c hc)] at hinOrder
      have hblocked := ho.inOrder i c hc hinOrder (by omega)
      exact blocked_step h hallowed hblocked hc (by omega)
    · exact enqueued_blocked h hallowed hnew hinOrder hne
  · intro i c' hc' d hd
    rcases hevolves.commands i c' hc' with ⟨c, hc, hlater⟩ | ⟨rfl, hnew⟩
    · rw [hlater.waits] at hd
      obtain ⟨hlt, hdone⟩ := ho.waits i c hc d hd
      have hi := h.lt hc
      exact ⟨hlt, hcomplete d (by omega) hdone⟩
    · obtain ⟨hlt, hdone⟩ := enqueued_waits h hallowed hnew d hd
      exact ⟨hlt, hcomplete d hlt hdone⟩
  · intro b barrier hb hempty d c' hc' hlt hqueue
    rcases hevolves.commands d c' hc' with ⟨c, hc, hlater⟩ | ⟨rfl, -⟩
    · have hle := hlater.tasks
      rw [hlater.queue] at hqueue
      rcases hevolves.commands b barrier hb with ⟨barrier₀, hb₀, hlater₀⟩ | ⟨-, hnew⟩
      · rw [hlater₀.queue] at hqueue
        rw [hlater₀.emptyBarrier] at hempty
        have hzero := ho.barriers b barrier₀ hb₀ hempty d c hc hlt hqueue
        omega
      · have hzero := enqueued_barrier ho hallowed hfine hnew hempty hc hqueue
        omega
    · -- nothing is behind the new command
      rcases hevolves.commands b barrier hb with ⟨barrier₀, hb₀, -⟩ | ⟨heq, -⟩
      · have hb := h.lt hb₀
        omega
      · omega

/-- What the commands must wait for has completed. -/
theorem Ordered.complete (ho : Ordered s) (h : Inv s) (hwait : MustWait s i d) :
    s.Complete d := by
  obtain ⟨c, hc, hd | ⟨c', hc', hlt, hqueue, hinOrder | ⟨b, barrier, hb, hbq, hempty, hdb, -⟩⟩⟩ :=
    hwait
  · exact (ho.waits i c hc d hd).2
  · intro c'' hc''
    obtain rfl := Option.some.inj (hc'.symm.trans hc'')
    by_contra hne
    -- a launch that is waited for is the last command
    obtain ⟨hlast, -⟩ := h.blocked d (ho.inOrder d c' hc' (by rw [hqueue]; exact hinOrder) hne)
    have hi := h.lt hc
    omega
  · intro c'' hc''
    obtain rfl := Option.some.inj (hc'.symm.trans hc'')
    exact ho.barriers b barrier hb hempty d c' hc' hdb (hqueue.trans hbq.symm)

/-- An event that is done belongs to a command that is complete. -/
theorem complete_of_done (h : Inv s) {ev : Event} (hev : s.eventOf e = some (c, ev))
    (hdone : ev.done = true) : c.tasks = 0 := by
  obtain ⟨hc, hcev⟩ := eventOf_iff.mp hev
  by_contra hne
  obtain ⟨ev', hev', hnot⟩ := h.tasks e c hc hne
  obtain rfl := Option.some.inj (hcev.symm.trans hev')
  rw [hdone] at hnot
  cases hnot

/-- **A finish** comes back when every command has completed, whether or not it has an event that
the application knows. -/
theorem finish_completes (h : Inv s) (hfinishes : s.Finishes q)
    (hc : (s.finish q).commands i = some c) (hqueue : c.queue = q) : c.tasks = 0 := by
  obtain ⟨hinv, -, hempty⟩ := h.finish hfinishes
  by_contra hne
  obtain ⟨ev, hev, hdone⟩ := hinv.tasks i c hc hne
  have hmem := (hinv.set q i).mpr ⟨c, ev, eventOf_iff.mpr ⟨hc, hev⟩, hqueue, hdone⟩
  rw [hempty] at hmem
  cases hmem

/-! ## Runs -/

/-- A call that meets the condition is right. -/
theorem Ordered.right (ho : Ordered s) (h : Inv s) (hallowed : Allowed s call)
    (hfine : Fine s call) : Right s call where
  ordered := fun _ _ => (ho.step h hallowed hfine).complete (h.step call hallowed).1
  reports := fun _ _ _ => complete_of_done (h.step call hallowed).1
  finished := fun q hcall i c hc hqueue => by
    subst hcall
    exact finish_completes h hallowed.2.2 hc hqueue

/-- **Queues order their commands** in every run whose barriers with an empty wait list have
nothing to wait for on an out-of-order queue. -/
theorem queues_order (calls : List Call) (hallowed : Along Host.step Allowed .init calls)
    (hfine : Along Host.step Fine .init calls) : Along Host.step Right .init calls := by
  have hboth := hallowed.and hfine
  have hinv := (hboth.invariant (fun s call (hs : Inv s ∧ Ordered s) hcall =>
    ⟨(hs.1.step call hcall.1).1, hs.2.step hs.1 hcall.1 hcall.2⟩) ⟨Inv.init, Ordered.init⟩).1
  exact (hinv.and hboth).mono fun s call hs => hs.1.2.right hs.1.1 hs.2.1 hs.2.2

/-- A launch on an in-order queue, one on an out-of-order queue that waits for it, a barrier when
both have completed, a command and a finish. -/
theorem queues_order_two : Along Host.step Right .init
    [.createQueue true, .createQueue false, .createKernel, .launch 0 0 [] true 1, .task 0, .unblock,
      .launch 1 0 [0] true 1, .task 1, .barrier 1 [] true, .command 0 [1] false, .finish 1] := by
  refine queues_order _
    ⟨rfl, rfl, rfl, ⟨rfl, ⟨rfl, by decide⟩, ⟨rfl, by decide⟩, nofun⟩, ⟨_, rfl, by decide⟩,
      ⟨0, rfl, ?_⟩, ⟨rfl, ⟨rfl, by decide⟩, ⟨rfl, by decide⟩, ?_⟩, ⟨_, rfl, by decide⟩,
      ⟨rfl, ⟨rfl, by decide⟩, nofun⟩, ⟨rfl, ⟨rfl, by decide⟩, ?_⟩,
      ⟨rfl, ⟨rfl, by decide⟩, ?_⟩, trivial⟩
    ⟨trivial, trivial, trivial, trivial, trivial, trivial, trivial, trivial, ?_, trivial, trivial,
      trivial⟩
  · intro c ev hev _
    cases hev
    rfl
  · intro e he
    obtain rfl := List.mem_singleton.mp he
    refine ⟨⟨_, _, rfl, rfl, by decide⟩, fun c ev hev hdone => ?_⟩
    cases hev
    cases hdone
  · intro e he
    obtain rfl := List.mem_singleton.mp he
    refine ⟨⟨_, _, rfl, rfl, by decide⟩, fun c ev hev hdone => ?_⟩
    cases hev
    rfl
  · intro e he c ev hev hdone
    obtain rfl := List.mem_singleton.mp he
    cases hev
    rfl
  · intro _ _ i c hc _
    match i with
    | 0 =>
      cases hc
      rfl
    | 1 =>
      cases hc
      rfl
    | i + 2 => cases hc

/-- The calls of an application that enqueues a launch, a barrier with an empty wait list and a
command on an out-of-order queue. -/
def behindBarrier : List Call :=
  [.createQueue false, .createKernel, .launch 0 0 [] true 1, .barrier 0 [] true, .command 0 [] true]

/-- The command runs while the launch in front of the barrier has a task left. -/
theorem queues_disorder : Along Host.step Allowed .init behindBarrier ∧
    ¬ Along Host.step Right .init behindBarrier := by
  refine ⟨⟨rfl, rfl, ⟨rfl, ⟨rfl, by decide⟩, ⟨rfl, by decide⟩, nofun⟩,
    ⟨rfl, ⟨rfl, by decide⟩, nofun⟩, ⟨rfl, ⟨rfl, by decide⟩, nofun⟩, trivial⟩, fun h => ?_⟩
  have hcomplete := h.2.2.2.2.1.ordered 2 0
    ⟨_, rfl, Or.inr ⟨_, rfl, by decide, rfl, Or.inr ⟨1, _, rfl, rfl, rfl, by decide, by decide⟩⟩⟩
  exact absurd (hcomplete _ rfl) (by decide)

end UnifiedRuntime.NativeCpu.Queue.Order
