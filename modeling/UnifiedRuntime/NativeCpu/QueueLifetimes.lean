import UnifiedRuntime.Lib.GuardedRuns
import UnifiedRuntime.NativeCpu.QueueSteps

/-!
# Lifetimes of events, kernels and queues

An event has one reference from the start. The application gives it back if it has got the
handle, and nobody does otherwise. The callback of a launch has the kernel without a reference to
it. A queue that goes has waited for its events before.

- `Owned.step`: one call.
- `lifetimes`: a run.
-/

namespace UnifiedRuntime.NativeCpu.Queue.Lifetimes

open Host

variable {s : Host} {e k : Nat} {c : Command} {ev : Event} {call : Call}

/-! ## Calls that are right -/

/-- **A call is right**: nothing that has been deleted is touched, an event is deleted once, when
its last reference is given back or, if nobody has got the handle, when it is done, and the set
of a queue is that of its live events that are not done. -/
structure Right (s : Host) (call : Call) : Prop where
  fault : (s.step call).fault = false
  requested : ∀ e c ev, (s.step call).eventOf e = some (c, ev) → ev.requested = true →
    ev.deleted = if ev.refCount = 0 then 1 else 0
  unrequested : ∀ e c ev, (s.step call).eventOf e = some (c, ev) → ev.requested = false →
    ev.deleted = if ev.done then 1 else 0
  set : ∀ q e, e ∈ ((s.step call).queues q).events ↔ ∃ c ev,
    (s.step call).eventOf e = some (c, ev) ∧ c.queue = q ∧ ev.done = false ∧ ev.deleted = 0

/-! ## The condition -/

/-- **When a call is right**: a launch asks for its event, and the last reference to a kernel is
released when the events of its launches are done. -/
def Fine (s : Host) : Call → Prop
  | .launch _ _ _ phEvent _ => phEvent = true
  | .releaseKernel k => (s.kernels k).refCount = 1 →
    ∀ e c ev, s.eventOf e = some (c, ev) → c.kernel = some k → ev.done = true
  | _ => True

/-! ## The invariant -/

/-- The application has the handle of every event, and the kernels of the events that are not
done are there. -/
structure Owned (s : Host) : Prop where
  fault : s.fault = false
  requested : ∀ e c ev, s.eventOf e = some (c, ev) → ev.requested = true
  kernels : ∀ e c ev k, s.eventOf e = some (c, ev) → ev.done = false → c.kernel = some k →
    (s.kernels k).alive = true

theorem Owned.init : Owned .init := ⟨rfl, nofun, nofun⟩

theorem Owned.safe (ho : Owned s) (h : Inv s) : Safe s := by
  intro e c ev hev hdone
  refine ⟨h.owner e c ev hev hdone, ?_⟩
  cases hk : c.kernel with
  | none => rfl
  | some k =>
    show (!(s.kernels k).alive) = false
    rw [ho.kernels e c ev k hev hdone hk]
    rfl

/-- The new event of a call that meets the condition is asked for. -/
theorem enqueued_requested (hfine : Fine s call) (hc : enqueued call = some c)
    (hev : c.event = some ev) : ev.requested = true := by
  cases call with
  | launch q k waits phEvent tasks =>
    obtain rfl := Option.some.inj hc
    obtain rfl := Option.some.inj hev
    exact hfine
  | command q waits phEvent =>
    obtain rfl := Option.some.inj hc
    cases phEvent with
    | true =>
      obtain rfl := Option.some.inj hev
      rfl
    | false => cases hev
  | barrier q waits phEvent =>
    obtain rfl := Option.some.inj hc
    cases phEvent with
    | true =>
      obtain rfl := Option.some.inj hev
      rfl
    | false => cases hev
  | _ => cases hc

/-- The kernel of the command of a call is there. -/
theorem enqueued_kernel (hallowed : Allowed s call) (hc : enqueued call = some c)
    (hk : c.kernel = some k) : (s.kernels k).alive = true ∧ dropped call = none := by
  cases call with
  | launch q k' waits phEvent tasks =>
    obtain rfl := Option.some.inj hc
    obtain rfl := Option.some.inj hk
    exact ⟨hallowed.2.2.1.1, rfl⟩
  | command q waits phEvent =>
    obtain rfl := Option.some.inj hc
    cases hk
  | barrier q waits phEvent =>
    obtain rfl := Option.some.inj hc
    cases hk
  | _ => cases hc

/-- **A kernel that an event is yet to use stays.** -/
theorem kernel_stays (hevolves : Evolves (enqueued call) (dropped call) s (s.step call))
    (hallowed : Allowed s call) (hfine : Fine s call) (halive : (s.kernels k).alive = true)
    (hev : s.eventOf e = some (c, ev)) (hdone : ev.done = false) (hk : c.kernel = some k) :
    ((s.step call).kernels k).alive = true := by
  by_cases hdrop : dropped call = some k
  · cases call with
    | releaseKernel k' =>
      obtain rfl := Option.some.inj hdrop
      have hpos : 0 < (s.kernels k').refCount := hallowed.2.2
      have hmore : (s.kernels k').refCount ≠ 1 := by
        intro hone
        rw [hfine hone e c ev hev hk] at hdone
        cases hdone
      show (Function.update s.kernels k' _ k').alive = true
      rw [Function.update_self]
      exact decide_eq_true (by omega)
    | _ => cases hdrop
  · exact hevolves.kernels k hdrop halive

/-- **One call.** -/
theorem Owned.step (ho : Owned s) (h : Inv s) (hallowed : Allowed s call) (hfine : Fine s call) :
    Owned (s.step call) := by
  obtain ⟨-, hevolves⟩ := h.step call hallowed
  refine ⟨(hevolves.fault (ho.safe h)).trans ho.fault, fun e c' ev' hev' => ?_,
    fun e c' ev' k hev' hdone hk => ?_⟩
  · obtain ⟨hc', hev'⟩ := eventOf_iff.mp hev'
    rcases hevolves.commands e c' hc' with ⟨c, hc, hlater⟩ | ⟨-, hnew⟩
    · obtain ⟨ev, hev, hreq, -⟩ := hlater.event ev' hev'
      exact hreq.trans (ho.requested e c ev (eventOf_iff.mpr ⟨hc, hev⟩))
    · exact enqueued_requested hfine hnew hev'
  · obtain ⟨hc', hev'⟩ := eventOf_iff.mp hev'
    rcases hevolves.commands e c' hc' with ⟨c, hc, hlater⟩ | ⟨-, hnew⟩
    · obtain ⟨ev, hev, -, himp⟩ := hlater.event ev' hev'
      have hev := eventOf_iff.mpr ⟨hc, hev⟩
      have hnot : ev.done = false := by
        by_contra hd
        rw [himp (Bool.not_eq_false _ ▸ hd)] at hdone
        cases hdone
      rw [hlater.kernel] at hk
      exact kernel_stays hevolves hallowed hfine (ho.kernels e c ev k hev hnot hk) hev hnot hk
    · obtain ⟨halive, hdrop⟩ := enqueued_kernel hallowed hnew hk
      exact hevolves.kernels k (by rw [hdrop]; nofun) halive

/-- The state after a call that meets the condition is right. -/
theorem Owned.right (ho : Owned (s.step call)) (h : Inv (s.step call)) : Right s call where
  fault := ho.fault
  requested := fun e c ev hev _ => by
    by_cases hdel : ev.deleted = 0
    · have hpos := h.counted e c ev hev hdel
      rw [if_neg (by omega), hdel]
    · obtain ⟨-, hone, hzero⟩ := h.deleted e c ev hev hdel
      rw [if_pos hzero, hone]
  unrequested := fun e c ev hev hnot => by
    rw [ho.requested e c ev hev] at hnot
    cases hnot
  set := fun q e => by
    rw [h.set q e]
    constructor
    · rintro ⟨c, ev, hev, hq, hdone⟩
      refine ⟨c, ev, hev, hq, hdone, ?_⟩
      by_contra hdel
      rw [(h.deleted e c ev hev hdel).1] at hdone
      cases hdone
    · rintro ⟨c, ev, hev, hq, hdone, -⟩
      exact ⟨c, ev, hev, hq, hdone⟩

/-! ## Runs -/

/-- **Lifetimes are right** in every run whose launches ask for their events and whose kernels
stay until these are done. -/
theorem lifetimes (calls : List Call) (hallowed : Along Host.step Allowed .init calls)
    (hfine : Along Host.step Fine .init calls) : Along Host.step Right .init calls := by
  have hboth := hallowed.and hfine
  have hinv := (hboth.invariant (fun s call (hs : Inv s ∧ Owned s) hcall =>
    ⟨(hs.1.step call hcall.1).1, hs.2.step hs.1 hcall.1 hcall.2⟩) ⟨Inv.init, Owned.init⟩).1
  exact (hinv.and hboth).mono fun s call hs =>
    (hs.1.2.step hs.1.1 hs.2.1 hs.2.2).right (hs.1.1.step call hs.2.1).1

/-- A launch whose event is waited for and released before the kernel and the queue are. -/
theorem lifetimes_one : Along Host.step Right .init
    [.createQueue false, .createKernel, .launch 0 0 [] true 1, .retainEvent 0, .task 0, .wait [0],
      .query 0, .releaseEvent 0, .releaseKernel 0, .releaseEvent 0, .releaseQueue 0] := by
  refine lifetimes _
    ⟨rfl, rfl, ⟨rfl, ⟨rfl, by decide⟩, ⟨rfl, by decide⟩, nofun⟩,
      ⟨rfl, _, _, rfl, rfl, by decide⟩, ⟨_, rfl, by decide⟩, ⟨rfl, ?_⟩,
      ⟨rfl, _, _, rfl, rfl, by decide⟩, ⟨rfl, ⟨_, _, rfl, rfl, by decide⟩, ?_⟩,
      ⟨rfl, rfl, by decide⟩, ⟨rfl, ⟨_, _, rfl, rfl, by decide⟩, ?_⟩,
      ⟨rfl, ⟨rfl, by decide⟩, ?_⟩, trivial⟩
    ⟨trivial, trivial, rfl, trivial, trivial, trivial, trivial, trivial, ?_, trivial, trivial,
      trivial⟩
  · intro e he
    obtain rfl := List.mem_singleton.mp he
    refine ⟨⟨_, _, rfl, rfl, by decide⟩, fun c ev hev hdone => ?_⟩
    cases hev
    rfl
  · intro c ev hev hcount
    cases hev
    cases hcount
  · intro c ev hev hcount c' ev' hev' hdone'
    cases hev'
    rfl
  · intro _ e he
    cases he
  · intro _ e c ev hev _
    match e with
    | 0 =>
      cases hev
      rfl
    | e + 1 => cases hev

/-- An application that does not ask for the event of a launch. -/
def unrequested : List Call :=
  [.createQueue false, .createKernel, .launch 0 0 [] false 0, .finish 0]

/-- An application that releases a kernel with a launch pending. -/
def early : List Call :=
  [.createQueue false, .createKernel, .launch 0 0 [] true 1, .releaseKernel 0, .task 0, .wait [0]]

/-- The event that nobody has asked for is never deleted, and the callback of the launch touches
the kernel that has been deleted. -/
theorem unrequested_event_leaks :
    (Along Host.step Allowed .init unrequested ∧ ¬ Along Host.step Right .init unrequested) ∧
      Along Host.step Allowed .init early ∧ ¬ Along Host.step Right .init early := by
  refine ⟨⟨⟨rfl, rfl, ⟨rfl, ⟨rfl, by decide⟩, ⟨rfl, by decide⟩, nofun⟩,
    ⟨rfl, ⟨rfl, by decide⟩, ?_⟩, trivial⟩, fun h => ?_⟩,
    ⟨rfl, rfl, ⟨rfl, ⟨rfl, by decide⟩, ⟨rfl, by decide⟩, nofun⟩, ⟨rfl, rfl, by decide⟩,
      ⟨_, rfl, by decide⟩, ⟨rfl, ?_⟩, trivial⟩, fun h => ?_⟩
  · intro e he c ev hev _
    obtain rfl := List.mem_singleton.mp he
    cases hev
    rfl
  · have hdeleted := h.2.2.2.1.unrequested 0 _ _ rfl rfl
    exact absurd hdeleted (by decide)
  · intro e he
    obtain rfl := List.mem_singleton.mp he
    refine ⟨⟨_, _, rfl, rfl, by decide⟩, fun c ev hev _ => ?_⟩
    cases hev
    rfl
  · exact absurd h.2.2.2.2.2.1.fault (by decide)

end UnifiedRuntime.NativeCpu.Queue.Lifetimes
