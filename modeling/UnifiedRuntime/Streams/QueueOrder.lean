import UnifiedRuntime.Streams.Queue

/-!
# What the stream bookkeeping keeps

`Inv w must submitted` ties the flags and counters of every queue to the log of
stream operations. `must q` are the launches that everything put on queue `q`
next has to wait for (the coverage of its barriers), `submitted q` all launches
of the queue; both are ghosts of the runs.

* every launch of a queue is known to be over or in the past of the stream of a
  recent token (`submitted`);
* everything a barrier covered is known to be over or stands behind the barrier
  event (`must`), and a stream whose flag is set has waited for that event
  (`Queue.Ok.applied`);
* an event stands for a part of its stream's past, and of two events of one
  stream the later one stands for more (`order`).

The sections follow the source: choosing a stream, waiting for events, recording
one, barriers, finish. Each shows that the invariant is kept and what the caller
gains.
-/

namespace UnifiedRuntime.Streams

open Function (update update_of_ne update_self)

abbrev Ops := List (StreamOp Nat Nat Nat)

/-- The counters and flags of one queue. -/
structure Queue.Ok (ops : Ops) (x : Queue) : Prop where
  size_pos : 0 < (x.pool .compute).size
  size_lt : ∀ k, (x.pool k).size < uint32Values
  counts : ∀ k, (x.pool k).Counts (x.since k)
  settled : ∀ k, (x.pool k).Settled
  created_le : ∀ k, (x.pool k).created ≤ (x.pool k).size
  applied : ∀ k i, x.applied k i = true → i < (x.pool k).created ∧
    ∃ b, x.barrierEvent = some b ∧ ∀ c ∈ mark ops b, c ∈ past ops (x.streams k i)

/-- `stream` is that of a recent token of the queue. -/
def Queue.Home (x : Queue) (stream : Nat) : Prop :=
  ∃ k token, (x.pool k).InWindow (x.since k) token ∧
    (x.pool k).slot token < (x.pool k).created ∧ x.streams k ((x.pool k).slot token) = stream

namespace World

/-- Native events are not shared: those of barriers belong to one queue each and
to no event. -/
structure Natives (w : World) : Prop where
  events : ∀ e ∈ w.events, e.native < w.nextEvent
  barrier : ∀ q b, (w.queues q).barrierEvent = some b →
    b < w.nextEvent ∧ ∀ e ∈ w.events, e.native ≠ b
  tmp : ∀ q t, (w.queues q).barrierTmpEvent = some t →
    t < w.nextEvent ∧ ∀ e ∈ w.events, e.native ≠ t
  apart : ∀ q q' b t, (w.queues q).barrierEvent = some b →
    (w.queues q').barrierTmpEvent = some t → b ≠ t
  own : ∀ q q' b, q ≠ q' → (w.queues q).barrierEvent = some b →
    (w.queues q').barrierEvent ≠ some b

/-- A token that stands for a compute stream: the event is on that stream, and
over unless the token is recent. -/
def OnSlot (w : World) (q : Nat) (e : Event) : Prop :=
  ((w.queues q).pool .compute).slot e.token < ((w.queues q).pool .compute).created ∧
    e.stream = (w.queues q).streams .compute (((w.queues q).pool .compute).slot e.token) ∧
    ((∀ x ∈ mark w.ops e.native, x ∈ known w.ops) ∨
      ((w.queues q).pool .compute).InWindow ((w.queues q).since .compute) e.token)

/-- What is true of an event of queue `q`. -/
structure Owned (w : World) (q : Nat) (e : Event) : Prop where
  queue : e.queue = some q
  id_pos : 0 < e.id
  id_le : e.id ≤ (w.queues q).eventCount
  past : ∀ x ∈ mark w.ops e.native, x ∈ past w.ops e.stream
  slot : e.token ≠ noToken → w.OnSlot q e

/-- What is true of every event. -/
def EventOk (w : World) (e : Event) : Prop :=
  if e.isInterop then e.queue = none ∧ e.id = 0 else ∃ q, w.Owned q e

structure Inv (w : World) (must submitted : Nat → List Nat) : Prop where
  queues : ∀ q, (w.queues q).Ok w.ops
  natives : w.Natives
  events : ∀ e ∈ w.events, w.EventOk e
  order : ∀ e ∈ w.events, ∀ f ∈ w.events, e.isInterop = false → f.isInterop = false →
    e.stream = f.stream → e.native ≤ f.native →
    ∀ x ∈ mark w.ops e.native, x ∈ mark w.ops f.native
  ids : ∀ e ∈ w.events, ∀ f ∈ w.events, e.isInterop = false → f.isInterop = false →
    e.queue = f.queue → (e.id < f.id ↔ e.native < f.native)
  must : ∀ q, ∀ x ∈ must q, x ∈ known w.ops ∨
    ∃ b, (w.queues q).barrierEvent = some b ∧ x ∈ mark w.ops b
  submitted : ∀ q, ∀ x ∈ submitted q, x ∈ known w.ops ∨
    ∃ stream, (w.queues q).Home stream ∧ x ∈ past w.ops stream
  thread : w.threadStream = 0

/-- No event of the invariant stands on this native event. -/
def Untracked (w : World) (n : Nat) : Prop :=
  (∀ e ∈ w.events, e.native ≠ n) ∧ ∀ q, (w.queues q).barrierEvent ≠ some n

variable {w w' : World} {must submitted : Nat → List Nat} {q : Nat}

/-- An event stays right where what is true of a queue's events is kept. -/
theorem EventOk.imp {e : Event} (h : w.EventOk e) (howned : ∀ q, w.Owned q e → w'.Owned q e) :
    w'.EventOk e := by
  unfold EventOk at h ⊢
  split
  next hi => rwa [if_pos hi] at h
  next hi =>
    rw [if_neg hi] at h
    exact h.imp howned

/-- What is true of a queue's event depends on these fields and on the log only. -/
theorem Owned.congr {e : Event} (ho : w.Owned q e) (hops : w'.ops = w.ops)
    (hcount : (w'.queues q).eventCount = (w.queues q).eventCount)
    (hpool : (w'.queues q).pool = (w.queues q).pool)
    (hsince : (w'.queues q).since = (w.queues q).since)
    (hstreams : (w'.queues q).streams = (w.queues q).streams) : w'.Owned q e := by
  refine ⟨ho.queue, ho.id_pos, hcount ▸ ho.id_le, hops ▸ ho.past, fun ht => ?_⟩
  unfold OnSlot
  rw [hpool, hsince, hstreams, hops]
  exact ho.slot ht

/-! ## Operations of the driver -/

/-- The log grows and no tracked event is recorded again. -/
structure Extends (w : World) (ops : Ops) : Prop where
  past : ∀ s, ∀ x ∈ past w.ops s, x ∈ UnifiedRuntime.past ops s
  known : ∀ x ∈ known w.ops, x ∈ UnifiedRuntime.known ops
  events : ∀ e ∈ w.events, mark ops e.native = mark w.ops e.native
  barriers : ∀ q b, (w.queues q).barrierEvent = some b → mark ops b = mark w.ops b

theorem Queue.Ok.extends {x : Queue} {ops ops' : Ops} (h : x.Ok ops)
    (hpast : ∀ s, ∀ c ∈ past ops s, c ∈ past ops' s)
    (hmark : ∀ b, x.barrierEvent = some b → mark ops' b = mark ops b) : x.Ok ops' := by
  refine ⟨h.size_pos, h.size_lt, h.counts, h.settled, h.created_le, fun k i hi => ?_⟩
  obtain ⟨hlt, b, hb, hsub⟩ := h.applied k i hi
  refine ⟨hlt, b, hb, fun c hc => hpast _ c (hsub c ?_)⟩
  rwa [hmark b hb] at hc

theorem Inv.extends (h : w.Inv must submitted) {ops : Ops} (hx : w.Extends ops) :
    Inv { w with ops := ops } must submitted := by
  refine ⟨fun q => Queue.Ok.extends (h.queues q) hx.past (hx.barriers q), ⟨h.natives.events,
    h.natives.barrier, h.natives.tmp, h.natives.apart, h.natives.own⟩, fun e he => ?_,
    fun e he f hf hei hfi hs hle x hxe => ?_, h.ids, fun q x hxm => ?_, fun q x hxs => ?_, h.thread⟩
  · have hmark := hx.events e he
    refine (h.events e he).imp fun q ho =>
      ⟨ho.queue, ho.id_pos, ho.id_le, fun x hxm => ?_, fun ht => ?_⟩
    · rw [hmark] at hxm
      exact hx.past _ x (ho.past x hxm)
    · obtain ⟨hlt, hst, hdone⟩ := ho.slot ht
      refine ⟨hlt, hst, hdone.imp (fun hk x hxm => ?_) id⟩
      rw [hmark] at hxm
      exact hx.known x (hk x hxm)
  · rw [hx.events e he] at hxe
    rw [hx.events f hf]
    exact h.order e he f hf hei hfi hs hle x hxe
  · rcases h.must q x hxm with hk | ⟨b, hb, hm⟩
    · exact .inl (hx.known x hk)
    · exact .inr ⟨b, hb, by rw [hx.barriers q b hb]; exact hm⟩
  · rcases h.submitted q x hxs with hk | ⟨s, hs, hp⟩
    · exact .inl (hx.known x hk)
    · exact .inr ⟨s, hs, hx.past s x hp⟩

/-- An operation that records no tracked event. -/
theorem extends_emit {op : StreamOp Nat Nat Nat} (hop : ∀ n s, op = .record n s → w.Untracked n) :
    w.Extends (op :: w.ops) := by
  refine ⟨fun s x hx => past_mono hx, fun x hx => known_mono hx, fun e he => ?_, fun q b hb => ?_⟩
  · exact mark_of_ne fun s hs => (hop _ s hs).1 e he rfl
  · exact mark_of_ne fun s hs => (hop _ s hs).2 q hb

theorem Inv.emit (h : w.Inv must submitted) {op : StreamOp Nat Nat Nat}
    (hop : ∀ n s, op = .record n s → w.Untracked n) : (w.emit op).Inv must submitted :=
  h.extends (extends_emit hop)

/-! ## Changing one queue -/

@[simp] theorem setQueue_same (w : World) (q : Nat) (x : Queue) : (w.setQueue q x).queues q = x := by
  show update w.queues q x q = x
  rw [update_self]

theorem setQueue_other (w : World) {q q' : Nat} (x : Queue) (h : q' ≠ q) :
    (w.setQueue q x).queues q' = w.queues q' := by
  show update w.queues q x q' = w.queues q'
  rw [update_of_ne h]

/-- A field that the new queue has from the old one is every queue's as before. -/
theorem setQueue_field {α : Type} (f : Queue → α) {x : Queue} (hx : f x = f (w.queues q))
    (q' : Nat) : f ((w.setQueue q x).queues q') = f (w.queues q') := by
  by_cases hq : q' = q
  · rw [hq, setQueue_same, hx]
  · rw [setQueue_other w x hq]

/-- How the counters of a queue move while streams are chosen: windows grow and
created streams stay. -/
structure Moves (x y : Queue) : Prop where
  barrier : y.barrierEvent = x.barrierEvent
  slot : ∀ k t, (y.pool k).slot t = (x.pool k).slot t
  created : ∀ k, (x.pool k).created ≤ (y.pool k).created
  window : ∀ k t, (x.pool k).InWindow (x.since k) t → (y.pool k).InWindow (y.since k) t
  streams : ∀ k i, i < (x.pool k).created → y.streams k i = x.streams k i
  count : x.eventCount ≤ y.eventCount

theorem Moves.home {x y : Queue} (h : Moves x y) {s : Nat} (hs : x.Home s) : y.Home s := by
  obtain ⟨k, t, hw, hlt, hst⟩ := hs
  refine ⟨k, t, h.window k t hw, ?_, ?_⟩
  · rw [h.slot]
    exact Nat.lt_of_lt_of_le hlt (h.created k)
  · rw [h.slot, h.streams k _ hlt, hst]

theorem Natives.setQueue (h : w.Natives) {x : Queue} (hb : x.barrierEvent = (w.queues q).barrierEvent)
    (ht : x.barrierTmpEvent = (w.queues q).barrierTmpEvent) : (w.setQueue q x).Natives := by
  have hbar := setQueue_field Queue.barrierEvent hb
  have htmp := setQueue_field Queue.barrierTmpEvent ht
  refine ⟨h.events, fun q' b hb' => ?_, fun q' t ht' => ?_, fun q₁ q₂ b t hb' ht' => ?_,
    fun q₁ q₂ b hne hb' => ?_⟩
  · rw [hbar] at hb'
    exact h.barrier q' b hb'
  · rw [htmp] at ht'
    exact h.tmp q' t ht'
  · rw [hbar] at hb'
    rw [htmp] at ht'
    exact h.apart q₁ q₂ b t hb' ht'
  · rw [hbar] at hb' ⊢
    exact h.own q₁ q₂ b hne hb'

/-- Moving one queue keeps the invariant. -/
theorem Inv.moveNatives (h : w.Inv must submitted) {x : Queue} (hok : x.Ok w.ops)
    (hm : Moves (w.queues q) x) (hn : (w.setQueue q x).Natives) :
    (w.setQueue q x).Inv must submitted := by
  refine ⟨fun q' => ?_, hn, fun e he => ?_, h.order, h.ids,
    fun q' c hc => ?_, fun q' c hc => ?_, h.thread⟩
  · by_cases hq : q' = q
    · rw [hq, setQueue_same]
      exact hok
    · rw [setQueue_other w x hq]
      exact h.queues q'
  · refine (h.events e he).imp fun q' ho =>
      ⟨ho.queue, ho.id_pos, ?_, ho.past, fun ht => ?_⟩
    · by_cases hq : q' = q
      · rw [hq, setQueue_same]
        rw [hq] at ho
        exact Nat.le_trans ho.id_le hm.count
      · rw [setQueue_other w x hq]
        exact ho.id_le
    · obtain ⟨hlt, hst, hdone⟩ := ho.slot ht
      unfold OnSlot
      by_cases hq : q' = q
      · subst hq
        rw [setQueue_same, hm.slot, hm.streams _ _ hlt]
        exact ⟨Nat.lt_of_lt_of_le hlt (hm.created _), hst, hdone.imp id (hm.window _ _)⟩
      · rw [setQueue_other w x hq]
        exact ⟨hlt, hst, hdone⟩
  · rcases h.must q' c hc with hk | ⟨b, hb, hmark⟩
    · exact .inl hk
    · exact .inr ⟨b, (setQueue_field Queue.barrierEvent hm.barrier q').trans hb, hmark⟩
  · rcases h.submitted q' c hc with hk | ⟨s, hs, hp⟩
    · exact .inl hk
    · refine .inr ⟨s, ?_, hp⟩
      by_cases hq : q' = q
      · rw [hq] at hs ⊢
        rw [setQueue_same]
        exact hm.home hs
      · rw [setQueue_other w x hq]
        exact hs

theorem Inv.move (h : w.Inv must submitted) {x : Queue} (hok : x.Ok w.ops)
    (hm : Moves (w.queues q) x)
    (htmp : x.barrierTmpEvent = (w.queues q).barrierTmpEvent) :
    (w.setQueue q x).Inv must submitted :=
  h.moveNatives hok hm (h.natives.setQueue hm.barrier htmp)

end World

/-! ## Drawing a token -/

namespace Queue

variable {x : Queue} {k k' : Kind} {ops : Ops}

@[simp] theorem setPool_same (p : Pool) : (x.setPool k p).pool k = p := by
  show update x.pool k p k = p
  rw [update_self]

theorem setPool_other (p : Pool) (h : k' ≠ k) : (x.setPool k p).pool k' = x.pool k' := by
  show update x.pool k p k' = x.pool k'
  rw [update_of_ne h]

/-- The creation block and the draw together. -/
def advance (x : Queue) (k : Kind) (handle : Nat) : Queue :=
  if (x.pool k).created < (x.pool k).size then (x.createStream k handle).drawToken k
  else x.drawToken k

theorem advance_pool_same (x : Queue) (k : Kind) (handle : Nat) :
    (x.advance k handle).pool k = (x.pool k).create.draw := by
  unfold advance
  split
  next =>
    simp [drawToken, createStream]
  next h =>
    simp [drawToken, Pool.create, if_neg h]

theorem advance_pool_other (x : Queue) {k k' : Kind} (handle : Nat) (h : k' ≠ k) :
    (x.advance k handle).pool k' = x.pool k' := by
  unfold advance
  split <;> simp only [drawToken, createStream, setPool_other _ h]

theorem advance_since_same (x : Queue) (k : Kind) (handle : Nat) :
    (x.advance k handle).since k = x.since k + 1 := by
  unfold advance
  split <;> simp only [drawToken, createStream, setPool, update_self]

theorem advance_since_other (x : Queue) {k k' : Kind} (handle : Nat) (h : k' ≠ k) :
    (x.advance k handle).since k' = x.since k' := by
  unfold advance
  split <;> simp only [drawToken, createStream, setPool, update_of_ne h]

theorem advance_since_le (x : Queue) (k k' : Kind) (handle : Nat) :
    x.since k' ≤ (x.advance k handle).since k' := by
  by_cases h : k' = k
  · rw [h, advance_since_same]
    omega
  · rw [advance_since_other x handle h]

/-- Only the slot of the created stream gets another handle. -/
theorem advance_streams (x : Queue) (k : Kind) (handle : Nat) {i : Nat}
    (hi : i < (x.pool k').created) : (x.advance k handle).streams k' i = x.streams k' i := by
  unfold advance
  split
  next =>
    simp only [drawToken, createStream, setPool]
    by_cases hk : k' = k
    · subst hk
      rw [update_self, update_of_ne (by omega)]
    · rw [update_of_ne hk]
  next => rfl

theorem advance_rest (x : Queue) (k : Kind) (handle : Nat) :
    (x.advance k handle).barrierEvent = x.barrierEvent ∧
      (x.advance k handle).barrierTmpEvent = x.barrierTmpEvent ∧
      (x.advance k handle).eventCount = x.eventCount ∧
      (x.advance k handle).applied = x.applied := by
  unfold advance
  split <;> exact ⟨rfl, rfl, rfl, rfl⟩

theorem advance_moves (x : Queue) (k : Kind) (handle : Nat) : World.Moves x (x.advance k handle) := by
  obtain ⟨hb, -, hc, -⟩ := x.advance_rest k handle
  refine ⟨hb, fun k' t => ?_, fun k' => ?_, fun k' t hw => ?_,
    fun k' i hi => x.advance_streams k handle hi, Nat.le_of_eq hc.symm⟩
  · by_cases hk : k' = k
    · rw [hk, advance_pool_same]
      simp [Pool.slot]
    · rw [advance_pool_other x handle hk]
  · by_cases hk : k' = k
    · rw [hk, advance_pool_same, Pool.draw_created, Pool.create_created]
      split <;> omega
    · rw [advance_pool_other x handle hk]
  · by_cases hk : k' = k
    · subst hk
      rw [advance_since_same]
      unfold Pool.InWindow
      rw [advance_pool_same, Pool.draw_lastSync, Pool.create_lastSync]
      exact Drawn.mono hw (by omega)
    · rw [advance_pool_other x handle hk, advance_since_other x handle hk]
      exact hw

/-- While streams are missing, one is created for every token. -/
theorem settled_draw {p : Pool} (h : p.Settled) (hlt : p.size < uint32Values)
    (hle : p.created ≤ p.size) : p.create.draw.Settled ∧ p.create.draw.created ≤ p.size ∧
      (0 < p.size → p.slot p.index < p.create.draw.created) := by
  unfold Pool.Settled Pool.slot
  rw [Pool.draw_created, Pool.draw_size, Pool.draw_index, Pool.create_created, Pool.create_size,
    Pool.create_index]
  by_cases hc : p.created < p.size
  · have hidx := h hc
    rw [if_pos hc, hidx]
    refine ⟨fun hlt' => ?_, by omega, fun _ => ?_⟩
    · rw [Nat.mod_eq_of_lt (by omega)]
    · rw [Nat.mod_eq_of_lt (by omega)]
      omega
  · rw [if_neg hc]
    refine ⟨fun hlt' => absurd hlt' hc, hle, fun hpos => ?_⟩
    have := Nat.mod_lt p.index hpos
    omega

theorem Ok.advance (h : x.Ok ops) (k : Kind) (handle : Nat) : (x.advance k handle).Ok ops := by
  obtain ⟨hb, -, -, happ⟩ := x.advance_rest k handle
  have hdraw := fun j => settled_draw (h.settled j) (h.size_lt j) (h.created_le j)
  refine ⟨?_, fun j => ?_, fun j => ?_, fun j => ?_, fun j => ?_, fun j i hi => ?_⟩
  · by_cases hk : Kind.compute = k
    · rw [← hk, advance_pool_same, Pool.draw_size, Pool.create_size]
      exact h.size_pos
    · rw [advance_pool_other x handle hk]
      exact h.size_pos
  · by_cases hk : j = k
    · rw [hk, advance_pool_same, Pool.draw_size, Pool.create_size]
      exact h.size_lt k
    · rw [advance_pool_other x handle hk]
      exact h.size_lt j
  · by_cases hk : j = k
    · subst hk
      rw [advance_pool_same, advance_since_same]
      refine Pool.Counts.draw ⟨?_, ?_⟩
      · rw [Pool.create_lastSync]
        exact (h.counts j).lastSync_lt
      · rw [Pool.create_index, Pool.create_lastSync]
        exact (h.counts j).index_eq
    · rw [advance_pool_other x handle hk, advance_since_other x handle hk]
      exact h.counts j
  · by_cases hk : j = k
    · rw [hk, advance_pool_same]
      exact (hdraw k).1
    · rw [advance_pool_other x handle hk]
      exact h.settled j
  · by_cases hk : j = k
    · rw [hk, advance_pool_same]
      have := (hdraw k).2.1
      rwa [Pool.draw_size, Pool.create_size]
    · rw [advance_pool_other x handle hk]
      exact h.created_le j
  · rw [happ] at hi
    obtain ⟨hlt, b, hbe, hsub⟩ := h.applied j i hi
    refine ⟨Nat.lt_of_lt_of_le hlt ((x.advance_moves k handle).created j), b, hb ▸ hbe, ?_⟩
    rw [x.advance_streams k handle hlt]
    exact hsub

/-- The token just drawn is recent and its stream exists. -/
theorem Ok.advance_token (h : x.Ok ops) {k : Kind} (handle : Nat) (hpos : 0 < (x.pool k).size) :
    ((x.advance k handle).pool k).InWindow ((x.advance k handle).since k) (x.pool k).index ∧
      ((x.advance k handle).pool k).slot (x.pool k).index < ((x.advance k handle).pool k).created := by
  rw [advance_pool_same, advance_since_same]
  have hcreate : (x.pool k).create.Counts (x.since k) := by
    refine ⟨?_, ?_⟩
    · rw [Pool.create_lastSync]
      exact (h.counts k).lastSync_lt
    · rw [Pool.create_index, Pool.create_lastSync]
      exact (h.counts k).index_eq
  refine ⟨?_, ?_⟩
  · have := hcreate.index_inWindow
    rw [Pool.create_index] at this
    exact this
  · have := (settled_draw (h.settled k) (h.size_lt k) (h.created_le k)).2.2 hpos
    unfold Pool.slot at this ⊢
    rwa [Pool.draw_size, Pool.create_size]

end Queue

/-! ## Choosing a stream -/

namespace World

variable {w w' w'' : World} {must submitted : Nat → List Nat} {q : Nat} {k : Kind}

/-- What a call leaves alone while it chooses a stream; at most `n` compute and
`m` transfer tokens are drawn. -/
structure Kept (q n m : Nat) (w w' : World) : Prop where
  events : w'.events = w.events
  nextEvent : w'.nextEvent = w.nextEvent
  other : ∀ q', q' ≠ q → w'.queues q' = w.queues q'
  moves : Moves (w.queues q) (w'.queues q)
  lastSync : ∀ k, ((w'.queues q).pool k).lastSync = ((w.queues q).pool k).lastSync
  size : ∀ k, ((w'.queues q).pool k).size = ((w.queues q).pool k).size
  grows : ∀ k, (w.queues q).since k ≤ (w'.queues q).since k
  compute : (w'.queues q).since .compute ≤ (w.queues q).since .compute + n
  transfer : (w'.queues q).since .transfer ≤ (w.queues q).since .transfer + m
  ops : w.ops <:+ w'.ops
  marks : ∀ n, mark w'.ops n = mark w.ops n

theorem Moves.refl (x : Queue) : Moves x x :=
  ⟨rfl, fun _ _ => rfl, fun _ => Nat.le_refl _, fun _ _ h => h, fun _ _ _ => rfl, Nat.le_refl _⟩

theorem Moves.trans {x y z : Queue} (h : Moves x y) (h' : Moves y z) : Moves x z := by
  refine ⟨h'.barrier.trans h.barrier, fun k t => ?_, fun k => ?_,
    fun k t hw => h'.window k t (h.window k t hw), fun k i hi => ?_, Nat.le_trans h.count h'.count⟩
  · rw [h'.slot, h.slot]
  · exact Nat.le_trans (h.created k) (h'.created k)
  · rw [h'.streams k i (Nat.lt_of_lt_of_le hi (h.created k)), h.streams k i hi]

theorem Kept.refl (q : Nat) (w : World) : Kept q 0 0 w w :=
  ⟨rfl, rfl, fun _ _ => rfl, Moves.refl _, fun _ => rfl, fun _ => rfl, fun _ => Nat.le_refl _,
    Nat.le_refl _, Nat.le_refl _, List.suffix_rfl, fun _ => rfl⟩

theorem Kept.trans {n m n' m' : Nat} (h : Kept q n m w w') (h' : Kept q n' m' w' w'') :
    Kept q (n + n') (m + m') w w'' := by
  refine ⟨h'.events.trans h.events, h'.nextEvent.trans h.nextEvent, fun q' hq => ?_,
    h.moves.trans h'.moves, fun k => ?_, fun k => ?_, fun k => ?_, ?_, ?_, h.ops.trans h'.ops,
    fun n => (h'.marks n).trans (h.marks n)⟩
  · rw [h'.other q' hq, h.other q' hq]
  · rw [h'.lastSync, h.lastSync]
  · rw [h'.size, h.size]
  · exact Nat.le_trans (h.grows k) (h'.grows k)
  · have := h.compute
    have := h'.compute
    omega
  · have := h.transfer
    have := h'.transfer
    omega

theorem Kept.mono {n m n' m' : Nat} (h : Kept q n m w w') (hn : n ≤ n') (hm : m ≤ m') :
    Kept q n' m' w w' :=
  ⟨h.events, h.nextEvent, h.other, h.moves, h.lastSync, h.size, h.grows,
    Nat.le_trans h.compute (by omega), Nat.le_trans h.transfer (by omega), h.ops, h.marks⟩

/-- The two sections of the source as one change of the queue. -/
theorem createStream_drawToken (k : Kind) (w : World) (q : Nat) :
    (w.createStream k q).drawToken k q =
      { w.setQueue q ((w.queues q).advance k w.nextStream) with
        nextStream := (w.createStream k q).nextStream } := by
  unfold createStream Queue.advance
  split
  next => simp [drawToken, setQueue]
  next => rfl

theorem createStream_index (k : Kind) (w : World) (q : Nat) :
    (((w.createStream k q).queues q).pool k).index = ((w.queues q).pool k).index ∧
      ∀ t, (((w.createStream k q).queues q).pool k).slot t = ((w.queues q).pool k).slot t := by
  unfold createStream
  split
  next =>
    simp [Queue.createStream, Pool.slot]
  next => exact ⟨rfl, fun _ => rfl⟩

/-- `EventOk` speaks about the queues and the log only. -/
theorem EventOk.congr {e : Event} (hq : w'.queues = w.queues) (ho : w'.ops = w.ops)
    (h : w.EventOk e) : w'.EventOk e := by
  exact h.imp fun q howned => howned.congr ho (by rw [hq]) (by rw [hq]) (by rw [hq]) (by rw [hq])

theorem Inv.nextStream (h : w.Inv must submitted) (n : Nat) :
    Inv { w with nextStream := n } must submitted :=
  ⟨h.queues, ⟨h.natives.events, h.natives.barrier, h.natives.tmp, h.natives.apart, h.natives.own⟩,
    fun e he => EventOk.congr (w := w) rfl rfl (h.events e he), h.order, h.ids, h.must,
    h.submitted, h.thread⟩

/-- Drawing a token of vector `k` in world `w`. -/
theorem Inv.advance (h : w.Inv must submitted) (k : Kind) (q : Nat) :
    ((w.createStream k q).drawToken k q).Inv must submitted := by
  rw [createStream_drawToken]
  exact (h.move ((h.queues q).advance k w.nextStream)
    (Queue.advance_moves _ k w.nextStream) (Queue.advance_rest _ k w.nextStream).2.1).nextStream _

/-- A draw gives up at most one token of its vector, and none of the other one. -/
theorem kept_advance (w : World) (k : Kind) (q : Nat) :
    Kept q (if k = .compute then 1 else 0) (if k = .transfer then 1 else 0) w
      ((w.createStream k q).drawToken k q) := by
  have hsince : ∀ k', ((w.queues q).advance k w.nextStream).since k' ≤
      (w.queues q).since k' + if k = k' then 1 else 0 := by
    intro k'
    by_cases hk : k' = k
    · rw [hk, Queue.advance_since_same, if_pos rfl]
    · rw [Queue.advance_since_other _ _ hk]
      exact Nat.le_add_right _ _
  rw [createStream_drawToken]
  refine ⟨rfl, rfl, fun q' hq => setQueue_other w _ hq, ?_, fun k' => ?_, fun k' => ?_,
    fun k' => ?_, ?_, ?_, List.suffix_rfl, fun _ => rfl⟩ <;> dsimp only <;> rw [setQueue_same]
  · exact Queue.advance_moves _ _ _
  · by_cases hk : k' = k
    · rw [hk, Queue.advance_pool_same, Pool.draw_lastSync, Pool.create_lastSync]
    · rw [Queue.advance_pool_other _ _ hk]
  · by_cases hk : k' = k
    · rw [hk, Queue.advance_pool_same, Pool.draw_size, Pool.create_size]
    · rw [Queue.advance_pool_other _ _ hk]
  · exact Queue.advance_since_le _ _ _ _
  · exact hsince .compute
  · exact hsince .transfer

/-- The token drawn is recent and its stream exists. -/
theorem Inv.advance_token (h : w.Inv must submitted) {k : Kind}
    (hpos : 0 < ((w.queues q).pool k).size) :
    let y := ((w.createStream k q).drawToken k q).queues q
    let token := (((w.createStream k q).queues q).pool k).index
    (y.pool k).InWindow (y.since k) token ∧ (y.pool k).slot token < (y.pool k).created := by
  intro y token
  have hy : y = (w.queues q).advance k w.nextStream := by
    show ((w.createStream k q).drawToken k q).queues q = _
    rw [createStream_drawToken]
    rw [setQueue_same]
  have htok : token = ((w.queues q).pool k).index := (createStream_index k w q).1
  rw [hy, htok]
  exact (h.queues q).advance_token w.nextStream hpos

/-- The delay flags matter to nobody but the round robin. -/
theorem Queue.Ok.sameCounters {x : Queue} {ops : Ops} (h : x.Ok ops) {p : Pool}
    (hsize : p.size = (x.pool k).size) (hcreated : p.created = (x.pool k).created)
    (hindex : p.index = (x.pool k).index) (hsync : p.lastSync = (x.pool k).lastSync) :
    (x.setPool k p).Ok ops ∧ Moves x (x.setPool k p) := by
  have hfields : ∀ j, ((x.setPool k p).pool j).size = (x.pool j).size ∧
      ((x.setPool k p).pool j).created = (x.pool j).created ∧
      ((x.setPool k p).pool j).index = (x.pool j).index ∧
      ((x.setPool k p).pool j).lastSync = (x.pool j).lastSync := by
    intro j
    by_cases hj : j = k
    · subst hj
      rw [Queue.setPool_same]
      exact ⟨hsize, hcreated, hindex, hsync⟩
    · rw [Queue.setPool_other _ hj]
      exact ⟨rfl, rfl, rfl, rfl⟩
  refine ⟨⟨(hfields _).1 ▸ h.size_pos, fun j => (hfields j).1 ▸ h.size_lt j, fun j => ⟨?_, ?_⟩,
    fun j => ?_, fun j => ?_, fun j i hi => ?_⟩, rfl, fun j t => ?_, fun j => ?_,
    fun j t hw => ?_, fun j i _ => rfl, Nat.le_refl _⟩
  · rw [(hfields j).2.2.2]
    exact (h.counts j).lastSync_lt
  · rw [(hfields j).2.2.1, (hfields j).2.2.2]
    exact (h.counts j).index_eq
  · unfold Pool.Settled
    rw [(hfields j).1, (hfields j).2.1, (hfields j).2.2.1]
    exact h.settled j
  · rw [(hfields j).1, (hfields j).2.1]
    exact h.created_le j
  · rw [(hfields j).2.1]
    exact h.applied j i hi
  · unfold Pool.slot
    rw [(hfields j).1]
  · rw [(hfields j).2.1]
  · unfold Pool.InWindow
    rw [(hfields j).2.2.2]
    exact hw

theorem Inv.sameCounters (h : w.Inv must submitted) {p : Pool}
    (hsize : p.size = ((w.queues q).pool k).size)
    (hcreated : p.created = ((w.queues q).pool k).created)
    (hindex : p.index = ((w.queues q).pool k).index)
    (hsync : p.lastSync = ((w.queues q).pool k).lastSync) :
    (w.setQueue q ((w.queues q).setPool k p)).Inv must submitted :=
  h.move (Queue.Ok.sameCounters (h.queues q) hsize hcreated hindex hsync).1
    (Queue.Ok.sameCounters (h.queues q) hsize hcreated hindex hsync).2 rfl

theorem Inv.setDelay (h : w.Inv must submitted) (q slot : Nat) (b : Bool) :
    (w.setDelay q slot b).Inv must submitted :=
  h.sameCounters rfl rfl rfl rfl

theorem kept_setDelay (w : World) (q slot : Nat) (b : Bool) : Kept q 0 0 w (w.setDelay q slot b) := by
  unfold World.setDelay
  refine ⟨rfl, rfl, fun q' hq => setQueue_other w _ hq, ?_, fun k => ?_, fun k => ?_,
    fun k => ?_, ?_, ?_, List.suffix_rfl, fun _ => rfl⟩ <;> rw [setQueue_same]
  · refine ⟨rfl, fun k t => ?_, fun k => ?_, fun k t hw => ?_, fun k i _ => rfl,
      Nat.le_refl _⟩ <;> cases k <;> first | exact hw | exact Nat.le_refl _ | rfl
  · cases k <;> rfl
  · cases k <;> rfl
  · exact Nat.le_refl _
  · exact Nat.le_refl _
  · exact Nat.le_refl _

/-- What a caller knows of the stream it was given: it comes after the last
barrier, and it is one the next barrier or finish looks at. -/
structure Ready (w : World) (q stream : Nat) : Prop where
  waited : ∀ b, (w.queues q).barrierEvent = some b →
    ∀ x ∈ mark w.ops b, x ∈ past w.ops stream
  home : (w.queues q).Home stream

theorem Queue.apply_moves (x : Queue) (k : Kind) (slot : Nat) : Moves x (x.apply k slot) :=
  ⟨rfl, fun _ _ => rfl, fun _ => Nat.le_refl _, fun _ _ h => h, fun _ _ _ => rfl, Nat.le_refl _⟩

/-- `streamWaitForBarrierIfNeeded` on the stream of a recent token. -/
theorem Inv.barrierWait (h : w.Inv must submitted) {stream slot : Nat}
    (hlt : slot < ((w.queues q).pool k).created) (hst : (w.queues q).streams k slot = stream) :
    (w.streamWaitForBarrierIfNeeded k q stream slot).Inv must submitted ∧
      Kept q 0 0 w (w.streamWaitForBarrierIfNeeded k q stream slot) ∧
      ∀ b, ((w.streamWaitForBarrierIfNeeded k q stream slot).queues q).barrierEvent = some b →
        ∀ x ∈ mark (w.streamWaitForBarrierIfNeeded k q stream slot).ops b,
          x ∈ past (w.streamWaitForBarrierIfNeeded k q stream slot).ops stream := by
  unfold streamWaitForBarrierIfNeeded
  split
  next b hb =>
    split
    next happ =>
      refine ⟨h, Kept.refl q w, fun b' hb' x hx => ?_⟩
      obtain ⟨-, b₀, hb₀, hsub⟩ := (h.queues q).applied k slot happ
      rw [hb'] at hb₀
      obtain rfl := Option.some.inj hb₀
      rw [← hst]
      exact hsub x hx
    next =>
      -- the stream waits for the barrier event and its flag is set
      have hwait : (w.emit (.wait stream b)).Inv must submitted := h.emit (by simp)
      have hgain : ∀ x ∈ mark (w.emit (.wait stream b)).ops b,
          x ∈ past (w.emit (.wait stream b)).ops stream := by
        intro x hx
        exact mem_past_wait hx
      have hok := hwait.queues q
      have hok' : ((w.queues q).apply k slot).Ok (w.emit (.wait stream b)).ops := by
        refine ⟨hok.size_pos, hok.size_lt, hok.counts, hok.settled, hok.created_le,
          fun k' i hi => ?_⟩
        by_cases hnew : k' = k ∧ i = slot
        · obtain ⟨rfl, rfl⟩ := hnew
          refine ⟨hlt, b, hb, fun c hc => ?_⟩
          show c ∈ past _ ((w.queues q).streams k' i)
          rw [hst]
          exact hgain c hc
        · refine hok.applied k' i ?_
          have hold : ((w.queues q).apply k slot).applied k' i = (w.queues q).applied k' i := by
            show update (w.queues q).applied k _ k' i = _
            by_cases hk : k' = k
            · rw [hk, update_self, update_of_ne fun hi' => hnew ⟨hk, hi'⟩]
            · rw [update_of_ne hk]
          rw [hold] at hi
          exact hi
      refine ⟨hwait.move hok' (Queue.apply_moves _ k slot) rfl, ⟨rfl, rfl, fun q' hq => ?_, ?_,
        fun k' => ?_, fun k' => ?_, fun k' => ?_, ?_, ?_, List.suffix_cons _ _,
        fun _ => mark_of_ne (by simp)⟩, fun b' hb' => ?_⟩
      · rw [setQueue_other _ _ hq]
        rfl
      · rw [setQueue_same]
        exact Queue.apply_moves _ k slot
      · rw [setQueue_same]
        rfl
      · rw [setQueue_same]
        rfl
      · rw [setQueue_same]
        exact Nat.le_refl _
      · rw [setQueue_same]
        exact Nat.le_refl _
      · rw [setQueue_same]
        exact Nat.le_refl _
      · rw [setQueue_same] at hb'
        have hb'' : (w.queues q).barrierEvent = some b' := hb'
        rw [hb] at hb''
        obtain rfl := Option.some.inj hb''
        exact hgain
  next hb =>
    refine ⟨h, Kept.refl q w, fun b' hb' => ?_⟩
    rw [hb] at hb'
    exact absurd hb' (by simp)

/-- `token` is recent and its stream is `stream`. -/
structure Placed (w : World) (q : Nat) (k : Kind) (token stream : Nat) : Prop where
  recent : ((w.queues q).pool k).InWindow ((w.queues q).since k) token
  exists_slot : ((w.queues q).pool k).slot token < ((w.queues q).pool k).created
  stream : (w.queues q).streams k (((w.queues q).pool k).slot token) = stream

theorem Placed.moves {token stream : Nat} (h : w.Placed q k token stream)
    (hm : Moves (w.queues q) (w'.queues q)) : w'.Placed q k token stream := by
  refine ⟨hm.window k token h.recent, ?_, ?_⟩
  · rw [hm.slot]
    exact Nat.lt_of_lt_of_le h.exists_slot (hm.created k)
  · rw [hm.slot, hm.streams k _ h.exists_slot]
    exact h.stream

/-- The stream of a recent token after `streamWaitForBarrierIfNeeded`. -/
theorem Inv.barrierWait_ready (h : w.Inv must submitted) {token stream : Nat}
    (hp : w.Placed q k token stream)
    (hw' : w.streamWaitForBarrierIfNeeded k q stream (((w.queues q).pool k).slot token) = w') :
    w'.Inv must submitted ∧ Kept q 0 0 w w' ∧ w'.Ready q stream ∧ w'.Placed q k token stream := by
  obtain ⟨h₂, hk₂, hwait⟩ := h.barrierWait hp.exists_slot hp.stream
  rw [hw'] at h₂ hk₂ hwait
  have hp' := hp.moves hk₂.moves
  exact ⟨h₂, hk₂, ⟨hwait, k, token, hp'.recent, hp'.exists_slot, hp'.stream⟩, hp'⟩

/-- How many streams are delayed. -/
def delayed (p : Pool) : Nat := ((Finset.range p.size).filter fun i => p.delay i = true).card

/-- A round that finds its stream delayed clears a flag. -/
theorem delayed_setDelay {p : Pool} {i : Nat} (hi : i < p.size) (hdelay : p.delay i = true) :
    delayed (p.setDelay i false) < delayed p := by
  have hsub : (Finset.range p.size).filter (fun j => (p.setDelay i false).delay j = true) ⊆
      (Finset.range p.size).filter fun j => p.delay j = true := by
    refine Finset.monotone_filter_right _ fun j _ hj => ?_
    by_cases hji : j = i
    · rw [hji]
      exact hdelay
    · simpa [Pool.setDelay, hji] using hj
  refine Finset.card_lt_card ((Finset.ssubset_iff_of_subset hsub).mpr ⟨i, ?_, ?_⟩)
  · exact Finset.mem_filter.mpr ⟨Finset.mem_range.mpr hi, hdelay⟩
  · intro hmem
    simpa [Pool.setDelay] using (Finset.mem_filter.mp hmem).2

theorem delayed_create (p : Pool) : delayed p.create.draw = delayed p := by
  unfold delayed Pool.create
  split <;> rfl

/-- **The loop of `getNextComputeStream` ends**, after one round more than streams are delayed. -/
theorem nextToken_isSome {rounds : Nat} (hpos : 0 < ((w.queues q).pool .compute).size)
    (hrounds : delayed ((w.queues q).pool .compute) < rounds) :
    (nextToken rounds w q).isSome = true := by
  induction rounds generalizing w with
  | zero => exact absurd hrounds (Nat.not_lt_zero _)
  | succ rounds ih =>
    have hpool : (((w.createStream .compute q).drawToken .compute q).queues q).pool .compute =
        ((w.queues q).pool .compute).create.draw := by
      rw [createStream_drawToken]
      exact (congrArg (Queue.pool · .compute) (setQueue_same ..)).trans
        (Queue.advance_pool_same ..)
    have hslot : (((w.createStream .compute q).queues q).pool .compute).slot
        (((w.createStream .compute q).queues q).pool .compute).index <
          ((w.queues q).pool .compute).create.draw.size := by
      rw [(createStream_index .compute w q).2, Pool.draw_size, Pool.create_size]
      exact Nat.mod_lt _ hpos
    rw [World.nextToken, hpool]
    split
    next hdelay =>
      have hlater := delayed_setDelay hslot hdelay
      rw [delayed_create] at hlater
      refine ih ?_ ?_
      · unfold World.setDelay
        rw [setQueue_same, Queue.setPool_same, hpool]
        simpa [Pool.setDelay] using hpos
      · unfold World.setDelay
        rw [setQueue_same, Queue.setPool_same, hpool]
        omega
    next => rfl

/-- What the loop of `getNextComputeStream` returns. -/
theorem Inv.nextToken (h : w.Inv must submitted) {rounds token : Nat}
    (hn : nextToken rounds w q = some (w', token)) :
    w'.Inv must submitted ∧ Kept q rounds 0 w w' ∧ ∃ stream,
      w'.Placed q .compute token stream := by
  induction rounds generalizing w with
  | zero => exact absurd hn (Option.some_ne_none _).symm
  | succ rounds ih =>
    have hadv := h.advance .compute q
    have htok := h.advance_token (h.queues q).size_pos
    have hkept : Kept q 1 0 w _ := kept_advance w .compute q
    simp only [World.nextToken] at hn
    split at hn
    next =>
      -- a delayed stream: once more, one token later
      obtain ⟨h₁, h₂, h₃⟩ := ih (hadv.setDelay q _ false) hn
      refine ⟨h₁, ?_, h₃⟩
      have := (hkept.trans (kept_setDelay _ q _ false)).trans h₂
      exact this.mono (by omega) (by omega)
    next =>
      obtain ⟨rfl, rfl⟩ := Prod.mk.inj (Option.some.inj hn)
      exact ⟨hadv, hkept.mono (by omega) (by omega), _, htok.1, htok.2, rfl⟩

/-- What `getNextComputeStream` returns: a stream behind the last barrier, and
its token. -/
theorem Inv.getNextComputeStream (h : w.Inv must submitted) {stream : Nat} {token : Option Nat}
    (hg : w.getNextComputeStream q = some (w', stream, token)) :
    w'.Inv must submitted ∧ Kept q (((w.queues q).pool .compute).size + 1) 0 w w' ∧
      w'.Ready q stream ∧ ∃ t, token = some t ∧ w'.Placed q .compute t stream := by
  unfold World.getNextComputeStream at hg
  rw [if_neg (by rw [h.thread]; decide)] at hg
  obtain ⟨⟨w₁, t⟩, hnext, heq⟩ := Option.map_eq_some_iff.mp hg
  obtain ⟨hw', hrest⟩ := Prod.mk.inj heq
  obtain ⟨hstream, rfl⟩ := Prod.mk.inj hrest
  obtain ⟨h₁, hk₁, s, hp⟩ := h.nextToken hnext
  obtain rfl : s = stream := hp.stream.symm.trans hstream
  rw [hstream] at hw'
  obtain ⟨h₂, hk₂, hready, hp'⟩ := h₁.barrierWait_ready hp hw'
  exact ⟨h₂, hk₁.trans hk₂, hready, t, rfl, hp'⟩

/-- The rounds that `getNextComputeStream` is given are enough. -/
theorem Inv.getNextComputeStream_isSome (h : w.Inv must submitted) (q : Nat) :
    (w.getNextComputeStream q).isSome = true := by
  unfold World.getNextComputeStream
  rw [if_neg (by rw [h.thread]; decide), Option.isSome_map]
  refine nextToken_isSome (h.queues q).size_pos (Nat.lt_succ_of_le ?_)
  exact (Finset.card_filter_le _ _).trans_eq (Finset.card_range _)

/-- What the overload with a wait list returns. A reused token has to be recent. -/
theorem Inv.getNextComputeStreamFor (h : w.Inv must submitted) {waitList : List Event}
    {stream : Nat} {token : Option Nat} (hlist : ∀ e ∈ waitList, e ∈ w.events)
    (hsafe : ∀ e ∈ waitList, w.reusable q e = true →
      ((w.queues q).pool .compute).InWindow ((w.queues q).since .compute) e.token)
    (hg : w.getNextComputeStreamFor q waitList = some (w', stream, token)) :
    w'.Inv must submitted ∧ Kept q (((w.queues q).pool .compute).size + 1) 0 w w' ∧
      w'.Ready q stream ∧ ∃ t, token = some t ∧ w'.Placed q .compute t stream := by
  unfold World.getNextComputeStreamFor at hg
  rw [if_neg (by rw [h.thread]; decide)] at hg
  split at hg
  next e he =>
    obtain ⟨hw', hrest⟩ := Prod.mk.inj (Option.some.inj hg)
    obtain ⟨rfl, rfl⟩ := Prod.mk.inj hrest
    have hre := List.find?_some he
    have hmem := List.mem_of_find?_eq_some he
    -- the event is one of this queue, on the stream of its token
    have hq : e.queue = some q ∧ ((w.queues q).pool .compute).canReuseStream e.token = true := by
      simpa only [reusable, Bool.and_eq_true, decide_eq_true_eq] using hre
    have htok : e.token ≠ noToken := by
      intro hno
      have := hq.2
      rw [Pool.canReuseStream, if_pos hno] at this
      exact absurd this (by simp)
    have hslot : w.OnSlot q e := by
      have hok := h.events e (hlist e hmem)
      unfold EventOk at hok
      split at hok
      next =>
        rw [hq.1] at hok
        exact absurd hok.1 (by simp)
      next =>
        obtain ⟨q', ho⟩ := hok
        obtain rfl : q = q' := Option.some.inj (hq.1.symm.trans ho.queue)
        exact ho.slot htok
    have hp : w.Placed q .compute e.token e.stream :=
      ⟨hsafe e hmem hre, hslot.1, hslot.2.1.symm⟩
    have hkd := kept_setDelay w q (((w.queues q).pool .compute).slot e.token) true
    have hslot_eq := hkd.moves.slot .compute e.token
    obtain ⟨h₂, hk₂, hready, hp'⟩ :=
      (h.setDelay q (((w.queues q).pool .compute).slot e.token) true).barrierWait_ready
        (hp.moves hkd.moves) ((congrArg _ hslot_eq).trans hw')
    exact ⟨h₂, (hkd.trans hk₂).mono (by omega) (by omega), hready, e.token, rfl, hp'⟩
  next => exact h.getNextComputeStream hg

/-- What `getNextTransferStream` returns. -/
theorem Inv.getNextTransferStream (h : w.Inv must submitted) {stream : Nat}
    (hg : w.getNextTransferStream q = some (w', stream)) :
    w'.Inv must submitted ∧ Kept q (((w.queues q).pool .compute).size + 1) 1 w w' ∧
      w'.Ready q stream := by
  unfold World.getNextTransferStream at hg
  rw [if_neg (by rw [h.thread]; decide)] at hg
  split at hg
  next =>
    obtain ⟨⟨w₁, s, t⟩, hnext, heq⟩ := Option.map_eq_some_iff.mp hg
    obtain ⟨rfl, rfl⟩ := Prod.mk.inj heq
    obtain ⟨h₁, hk, hready, -⟩ := h.getNextComputeStream hnext
    exact ⟨h₁, hk.mono (Nat.le_refl _) (by omega), hready⟩
  next hsize =>
    have hpos : 0 < ((w.queues q).pool .transfer).size := Nat.pos_of_ne_zero hsize
    have htok := h.advance_token hpos
    have hkept : Kept q 0 1 w _ := kept_advance w .transfer q
    obtain ⟨hw', rfl⟩ := Prod.mk.inj (Option.some.inj hg)
    -- the slot is computed before the draw, which does not change it
    have hslot : ∀ t, (((w.createStream .transfer q).queues q).pool .transfer).slot t =
        ((((w.createStream .transfer q).drawToken .transfer q).queues q).pool .transfer).slot t := by
      intro t
      rw [hkept.moves.slot, (createStream_index .transfer w q).2]
    rw [hslot] at hw' ⊢
    obtain ⟨h₂, hk₂, hready, -⟩ := (h.advance .transfer q).barrierWait_ready
      ⟨htok.1, htok.2, rfl⟩ hw'
    exact ⟨h₂, (hkept.trans hk₂).mono (by omega) (by omega), hready⟩

end World

end UnifiedRuntime.Streams
