import UnifiedRuntime.Streams.BarrierOrder

/-!
# Runs of one thread over CUDA and HIP queues

A session is a world together with what the calls owe: for every queue the
launches submitted to it (`submitted`) and those that everything put on it next
has to wait for (`must`, the coverage of its barriers). Every submitted launch
leaves an entry in the log: what it owed when it was submitted and what it does
wait for, read off the stream operations (`behind`).

`Safe` is the condition under which the source's inferences from its counters
hold: a reused stream's token and an event taken for unsynchronised are judged
by a counter that has not come round, `syncStreams` can read its window, and the
listed events of one stream have comparable numbers. `barriers_order_queue`
(CUDA) and `queues_synchronize` (HIP) are the main facts.
-/

namespace UnifiedRuntime.Streams

open Function (update update_of_ne update_self)

/-- A launch: its queue, what it had to wait for, and what it waits for. -/
structure Submission where
  queue : Nat
  command : Nat
  owes : List Nat
  waitsFor : List Nat

structure Session where
  world : World
  nextCommand : Nat
  submitted : Nat → List Nat
  must : Nat → List Nat
  log : List Submission
  /-- What a finish returned without having waited for. -/
  missed : List Nat
  /-- How often a barrier called a member of a missing queue. -/
  nullCalls : Nat

/-- The calls of the application. -/
inductive Call
  /-- A kernel launch, copy, fill…, with the events a query finds completed. -/
  | submit (q : Nat) (choice : World.StreamChoice) (waitList : List Event)
      (completed : Event → Bool) (wantsEvent blocking : Bool)
  /-- `urEnqueueEventsWaitWithBarrier`, `urEnqueueEventsWait`. -/
  | barrier (q : Nat) (waitList : List Event) (wantsEvent : Bool)
  | finish (q : Nat)
  /-- The application's own work on a stream. -/
  | nativeWork (stream : Nat)
  /-- A native event recorded by the application, made a UR event. -/
  | interop (stream : Nat)

/-- What a barrier covers: all launches of the queue, or the listed events. -/
def World.coverage (w : World) (submitted : Nat → List Nat) (q : Nat) (waitList : List Event) :
    List Nat :=
  if waitList = [] then submitted q else waitList.flatMap fun e => mark w.ops e.native

/-- The events a barrier asks a missing queue about. -/
def queueless (waitList : List Event) : Nat :=
  ((latestEvents waitList).filter fun e => e.queue.isNone).length

namespace Session

/-- One call; `none` when a listed event does not exist or the process dies. -/
def step (a : Adapter) (s : Session) : Call → Option Session
  | .submit q choice waitList completed wantsEvent blocking =>
    if ∀ e ∈ waitList, e ∈ s.world.events then
      (s.world.submit a q choice waitList completed 0 s.nextCommand wantsEvent blocking).map
        fun w =>
          { s with
            world := w
            nextCommand := s.nextCommand + 1
            submitted := update s.submitted q (s.nextCommand :: s.submitted q)
            log := ⟨q, s.nextCommand, s.must q, behind w.ops s.nextCommand⟩ :: s.log }
    else none
  | .barrier q waitList wantsEvent =>
    if ∀ e ∈ waitList, e ∈ s.world.events then
      (s.world.urEnqueueEventsWaitWithBarrier a q waitList 0 wantsEvent).map fun w =>
        { s with
          world := w
          must := update s.must q (s.must q ++ s.world.coverage s.submitted q waitList)
          nullCalls := s.nullCalls + queueless waitList }
    else none
  | .finish q =>
    let w := s.world.urQueueFinish a q
    some { s with
      world := w
      missed := s.missed ++ (s.submitted q).filter fun c => decide (c ∉ known w.ops) }
  | .nativeWork stream =>
    some { s with
      world := s.world.emit (.launch stream s.nextCommand)
      nextCommand := s.nextCommand + 1 }
  | .interop stream => some { s with world := s.world.makeWithNative stream }

/-- A program starts with queues nobody has used, made by `urQueueCreate` (any
number of streams) or from native streams (any handles). -/
structure Initial (s : Session) : Prop where
  queues : ∀ q, (∃ n m, 0 < n ∧ n < uint32Values ∧ m < uint32Values ∧
      s.world.queues q = Queue.create n m) ∨
    ∃ stream, s.world.queues q = Queue.createWithNativeHandle stream
  thread : s.world.threadStream = 0
  ops : s.world.ops = []
  events : s.world.events = []
  submitted : s.submitted = fun _ => []
  must : s.must = fun _ => []
  log : s.log = []
  missed : s.missed = []
  nullCalls : s.nullCalls = 0

end Session

/-! ## The condition -/

namespace World

/-- A stream that is reused belongs to a token drawn since the last finish. -/
def ReuseSafe (w : World) (q : Nat) (waitList : List Event) : Prop :=
  ∀ e ∈ waitList, w.reusable q e = true →
    ((w.queues q).pool .compute).InWindow ((w.queues q).since .compute) e.token

/-- The event's token was drawn since the last finish of its queue. -/
def RecentEvent (w : World) (e : Event) : Prop :=
  ∃ q ∈ e.queue, ((w.queues q).pool .compute).InWindow ((w.queues q).since .compute) e.token

/-- An event taken for synchronised has no recent token. -/
def SyncSafe (w : World) (waitList : List Event) : Prop :=
  ∀ e ∈ waitList, w.hasBeenSynchronized e = true → ¬ w.RecentEvent e

/-- `syncStreams` can read the counters, also after the barrier's own tokens. -/
def BarrierReadable (w : World) (q : Nat) : Prop :=
  (∀ n, n ≤ ((w.queues q).pool .compute).size + 1 →
    Covered uint32Values ((w.queues q).pool .compute).size ((w.queues q).pool .compute).lastSync
      ((w.queues q).since .compute + n)) ∧
  (((w.queues q).pool .transfer).size ≠ 0 →
    Covered uint32Values ((w.queues q).pool .transfer).size ((w.queues q).pool .transfer).lastSync
      ((w.queues q).since .transfer))

/-- **What the bookkeeping relies on.** -/
def Safe (w : World) : Call → Prop
  | .submit q choice waitList _ _ _ => choice = .listed → w.ReuseSafe q waitList
  | .barrier q waitList _ =>
    w.ReuseSafe q waitList ∧
      if waitList = [] then w.BarrierReadable q else w.SyncSafe waitList ∧ Comparable waitList
  | .finish q => w.Readable q
  | .nativeWork _ => True
  | .interop _ => True

/-- No barrier is given an event without a queue. -/
def Queued : Call → Prop
  | .barrier _ waitList _ => ∀ e ∈ waitList, e.queue.isSome
  | _ => True

end World

/-- The sessions that calls meeting a condition lead to. -/
inductive Session.Reached (a : Adapter) (P : World → Call → Prop) : Session → Prop
  | start {s : Session} : s.Initial → Reached a P s
  | step {s s' : Session} {c : Call} :
      Reached a P s → P s.world c → s.step a c = some s' → Reached a P s'

/-! ## What each call keeps -/

namespace World

variable {w w' : World} {must submitted : Nat → List Nat} {q : Nat} {a : Adapter}

theorem initial_inv {s : Session} (h : s.Initial) : s.world.Inv s.must s.submitted := by
  have hev : ∀ e, e ∉ s.world.events := by
    intro e he
    rw [h.events] at he
    exact absurd he List.not_mem_nil
  have hnone : ∀ q, (s.world.queues q).barrierEvent = none ∧
      (s.world.queues q).barrierTmpEvent = none := by
    intro q
    rcases h.queues q with ⟨n, m, -, -, -, hq⟩ | ⟨stream, hq⟩ <;> rw [hq] <;> exact ⟨rfl, rfl⟩
  refine ⟨fun q => ?_, ⟨fun e he => absurd he (hev e), fun q b hb => ?_, fun q t ht => ?_,
    fun q q' b t hb => ?_, fun q q' b _ hb => ?_⟩, fun e he => absurd he (hev e),
    fun e he => absurd he (hev e), fun e he => absurd he (hev e), fun q x hx => ?_,
    fun q x hx => ?_, h.thread⟩
  · rcases h.queues q with ⟨n, m, hn, hn', hm, hq⟩ | ⟨stream, hq⟩
    · rw [hq]
      refine ⟨hn, fun k => ?_, fun k => ?_, fun k => ?_, fun k => ?_, fun _ _ hi => absurd hi Bool.false_ne_true⟩
      · cases k <;> assumption
      · cases k
        · exact Pool.counts_new n
        · exact Pool.counts_new m
      · cases k <;> exact fun _ => rfl
      · cases k <;> exact Nat.zero_le _
    · rw [hq]
      refine ⟨Nat.one_pos, fun k => ?_, fun k => ?_, fun k => ?_, fun k => ?_,
        fun _ _ hi => absurd hi Bool.false_ne_true⟩
      · cases k
        · exact (by decide : Pool.ofNative.size < uint32Values)
        · exact (by decide : (Pool.new 0).size < uint32Values)
      · cases k
        · exact Pool.counts_ofNative
        · exact Pool.counts_new 0
      · cases k
        · exact (by decide : Pool.ofNative.Settled)
        · exact (by decide : (Pool.new 0).Settled)
      · cases k
        · exact Nat.le_refl 1
        · exact Nat.le_refl 0
  · rw [(hnone q).1] at hb
    exact absurd hb (by simp)
  · rw [(hnone q).2] at ht
    exact absurd ht (by simp)
  · rw [(hnone q).1] at hb
    exact absurd hb (by simp)
  · rw [(hnone q).1] at hb
    exact absurd hb (by simp)
  · rw [h.must] at hx
    exact absurd hx List.not_mem_nil
  · rw [h.submitted] at hx
    exact absurd hx List.not_mem_nil

/-- Choosing a stream for a command, by whichever of the three functions. -/
theorem Inv.takeStream (h : w.Inv must submitted) {choice : StreamChoice} {waitList : List Event}
    {stream : Nat} {token : Option Nat} (hlist : ∀ e ∈ waitList, e ∈ w.events)
    (hsafe : choice = .listed → w.ReuseSafe q waitList)
    (ht : w.takeStream q waitList choice = some (w', stream, token)) :
    w'.Inv must submitted ∧ Kept q (((w.queues q).pool .compute).size + 1) 1 w w' ∧
      w'.Ready q stream ∧ ∃ t, token = some t ∧
        (t ≠ noToken → w'.Placed q .compute t stream) := by
  cases choice with
  | listed =>
    obtain ⟨h₁, hk, hr, t, ht', hp⟩ := h.getNextComputeStreamFor hlist (hsafe rfl) ht
    exact ⟨h₁, hk.mono (Nat.le_refl _) (by omega), hr, t, ht', fun _ => hp⟩
  | compute =>
    obtain ⟨⟨w₁, s, t⟩, hg, heq⟩ := Option.map_eq_some_iff.mp ht
    obtain ⟨rfl, hrest⟩ := Prod.mk.inj heq
    obtain ⟨rfl, rfl⟩ := Prod.mk.inj hrest
    obtain ⟨h₁, hk, hr, -⟩ := h.getNextComputeStream hg
    exact ⟨h₁, hk.mono (Nat.le_refl _) (by omega), hr, noToken, rfl, fun hne => absurd rfl hne⟩
  | transfer =>
    obtain ⟨⟨w₁, s⟩, hg, heq⟩ := Option.map_eq_some_iff.mp ht
    obtain ⟨rfl, hrest⟩ := Prod.mk.inj heq
    obtain ⟨rfl, rfl⟩ := Prod.mk.inj hrest
    obtain ⟨h₁, hk, hr⟩ := h.getNextTransferStream hg
    exact ⟨h₁, hk, hr, noToken, rfl, fun hne => absurd rfl hne⟩

/-- Everything owed is behind a stream that is ready. -/
theorem Inv.must_waited (h : w.Inv must submitted) {stream : Nat} (hr : w.Ready q stream) :
    ∀ x ∈ must q, x ∈ past w.ops stream ∨ x ∈ known w.ops := by
  intro x hx
  rcases h.must q x hx with hk | ⟨b, hb, hm⟩
  · exact .inr hk
  · exact .inl (hr.waited b hb x hm)

theorem Ready.told {stream : Nat} (h : w.Ready q stream) (ht : w.Told w') :
    w'.Ready q stream := by
  have hq : w'.queues q = w.queues q := by rw [ht.queues]
  refine ⟨fun b hb x hx => ?_, by rw [hq]; exact h.home⟩
  rw [hq] at hb
  rw [ht.ext.barriers q b hb] at hx
  exact ht.ext.past stream x (h.waited b hb x hx)

/-- The work of a command joins the launches of its queue. -/
theorem Inv.launch (h : w.Inv must submitted) {stream : Nat} (c : Nat)
    (hhome : (w.queues q).Home stream) :
    (w.emit (.launch stream c)).Inv must (update submitted q (c :: submitted q)) := by
  have h₁ := h.told (told_launch w stream c)
  refine ⟨h₁.queues, h₁.natives, h₁.events, h₁.order, h₁.ids, h₁.must, fun q' x hx => ?_,
    h₁.thread⟩
  by_cases hq : q' = q
  · subst hq
    rw [update_self] at hx
    rcases List.mem_cons.mp hx with rfl | hx
    · exact .inr ⟨stream, hhome, mem_past_launch⟩
    · exact h₁.submitted q' x hx
  · rw [update_of_ne hq] at hx
    exact h₁.submitted q' x hx

/-- **A command waits for everything its queue's barriers cover.** -/
theorem Inv.submit (h : w.Inv must submitted) {choice : StreamChoice} {waitList : List Event}
    {completed : Event → Bool} {garbage c : Nat} {wantsEvent blocking : Bool}
    (hlist : ∀ e ∈ waitList, e ∈ w.events) (hsafe : choice = .listed → w.ReuseSafe q waitList)
    (hs : w.submit a q choice waitList completed garbage c wantsEvent blocking = some w') :
    w'.Inv must (update submitted q (c :: submitted q)) ∧ w.ops <:+ w'.ops ∧
      ∀ x ∈ must q, x ∈ behind w'.ops c := by
  obtain ⟨⟨w₁, stream, token⟩, htake, hrest⟩ := Option.bind_eq_some_iff.mp hs
  obtain ⟨h₁, hk, hr, t, rfl, hp⟩ := h.takeStream hlist hsafe htake
  have htold : w₁.Told (w₁.enqueueEventsWait a ⟨completed, fun _ => true⟩ stream waitList).1 :=
    waitForEvents_told w₁ _
  simp only at hrest
  generalize (w₁.enqueueEventsWait a ⟨completed, fun _ => true⟩ stream waitList).1 = w₂
    at htold hrest
  have h₂ := h₁.told htold
  have hr₂ := hr.told htold
  have hlaunch := told_launch w₂ stream c
  have h₃ := h₂.launch c hr₂.home
  have howed : ∀ x ∈ must q, x ∈ behind (w₂.emit (.launch stream c)).ops c := by
    intro x hx
    show x ∈ behind (.launch stream c :: w₂.ops) c
    rw [behind_launch]
    exact List.mem_append.mpr (h₂.must_waited hr₂ x hx)
  have hsuffix : w.ops <:+ (w₂.emit (.launch stream c)).ops :=
    hk.ops.trans (htold.ops.trans hlaunch.ops)
  -- recording the event and waiting for the stream come after the launch
  have hevent : ∀ w₄, (if wantsEvent then (w₂.emit (.launch stream c)).recordEvent q stream
        ((some t).getD garbage) else some (w₂.emit (.launch stream c))) = some w₄ →
      w₄.Inv must (update submitted q (c :: submitted q)) ∧ w.ops <:+ w₄.ops ∧
        ∀ x ∈ must q, x ∈ behind w₄.ops c := by
    intro w₄ hw₄
    split at hw₄
    next =>
      obtain ⟨h₄, hops⟩ := h₃.recordEvent (fun ht => ((hp ht).told htold).told hlaunch) hw₄
      rw [hops]
      refine ⟨h₄, hsuffix.trans (List.suffix_cons _ _), fun x hx => ?_⟩
      exact howed x hx
    next =>
      obtain rfl := Option.some.inj hw₄
      exact ⟨h₃, hsuffix, howed⟩
  cases blocking with
  | false => exact hevent w' hrest
  | true =>
    obtain ⟨w₄, hw₄, rfl⟩ := Option.map_eq_some_iff.mp hrest
    obtain ⟨h₄, hops, hbehind⟩ := hevent w₄ hw₄
    refine ⟨h₄.told (told_sync w₄ stream), hops.trans (List.suffix_cons _ _), fun x hx => ?_⟩
    show x ∈ behind (.sync stream :: w₄.ops) c
    exact hbehind x hx

/-- **A barrier covers what it should.** -/
theorem Inv.barrier (h : w.Inv must submitted) {waitList : List Event} {garbage : Nat}
    {wantsEvent : Bool} (hlist : ∀ e ∈ waitList, e ∈ w.events)
    (hsafe : w.Safe (.barrier q waitList wantsEvent))
    (hs : w.urEnqueueEventsWaitWithBarrier a q waitList garbage wantsEvent = some w') :
    w'.Inv (update must q (must q ++ w.coverage submitted q waitList)) submitted ∧
      w.ops <:+ w'.ops := by
  obtain ⟨hreuse, hsafe⟩ := hsafe
  obtain ⟨⟨w₁, stream, token⟩, htake, hrest⟩ := Option.bind_eq_some_iff.mp hs
  obtain ⟨h₁, hk, hr, t, rfl, hp⟩ := h.getNextComputeStreamFor hlist hreuse htake
  simp only at hrest
  rcases hw₂ : w₁.ensureBarrierEvent q with ⟨w₂, b⟩
  rw [hw₂] at hrest
  obtain ⟨h₂, hops₂, hev₂, hb₂, hq₂, -⟩ := h₁.ensureBarrierEvent hw₂
  have hmust₂ : ∀ x ∈ must q, x ∈ past w₂.ops stream ∨ x ∈ known w₂.ops := by
    rw [hops₂]
    exact h₁.must_waited hr
  have hplaced₂ : w₂.Placed q .compute t stream := by
    refine ⟨?_, ?_, ?_⟩ <;> rw [hq₂]
    · exact hp.recent
    · exact hp.exists_slot
    · exact hp.stream
  -- both branches leave the stream behind what the barrier covers
  have hbranch : ∃ w₃, w₃ = (if waitList = [] then w₂.waitForAll a q stream
        else waitForListed stream w₂ (latestEvents waitList)) ∧
      w₃.Inv must submitted ∧ w₂.ops <:+ w₃.ops ∧ (w₃.queues q).barrierEvent = some b ∧
      w₃.Placed q .compute t stream ∧
      ∀ x ∈ w.coverage submitted q waitList, x ∈ known w₃.ops ∨ x ∈ past w₃.ops stream := by
    by_cases hnil : waitList = []
    · rw [if_pos hnil] at hsafe
      have hread : w₂.Readable q := by
        intro k hne
        rw [hq₂] at hne ⊢
        cases k with
        | compute =>
          have hgrow := hk.grows .compute
          have hbound := hk.compute
          have := hsafe.1 ((w₁.queues q).since .compute - (w.queues q).since .compute) (by omega)
          rw [hk.size, hk.lastSync]
          rwa [Nat.add_sub_cancel' hgrow] at this
        | transfer =>
          have hgrow := hk.grows .transfer
          have hbound := hk.transfer
          have hsame : (w₁.queues q).since .transfer = (w.queues q).since .transfer := by omega
          rw [hk.size, hk.lastSync, hsame]
          rw [hk.size] at hne
          exact hsafe.2 hne
      obtain ⟨h₃, hops₃, hcov, hmoves, hbar⟩ := h₂.waitForAll a stream hread
      refine ⟨_, (if_pos hnil).symm, h₃, hops₃, hbar.trans hb₂, hplaced₂.moves hmoves, ?_⟩
      unfold coverage
      rw [if_pos hnil]
      exact hcov
    · rw [if_neg hnil] at hsafe
      have htold := waitForListed_told stream w₂ (latestEvents waitList)
      refine ⟨_, (if_neg hnil).symm, h₂.told htold, htold.ops, ?_, hplaced₂.told htold, ?_⟩
      · rw [htold.queues]
        exact hb₂
      · intro x hx
        unfold coverage at hx
        rw [if_neg hnil] at hx
        obtain ⟨e, he, hxe⟩ := List.mem_flatMap.mp hx
        obtain ⟨f, hf, hsub⟩ := h.latestEvents_covers hlist hsafe.2 he
        have hfl := mem_of_mem_latestEvents hf
        have hfw := hlist f hfl
        have hxf := hsub x hxe
        -- the event has kept its meaning while the stream was chosen
        cases hsync : w.hasBeenSynchronized f with
        | true =>
          left
          have hover := h.synchronized_known hfw hsync fun q' hq' hwin =>
            hsafe.1 f hfl hsync ⟨q', hq', hwin⟩
          exact htold.ext.known x (hops₂ ▸ known_suffix hk.ops (hover x hxf))
        | false =>
          right
          have hsync₂ : w₂.hasBeenSynchronized f = false := by
            have hsame : ∀ q', ((w₂.queues q').pool .compute).lastSync =
                ((w.queues q').pool .compute).lastSync := by
              intro q'
              by_cases hq : q' = q
              · rw [hq, hq₂]
                exact hk.lastSync .compute
              · have hother := (h₁.ensureBarrierEvent hw₂).2.2.2.2.2 q' hq
                rw [hother, hk.other q' hq]
            unfold hasBeenSynchronized Pool.hasBeenSynchronized at hsync ⊢
            split at hsync
            next q' hq' => rw [hsame q']; exact hsync
            next hq' => rfl
          refine waitForListed_covers (fun g hg => ?_) hf hsync₂ x ?_
          · rw [hev₂, hk.events]
            exact hlist g (mem_of_mem_latestEvents hg)
          · rw [hops₂]
            rw [hk.marks]
            exact hxf
  obtain ⟨w₃, hw₃, h₃, hops₃, hb₃, hplaced₃, hcov⟩ := hbranch
  rw [← hw₃] at hrest
  have hmust₃ : ∀ x ∈ update must q (must q ++ w.coverage submitted q waitList) q,
      x ∈ known w₃.ops ∨ x ∈ past w₃.ops stream := by
    intro x hx
    rw [update_self] at hx
    rcases List.mem_append.mp hx with hx | hx
    · rcases hmust₂ x hx with hp' | hk'
      · exact .inr (past_suffix hops₃ hp')
      · exact .inl (known_suffix hops₃ hk')
    · exact hcov x hx
  have h₄ := h₃.raiseBarrier hb₃ hmust₃ fun q' hq => update_of_ne hq _ _
  have hsuffix : w.ops <:+ (w₃.raiseBarrier q b stream).ops :=
    hk.ops.trans ((hops₂ ▸ hops₃).trans (List.suffix_cons _ _))
  have hplaced₄ : (w₃.raiseBarrier q b stream).Placed q .compute t stream := by
    have hq₄ : (w₃.raiseBarrier q b stream).queues q =
        { w₃.queues q with applied := fun _ _ => false } := setQueue_same _ _ _
    refine ⟨?_, ?_, ?_⟩ <;> rw [hq₄]
    · exact hplaced₃.recent
    · exact hplaced₃.exists_slot
    · exact hplaced₃.stream
  split at hrest
  next =>
    obtain ⟨h₅, hops₅⟩ := h₄.recordEvent (fun _ => hplaced₄) hrest
    rw [hops₅]
    exact ⟨h₅, hsuffix.trans (List.suffix_cons _ _)⟩
  next =>
    obtain rfl := Option.some.inj hrest
    exact ⟨h₄, hsuffix⟩

end World

/-! ## Whole runs -/

namespace Session

/-- The entry's launch waits for everything it owed, in the log and in time. -/
def Waited (s : Session) (entry : Submission) : Prop :=
  ∀ x ∈ entry.owes, x ∈ entry.waitsFor ∧ Precedes s.world.ops x entry.command

structure Inv (s : Session) : Prop where
  world : s.world.Inv s.must s.submitted
  log : ∀ entry ∈ s.log, s.Waited entry
  missed : s.missed = []

theorem Waited.grow {s s' : Session} {entry : Submission} (h : s.Waited entry)
    (hops : s.world.ops <:+ s'.world.ops) : s'.Waited entry :=
  fun x hx => ⟨(h x hx).1, (h x hx).2.suffix hops⟩

variable {a : Adapter} {s s' : Session} {c : Call}

theorem initial_inv (h : s.Initial) : s.Inv := by
  refine ⟨World.initial_inv h, fun entry he => ?_, h.missed⟩
  rw [h.log] at he
  exact absurd he List.not_mem_nil

/-- **Step lemma.** A safe call keeps the invariant. -/
theorem Inv.step (h : s.Inv) (hsafe : s.world.Safe c) (hs : s.step a c = some s') : s'.Inv := by
  cases c with
  | submit q choice waitList completed wantsEvent blocking =>
    simp only [Session.step] at hs
    split at hs
    next hlist =>
      obtain ⟨w, hw, rfl⟩ := Option.map_eq_some_iff.mp hs
      obtain ⟨hinv, hops, howed⟩ := h.world.submit hlist hsafe hw
      refine ⟨hinv, fun entry he => ?_, h.missed⟩
      rcases List.mem_cons.mp he with rfl | he
      · exact fun x hx => ⟨howed x hx, precedes_of_mem_behind (howed x hx)⟩
      · exact (h.log entry he).grow hops
    next => exact absurd hs (by simp)
  | barrier q waitList wantsEvent =>
    simp only [Session.step] at hs
    split at hs
    next hlist =>
      obtain ⟨w, hw, rfl⟩ := Option.map_eq_some_iff.mp hs
      obtain ⟨hinv, hops⟩ := h.world.barrier hlist hsafe hw
      exact ⟨hinv, fun entry he => (h.log entry he).grow hops, h.missed⟩
    next => exact absurd hs (by simp)
  | finish q =>
    obtain rfl := Option.some.inj hs
    obtain ⟨hinv, hops, hall⟩ := h.world.urQueueFinish a hsafe
    refine ⟨hinv, fun entry he => (h.log entry he).grow hops, ?_⟩
    show s.missed ++ _ = []
    rw [h.missed, List.nil_append, List.filter_eq_nil_iff]
    intro x hx
    simpa using hall x hx
  | nativeWork stream =>
    obtain rfl := Option.some.inj hs
    exact ⟨h.world.told (World.told_launch _ _ _),
      fun entry he => (h.log entry he).grow (List.suffix_cons _ _), h.missed⟩
  | interop stream =>
    obtain rfl := Option.some.inj hs
    exact ⟨h.world.makeWithNative stream,
      fun entry he => (h.log entry he).grow (List.suffix_cons _ _), h.missed⟩

theorem Reached.inv {P : World → Call → Prop} (hP : ∀ w c, P w c → w.Safe c)
    (h : Reached a P s) : s.Inv := by
  induction h with
  | start hi => exact initial_inv hi
  | step _ hp hs ih => exact ih.step (hP _ _ hp) hs

/-- A barrier over events that have queues calls no member of a missing one. -/
theorem nullCalls_step (hq : World.Queued c) (h : s.nullCalls = 0) (hs : s.step a c = some s') :
    s'.nullCalls = 0 := by
  cases c with
  | barrier q waitList wantsEvent =>
    simp only [Session.step] at hs
    split at hs
    next =>
      obtain ⟨w, -, rfl⟩ := Option.map_eq_some_iff.mp hs
      show s.nullCalls + queueless waitList = 0
      have hnone : (latestEvents waitList).filter (fun e => e.queue.isNone) = [] := by
        rw [List.filter_eq_nil_iff]
        intro e he
        have := hq e (mem_of_mem_latestEvents he)
        rw [Option.isSome_iff_ne_none] at this
        simpa using this
      rw [h, queueless, hnone]
      rfl
    next => exact absurd hs (by simp)
  | submit q choice waitList completed wantsEvent blocking =>
    simp only [Session.step] at hs
    split at hs
    next =>
      obtain ⟨w, -, rfl⟩ := Option.map_eq_some_iff.mp hs
      exact h
    next => exact absurd hs (by simp)
  | finish q =>
    obtain rfl := Option.some.inj hs
    exact h
  | nativeWork stream =>
    obtain rfl := Option.some.inj hs
    exact h
  | interop stream =>
    obtain rfl := Option.some.inj hs
    exact h

theorem Reached.nullCalls (h : Reached a (fun w c => w.Safe c ∧ World.Queued c) s) :
    s.nullCalls = 0 := by
  induction h with
  | start hi => exact hi.nullCalls
  | step _ hp hs ih => exact nullCalls_step hp.2 ih hs

end Session

/-! ## Runs that can be evaluated -/

instance (p : Pool) (since token : Nat) : Decidable (p.InWindow since token) :=
  inferInstanceAs (Decidable (∃ k, k < since ∧ token = (p.lastSync + k) % uint32Values))

instance (w : World) (e : Event) : Decidable (w.RecentEvent e) :=
  match he : e.queue with
  | none => .isFalse fun ⟨_, hq, _⟩ => absurd (he.symm.trans hq) (Option.some_ne_none _).symm
  | some q =>
    decidable_of_iff (((w.queues q).pool .compute).InWindow ((w.queues q).since .compute) e.token)
      ⟨fun h => ⟨q, he, h⟩, fun ⟨_, hq, h⟩ => Option.some.inj (he.symm.trans hq) ▸ h⟩

instance (w : World) (q : Nat) (waitList : List Event) : Decidable (w.ReuseSafe q waitList) :=
  inferInstanceAs (Decidable (∀ e ∈ waitList, _ → Pool.InWindow _ _ _))

instance (w : World) (waitList : List Event) : Decidable (w.SyncSafe waitList) :=
  inferInstanceAs (Decidable (∀ e ∈ waitList, _ → ¬ w.RecentEvent e))

instance (w : World) (q : Nat) : Decidable (w.BarrierReadable q) :=
  inferInstanceAs (Decidable ((∀ n, n ≤ _ → Covered _ _ _ _) ∧ (_ → Covered _ _ _ _)))

instance (w : World) (q : Nat) : Decidable (w.Readable q) :=
  decidable_of_iff (∀ k ∈ [Kind.compute, Kind.transfer], ((w.queues q).pool k).size ≠ 0 →
      Covered uint32Values ((w.queues q).pool k).size ((w.queues q).pool k).lastSync
        ((w.queues q).since k))
    ⟨fun h k => h k (by cases k <;> decide), fun h k _ => h k⟩

instance (w : World) : (c : Call) → Decidable (w.Safe c)
  | .submit q choice waitList _ _ _ =>
    inferInstanceAs (Decidable (choice = .listed → w.ReuseSafe q waitList))
  | .barrier q waitList _ =>
    inferInstanceAs (Decidable (w.ReuseSafe q waitList ∧
      if waitList = [] then w.BarrierReadable q else w.SyncSafe waitList ∧ Comparable waitList))
  | .finish q => inferInstanceAs (Decidable (w.Readable q))
  | .nativeWork _ => .isTrue trivial
  | .interop _ => .isTrue trivial

instance : (c : Call) → Decidable (World.Queued c)
  | .barrier _ waitList _ => inferInstanceAs (Decidable (∀ e ∈ waitList, e.queue.isSome))
  | .submit .. => .isTrue trivial
  | .finish _ => .isTrue trivial
  | .nativeWork _ => .isTrue trivial
  | .interop _ => .isTrue trivial

namespace Session

/-- A session of a program with the given queues. -/
def init (queues : Nat → Queue) : Session :=
  { world :=
      { queues, threadStream := 0, nextStream := 1, nextEvent := 1, ops := [], events := [] }
    nextCommand := 0, submitted := fun _ => [], must := fun _ => [], log := [], missed := [],
    nullCalls := 0 }

def run (a : Adapter) (s : Session) : List Call → Option Session
  | [] => some s
  | c :: rest => (s.step a c).bind fun s' => s'.run a rest

/-- The same, stopping at a call that does not meet the condition. -/
def runSafe (a : Adapter) (P : World → Call → Prop) [∀ w c, Decidable (P w c)] (s : Session) :
    List Call → Option Session
  | [] => some s
  | c :: rest =>
    if P s.world c then (s.step a c).bind fun s' => s'.runSafe a P rest else none

theorem Reached.runSafe {P : World → Call → Prop} [∀ w c, Decidable (P w c)] {a : Adapter}
    {s s' : Session} (calls : List Call) (h : s.Reached a P)
    (hrun : s.runSafe a P calls = some s') : s'.Reached a P := by
  induction calls generalizing s with
  | nil =>
    obtain rfl := Option.some.inj hrun
    exact h
  | cons c rest ih =>
    simp only [Session.runSafe] at hrun
    split at hrun
    next hp =>
      obtain ⟨s₁, hstep, hrest⟩ := Option.bind_eq_some_iff.mp hrun
      exact ih (h.step hp hstep) hrest
    next => exact absurd hrun (by simp)

/-- Queue 0 is out of order; queues 1 and 2 are made from one native stream. -/
def sharedStream : Nat → Queue
  | 0 => .create 128 64
  | _ => .createWithNativeHandle 7

theorem initial_sharedStream : (init sharedStream).Initial := by
  refine ⟨fun q => ?_, rfl, rfl, rfl, rfl, rfl, rfl, rfl, rfl⟩
  cases q with
  | zero => exact .inl ⟨128, 64, by decide, by decide, by decide, rfl⟩
  | succ q => exact .inr ⟨7, rfl⟩

end Session

/-- **CUDA barriers order the queue.** Every launch submitted to a queue waits,
through the streams and events the adapter records, for everything the earlier
barriers of the queue cover; so in every timing it starts after them. -/
theorem barriers_order_queue {s : Session} (h : s.Reached .cuda World.Safe) :
    ∀ entry ∈ s.log, ∀ x ∈ entry.owes,
      x ∈ entry.waitsFor ∧ Precedes s.world.ops x entry.command :=
  (h.inv fun _ _ hp => hp).log

/-- A launch, a copy, a barrier over everything and a launch that waits for both;
then a barrier over the second launch's event and a copy. -/
def barrierCalls : List Call :=
  [.submit 0 .listed [] (fun _ => false) true false,
    .submit 0 .transfer [] (fun _ => false) true true,
    .barrier 0 [] true, .submit 0 .listed [] (fun _ => false) true false,
    .submit 1 .listed [] (fun _ => false) true false,
    .barrier 0 [⟨some 1, 7, 0, 1, 7, false⟩] false,
    .submit 0 .transfer [] (fun _ => false) true false]

theorem barriers_order_queue_over_all : ∃ s : Session,
    (Session.init Session.sharedStream).runSafe .cuda World.Safe barrierCalls = some s ∧
      s.log.map (fun e => (e.command, e.owes)) =
        [(4, [1, 0, 3]), (3, []), (2, [1, 0]), (1, []), (0, [])] ∧
      ∀ entry ∈ s.log, ∀ x ∈ entry.owes,
        x ∈ entry.waitsFor ∧ Precedes s.world.ops x entry.command :=
  ⟨_, rfl, by decide, barriers_order_queue
    ((Session.Reached.start Session.initial_sharedStream).runSafe barrierCalls rfl)⟩

/-- Two launches on queue 1 and one on queue 2, all on the same native stream; a
barrier over the later event of either queue, and a launch. The second event of
queue 1 hides the newer first event of queue 2. -/
def hiddenCalls : List Call :=
  [.submit 1 .compute [] (fun _ => false) true false,
    .submit 1 .compute [] (fun _ => false) true false,
    .submit 2 .compute [] (fun _ => false) true false,
    .barrier 0 [⟨some 1, 7, noToken, 2, 2, false⟩, ⟨some 2, 7, noToken, 1, 3, false⟩] false,
    .submit 0 .transfer [] (fun _ => false) true false]

/-- The launch after the barrier owes the launch of queue 2, and does not wait for it. -/
theorem barrier_skips_event :
    ((Session.init Session.sharedStream).run .cuda hiddenCalls).map
      (fun s => s.log.head?.map fun e => (e.command, decide (2 ∈ e.owes), decide (2 ∈ e.waitsFor))) =
      some (some (3, true, false)) := by
  decide

/-- **HIP queues synchronise completely.** Every launch waits for what the
barriers before it cover, no finish returns before a launch it should wait for
is over, and no barrier asks a missing queue. -/
theorem queues_synchronize {s : Session}
    (h : s.Reached .hip fun w c => w.Safe c ∧ World.Queued c) :
    (∀ entry ∈ s.log, ∀ x ∈ entry.owes,
      x ∈ entry.waitsFor ∧ Precedes s.world.ops x entry.command) ∧
    s.missed = [] ∧ s.nullCalls = 0 :=
  ⟨(h.inv fun _ _ hp => hp.1).log, (h.inv fun _ _ hp => hp.1).missed, h.nullCalls⟩

theorem queues_synchronize_over_all : ∃ s : Session,
    (Session.init Session.sharedStream).runSafe .hip (fun w c => w.Safe c ∧ World.Queued c)
      (barrierCalls ++ [.finish 0]) = some s ∧
      s.log.map (fun e => (e.command, e.owes)) =
        [(4, [1, 0, 3]), (3, []), (2, [1, 0]), (1, []), (0, [])] ∧
      (∀ entry ∈ s.log, ∀ x ∈ entry.owes,
        x ∈ entry.waitsFor ∧ Precedes s.world.ops x entry.command) ∧
      s.missed = [] ∧ s.nullCalls = 0 :=
  ⟨_, rfl, by decide, queues_synchronize
    ((Session.Reached.start Session.initial_sharedStream).runSafe
      (barrierCalls ++ [.finish 0]) rfl)⟩

/-- A barrier over an interop event asks a missing queue; and a barrier over two
events of one native stream skips the newer one. -/
theorem hip_barrier_misses :
    ((Session.init Session.sharedStream).run .hip
        [.interop 9, .barrier 0 [⟨none, 0, noToken, 0, 1, true⟩] false]).map
      (fun s => s.nullCalls) = some 1 ∧
    ((Session.init Session.sharedStream).run .hip hiddenCalls).map
      (fun s => s.log.head?.map fun e => (e.command, decide (2 ∈ e.owes), decide (2 ∈ e.waitsFor))) =
      some (some (3, true, false)) := by
  decide

end UnifiedRuntime.Streams
