import UnifiedRuntime.Streams.QueueOrder

/-!
# Waiting, barriers and finish keep the order

Continues `QueueOrder`: what a command gains from its wait list, what a new event
stands for, and what a barrier and a finish cover.

`forLatestEvents` only looks at the newest event of each stream. That is enough
because of two events of one stream the one recorded later stands for more; but
"newest" is judged by `EventID`, a number each queue counts for itself, so it
needs `Comparable`: listed events of one stream come from one queue, or their
numbers happen to agree with the order they were recorded in.
-/

namespace UnifiedRuntime.Streams

open Function (update update_of_ne update_self)

/-! ## The latest events of a wait list -/

theorem Event.notAfter_iff {e f : Event} :
    e.notAfter f ↔ e.stream < f.stream ∨ (e.stream = f.stream ∧ f.id ≤ e.id) := by
  unfold Event.notAfter
  omega

instance : Std.Total Event.notAfter :=
  ⟨fun e f => by rw [Event.notAfter_iff, Event.notAfter_iff]; omega⟩

instance : IsTrans Event Event.notAfter :=
  ⟨fun e f g => by
    rw [Event.notAfter_iff, Event.notAfter_iff, Event.notAfter_iff]
    omega⟩

theorem mem_of_mem_skipSeen {first : Bool} {last : Nat} {l : List Event} {e : Event}
    (h : e ∈ skipSeen first last l) : e ∈ l := by
  induction l generalizing first last with
  | nil => exact h
  | cons a rest ih =>
    unfold skipSeen at h
    split at h
    · exact List.mem_cons_of_mem a (ih h)
    · rcases List.mem_cons.mp h with rfl | h
      · exact List.mem_cons_self
      · exact List.mem_cons_of_mem a (ih h)

/-- An event the loop skips has another one of its stream before it. -/
theorem skipSeen_covers (first : Bool) (last : Nat) {l : List Event}
    (hs : l.Pairwise Event.notAfter) {e : Event} (he : e ∈ l) :
    e ∈ skipSeen first last l ∨ (e.isInterop = false ∧
      ((first = false ∧ e.stream = last) ∨
        ∃ f ∈ skipSeen first last l, f.stream = e.stream ∧ e.id ≤ f.id)) := by
  induction l generalizing first last with
  | nil => exact absurd he List.not_mem_nil
  | cons a rest ih =>
    obtain ⟨ha, hrest⟩ := List.pairwise_cons.mp hs
    unfold skipSeen
    split
    next hskip =>
      rcases List.mem_cons.mp he with rfl | he
      · exact .inr ⟨hskip.2.1, .inl ⟨hskip.1, hskip.2.2⟩⟩
      · rcases ih false last hrest he with hin | ⟨hni, hlast | hf⟩
        · exact .inl hin
        · exact .inr ⟨hni, .inl ⟨hskip.1, hlast.2⟩⟩
        · exact .inr ⟨hni, .inr hf⟩
    next =>
      rcases List.mem_cons.mp he with rfl | he
      · exact .inl List.mem_cons_self
      · rcases ih false a.stream hrest he with hin | ⟨hni, hlast | ⟨f, hf⟩⟩
        · exact .inl (List.mem_cons_of_mem a hin)
        · -- `a` is the one that was taken for this stream
          refine .inr ⟨hni, .inr ⟨a, List.mem_cons_self, hlast.2.symm, ?_⟩⟩
          have := Event.notAfter_iff.mp (ha e he)
          omega
        · exact .inr ⟨hni, .inr ⟨f, List.mem_cons_of_mem a hf.1, hf.2⟩⟩

theorem mem_of_mem_latestEvents {l : List Event} {e : Event} (h : e ∈ latestEvents l) : e ∈ l :=
  (List.mem_insertionSort _).mp (mem_of_mem_skipSeen h)

theorem latestEvents_covers {l : List Event} {e : Event} (he : e ∈ l) :
    e ∈ latestEvents l ∨ (e.isInterop = false ∧
      ∃ f ∈ latestEvents l, f.stream = e.stream ∧ e.id ≤ f.id) := by
  rcases skipSeen_covers true 0
      (List.pairwise_insertionSort Event.notAfter l) ((List.mem_insertionSort _).mpr he) with
    hin | ⟨hni, hlast | hf⟩
  · exact .inl hin
  · exact absurd hlast.1 (by simp)
  · exact .inr ⟨hni, hf⟩

/-- The numbers of listed events on one stream agree with the order of recording
where they were not counted by the same queue. -/
def Comparable (waitList : List Event) : Prop :=
  ∀ e ∈ waitList, ∀ f ∈ waitList, e.isInterop = false → f.isInterop = false →
    e.stream = f.stream → e.queue ≠ f.queue → e.id ≤ f.id → e.native ≤ f.native

instance (l : List Event) : Decidable (Comparable l) := by
  unfold Comparable
  infer_instance

namespace World

variable {w w' w'' : World} {must submitted : Nat → List Nat} {q : Nat} {k : Kind}

/-- **What the skipped events stand for is covered by the ones looked at.** -/
theorem Inv.latestEvents_covers (h : w.Inv must submitted) {waitList : List Event}
    (hlist : ∀ e ∈ waitList, e ∈ w.events) (hc : Comparable waitList) {e : Event}
    (he : e ∈ waitList) :
    ∃ f ∈ latestEvents waitList, ∀ x ∈ mark w.ops e.native, x ∈ mark w.ops f.native := by
  rcases Streams.latestEvents_covers he with hin | ⟨hni, f, hf, hstream, hid⟩
  · exact ⟨e, hin, fun x hx => hx⟩
  · have hfl := mem_of_mem_latestEvents hf
    have hpos : 0 < e.id := by
      have hok := h.events e (hlist e he)
      rw [EventOk, if_neg (by simp [hni])] at hok
      obtain ⟨q, ho⟩ := hok
      exact ho.id_pos
    -- an interop event has number 0 and sorts behind all others
    have hfi : f.isInterop = false := by
      have hok := h.events f (hlist f hfl)
      unfold EventOk at hok
      split at hok
      next => omega
      next hi => exact Bool.eq_false_iff.mpr hi
    have hle : e.native ≤ f.native := by
      by_cases hq : e.queue = f.queue
      · have := h.ids f (hlist f hfl) e (hlist e he) hfi hni hq.symm
        omega
      · exact hc e he f hfl hni hfi hstream.symm hq hid
    exact ⟨f, hf, h.order e (hlist e he) f (hlist f hfl) hni hfi hstream.symm hle⟩

/-! ## Waits -/

/-- The driver was told more, and no tracked event was recorded. -/
structure Told (w w' : World) : Prop where
  rest : w' = { w with ops := w'.ops }
  ext : w.Extends w'.ops
  ops : w.ops <:+ w'.ops

theorem Told.refl (w : World) : w.Told w :=
  ⟨rfl, ⟨fun _ _ hx => hx, fun _ hx => hx, fun _ _ => rfl, fun _ _ _ => rfl⟩, List.suffix_rfl⟩

theorem Told.queues (h : w.Told w') : w'.queues = w.queues := by rw [h.rest]

theorem Told.events (h : w.Told w') : w'.events = w.events := by rw [h.rest]

theorem Told.trans (h : w.Told w') (h' : w'.Told w'') : w.Told w'' := by
  refine ⟨?_, ⟨fun s x hx => h'.ext.past s x (h.ext.past s x hx),
    fun x hx => h'.ext.known x (h.ext.known x hx), fun e he => ?_, fun q b hb => ?_⟩,
    h.ops.trans h'.ops⟩
  · rw [h'.rest, h.rest]
  · rw [h'.ext.events e (by rw [h.events]; exact he), h.ext.events e he]
  · rw [h'.ext.barriers q b (by rw [h.queues]; exact hb), h.ext.barriers q b hb]

theorem told_emit {op : StreamOp Nat Nat Nat} (hop : ∀ n s, op = .record n s → w.Untracked n) :
    w.Told (w.emit op) :=
  ⟨rfl, extends_emit hop, List.suffix_cons _ _⟩

theorem told_wait (w : World) (s n : Nat) : w.Told (w.emit (.wait s n)) := told_emit (by simp)

theorem told_observe (w : World) (n : Nat) : w.Told (w.emit (.observe n)) := told_emit (by simp)

theorem told_launch (w : World) (s c : Nat) : w.Told (w.emit (.launch s c)) := told_emit (by simp)

theorem told_sync (w : World) (s : Nat) : w.Told (w.emit (.sync s)) := told_emit (by simp)

theorem Inv.told (h : w.Inv must submitted) (ht : w.Told w') : w'.Inv must submitted := by
  rw [ht.rest]
  exact h.extends ht.ext

theorem Placed.told {token stream : Nat} (h : w.Placed q k token stream) (ht : w.Told w') :
    w'.Placed q k token stream := by
  have hq : w'.queues q = w.queues q := by rw [ht.queues]
  exact ⟨hq ▸ h.recent, hq ▸ h.exists_slot, hq ▸ h.stream⟩

theorem waitForEvents_told {a : Adapter} {ans : Answers} {stream : Nat} (w : World)
    (l : List Event) : w.Told (waitForEvents a ans stream w l).1 := by
  induction l generalizing w with
  | nil => exact Told.refl w
  | cons e rest ih =>
    unfold waitForEvents
    split
    · exact (told_observe w _).trans (ih _)
    · split
      · exact ih w
      · split
        · exact (told_wait w _ _).trans (ih _)
        · exact Told.refl w

theorem waitForListed_told (stream : Nat) (w : World) (l : List Event) :
    w.Told (waitForListed stream w l) := by
  induction l generalizing w with
  | nil => exact Told.refl w
  | cons e rest ih =>
    unfold waitForListed
    split
    · exact ih w
    · exact (told_wait w _ _).trans (ih _)

/-- A barrier waits for every event it looks at and does not take for synchronised. -/
theorem waitForListed_covers {stream : Nat} {l : List Event} {e : Event}
    (hl : ∀ f ∈ l, f ∈ w.events) (he : e ∈ l) (hs : w.hasBeenSynchronized e = false) :
    ∀ x ∈ mark w.ops e.native, x ∈ past (waitForListed stream w l).ops stream := by
  intro x hx
  induction l generalizing w with
  | nil => exact absurd he List.not_mem_nil
  | cons a rest ih =>
    unfold waitForListed
    rcases List.mem_cons.mp he with rfl | he
    · rw [if_neg (by simp [hs])]
      exact (waitForListed_told _ _ rest).ext.past stream x (mem_past_wait hx)
    · split
      · exact ih (fun f hf => hl f (List.mem_cons_of_mem a hf)) he hs hx
      · refine ih (w := w.emit (.wait stream a.native))
          (fun f hf => hl f (List.mem_cons_of_mem a hf)) he hs ?_
        show x ∈ mark (.wait stream a.native :: w.ops) e.native
        rwa [mark_of_ne (by simp)]

/-- An event taken for synchronised is over, unless its token is recent. -/
theorem Inv.synchronized_known (h : w.Inv must submitted) {e : Event} (he : e ∈ w.events)
    (hs : w.hasBeenSynchronized e = true)
    (hsafe : ∀ q, e.queue = some q →
      ¬ ((w.queues q).pool .compute).InWindow ((w.queues q).since .compute) e.token) :
    ∀ x ∈ mark w.ops e.native, x ∈ known w.ops := by
  have hok := h.events e he
  unfold hasBeenSynchronized at hs
  split at hs
  next q hq =>
    have htok : e.token ≠ noToken := by
      intro hno
      rw [Pool.hasBeenSynchronized, if_pos hno] at hs
      exact absurd hs (by simp)
    unfold EventOk at hok
    split at hok
    next =>
      rw [hq] at hok
      exact absurd hok.1 (by simp)
    next =>
      obtain ⟨q', ho⟩ := hok
      rcases (ho.slot htok).2.2 with hk | hwin
      · exact hk
      · exact absurd hwin (hsafe q' ho.queue)
  next => exact absurd hs (by simp)

/-! ## New events -/

section
variable (h : w.Inv must submitted)

include h

/-- The next native event is nobody's yet. -/
theorem Inv.untracked_next : w.Untracked w.nextEvent := by
  refine ⟨fun e he heq => ?_, fun q hb => ?_⟩
  · have := h.natives.events e he
    omega
  · have := (h.natives.barrier q _ hb).1
    omega

/-- A new event joins the others. -/
theorem Inv.addEvent {e : Event} (hn : e.native = w.nextEvent)
    (hok : w.EventOk e)
    (hlater : ∀ f ∈ w.events, f.isInterop = false → e.isInterop = false → f.stream = e.stream →
      ∀ x ∈ mark w.ops f.native, x ∈ mark w.ops e.native)
    (hid : ∀ f ∈ w.events, f.isInterop = false → e.isInterop = false → f.queue = e.queue →
      f.id < e.id) :
    Inv { w with nextEvent := w.nextEvent + 1, events := e :: w.events } must submitted := by
  have hold := h.natives
  refine ⟨h.queues, ⟨fun f hf => ?_, fun q b hb => ⟨?_, fun f hf => ?_⟩,
    fun q t ht => ⟨?_, fun f hf => ?_⟩, hold.apart, hold.own⟩, fun f hf => ?_,
    fun f hf g hg hfi hgi hs hle x hx => ?_, fun f hf g hg hfi hgi hq => ?_, h.must, h.submitted,
    h.thread⟩
  · show f.native < w.nextEvent + 1
    rcases List.mem_cons.mp hf with rfl | hf
    · omega
    · have := hold.events f hf
      omega
  · exact Nat.lt_succ_of_lt (hold.barrier q b hb).1
  · rcases List.mem_cons.mp hf with rfl | hf
    · have := (hold.barrier q b hb).1
      omega
    · exact (hold.barrier q b hb).2 f hf
  · exact Nat.lt_succ_of_lt (hold.tmp q t ht).1
  · rcases List.mem_cons.mp hf with rfl | hf
    · have := (hold.tmp q t ht).1
      omega
    · exact (hold.tmp q t ht).2 f hf
  · refine EventOk.congr (w := w) rfl rfl ?_
    rcases List.mem_cons.mp hf with rfl | hf
    · exact hok
    · exact h.events f hf
  · -- the new event is the latest of its stream
    rcases List.mem_cons.mp hf with rfl | hf' <;> rcases List.mem_cons.mp hg with rfl | hg'
    · exact hx
    · have := hold.events g hg'
      omega
    · exact hlater f hf' hfi hgi hs x hx
    · exact h.order f hf' g hg' hfi hgi hs hle x hx
  · rcases List.mem_cons.mp hf with rfl | hf' <;> rcases List.mem_cons.mp hg with rfl | hg'
    · omega
    · have := hold.events g hg'
      have := hid g hg' hgi hfi hq.symm
      omega
    · have := hold.events f hf'
      have := hid f hf' hfi hgi hq
      omega
    · exact h.ids f hf' g hg' hfi hgi hq

/-- The event counter of a queue goes up. -/
theorem Inv.countEvent (q : Nat) :
    (w.setQueue q { w.queues q with eventCount := (w.queues q).eventCount + 1 }).Inv
      must submitted := by
  have hok := h.queues q
  exact h.move ⟨hok.size_pos, hok.size_lt, hok.counts, hok.settled, hok.created_le, hok.applied⟩
    ⟨rfl, fun _ _ => rfl, fun _ => Nat.le_refl _, fun _ _ hw => hw, fun _ _ _ => rfl,
      Nat.le_succ _⟩ rfl

/-- **Recording the event of a command.** It stands for everything on its stream. -/
theorem Inv.recordEvent {stream token : Nat}
    (htok : token ≠ noToken → w.Placed q .compute token stream)
    (hr : w.recordEvent q stream token = some w') :
    w'.Inv must submitted ∧ w'.ops = .record w.nextEvent stream :: w.ops := by
  unfold World.recordEvent at hr
  split at hr
  next => exact absurd hr (by simp)
  next =>
    -- first the record, then the count, then the event itself
    have h₁ : (w.emit (.record w.nextEvent stream)).Inv must submitted := by
      refine h.emit fun n s hop => ?_
      obtain ⟨rfl, -⟩ := StreamOp.record.inj hop
      exact h.untracked_next
    have h₂ := h₁.countEvent q
    generalize hw₂ : (w.emit (.record w.nextEvent stream)).setQueue q _ = w₂ at h₂
    have hops : w₂.ops = .record w.nextEvent stream :: w.ops := by rw [← hw₂]; rfl
    have hev : w₂.events = w.events := by rw [← hw₂]; rfl
    have hnext : w₂.nextEvent = w.nextEvent := by rw [← hw₂]; rfl
    have hpool : (w₂.queues q).pool = (w.queues q).pool ∧
        (w₂.queues q).since = (w.queues q).since ∧
        (w₂.queues q).streams = (w.queues q).streams ∧
        (w₂.queues q).eventCount = (w.queues q).eventCount + 1 := by
      rw [← hw₂, setQueue_same]
      exact ⟨rfl, rfl, rfl, rfl⟩
    have hnew : mark w₂.ops w.nextEvent = past w.ops stream := by rw [hops, mark_record]
    have hpast : past w₂.ops stream = past w.ops stream := by
      rw [hops]
      simp [past]
    have hadd := h₂.addEvent
      (e := { queue := some q, stream, token, id := (w.queues q).eventCount + 1,
              native := w.nextEvent, isInterop := false }) hnext.symm ?_ ?_ ?_
    · obtain rfl := Option.some.inj hr
      rw [← hw₂] at hadd
      exact ⟨hadd, rfl⟩
    · refine ⟨q, rfl, Nat.succ_pos _, hpool.2.2.2.symm ▸ Nat.le_refl _, fun x hx => ?_,
        fun ht => ?_⟩
      · rw [hnew] at hx
        rwa [hpast]
      · have hp := htok ht
        refine ⟨?_, ?_, .inr ?_⟩
        · rw [hpool.1]
          exact hp.exists_slot
        · rw [hpool.1, hpool.2.2.1]
          exact hp.stream.symm
        · rw [hpool.1, hpool.2.1]
          exact hp.recent
    · intro f hf hfi _ hs x hx
      rw [hnew, ← hpast]
      have hok := h₂.events f hf
      rw [EventOk, if_neg (by simp [hfi])] at hok
      obtain ⟨q', ho⟩ := hok
      have := ho.past x hx
      rwa [hs] at this
    · intro f hf hfi _ hq
      have hok := h.events f (hev ▸ hf)
      rw [EventOk, if_neg (by simp [hfi])] at hok
      obtain ⟨q', ho⟩ := hok
      have hle := ho.id_le
      obtain rfl : q' = q := Option.some.inj (ho.queue.symm.trans hq)
      exact Nat.lt_succ_of_le hle

/-- An interop event is not one of a queue. -/
theorem Inv.makeWithNative (stream : Nat) :
    (w.makeWithNative stream).Inv must submitted := by
  have h₁ : (w.emit (.record w.nextEvent stream)).Inv must submitted := by
    refine h.emit fun n s hop => ?_
    obtain ⟨rfl, -⟩ := StreamOp.record.inj hop
    exact h.untracked_next
  exact h₁.addEvent (e := ⟨none, 0, noToken, 0, w.nextEvent, true⟩) rfl ⟨rfl, rfl⟩
    (fun _ _ _ hi => absurd hi (by simp)) (fun _ _ _ hi => absurd hi (by simp))

/-! ## The events of barriers -/

/-- `BarrierEvent` exists from the first barrier on. -/
theorem Inv.ensureBarrierEvent {b : Nat}
    (hb : w.ensureBarrierEvent q = (w', b)) :
    w'.Inv must submitted ∧ w'.ops = w.ops ∧ w'.events = w.events ∧
      (w'.queues q).barrierEvent = some b ∧
      (w'.queues q) = { w.queues q with barrierEvent := some b } ∧
      ∀ q', q' ≠ q → w'.queues q' = w.queues q' := by
  unfold World.ensureBarrierEvent at hb
  split at hb
  next b' hb' =>
    obtain ⟨rfl, rfl⟩ := Prod.mk.inj hb
    exact ⟨h, rfl, rfl, hb', by rw [← hb'], fun _ _ => rfl⟩
  next hnone =>
    obtain ⟨rfl, rfl⟩ := Prod.mk.inj hb
    have hsame : ∀ q', q' ≠ q → (w.setQueue q
        { w.queues q with barrierEvent := some w.nextEvent }).queues q' = w.queues q' :=
      fun q' hq => setQueue_other w _ hq
    have hbar : ∀ q' b', ((w.setQueue q
        { w.queues q with barrierEvent := some w.nextEvent }).queues q').barrierEvent = some b' →
        (q' = q ∧ b' = w.nextEvent) ∨ (q' ≠ q ∧ (w.queues q').barrierEvent = some b') := by
      intro q' b' hb'
      by_cases hq : q' = q
      · rw [hq, setQueue_same] at hb'
        exact .inl ⟨hq, (Option.some.inj hb').symm⟩
      · rw [hsame q' hq] at hb'
        exact .inr ⟨hq, hb'⟩
    have htmp : ∀ q', ((w.setQueue q
        { w.queues q with barrierEvent := some w.nextEvent }).queues q').barrierTmpEvent =
        (w.queues q').barrierTmpEvent := setQueue_field Queue.barrierTmpEvent (by rfl)
    have hn := h.natives
    refine ⟨⟨fun q' => ?_, ⟨fun e he => Nat.lt_succ_of_lt (hn.events e he), fun q' b' hb' => ?_,
      fun q' t ht => ?_, fun q₁ q₂ b' t hb' ht => ?_, fun q₁ q₂ b' hne hb₁ hb₂ => ?_⟩,
      fun e he => ?_, h.order, h.ids, fun q' x hx => ?_, fun q' x hx => ?_, h.thread⟩, rfl, rfl,
      ?_, ?_, hsame⟩
    · by_cases hq : q' = q
      · have hok := h.queues q
        show ((w.setQueue q _).queues q').Ok w.ops
        rw [hq, setQueue_same]
        -- no flag is set while there is no barrier event
        refine ⟨hok.size_pos, hok.size_lt, hok.counts, hok.settled, hok.created_le,
          fun k i hi => ?_⟩
        obtain ⟨-, b₀, hb₀, -⟩ := hok.applied k i hi
        rw [hnone] at hb₀
        exact absurd hb₀ (by simp)
      · show ((w.setQueue q _).queues q').Ok w.ops
        rw [hsame q' hq]
        exact h.queues q'
    · rcases hbar q' b' hb' with ⟨-, rfl⟩ | ⟨-, hold⟩
      · exact ⟨Nat.lt_succ_self _, fun e he heq => h.untracked_next.1 e he heq⟩
      · exact ⟨Nat.lt_succ_of_lt (hn.barrier q' b' hold).1, (hn.barrier q' b' hold).2⟩
    · have ht' := (htmp q').symm.trans ht
      exact ⟨Nat.lt_succ_of_lt (hn.tmp q' t ht').1, (hn.tmp q' t ht').2⟩
    · have ht' := (htmp q₂).symm.trans ht
      rcases hbar q₁ b' hb' with ⟨-, rfl⟩ | ⟨-, hold⟩
      · have := (hn.tmp q₂ t ht').1
        omega
      · exact hn.apart q₁ q₂ b' t hold ht'
    · rcases hbar q₁ b' hb₁ with ⟨hq₁, rfl⟩ | ⟨-, hold₁⟩
      · rcases hbar q₂ _ hb₂ with ⟨hq₂, -⟩ | ⟨-, hold₂⟩
        · exact hne (hq₁.trans hq₂.symm)
        · exact h.untracked_next.2 q₂ hold₂
      · rcases hbar q₂ _ hb₂ with ⟨-, rfl⟩ | ⟨-, hold₂⟩
        · exact h.untracked_next.2 q₁ hold₁
        · exact hn.own q₁ q₂ b' hne hold₁ hold₂
    · exact (h.events e he).imp fun q' ho => ho.congr rfl
        (setQueue_field Queue.eventCount (by rfl) q') (setQueue_field Queue.pool (by rfl) q')
        (setQueue_field Queue.since (by rfl) q') (setQueue_field Queue.streams (by rfl) q')
    · rcases h.must q' x hx with hk | ⟨b', hb', hm⟩
      · exact .inl hk
      · refine .inr ⟨b', ?_, hm⟩
        have hq : q' ≠ q := by
          intro hq
          rw [hq, hnone] at hb'
          exact absurd hb' (by simp)
        show ((w.setQueue q _).queues q').barrierEvent = some b'
        rw [hsame q' hq]
        exact hb'
    · rcases h.submitted q' x hx with hk | ⟨s, hs, hp⟩
      · exact .inl hk
      · exact .inr ⟨s, (setQueue_field (fun y => y.Home s) (by rfl) q').mpr hs, hp⟩
    · show ((w.setQueue q _).queues q).barrierEvent = _
      rw [setQueue_same]
    · show (w.setQueue q _).queues q = _
      rw [setQueue_same]

theorem Inv.bumpEvent :
    Inv { w with nextEvent := w.nextEvent + 1 } must submitted := by
  have hn := h.natives
  exact ⟨h.queues, ⟨fun e he => Nat.lt_succ_of_lt (hn.events e he),
    fun q b hb => ⟨Nat.lt_succ_of_lt (hn.barrier q b hb).1, (hn.barrier q b hb).2⟩,
    fun q t ht => ⟨Nat.lt_succ_of_lt (hn.tmp q t ht).1, (hn.tmp q t ht).2⟩, hn.apart, hn.own⟩,
    fun e he => EventOk.congr (w := w) rfl rfl (h.events e he), h.order, h.ids, h.must,
    h.submitted, h.thread⟩

/-- `BarrierTmpEvent` is on no event's and no barrier's native event. -/
theorem Inv.ensureBarrierTmpEvent {t : Nat}
    (ht : w.ensureBarrierTmpEvent q = (w', t)) :
    w'.Inv must submitted ∧ w'.Untracked t ∧ w'.ops = w.ops ∧
      (w'.queues q) = { w.queues q with barrierTmpEvent := some t } := by
  unfold World.ensureBarrierTmpEvent at ht
  split at ht
  next t' ht' =>
    obtain ⟨rfl, rfl⟩ := Prod.mk.inj ht
    refine ⟨h, ⟨(h.natives.tmp q t' ht').2, fun q' hb => ?_⟩, rfl, by rw [← ht']⟩
    exact h.natives.apart q' q t' t' hb ht' rfl
  next =>
    obtain ⟨rfl, rfl⟩ := Prod.mk.inj ht
    have h₁ := h.bumpEvent
    have hfresh := h.untracked_next
    have hok := h₁.queues q
    have hbar : ∀ q', (({ w with nextEvent := w.nextEvent + 1 }.setQueue q
        { w.queues q with barrierTmpEvent := some w.nextEvent }).queues q').barrierEvent =
        (w.queues q').barrierEvent := setQueue_field Queue.barrierEvent (by rfl)
    have hn := h₁.natives
    have h₂ := h₁.moveNatives (q := q)
      (x := { w.queues q with barrierTmpEvent := some w.nextEvent })
      ⟨hok.size_pos, hok.size_lt, hok.counts, hok.settled, hok.created_le, hok.applied⟩
      ⟨rfl, fun _ _ => rfl, fun _ => Nat.le_refl _, fun _ _ hw => hw, fun _ _ _ => rfl,
        Nat.le_refl _⟩
      ⟨hn.events, fun q' b hb => hn.barrier q' b ((hbar q').symm.trans hb), fun q' t ht' => ?_,
        fun q₁ q₂ b t hb ht' => ?_,
        fun q₁ q₂ b hne hb₁ hb₂ => hn.own q₁ q₂ b hne ((hbar q₁).symm.trans hb₁)
          ((hbar q₂).symm.trans hb₂)⟩
    · refine ⟨h₂, ⟨hfresh.1, fun q' hb => hfresh.2 q' ?_⟩, rfl, ?_⟩
      · exact (hbar q').symm.trans hb
      · show (World.setQueue _ q _).queues q = _
        rw [setQueue_same]
    · by_cases hq : q' = q
      · rw [hq, setQueue_same] at ht'
        obtain rfl := Option.some.inj ht'
        exact ⟨Nat.lt_succ_self _, hfresh.1⟩
      · rw [setQueue_other _ _ hq] at ht'
        exact hn.tmp q' t ht'
    · by_cases hq : q₂ = q
      · rw [hq, setQueue_same] at ht'
        obtain rfl := Option.some.inj ht'
        intro heq
        exact hfresh.2 q₁ (heq ▸ (hbar q₁).symm.trans hb)
      · rw [setQueue_other _ _ hq] at ht'
        exact hn.apart q₁ q₂ b t ((hbar q₁).symm.trans hb) ht'

end

/-! ## Everything the queue has submitted -/

theorem told_record {n s : Nat} (h : w.Untracked n) : w.Told (w.emit (.record n s)) := by
  refine told_emit fun n' s' hop => ?_
  obtain ⟨rfl, -⟩ := StreamOp.record.inj hop
  exact h

theorem Untracked.told {n : Nat} (h : w.Untracked n) (ht : w.Told w') : w'.Untracked n := by
  refine ⟨fun e he => ?_, fun q => ?_⟩
  · rw [ht.events] at he
    exact h.1 e he
  · rw [ht.queues]
    exact h.2 q

/-- One stream waits for all the others. -/
theorem gather_spec {tmp : Nat} (stream : Nat) (l : List Nat) (h : w.Untracked tmp) :
    w.Told (gather tmp stream w l) ∧
      ∀ s ∈ l, ∀ x ∈ past w.ops s, x ∈ past (gather tmp stream w l).ops stream := by
  induction l generalizing w with
  | nil => exact ⟨Told.refl w, fun _ hs => absurd hs List.not_mem_nil⟩
  | cons s rest ih =>
    unfold gather
    split
    next heq =>
      obtain ⟨ht, hcov⟩ := ih h
      refine ⟨ht, fun s' hs' x hx => ?_⟩
      rcases List.mem_cons.mp hs' with rfl | hs'
      · rw [← heq] at hx
        exact ht.ext.past _ x hx
      · exact hcov s' hs' x hx
    next =>
      have h₁ := told_record (s := s) h
      have h₂ := h₁.trans (told_wait _ stream tmp)
      obtain ⟨ht, hcov⟩ := ih (h.told h₂)
      refine ⟨h₂.trans ht, fun s' hs' x hx => ?_⟩
      rcases List.mem_cons.mp hs' with rfl | hs'
      · refine ht.ext.past _ x (mem_past_wait ?_)
        show x ∈ mark (.record tmp s' :: w.ops) tmp
        rwa [mark_record]
      · exact hcov s' hs' x (h₂.ext.past s' x hx)

/-- The counters of a queue can be read: `syncStreams` reaches every recent
token. -/
def Readable (w : World) (q : Nat) : Prop :=
  ∀ k, ((w.queues q).pool k).size ≠ 0 → Covered uint32Values ((w.queues q).pool k).size
    ((w.queues q).pool k).lastSync ((w.queues q).since k)

/-- A recent token's stream is one that `syncStreams` looks at. -/
theorem Inv.placed_synced (h : w.Inv must submitted) (a : Adapter) {token stream : Nat}
    (hc : Covered uint32Values ((w.queues q).pool k).size ((w.queues q).pool k).lastSync
      ((w.queues q).since k)) (hp : w.Placed q k token stream) :
    stream ∈ w.syncedStreams a q k := by
  have hok := h.queues q
  have hpos : 0 < ((w.queues q).pool k).size :=
    Nat.lt_of_le_of_lt (Nat.zero_le _) (Nat.lt_of_lt_of_le hp.exists_slot (hok.created_le k))
  unfold syncedStreams
  rw [if_neg (by omega)]
  exact List.mem_map.mpr ⟨_, (hok.counts k).slot_mem_syncSlots ⟨hok.settled k, hc⟩ a hpos hp.recent,
    hp.stream⟩

/-- **A barrier without a wait list makes its stream wait for everything.** -/
theorem Inv.waitForAll (h : w.Inv must submitted) (a : Adapter) (stream : Nat)
    (hr : w.Readable q) :
    (w.waitForAll a q stream).Inv must submitted ∧ w.ops <:+ (w.waitForAll a q stream).ops ∧
      (∀ x ∈ submitted q, x ∈ known (w.waitForAll a q stream).ops ∨
        x ∈ past (w.waitForAll a q stream).ops stream) ∧
      Moves (w.queues q) ((w.waitForAll a q stream).queues q) ∧
      ((w.waitForAll a q stream).queues q).barrierEvent = (w.queues q).barrierEvent := by
  unfold World.waitForAll
  rcases hw₁ : w.ensureBarrierTmpEvent q with ⟨w₁, tmp⟩
  obtain ⟨h₁, hun, hops, hq₁⟩ := h.ensureBarrierTmpEvent hw₁
  obtain ⟨ht, hcov⟩ := gather_spec stream
    (w₁.syncedStreams a q .compute ++ w₁.syncedStreams a q .transfer) hun
  dsimp only
  generalize gather tmp stream w₁ _ = w₂ at ht hcov
  have h₂ := h₁.told ht
  have hq₂ : w₂.queues q = { w.queues q with barrierTmpEvent := some tmp } := by
    rw [ht.queues, hq₁]
  have h₃ := h₂.sameCounters (q := q) (k := .compute)
    (p := ((w₂.queues q).pool .compute).syncForBarrier a) rfl rfl rfl rfl
  refine ⟨h₃, hops ▸ ht.ops, fun x hx => ?_, ?_, ?_⟩
  · rcases h₁.submitted q x hx with hk | ⟨s, ⟨k, t, hw, hlt, hst⟩, hp⟩
    · exact .inl (ht.ext.known x hk)
    · right
      have hpl : w₁.Placed q k t s := ⟨hw, hlt, hst⟩
      have hne : ((w.queues q).pool k).size ≠ 0 := by
        have := (h₁.queues q).created_le k
        have hlt' := Nat.lt_of_lt_of_le hlt this
        rw [hq₁] at hlt'
        exact Nat.ne_of_gt (Nat.lt_of_le_of_lt (Nat.zero_le _) hlt')
      have hc : Covered uint32Values ((w₁.queues q).pool k).size ((w₁.queues q).pool k).lastSync
          ((w₁.queues q).since k) := by
        rw [hq₁]
        exact hr k hne
      have hin := h₁.placed_synced a hc hpl
      refine hcov s ?_ x hp
      cases k with
      | compute => exact List.mem_append_left _ hin
      | transfer => exact List.mem_append_right _ hin
  · rw [setQueue_same, hq₂]
    refine ⟨rfl, fun k t => ?_, fun k => ?_, fun k t hw => ?_, fun _ _ _ => rfl, Nat.le_refl _⟩ <;>
      cases k <;> first | exact hw | exact Nat.le_refl _ | rfl
  · rw [setQueue_same, hq₂]
    rfl

/-- **Recording the barrier event.** Everything in the past of its stream stands
behind it from now on. -/
theorem Inv.raiseBarrier (h : w.Inv must submitted) {b stream : Nat} {must' : Nat → List Nat}
    (hb : (w.queues q).barrierEvent = some b)
    (hmust : ∀ x ∈ must' q, x ∈ known w.ops ∨ x ∈ past w.ops stream)
    (hother : ∀ q', q' ≠ q → must' q' = must q') :
    (w.raiseBarrier q b stream).Inv must' submitted := by
  have hok := h.queues q
  have hn := h.natives
  have hpast : ∀ s, ∀ x ∈ past w.ops s, x ∈ past (.record b stream :: w.ops) s :=
    fun s x hx => past_mono hx
  have hknown : ∀ x ∈ known w.ops, x ∈ known (.record b stream :: w.ops) :=
    fun x hx => known_mono hx
  -- nobody else has the native event that is recorded here
  have hev : ∀ e ∈ w.events, mark (.record b stream :: w.ops) e.native = mark w.ops e.native := by
    refine fun e he => mark_of_ne fun s hs => ?_
    obtain ⟨heq, -⟩ := StreamOp.record.inj hs
    exact (hn.barrier q b hb).2 e he heq.symm
  have hbar : ∀ q', q' ≠ q → ∀ b', (w.queues q').barrierEvent = some b' →
      mark (.record b stream :: w.ops) b' = mark w.ops b' := by
    refine fun q' hq b' hb' => mark_of_ne fun s hs => ?_
    obtain ⟨rfl, -⟩ := StreamOp.record.inj hs
    exact hn.own q' q b hq hb' hb
  have hsame : ∀ q', q' ≠ q → (w.raiseBarrier q b stream).queues q' = w.queues q' :=
    fun q' hq => setQueue_other _ _ hq
  have hq : (w.raiseBarrier q b stream).queues q =
      { w.queues q with applied := fun _ _ => false } := setQueue_same _ _ _
  have hset := hn.setQueue (q := q) (x := { w.queues q with applied := fun _ _ => false }) rfl rfl
  refine ⟨fun q' => ?_, ⟨hset.events, hset.barrier, hset.tmp, hset.apart, hset.own⟩,
    fun e he => ?_, fun e he f hf hei hfi hs hle x hx => ?_, h.ids, fun q' x hx => ?_,
    fun q' x hx => ?_, h.thread⟩
  · by_cases hqq : q' = q
    · rw [hqq, hq]
      exact ⟨hok.size_pos, hok.size_lt, hok.counts, hok.settled, hok.created_le,
        fun _ _ hi => absurd hi (by simp)⟩
    · rw [hsame q' hqq]
      exact Queue.Ok.extends (h.queues q') hpast (hbar q' hqq)
  · refine (h.events e he).imp fun q' ho =>
      ⟨ho.queue, ho.id_pos, ?_, fun x hx => ?_, fun ht => ?_⟩
    · exact ho.id_le.trans_eq (setQueue_field Queue.eventCount (by rfl) q').symm
    · have hx' : x ∈ mark w.ops e.native := by
        rw [← hev e he]
        exact hx
      exact hpast _ x (ho.past x hx')
    · have hsl := ho.slot ht
      have hpool : ((w.raiseBarrier q b stream).queues q').pool = (w.queues q').pool :=
        setQueue_field Queue.pool (by rfl) q'
      have hstreams : ((w.raiseBarrier q b stream).queues q').streams = (w.queues q').streams :=
        setQueue_field Queue.streams (by rfl) q'
      have hsince : ((w.raiseBarrier q b stream).queues q').since = (w.queues q').since :=
        setQueue_field Queue.since (by rfl) q'
      unfold OnSlot at hsl ⊢
      rw [hpool, hstreams, hsince]
      refine ⟨hsl.1, hsl.2.1, hsl.2.2.imp (fun hk x hx => ?_) id⟩
      refine hknown x (hk x ?_)
      rw [← hev e he]
      exact hx
  · have hx' : x ∈ mark w.ops e.native := by
      rw [← hev e he]
      exact hx
    show x ∈ mark (.record b stream :: w.ops) f.native
    rw [hev f hf]
    exact h.order e he f hf hei hfi hs hle x hx'
  · by_cases hqq : q' = q
    · rw [hqq] at hx ⊢
      rcases hmust x hx with hk | hp
      · exact .inl (hknown x hk)
      · refine .inr ⟨b, by rw [hq]; exact hb, ?_⟩
        show x ∈ mark (.record b stream :: w.ops) b
        rwa [mark_record]
    · rw [hother q' hqq] at hx
      rcases h.must q' x hx with hk | ⟨b', hb', hm⟩
      · exact .inl (hknown x hk)
      · refine .inr ⟨b', by rw [hsame q' hqq]; exact hb', ?_⟩
        show x ∈ mark (.record b stream :: w.ops) b'
        rwa [hbar q' hqq b' hb']
  · rcases h.submitted q' x hx with hk | ⟨s, hs, hp⟩
    · exact .inl (hknown x hk)
    · exact .inr ⟨s, (setQueue_field (fun y => y.Home s) (by rfl) q').mpr hs, hpast s x hp⟩

/-! ## Finish -/

theorem syncAll_told (w : World) (l : List Nat) : w.Told (syncAll w l) := by
  induction l generalizing w with
  | nil => exact Told.refl w
  | cons s rest ih => exact (told_sync w s).trans (ih _)

/-- The host has waited for every stream of the list. -/
theorem syncAll_known {l : List Nat} {s x : Nat} (hs : s ∈ l) (hx : x ∈ past w.ops s) :
    x ∈ known (syncAll w l).ops := by
  induction l generalizing w with
  | nil => exact absurd hs List.not_mem_nil
  | cons s' rest ih =>
    rcases List.mem_cons.mp hs with rfl | hs
    · exact (syncAll_told _ rest).ext.known x (mem_known_sync hx)
    · refine ih hs ?_
      show x ∈ past (.sync s' :: w.ops) s
      simpa only [past] using hx

/-- No token of a finished vector is recent. -/
theorem finishPool_placed (h : w.Inv must submitted) (a : Adapter) (k : Kind) {token stream : Nat} :
    ¬ (finishPool a k w q).Placed q k token stream := by
  intro hp
  unfold finishPool at hp
  split at hp
  next hz =>
    have hlt := hp.exists_slot
    have := (h.queues q).created_le k
    omega
  next =>
    have hwin := hp.recent
    rw [setQueue_same] at hwin
    have hzero : ((w.queues q).finishPool a k).since k = 0 := by
      show update (w.queues q).since k 0 k = 0
      rw [update_self]
    obtain ⟨i, hi, -⟩ := hwin
    omega

/-- Finishing one vector does not touch the other. -/
theorem finishPool_other (a : Adapter) (w : World) (q : Nat) {k j : Kind} (hj : j ≠ k) :
    (((finishPool a k w q).queues q).pool j) = (w.queues q).pool j ∧
      ((finishPool a k w q).queues q).since j = (w.queues q).since j ∧
      ((finishPool a k w q).queues q).streams = (w.queues q).streams := by
  unfold finishPool
  split
  next => exact ⟨rfl, rfl, rfl⟩
  next =>
    rw [setQueue_same]
    refine ⟨?_, ?_, rfl⟩
    · show update (w.queues q).pool k _ j = _
      rw [update_of_ne hj]
    · show update (w.queues q).since k _ j = _
      rw [update_of_ne hj]

/-- **One body of `urQueueFinish`.** -/
theorem Inv.finishPool (h : w.Inv must submitted) (a : Adapter) (k : Kind)
    (hr : ((w.queues q).pool k).size ≠ 0 → Covered uint32Values ((w.queues q).pool k).size
      ((w.queues q).pool k).lastSync ((w.queues q).since k)) :
    (finishPool a k w q).Inv must submitted ∧ w.ops <:+ (finishPool a k w q).ops := by
  unfold World.finishPool
  split
  next => exact ⟨h, List.suffix_rfl⟩
  next hnz =>
    have ht := syncAll_told w (w.syncedStreams a q k)
    -- everything on the stream of a recent token is known to be over
    have hover : ∀ token stream, w.Placed q k token stream → ∀ x ∈ past w.ops stream,
        x ∈ known (syncAll w (w.syncedStreams a q k)).ops := fun token stream hp x hx =>
      syncAll_known (h.placed_synced a (hr hnz) hp) hx
    generalize syncAll w (w.syncedStreams a q k) = w₁ at ht hover
    have h₁ := h.told ht
    have hok := h₁.queues q
    have hqs : w₁.queues = w.queues := ht.queues
    rw [hqs] at hok
    have hpool : ∀ j, (((w.queues q).finishPool a k).pool j).size = ((w.queues q).pool j).size ∧
        (((w.queues q).finishPool a k).pool j).created = ((w.queues q).pool j).created ∧
        (((w.queues q).finishPool a k).pool j).index = ((w.queues q).pool j).index := by
      intro j
      show ((((w.queues q).setPool k _).pool j).size = _) ∧ ((((w.queues q).setPool k _).pool j).created
        = _) ∧ ((((w.queues q).setPool k _).pool j).index = _)
      by_cases hj : j = k
      · subst hj
        rw [Queue.setPool_same]
        exact ⟨rfl, rfl, rfl⟩
      · rw [Queue.setPool_other _ hj]
        exact ⟨rfl, rfl, rfl⟩
    have hother : ∀ j, j ≠ k → (((w.queues q).finishPool a k).pool j) = (w.queues q).pool j ∧
        ((w.queues q).finishPool a k).since j = (w.queues q).since j := by
      refine fun j hj => ⟨Queue.setPool_other _ hj, ?_⟩
      show update (w.queues q).since k 0 j = _
      rw [update_of_ne hj]
    have hsame : ∀ q', q' ≠ q → (w₁.setQueue q ((w.queues q).finishPool a k)).queues q' =
        w.queues q' := fun q' hq => by rw [setQueue_other _ _ hq, hqs]
    refine ⟨⟨fun q' => ?_, h₁.natives.setQueue (by rw [hqs]; rfl) (by rw [hqs]; rfl), fun e he => ?_,
      h₁.order, h₁.ids, fun q' x hx => ?_, fun q' x hx => ?_, h₁.thread⟩, ht.ops⟩
    · by_cases hq : q' = q
      · rw [hq, setQueue_same]
        refine ⟨(hpool _).1 ▸ hok.size_pos, fun j => (hpool j).1 ▸ hok.size_lt j, fun j => ?_,
          fun j => ?_, fun j => ?_, fun j i hi => ?_⟩
        · by_cases hj : j = k
          · subst hj
            have hfin := (hok.counts j).finish (hok.settled j) a
            have hp : ((w.queues q).finishPool a j).pool j =
                ((w.queues q).pool j).syncForFinish a := Queue.setPool_same _
            have hs : ((w.queues q).finishPool a j).since j = 0 := by
              show update (w.queues q).since j 0 j = 0
              rw [update_self]
            rw [hp, hs]
            exact hfin
          · rw [(hother j hj).1, (hother j hj).2]
            exact hok.counts j
        · unfold Pool.Settled
          rw [(hpool j).1, (hpool j).2.1, (hpool j).2.2]
          exact hok.settled j
        · rw [(hpool j).1, (hpool j).2.1]
          exact hok.created_le j
        · rw [(hpool j).2.1]
          exact hok.applied j i hi
      · rw [hsame q' hq]
        have := h₁.queues q'
        rwa [hqs] at this
    · have heok := h₁.events e he
      unfold EventOk at heok ⊢
      split
      next hi => rwa [if_pos hi] at heok
      next hi =>
        rw [if_neg hi] at heok
        obtain ⟨q', ho⟩ := heok
        refine ⟨q', ho.queue, ho.id_pos, ?_, ho.past, fun htok => ?_⟩
        · exact ho.id_le.trans_eq
            (setQueue_field (w := w₁) Queue.eventCount (by rw [hqs]; rfl) q').symm
        · have hsl := ho.slot htok
          unfold OnSlot at hsl ⊢
          rw [hqs] at hsl
          by_cases hq : q' = q
          · subst hq
            rw [setQueue_same]
            have hslot : (((w.queues q').finishPool a k).pool .compute).slot e.token =
                ((w.queues q').pool .compute).slot e.token := by
              unfold Pool.slot
              rw [(hpool .compute).1]
            rw [hslot, (hpool .compute).2.1]
            refine ⟨hsl.1, hsl.2.1, ?_⟩
            rcases hsl.2.2 with hk | hwin
            · exact .inl hk
            · by_cases hk : Kind.compute = k
              · -- the event's stream has just been waited for
                subst hk
                left
                have hwe : e ∈ w.events := by
                  rw [← ht.events]
                  exact he
                intro x hx
                have hx' : x ∈ mark w.ops e.native := by
                  rw [← ht.ext.events e hwe]
                  exact hx
                refine hover e.token e.stream ⟨hwin, hsl.1, hsl.2.1.symm⟩ x ?_
                have hok := h.events e hwe
                rw [EventOk, if_neg hi] at hok
                obtain ⟨q₀, ho₀⟩ := hok
                exact ho₀.past x hx'
              · right
                rw [(hother _ hk).1, (hother _ hk).2]
                exact hwin
          · rw [hsame q' hq]
            exact hsl
    · rcases h₁.must q' x hx with hk | ⟨b, hb, hm⟩
      · exact .inl hk
      · exact .inr ⟨b, (setQueue_field Queue.barrierEvent (by rw [hqs]; rfl) q').trans hb, hm⟩
    · rcases h.submitted q' x hx with hk | ⟨s, hs, hp⟩
      · exact .inl (ht.ext.known x hk)
      · by_cases hq : q' = q
        · subst hq
          obtain ⟨j, t, hw, hlt, hst⟩ := hs
          by_cases hj : j = k
          · subst hj
            exact .inl (hover t s ⟨hw, hlt, hst⟩ x hp)
          · refine .inr ⟨s, ?_, ht.ext.past s x hp⟩
            rw [setQueue_same]
            refine ⟨j, t, ?_, ?_, ?_⟩
            · rw [(hother j hj).1, (hother j hj).2]
              exact hw
            · rw [(hother j hj).1]
              exact hlt
            · rw [(hother j hj).1]
              exact hst
        · refine .inr ⟨s, ?_, ht.ext.past s x hp⟩
          rw [hsame q' hq]
          exact hs

/-- **`urQueueFinish` waits for everything the queue has submitted.** -/
theorem Inv.urQueueFinish (h : w.Inv must submitted) (a : Adapter) (hr : w.Readable q) :
    (urQueueFinish a w q).Inv must submitted ∧ w.ops <:+ (urQueueFinish a w q).ops ∧
      ∀ x ∈ submitted q, x ∈ known (urQueueFinish a w q).ops := by
  obtain ⟨h₁, hops₁⟩ := h.finishPool a .compute (hr .compute)
  have hkeep := finishPool_other a w q (k := .compute) (j := .transfer) (by decide)
  have hr₁ := hr .transfer
  rw [← hkeep.1, ← hkeep.2.1] at hr₁
  obtain ⟨h₂, hops₂⟩ := h₁.finishPool a .transfer hr₁
  refine ⟨h₂, hops₁.trans hops₂, fun x hx => ?_⟩
  rcases h₂.submitted q x hx with hk | ⟨s, ⟨k, t, hw, hlt, hst⟩, -⟩
  · exact hk
  · exfalso
    cases k with
    | transfer => exact finishPool_placed h₁ a .transfer ⟨hw, hlt, hst⟩
    | compute =>
      have hkeep₂ := finishPool_other a (World.finishPool a .compute w q) q (k := .transfer)
        (j := .compute) (by decide)
      rw [hkeep₂.1] at hlt hst
      rw [hkeep₂.1, hkeep₂.2.1] at hw
      rw [hkeep₂.2.2] at hst
      exact finishPool_placed h a .compute ⟨hw, hlt, hst⟩

end World

end UnifiedRuntime.Streams
