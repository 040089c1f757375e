import UnifiedRuntime.Streams.BarrierOrder

/-!
# The latest events of a wait list

`forLatestEvents` of both adapters sorts a wait list by stream and, newest first, by the number that
each queue counts for itself. Of each stream it looks at the first event, and at every interop event.
`std::sort` may leave events that compare equal in any order, so every sorted list is considered.

Threads record events in two steps: they draw a number from the queue, and then record the native
event on the stream. In between others can do the same.

- `waitsForAll_iff`: the visited events stand for the whole list if, on each stream, the event with
  the largest number is the one that was recorded last.
- `carefulRun_waits`: so it is where each stream has one queue and events are recorded one by one.
-/

namespace UnifiedRuntime.Streams

/-! ## The function -/

inductive UrResult where
  | success
  | error (code : Nat)

/-- `UR_RESULT_ERROR_INVALID_EVENT_WAIT_LIST`. -/
def invalidEventWaitList : UrResult := .error 13

/-- The calls of the function that is given, which is also told how many there were, and the result
that ends the loop. -/
def visit (f : Nat → Event → UrResult) : Nat → List Event → UrResult × List Event
  | _, [] => (.success, [])
  | n, e :: rest =>
    match f n e with
    | .success => ((visit f (n + 1) rest).1, e :: (visit f (n + 1) rest).2)
    | .error code => (.error code, [e])

/-- What `std::sort` can make of a list. -/
def SortedAs (waitList order : List Event) : Prop :=
  order.Perm waitList ∧ order.Pairwise Event.notAfter

/-- `forLatestEvents`, with the events that it visits. `order` is the sorted copy of the list. -/
def forLatestEvents (f : Nat → Event → UrResult) (waitList order : List Event) :
    UrResult × List Event :=
  match waitList with
  | [] => (invalidEventWaitList, [])
  | [e] => visit f 0 [e]
  | _ => visit f 0 (skipSeen true 0 order)

/-! ## Recordings -/

/-- The counters of the queues, the events that have a number but are not recorded yet, and those
that are; these are handed out. -/
structure Recordings where
  eventCount : Nat → UInt32
  drawn : List Event
  nextEvent : Nat
  events : List Event

inductive RecordingCall where
  /-- `EventID = Queue->getNextEventID()`, for an event that was made for the stream. -/
  | draw (queue stream token : Nat)
  /-- `cuEventRecord(EvEnd, Stream)` or `hipEventRecord`. -/
  | record (n : Nat)
  /-- The same where it fails. -/
  | recordFails (n : Nat)
  /-- `urEventCreateWithNativeHandle`. -/
  | makeWithNative

namespace Recordings

def init : Recordings := ⟨fun _ => 0, [], 0, []⟩

/-- A call of a thread. The process dies when a counter comes round to 0. -/
def step (s : Recordings) : RecordingCall → Option Recordings
  | .draw queue stream token =>
    let eventID := s.eventCount queue + 1
    if eventID = 0 then none
    else some
      { s with
        eventCount := Function.update s.eventCount queue eventID
        drawn :=
          { queue := some queue, stream, token, id := eventID.toNat, native := 0
            isInterop := false } :: s.drawn }
  | .record n =>
    match s.drawn[n]? with
    | none => some s
    | some e => some
      { s with
        drawn := s.drawn.eraseIdx n
        nextEvent := s.nextEvent + 1
        events := { e with native := s.nextEvent } :: s.events }
  | .recordFails n => some { s with drawn := s.drawn.eraseIdx n }
  | .makeWithNative => some
    { s with
      nextEvent := s.nextEvent + 1
      events :=
        { queue := none, stream := 0, token := noToken, id := 0, native := s.nextEvent
          isInterop := true } :: s.events }

def run (s : Recordings) (calls : List RecordingCall) : Option Recordings := calls.foldlM step s

end Recordings

/-! ## Waiting for all events -/

/-- A stream completes its events in the order in which they were recorded. -/
def InOrder (completed : Event → Prop) : Prop :=
  ∀ e f : Event, e.isInterop = false → f.isInterop = false → e.stream = f.stream →
    e.native ≤ f.native → completed f → completed e

/-- **Waiting on the visited events suffices**, however equal events are sorted, and the first error
is returned. -/
structure WaitsForAll (waitList : List Event) : Prop where
  visited : ∀ order f, SortedAs waitList order →
    ∀ e ∈ (forLatestEvents f waitList order).2, e ∈ waitList
  interop : ∀ order f, SortedAs waitList order → (forLatestEvents f waitList order).1 = .success →
    ∀ e ∈ waitList, e.isInterop = true → e ∈ (forLatestEvents f waitList order).2
  completes : ∀ order f, SortedAs waitList order →
    (forLatestEvents f waitList order).1 = .success → ∀ completed, InOrder completed →
      (∀ e ∈ (forLatestEvents f waitList order).2, completed e) → ∀ e ∈ waitList, completed e
  succeeds : ∀ order f, SortedAs waitList order → (forLatestEvents f waitList order).1 = .success →
    ∀ n e, (forLatestEvents f waitList order).2[n]? = some e → f n e = .success
  fails : ∀ order f code, SortedAs waitList order →
    (forLatestEvents f waitList order).1 = .error code →
      ∃ before e, (forLatestEvents f waitList order).2 = before ++ [e] ∧
        f before.length e = .error code ∧ ∀ n e', before[n]? = some e' → f n e' = .success

/-- On each stream the event with the largest number was recorded last. -/
def NewestLast (waitList : List Event) : Prop :=
  ∀ e ∈ waitList, ∀ f ∈ waitList, e.isInterop = false → f.isInterop = false →
    e.stream = f.stream →
      (∀ g ∈ waitList, g.isInterop = false → g.stream = f.stream → g.id ≤ f.id) →
        e.native ≤ f.native

instance (waitList : List Event) : Decidable (NewestLast waitList) := by
  unfold NewestLast
  infer_instance

/-! ## The loop -/

variable {f : Nat → Event → UrResult} {n last : Nat} {l waitList order : List Event} {e g : Event}
  {first : Bool}

/-- Where all calls succeed, all events are visited. -/
theorem visit_success (h : (visit f n l).1 = .success) :
    (visit f n l).2 = l ∧ ∀ k e, l[k]? = some e → f (n + k) e = .success := by
  induction l generalizing n with
  | nil => exact ⟨rfl, fun k e hk => by cases hk⟩
  | cons a rest ih =>
    unfold visit at h ⊢
    cases ha : f n a with
    | error code =>
      rw [ha] at h
      cases h
    | success =>
      rw [ha] at h
      obtain ⟨hall, hcalls⟩ := ih h
      refine ⟨by rw [hall], fun k e hk => ?_⟩
      cases k with
      | zero =>
        obtain rfl := Option.some.inj hk
        exact ha
      | succ k =>
        rw [Nat.add_succ, ← Nat.succ_add]
        exact hcalls k e hk

/-- An error ends the loop. -/
theorem visit_error {code : Nat} (h : (visit f n l).1 = .error code) :
    ∃ before e, (visit f n l).2 = before ++ [e] ∧ f (n + before.length) e = .error code ∧
      ∀ k e', before[k]? = some e' → f (n + k) e' = .success := by
  induction l generalizing n with
  | nil => cases h
  | cons a rest ih =>
    unfold visit at h ⊢
    cases ha : f n a with
    | error code' =>
      rw [ha] at h
      obtain rfl := UrResult.error.inj h
      exact ⟨[], a, rfl, ha, fun k e' hk => by cases hk⟩
    | success =>
      rw [ha] at h
      obtain ⟨before, e, hall, he, hcalls⟩ := ih h
      refine ⟨a :: before, e, by rw [hall]; rfl, ?_, fun k e' hk => ?_⟩
      · rw [List.length_cons, Nat.add_succ, ← Nat.succ_add]
        exact he
      · cases k with
        | zero =>
          obtain rfl := Option.some.inj hk
          exact ha
        | succ k =>
          rw [Nat.add_succ, ← Nat.succ_add]
          exact hcalls k e' hk

theorem mem_of_mem_visit (h : e ∈ (visit f n l).2) : e ∈ l := by
  induction l generalizing n with
  | nil => exact h
  | cons a rest ih =>
    unfold visit at h
    cases ha : f n a with
    | error code =>
      rw [ha] at h
      rw [List.mem_singleton.mp h]
      exact List.mem_cons_self
    | success =>
      rw [ha] at h
      rcases List.mem_cons.mp h with rfl | h
      · exact List.mem_cons_self
      · exact List.mem_cons_of_mem a (ih h)

/-- **Only the first event of a stream is visited**, interop events apart. -/
theorem skipSeen_unique (hs : l.Pairwise Event.notAfter)
    (hlast : first = false → ∀ x ∈ l, last ≤ x.stream) (he : e ∈ skipSeen first last l)
    (hi : e.isInterop = false) :
    (first = false → e.stream ≠ last) ∧
      ∀ g ∈ skipSeen first last l, g.isInterop = false → g.stream = e.stream → g = e := by
  induction l generalizing first last e with
  | nil => cases he
  | cons a rest ih =>
    obtain ⟨ha, hrest⟩ := List.pairwise_cons.mp hs
    have hle : ∀ x ∈ rest, a.stream ≤ x.stream := by
      intro x hx
      have := Event.notAfter_iff.mp (ha x hx)
      omega
    unfold skipSeen at he ⊢
    split at he
    next hskip =>
      rw [if_pos hskip]
      obtain ⟨hother, hown⟩ := ih hrest (fun _ x hx => hskip.2.2 ▸ hle x hx) he hi
      exact ⟨fun _ => hother rfl, hown⟩
    next hvisit =>
      rw [if_neg hvisit]
      rcases List.mem_cons.mp he with rfl | he
      · refine ⟨fun hf hstream => hvisit ⟨hf, hi, hstream⟩, fun g hg hgi hstream => ?_⟩
        rcases List.mem_cons.mp hg with rfl | hg
        · rfl
        · exact absurd hstream ((ih hrest (fun _ => hle) hg hgi).1 rfl)
      · obtain ⟨hother, hown⟩ := ih hrest (fun _ => hle) he hi
        have hmem := mem_of_mem_skipSeen he
        refine ⟨fun hf hstream => ?_, fun g hg hgi hstream => ?_⟩
        · -- streams do not come back
          have h1 := hlast hf a List.mem_cons_self
          have h2 := hle e hmem
          exact hother rfl (by omega)
        · rcases List.mem_cons.mp hg with rfl | hg
          · exact absurd hstream.symm (hother rfl)
          · exact hown g hg hgi hstream

/-! ## Wait lists -/

/-- Interop events have the number 0, all others a larger one. -/
def Numbered (waitList : List Event) : Prop :=
  ∀ e ∈ waitList, (e.isInterop = true → e.id = 0) ∧ (e.isInterop = false → 0 < e.id)

/-- **The newest event of a stream is visited**, and no other one that is not an interop event. -/
theorem skipSeen_newest (hnum : Numbered waitList) (hs : SortedAs waitList order)
    (he : e ∈ waitList) (hi : e.isInterop = false) :
    ∃ f ∈ skipSeen true 0 order, f.isInterop = false ∧ f.stream = e.stream ∧
      (∀ g ∈ waitList, g.isInterop = false → g.stream = f.stream → g.id ≤ f.id) ∧
      ∀ g ∈ skipSeen true 0 order, g.isInterop = false → g.stream = f.stream → g = f := by
  obtain ⟨hperm, hsorted⟩ := hs
  have hmem : ∀ {x}, x ∈ skipSeen true 0 order → x ∈ waitList := fun hx =>
    hperm.mem_iff.mp (mem_of_mem_skipSeen hx)
  have hcover : ∀ g ∈ waitList, g.isInterop = false →
      ∃ f ∈ skipSeen true 0 order, f.isInterop = false ∧ f.stream = g.stream ∧ g.id ≤ f.id := by
    intro g hg hgi
    rcases skipSeen_covers true 0 hsorted (hperm.mem_iff.mpr hg) with
      hin | ⟨-, hlast | ⟨f, hf, hstream, hid⟩⟩
    · exact ⟨g, hin, hgi, rfl, Nat.le_refl _⟩
    · cases hlast.1
    · refine ⟨f, hf, ?_, hstream, hid⟩
      -- an interop event has a smaller number
      by_contra hfi
      have hzero := (hnum f (hmem hf)).1 (Bool.not_eq_false _ ▸ hfi)
      have hpos := (hnum g hg).2 hgi
      omega
  obtain ⟨f, hf, hfi, hstream, -⟩ := hcover e he hi
  have hunique := (skipSeen_unique hsorted (fun h => by cases h) hf hfi).2
  refine ⟨f, hf, hfi, hstream, fun g hg hgi hgs => ?_, hunique⟩
  obtain ⟨f', hf', hfi', hstream', hid⟩ := hcover g hg hgi
  rwa [hunique f' hf' hfi' (hstream'.trans hgs)] at hid

/-- What the function calls, where all calls succeed. -/
theorem forLatestEvents_success (hne : waitList ≠ []) (hs : SortedAs waitList order)
    (h : (forLatestEvents f waitList order).1 = .success) :
    (forLatestEvents f waitList order).2 = skipSeen true 0 order := by
  unfold forLatestEvents at h ⊢
  split at h
  next => exact absurd rfl hne
  next e =>
    rw [List.perm_singleton.mp hs.1]
    exact (visit_success h).1
  next => exact (visit_success h).1

/-- **Newest is last**, so the visited events stand for all. -/
theorem waitsForAll_of_newestLast (hne : waitList ≠ []) (hnum : Numbered waitList)
    (hlast : NewestLast waitList) : WaitsForAll waitList := by
  have hcalls : ∀ order f, ∃ l, forLatestEvents f waitList order = visit f 0 l ∧
      (SortedAs waitList order → ∀ e ∈ l, e ∈ waitList) := by
    intro order f
    unfold forLatestEvents
    split
    next => exact absurd rfl hne
    next e => exact ⟨[e], rfl, fun _ _ h => h⟩
    next =>
      exact ⟨_, rfl, fun hs _ h => hs.1.mem_iff.mp (mem_of_mem_skipSeen h)⟩
  constructor
  · intro order f hs e he
    obtain ⟨l, hl, hsub⟩ := hcalls order f
    rw [hl] at he
    exact hsub hs e (mem_of_mem_visit he)
  · intro order f hs h e he hi
    rw [forLatestEvents_success hne hs h]
    rcases skipSeen_covers true 0 hs.2 (hs.1.mem_iff.mpr he) with hin | ⟨hni, -⟩
    · exact hin
    · rw [hi] at hni
      cases hni
  · intro order f hs h completed horder hall e he
    rw [forLatestEvents_success hne hs h] at hall
    cases hi : e.isInterop with
    | true =>
      refine hall e ?_
      rcases skipSeen_covers true 0 hs.2 (hs.1.mem_iff.mpr he) with hin | ⟨hni, -⟩
      · exact hin
      · rw [hi] at hni
        cases hni
    | false =>
      obtain ⟨f', hf', hfi, hstream, hmax, -⟩ := skipSeen_newest hnum hs he hi
      have hmem := hs.1.mem_iff.mp (mem_of_mem_skipSeen hf')
      exact horder e f' hi hfi hstream.symm (hlast e he f' hmem hi hfi hstream.symm hmax)
        (hall f' hf')
  · intro order f hs h n e hn
    obtain ⟨l, hl, -⟩ := hcalls order f
    rw [hl] at h hn
    obtain ⟨hvisited, hsuccess⟩ := visit_success h
    rw [hvisited] at hn
    have := hsuccess n e hn
    rwa [Nat.zero_add] at this
  · intro order f code hs h
    obtain ⟨l, hl, -⟩ := hcalls order f
    rw [hl] at h ⊢
    obtain ⟨before, e, hvisited, he, hbefore⟩ := visit_error h
    refine ⟨before, e, hvisited, ?_, fun n e' hn => ?_⟩
    · rwa [Nat.zero_add] at he
    · have := hbefore n e' hn
      rwa [Nat.zero_add] at this

/-- The first event of its stream is visited. -/
theorem mem_skipSeen_first {before after : List Event} (hfirst : first = false → last ≠ e.stream)
    (hbefore : ∀ x ∈ before, x.stream ≠ e.stream) :
    e ∈ skipSeen first last (before ++ e :: after) := by
  induction before generalizing first last with
  | nil =>
    rw [List.nil_append]
    unfold skipSeen
    rw [if_neg fun h => hfirst h.1 h.2.2.symm]
    exact List.mem_cons_self
  | cons a before ih =>
    have ha := hbefore a List.mem_cons_self
    have hrest := fun x hx => hbefore x (List.mem_cons_of_mem a hx)
    rw [List.cons_append]
    unfold skipSeen
    split
    next hskip => exact ih (fun _ => hskip.2.2 ▸ ha) hrest
    next => exact List.mem_cons_of_mem a (ih (fun _ => ha) hrest)

/-- **Any newest event of a stream can be the one that is visited.** -/
theorem sorted_first (he : e ∈ waitList)
    (hmax : ∀ g ∈ waitList, g.stream = e.stream → g.id ≤ e.id) :
    ∃ order, SortedAs waitList order ∧ e ∈ skipSeen true 0 order := by
  let smaller := (waitList.erase e).filter fun x => x.stream < e.stream
  let others := (waitList.erase e).filter fun x => !decide (x.stream < e.stream)
  have hsmaller : ∀ x ∈ smaller.insertionSort Event.notAfter, x.stream < e.stream := by
    intro x hx
    exact of_decide_eq_true (List.mem_filter.mp ((List.mem_insertionSort _).mp hx)).2
  have hothers : ∀ x ∈ others.insertionSort Event.notAfter,
      e.stream ≤ x.stream ∧ (x.stream = e.stream → x.id ≤ e.id) := by
    intro x hx
    obtain ⟨hmem, hnot⟩ := List.mem_filter.mp ((List.mem_insertionSort _).mp hx)
    have hge : ¬ x.stream < e.stream := of_decide_eq_false ((Bool.not_eq_true' _).mp hnot)
    exact ⟨Nat.le_of_not_lt hge, hmax x (List.mem_of_mem_erase hmem)⟩
  refine ⟨smaller.insertionSort Event.notAfter ++ e :: others.insertionSort Event.notAfter,
    ⟨?_, ?_⟩, mem_skipSeen_first (fun h => by cases h) fun x hx => Nat.ne_of_lt (hsmaller x hx)⟩
  · have hsplit : (smaller ++ others).Perm (waitList.erase e) :=
      List.filter_append_perm (fun x : Event => decide (x.stream < e.stream)) _
    have hsort := (List.perm_insertionSort Event.notAfter smaller).append
      (List.perm_insertionSort Event.notAfter others)
    exact List.perm_middle.trans (((hsort.trans hsplit).cons e).trans
      (List.perm_cons_erase he).symm)
  · rw [List.pairwise_append, List.pairwise_cons]
    refine ⟨List.pairwise_insertionSort _ _, ⟨fun x hx => ?_, List.pairwise_insertionSort _ _⟩,
      fun x hx y hy => ?_⟩
    · obtain ⟨hle, hid⟩ := hothers x hx
      refine Event.notAfter_iff.mpr ?_
      by_cases heq : x.stream = e.stream
      · exact .inr ⟨heq.symm, hid heq⟩
      · exact .inl (by omega)
    · refine Event.notAfter_iff.mpr (.inl ?_)
      rcases List.mem_cons.mp hy with rfl | hy
      · exact hsmaller x hx
      · exact Nat.lt_of_lt_of_le (hsmaller x hx) (hothers y hy).1

/-- **If waiting suffices, newest is last.** -/
theorem WaitsForAll.newestLast (hnum : Numbered waitList) (h : WaitsForAll waitList) :
    NewestLast waitList := by
  intro e he f hf hei hfi hstream hmax
  have hne : waitList ≠ [] := List.ne_nil_of_mem he
  obtain ⟨order, hs, hvisited⟩ := sorted_first hf fun g hg hgs => by
    cases hgi : g.isInterop with
    | true =>
      rw [(hnum g hg).1 hgi]
      exact Nat.zero_le _
    | false => exact hmax g hg hgi hgs
  -- complete is what the visited events stand for
  let call : Nat → Event → UrResult := fun _ _ => .success
  have hsuccess : (forLatestEvents call waitList order).1 = .success := by
    cases hres : (forLatestEvents call waitList order).1 with
    | success => rfl
    | error code =>
      obtain ⟨_, _, -, herr, -⟩ := h.fails order call code hs hres
      cases herr
  have hall := h.completes order call hs hsuccess
    (fun x => x ∈ skipSeen true 0 order ∨ x.isInterop = false ∧
      ∃ v ∈ skipSeen true 0 order, v.isInterop = false ∧ v.stream = x.stream ∧
        x.native ≤ v.native) (fun a b ha hb hab hle hdone => ?_) (fun x hx => ?_) e he
  · have hunique := (skipSeen_unique hs.2 (fun h => by cases h) hvisited hfi).2
    rcases hall with hin | ⟨-, v, hv, hvi, hvs, hle⟩
    · rw [hunique e hin hei hstream]
    · rwa [hunique v hv hvi (hvs.trans hstream)] at hle
  · rcases hdone with hin | ⟨-, v, hv, hvi, hvs, hle'⟩
    · exact .inr ⟨ha, b, hin, hb, hab.symm, hle⟩
    · exact .inr ⟨ha, v, hv, hvi, hvs.trans hab.symm, Nat.le_trans hle hle'⟩
  · rw [forLatestEvents_success hne hs hsuccess] at hx
    exact .inl hx

/-! ## Events that were recorded -/

namespace Recordings

variable {s s' : Recordings} {call : RecordingCall} {calls : List RecordingCall}

/-- Numbers of events that were drawn or handed out. -/
structure Inv (s : Recordings) : Prop where
  drawn : ∀ e ∈ s.drawn, e.isInterop = false ∧ 0 < e.id
  events : Numbered s.events

theorem inv_init : init.Inv := ⟨fun _ h => (List.not_mem_nil h).elim, fun _ h => (List.not_mem_nil h).elim⟩

/-- A number that is not 0 is one more. -/
theorem toNat_succ {c : UInt32} (h : c + 1 ≠ 0) : (c + 1).toNat = c.toNat + 1 := by
  have hne : (c + 1).toNat ≠ 0 := fun hzero => h (UInt32.toNat_inj.mp hzero)
  have hone : (1 : UInt32).toNat = 1 := rfl
  have hlt := c.toNat_lt
  rw [UInt32.toNat_add] at hne ⊢
  omega

theorem Inv.step (h : s.Inv) (hstep : s.step call = some s') : s'.Inv := by
  cases call with
  | draw queue stream token =>
    unfold Recordings.step at hstep
    dsimp only at hstep
    split at hstep
    next => cases hstep
    next hne =>
      obtain rfl := Option.some.inj hstep
      refine ⟨fun e he => ?_, h.events⟩
      rcases List.mem_cons.mp he with rfl | he
      · exact ⟨rfl, by show 0 < UInt32.toNat _; rw [toNat_succ hne]; omega⟩
      · exact h.drawn e he
  | record n =>
    unfold Recordings.step at hstep
    dsimp only at hstep
    split at hstep
    next =>
      obtain rfl := Option.some.inj hstep
      exact h
    next e he =>
      obtain rfl := Option.some.inj hstep
      obtain ⟨hi, hpos⟩ := h.drawn e (List.mem_of_getElem? he)
      refine ⟨fun x hx => h.drawn x (List.mem_of_mem_eraseIdx hx), fun x hx => ?_⟩
      rcases List.mem_cons.mp hx with rfl | hx
      · exact ⟨fun ht => absurd (hi.symm.trans ht) Bool.false_ne_true, fun _ => hpos⟩
      · exact h.events x hx
  | recordFails n =>
    obtain rfl := Option.some.inj hstep
    exact ⟨fun x hx => h.drawn x (List.mem_of_mem_eraseIdx hx), h.events⟩
  | makeWithNative =>
    obtain rfl := Option.some.inj hstep
    refine ⟨h.drawn, fun x hx => ?_⟩
    rcases List.mem_cons.mp hx with rfl | hx
    · exact ⟨fun _ => rfl, fun hf => absurd hf.symm Bool.false_ne_true⟩
    · exact h.events x hx

theorem Inv.run (h : s.Inv) (hrun : s.run calls = some s') : s'.Inv := by
  induction calls generalizing s with
  | nil =>
    obtain rfl := Option.some.inj hrun
    exact h
  | cons call calls ih =>
    obtain ⟨s₁, hstep, hrest⟩ := Option.bind_eq_some_iff.mp hrun
    exact ih (h.step hstep) hrest

/-! ## Careful threads -/

/-- A thread draws a number for an event of a stream that only its queue uses, where no other thread
is about to record an event. -/
def Careful (s : Recordings) : RecordingCall → Prop
  | .draw queue stream _ =>
    (∀ e ∈ s.events, e.isInterop = false → e.stream = stream → e.queue = some queue) ∧
      ∀ e ∈ s.drawn, e.stream ≠ stream
  | _ => True

/-- All calls of a run are careful. -/
def CarefulRun : Recordings → List RecordingCall → Prop
  | _, [] => True
  | s, call :: calls => s.Careful call ∧ ∀ s', s.step call = some s' → CarefulRun s' calls

/-- Numbers on a stream are in the order of recording, and those that were drawn are larger. -/
structure Ordered (s : Recordings) : Prop where
  counted : ∀ e ∈ s.events, ∀ q, e.queue = some q → e.id ≤ (s.eventCount q).toNat
  drawnCounted : ∀ e ∈ s.drawn, ∀ q, e.queue = some q → e.id ≤ (s.eventCount q).toNat
  alone : s.drawn.Pairwise fun e f => e.stream ≠ f.stream
  larger : ∀ e ∈ s.events, e.isInterop = false → ∀ p ∈ s.drawn, e.stream = p.stream → e.id < p.id
  recorded : ∀ e ∈ s.events, e.native < s.nextEvent
  inOrder : ∀ e ∈ s.events, ∀ f ∈ s.events, e.isInterop = false → f.isInterop = false →
    e.stream = f.stream → e.id ≤ f.id → e.native ≤ f.native

theorem ordered_init : init.Ordered where
  counted := fun _ h => (List.not_mem_nil h).elim
  drawnCounted := fun _ h => (List.not_mem_nil h).elim
  alone := .nil
  larger := fun _ h => (List.not_mem_nil h).elim
  recorded := fun _ h => (List.not_mem_nil h).elim
  inOrder := fun _ h => (List.not_mem_nil h).elim

/-- A number that was drawn for a stream of its own. -/
theorem Ordered.draw {queue stream token : Nat} (h : s.Ordered)
    (hcareful : s.Careful (.draw queue stream token))
    (hstep : s.step (.draw queue stream token) = some s') : s'.Ordered := by
  obtain ⟨hown, hfree⟩ := hcareful
  unfold Recordings.step at hstep
  dsimp only at hstep
  split at hstep
  next => cases hstep
  next hne =>
    obtain rfl := Option.some.inj hstep
    have hsucc := toNat_succ hne
    have hcount : ∀ (e : Event) q, e.queue = some q → e.id ≤ (s.eventCount q).toNat →
        e.id ≤ (Function.update s.eventCount queue (s.eventCount queue + 1) q).toNat := by
      intro e q _ hle
      by_cases hq : q = queue
      · rw [hq, Function.update_self]
        rw [hq] at hle
        omega
      · rw [Function.update_of_ne hq]
        exact hle
    constructor
    · exact fun e he q hq => hcount e q hq (h.counted e he q hq)
    · intro e he q hq
      rcases List.mem_cons.mp he with rfl | he
      · obtain rfl := Option.some.inj hq
        dsimp only
        rw [Function.update_self]
      · exact hcount e q hq (h.drawnCounted e he q hq)
    · exact List.pairwise_cons.mpr ⟨fun e he => (hfree e he).symm, h.alone⟩
    · intro e he hi p hp hstream
      rcases List.mem_cons.mp hp with rfl | hp
      · -- the events of the stream are the queue's
        have := h.counted e he queue (hown e he hi hstream)
        dsimp only
        omega
      · exact h.larger e he hi p hp hstream
    · exact h.recorded
    · exact h.inOrder

/-- The one event of its stream that was drawn is recorded. -/
theorem Ordered.record {n : Nat} (h : s.Ordered) (hstep : s.step (.record n) = some s') :
    s'.Ordered := by
  unfold Recordings.step at hstep
  dsimp only at hstep
  split at hstep
  next =>
    obtain rfl := Option.some.inj hstep
    exact h
  next e he =>
    obtain rfl := Option.some.inj hstep
    have hmem := List.mem_of_getElem? he
    have hother : ∀ p ∈ s.drawn.eraseIdx n, e.stream ≠ p.stream := by
      intro p hp
      obtain ⟨hn, hget⟩ := List.getElem?_eq_some_iff.mp he
      obtain ⟨k, hk, hkn, hp⟩ := List.mem_eraseIdx_iff_getElem.mp hp
      have hpair := List.pairwise_iff_getElem.mp h.alone
      rw [← hget, ← hp]
      rcases Nat.lt_or_gt_of_ne hkn with hlt | hgt
      · exact (hpair k n hk hn hlt).symm
      · exact hpair n k hn hk hgt
    constructor
    · intro x hx q hq
      rcases List.mem_cons.mp hx with rfl | hx
      · exact h.drawnCounted e hmem q hq
      · exact h.counted x hx q hq
    · exact fun x hx => h.drawnCounted x (List.mem_of_mem_eraseIdx hx)
    · exact h.alone.sublist (List.eraseIdx_sublist _ n)
    · intro x hx hi p hp hstream
      rcases List.mem_cons.mp hx with rfl | hx
      · exact absurd hstream (hother p hp)
      · exact h.larger x hx hi p (List.mem_of_mem_eraseIdx hp) hstream
    · intro x hx
      rcases List.mem_cons.mp hx with rfl | hx
      · exact Nat.lt_succ_self _
      · exact Nat.lt_succ_of_lt (h.recorded x hx)
    · intro x hx y hy hxi hyi hstream hid
      rcases List.mem_cons.mp hx with rfl | hx
      · rcases List.mem_cons.mp hy with rfl | hy
        · exact Nat.le_refl _
        · exact absurd (h.larger y hy hyi e hmem hstream.symm) (Nat.not_lt_of_le hid)
      · rcases List.mem_cons.mp hy with rfl | hy
        · exact Nat.le_of_lt (h.recorded x hx)
        · exact h.inOrder x hx y hy hxi hyi hstream hid

theorem Ordered.step (h : s.Ordered) (hcareful : s.Careful call) (hstep : s.step call = some s') :
    s'.Ordered := by
  cases call with
  | draw queue stream token => exact h.draw hcareful hstep
  | record n => exact h.record hstep
  | recordFails n =>
    obtain rfl := Option.some.inj hstep
    exact { h with
      drawnCounted := fun x hx => h.drawnCounted x (List.mem_of_mem_eraseIdx hx)
      alone := h.alone.sublist (List.eraseIdx_sublist _ n)
      larger := fun x hx hi p hp => h.larger x hx hi p (List.mem_of_mem_eraseIdx hp) }
  | makeWithNative =>
    obtain rfl := Option.some.inj hstep
    constructor
    · intro x hx q hq
      rcases List.mem_cons.mp hx with rfl | hx
      · cases hq
      · exact h.counted x hx q hq
    · exact h.drawnCounted
    · exact h.alone
    · intro x hx hi
      rcases List.mem_cons.mp hx with rfl | hx
      · cases hi
      · exact h.larger x hx hi
    · intro x hx
      rcases List.mem_cons.mp hx with rfl | hx
      · exact Nat.lt_succ_self _
      · exact Nat.lt_succ_of_lt (h.recorded x hx)
    · intro x hx y hy hxi hyi
      rcases List.mem_cons.mp hx with rfl | hx
      · cases hxi
      · rcases List.mem_cons.mp hy with rfl | hy
        · cases hyi
        · exact h.inOrder x hx y hy hxi hyi

/-- **After careful calls newest is last**, in every wait list. -/
theorem CarefulRun.newestLast (h : s.Ordered) (hcareful : CarefulRun s calls)
    (hrun : s.run calls = some s') {waitList : List Event} (hlist : ∀ e ∈ waitList, e ∈ s'.events) :
    NewestLast waitList := by
  induction calls generalizing s with
  | nil =>
    obtain rfl := Option.some.inj hrun
    intro e he f hf hei hfi hstream hmax
    exact h.inOrder e (hlist e he) f (hlist f hf) hei hfi hstream (hmax e he hei hstream)
  | cons call calls ih =>
    obtain ⟨s₁, hstep, hrest⟩ := Option.bind_eq_some_iff.mp hrun
    exact ih (h.step hcareful.1 hstep) (hcareful.2 s₁ hstep) hrest

end Recordings

/-- **Waiting on the latest events**, whatever was recorded before: it suffices exactly where newest
is last. -/
theorem waitsForAll_iff {calls : List RecordingCall} {s : Recordings} (hrun : Recordings.init.run calls = some s)
    {waitList : List Event} (hne : waitList ≠ []) (hlist : ∀ e ∈ waitList, e ∈ s.events) :
    WaitsForAll waitList ↔ NewestLast waitList := by
  have hnum : Numbered waitList := fun e he =>
    (Recordings.inv_init.run hrun).events e (hlist e he)
  exact ⟨fun h => h.newestLast hnum, fun h => waitsForAll_of_newestLast hne hnum h⟩

/-- **After careful calls waiting suffices.** -/
theorem carefulRun_waits {calls : List RecordingCall} {s : Recordings}
    (hcareful : Recordings.CarefulRun .init calls) (hrun : Recordings.init.run calls = some s)
    {waitList : List Event} (hne : waitList ≠ []) (hlist : ∀ e ∈ waitList, e ∈ s.events) :
    WaitsForAll waitList := by
  have hlast := hcareful.newestLast Recordings.ordered_init hrun hlist
  exact waitsForAll_of_newestLast hne
    (fun e he => (Recordings.inv_init.run hrun).events e (hlist e he)) hlast

/-- A thread draws and records twice. -/
theorem carefulRun_waits_twice : WaitsForAll
    [⟨some 0, 7, 0, 1, 0, false⟩, ⟨some 0, 7, 0, 2, 1, false⟩] := by
  refine @carefulRun_waits [.draw 0 7 0, .record 0, .draw 0 7 0, .record 0] _ ?_ rfl _
    (by decide) (by decide)
  simp [Recordings.CarefulRun, Recordings.Careful, Recordings.step, Recordings.init]

/-- Two events of a stream and an interop event: the first is not visited. -/
theorem waitsForAll_two : WaitsForAll
    [⟨some 0, 7, 0, 1, 0, false⟩, ⟨none, 0, noToken, 0, 2, true⟩, ⟨some 0, 7, 0, 2, 1, false⟩] :=
  (@waitsForAll_iff [.draw 0 7 0, .record 0, .draw 0 7 0, .record 0, .makeWithNative] _ rfl _
    (by decide) (by decide)).mpr (by decide)

/-- Two queues on stream 7: the event of the second is recorded last, but has a smaller number. -/
def oneStream : List RecordingCall :=
  [.draw 0 7 0, .record 0, .draw 0 7 0, .record 0, .draw 1 7 0, .record 0]

def lastOfEach : List Event := [⟨some 0, 7, 0, 2, 1, false⟩, ⟨some 1, 7, 0, 1, 2, false⟩]

theorem waitsForAll_wrong : (∃ s, Recordings.init.run oneStream = some s ∧
    ∀ e ∈ lastOfEach, e ∈ s.events) ∧ ¬ WaitsForAll lastOfEach := by
  refine ⟨⟨_, rfl, by decide⟩, fun h => ?_⟩
  have hnum : Numbered lastOfEach := by
    unfold Numbered
    decide
  exact absurd (h.newestLast hnum) (by decide)

end UnifiedRuntime.Streams
