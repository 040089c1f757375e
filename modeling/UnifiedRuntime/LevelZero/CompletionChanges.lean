import UnifiedRuntime.LevelZero.CompletionBatches

/-!
# Changes of completion batches

What a call can do to a command list is said once, as a change; each invariant is kept by every
change. The batches and events are in order (`Inv`) whatever the driver does. That an event
leaves the list only behind a barrier (`Timely`) rests on the events of the batches: one that is
still signalled when its batch is sealed again says at once that the batch has completed. Such
events are left by resets that fail (`Clean`).

- `Change.inv`, `Change.timely`, `Change.clean`: one change keeps each of the three.
-/

namespace UnifiedRuntime.LevelZero.Completion

open Function (update update_of_ne update_self)

variable {s s' : CommandList} {clear resets : Prop}

/-! ## Changes -/

/-- What is left of a batch that is reset. -/
def CompletionBatch.emptied (b : CompletionBatch) : CompletionBatch := ⟨b.barrierEvent, .empty, 0⟩

/-- Events that are signalled afterwards were before. -/
def Fades (before after : Nat → Bool) : Prop := ∀ i, after i = true → before i = true

/-- The oldest sealed batch is emptied. -/
def CommandList.retire (s : CommandList) (oldest : Nat) (rest : List Nat)
    (signalled : Nat → Bool) : CommandList :=
  { s with
    batch := update s.batch oldest (s.batch oldest).emptied
    sealed := rest
    eventList := s.eventList.filter (·.completionBatch != oldest)
    moved := s.moved ++ s.eventList.filter (·.completionBatch == oldest)
    signalled := signalled }

/-- The active batch is sealed, and another is active. -/
def CommandList.goOn (s : CommandList) (next : Nat) : CommandList :=
  { s with
    batch := update
      (update s.batch s.active { s.batch s.active with st := .sealed }) next
      { s.batch next with st := .accumulating }
    sealed := s.sealed ++ [s.active]
    active := next
    pending := s.pending ++ [⟨s.active, s.next⟩]
    sealedAt := update s.sealedAt s.active s.next
    next := s.next + 1 }

/-- Everything has completed, and the first batch is active. -/
def CommandList.restart (s : CommandList) (signalled : Nat → Bool) : CommandList :=
  { s.completeAll with
    batch := update
      (fun i => if i < s.count then (s.batch i).emptied else s.batch i) 0
      { (s.batch 0).emptied with st := .accumulating }
    sealed := []
    active := 0
    eventList := []
    taken := s.taken ++ s.eventList
    signalled := signalled }

namespace CommandList

theorem retire_self (s : CommandList) (oldest : Nat) (rest : List Nat) (signalled : Nat → Bool) :
    (s.retire oldest rest signalled).batch oldest = (s.batch oldest).emptied :=
  update_self ..

theorem retire_other {oldest i : Nat} (rest : List Nat) (signalled : Nat → Bool) (h : i ≠ oldest) :
    (s.retire oldest rest signalled).batch i = s.batch i :=
  update_of_ne h _ _

theorem goOn_next (s : CommandList) (next : Nat) :
    (s.goOn next).batch next = { s.batch next with st := .accumulating } :=
  update_self ..

theorem goOn_active {next : Nat} (h : next ≠ s.active) :
    (s.goOn next).batch s.active = { s.batch s.active with st := .sealed } :=
  (update_of_ne h.symm _ _).trans (update_self ..)

theorem goOn_other {next i : Nat} (h : i ≠ next) (h' : i ≠ s.active) :
    (s.goOn next).batch i = s.batch i :=
  (update_of_ne h _ _).trans (update_of_ne h' _ _)

theorem restart_zero (s : CommandList) (signalled : Nat → Bool) :
    (s.restart signalled).batch 0 = { (s.batch 0).emptied with st := .accumulating } := by
  show update (fun i => if i < s.count then (s.batch i).emptied else s.batch i) 0 _ 0 = _
  exact update_self ..

theorem restart_other {i : Nat} (signalled : Nat → Bool) (h : i ≠ 0) (hi : i < s.count) :
    (s.restart signalled).batch i = (s.batch i).emptied := by
  show update (fun i => if i < s.count then (s.batch i).emptied else s.batch i) 0 _ i = _
  rw [update_of_ne h, if_pos hi]

end CommandList

/-- A change of the command list. `clear` is what is known of the event of a batch that is
sealed, `resets` that the driver resets events. -/
inductive Change (clear resets : Prop) (s : CommandList) : CommandList → Prop
  | append : Change clear resets s s.append
  | retire (oldest : Nat) (rest : List Nat) (signalled : Nat → Bool)
      (hsealed : s.sealed = oldest :: rest) (hcomplete : s.signalled oldest = true)
      (hfades : Fades s.signalled signalled)
      (hreset : resets → (s.batch oldest).barrierEvent = true → signalled oldest = false) :
      Change clear resets s (s.retire oldest rest signalled)
  | create : Change clear resets s
      { s.setBatch s.count .new with count := s.count + 1 }
  | createEvent : Change clear resets s (s.createEvent s.active)
  | goOn (next : Nat) (hnext : next < s.count) (hempty : (s.batch next).st = .empty)
      (hevent : (s.batch s.active).barrierEvent = true)
      (hclear : clear → s.signalled s.active = false) :
      Change clear resets s (s.goOn next)
  | complete (k : Nat) : Change clear resets s (s.complete k)
  | restart (signalled : Nat → Bool) (hfades : Fades s.completeAll.signalled signalled)
      (hreset : resets → ∀ i < s.count, (s.batch i).barrierEvent = true → signalled i = false) :
      Change clear resets s (s.restart signalled)
  | take (keep : Event → Bool) : Change clear resets s (s.take keep)

/-! ## The order of batches and events -/

/-- `Orderly`, and where the events and barriers are on the command list. -/
structure Inv (s : CommandList) : Prop extends Orderly s where
  bound : ∀ e ∈ s.moved ++ s.taken ++ s.eventList, e.position < s.next
  sealedBound : ∀ i ∈ s.sealed, s.sealedAt i < s.next
  before : ∀ e ∈ s.eventList, (s.batch e.completionBatch).st = .sealed →
    e.position < s.sealedAt e.completionBatch

theorem Inv.active_st (h : Inv s) : (s.batch s.active).st = .accumulating :=
  (h.accumulating s.active h.active).mpr rfl

theorem Inv.active_not_sealed (h : Inv s) : s.active ∉ s.sealed := by
  intro hmem
  have hst := ((h.sealed s.active).mp hmem).2
  rw [h.active_st] at hst
  cases hst

/-- The events stay where they are but for their order: what is on the list or has left it. -/
theorem Inv.rearranged (h : Inv s) {moved taken eventList : List Event}
    (hperm : (moved ++ taken ++ eventList).Perm (s.moved ++ s.taken ++ s.eventList)) :
    ((moved ++ taken ++ eventList).map (·.position)).Nodup ∧
      ∀ e ∈ moved ++ taken ++ eventList, e.position < s.next :=
  ⟨(hperm.map _).nodup_iff.mpr h.once, fun e he => h.bound e (hperm.mem_iff.mp he)⟩

theorem filter_split (p : Event → Bool) (es : List Event) :
    (es.filter p ++ es.filter fun e => !p e).Perm es :=
  List.filter_append_perm p es

theorem Inv.append (h : Inv s) : Inv s.append := by
  have hst : ∀ i, (s.append.batch i).st = (s.batch i).st := by
    intro i
    show (update s.batch s.active _ i).st = _
    by_cases hi : i = s.active
    · subst hi
      rw [update_self]
    · rw [update_of_ne hi]
  have hlist : s.append.eventList = s.eventList ++ [⟨s.next, s.active⟩] := rfl
  have hevents : s.append.moved ++ s.append.taken ++ s.append.eventList =
      (s.moved ++ s.taken ++ s.eventList) ++ [⟨s.next, s.active⟩] := by
    rw [hlist, ← List.append_assoc]
    rfl
  refine ⟨⟨h.active, fun i hi => ?_, fun i => ?_, h.order, ?_, fun e he => ?_⟩, fun e he => ?_,
    fun i hi => Nat.lt_succ_of_lt (h.sealedBound i hi), fun e he hsealed => ?_⟩
  · rw [hst]
    exact h.accumulating i hi
  · rw [hst]
    exact h.sealed i
  · rw [hevents, List.map_append, List.nodup_append]
    refine ⟨h.once, List.nodup_singleton _, ?_⟩
    intro p hp q hq hsame
    obtain ⟨e, he, rfl⟩ := List.mem_map.mp hp
    obtain rfl := List.mem_singleton.mp hq
    have hlt := h.bound e he
    have hpos : e.position = s.next := hsame
    omega
  · rw [hst]
    rcases List.mem_append.mp (hlist ▸ he) with he | he
    · exact h.stays e he
    · obtain rfl := List.mem_singleton.mp he
      exact ⟨h.active, Or.inl h.active_st⟩
  · rw [hevents] at he
    show e.position < s.next + 1
    rcases List.mem_append.mp he with he | he
    · exact Nat.lt_succ_of_lt (h.bound e he)
    · obtain rfl := List.mem_singleton.mp he
      exact Nat.lt_succ_self _
  · rw [hst] at hsealed
    rcases List.mem_append.mp (hlist ▸ he) with he | he
    · exact h.before e he hsealed
    · obtain rfl := List.mem_singleton.mp he
      rw [h.active_st] at hsealed
      cases hsealed

/-- Only the sealed batches change, and only to be empty. -/
theorem Inv.retire (h : Inv s) {oldest : Nat} {rest : List Nat} (signalled : Nat → Bool)
    (hsealed : s.sealed = oldest :: rest) : Inv (s.retire oldest rest signalled) := by
  have hold : oldest < s.count ∧ (s.batch oldest).st = .sealed :=
    (h.sealed oldest).mp (hsealed ▸ List.mem_cons_self)
  have horder : (oldest :: rest).Pairwise fun i j => s.sealedAt i < s.sealedAt j :=
    hsealed ▸ h.order
  have hrest : oldest ∉ rest := by
    intro hmem
    have hlt := (List.pairwise_cons.mp horder).1 oldest hmem
    omega
  have hother : ∀ i, i ≠ oldest → (s.retire oldest rest signalled).batch i = s.batch i :=
    fun i hi => CommandList.retire_other rest signalled hi
  have hself : ((s.retire oldest rest signalled).batch oldest).st = .empty := by
    rw [CommandList.retire_self]
    rfl
  have hne : s.active ≠ oldest := by
    intro heq
    have hst := h.active_st
    rw [heq, hold.2] at hst
    cases hst
  have hperm : (s.moved ++ s.eventList.filter (·.completionBatch == oldest) ++ s.taken ++
      s.eventList.filter (·.completionBatch != oldest)).Perm
      (s.moved ++ s.taken ++ s.eventList) := by
    rw [List.append_assoc, List.append_assoc, List.append_assoc]
    refine List.Perm.append_left _ ?_
    rw [← List.append_assoc]
    refine (List.Perm.append_right _ List.perm_append_comm).trans ?_
    rw [List.append_assoc]
    exact List.Perm.append_left _ (filter_split (·.completionBatch == oldest) s.eventList)
  obtain ⟨honce, hbound⟩ := h.rearranged hperm
  refine ⟨⟨h.active, fun i hi => ?_, fun i => ?_, (List.pairwise_cons.mp horder).2, honce,
    fun e he => ?_⟩, hbound, fun i hi => h.sealedBound i (hsealed ▸ List.mem_cons_of_mem _ hi),
    fun e he hst => ?_⟩
  · by_cases heq : i = oldest
    · subst heq
      rw [hself]
      exact ⟨nofun, fun hactive => absurd hactive.symm hne⟩
    · rw [hother i heq]
      exact h.accumulating i hi
  · by_cases heq : i = oldest
    · subst heq
      rw [hself]
      exact ⟨fun hmem => absurd hmem hrest, fun hst => by cases hst.2⟩
    · rw [hother i heq]
      have hiff := h.sealed i
      rw [hsealed, List.mem_cons] at hiff
      exact ⟨fun hmem => hiff.mp (Or.inr hmem), fun hst => (hiff.mpr hst).resolve_left heq⟩
  · obtain ⟨hmem, htag⟩ := List.mem_filter.mp he
    rw [hother _ (by simpa using htag)]
    exact h.stays e hmem
  · obtain ⟨hmem, htag⟩ := List.mem_filter.mp he
    rw [hother _ (by simpa using htag)] at hst
    exact h.before e hmem hst

theorem Inv.create (h : Inv s) : Inv { s.setBatch s.count .new with count := s.count + 1 } := by
  have hother : ∀ i, i ≠ s.count →
      (s.setBatch s.count .new).batch i = s.batch i := fun i hi => update_of_ne hi _ _
  have hself : ((s.setBatch s.count .new).batch s.count).st = .empty := by
    show (update s.batch s.count CompletionBatch.new s.count).st = _
    rw [update_self]
    rfl
  have hactive : s.active < s.count := h.active
  refine ⟨⟨Nat.lt_succ_of_lt h.active, fun i hi => ?_, fun i => ?_, h.order, h.once, fun e he => ?_⟩,
    h.bound, h.sealedBound, fun e he hst => ?_⟩
  · show ((s.setBatch s.count .new).batch i).st = _ ↔ i = s.active
    by_cases heq : i = s.count
    · subst heq
      rw [hself]
      exact ⟨nofun, fun heq => by omega⟩
    · have hlt : i < s.count := Nat.lt_of_le_of_ne (Nat.lt_succ_iff.mp hi) heq
      rw [hother i heq]
      exact h.accumulating i hlt
  · show i ∈ s.sealed ↔ i < s.count + 1 ∧ ((s.setBatch s.count .new).batch i).st = .sealed
    by_cases heq : i = s.count
    · subst heq
      rw [hself]
      refine ⟨fun hmem => absurd ((h.sealed _).mp hmem).1 (Nat.lt_irrefl _), fun hst => ?_⟩
      cases hst.2
    · rw [hother i heq, h.sealed i]
      exact ⟨fun hst => ⟨Nat.lt_succ_of_lt hst.1, hst.2⟩, fun hst => ⟨by omega, hst.2⟩⟩
  · obtain ⟨hlt, hst⟩ := h.stays e he
    refine ⟨Nat.lt_succ_of_lt hlt, ?_⟩
    show ((s.setBatch s.count .new).batch e.completionBatch).st = _ ∨
      ((s.setBatch s.count .new).batch e.completionBatch).st = _
    rw [hother _ (Nat.ne_of_lt hlt)]
    exact hst
  · have hlt := (h.stays e he).1
    have hst' : ((s.setBatch s.count .new).batch e.completionBatch).st = .sealed := hst
    rw [hother _ (Nat.ne_of_lt hlt)] at hst'
    exact h.before e he hst'

/-- A change that leaves the states of the batches and the lists. -/
theorem Inv.congr (h : Inv s) (hst : ∀ i, (s'.batch i).st = (s.batch i).st)
    (hcount : s'.count = s.count) (hsealed : s'.sealed = s.sealed) (hactive : s'.active = s.active)
    (hat : s'.sealedAt = s.sealedAt) (hnext : s'.next = s.next)
    (hperm : (s'.moved ++ s'.taken ++ s'.eventList).Perm (s.moved ++ s.taken ++ s.eventList))
    (hlist : ∀ e ∈ s'.eventList, e ∈ s.eventList) : Inv s' := by
  obtain ⟨honce, hbound⟩ := h.rearranged hperm
  refine ⟨⟨?_, fun i hi => ?_, fun i => ?_, ?_, honce, fun e he => ?_⟩, ?_, ?_, fun e he hs => ?_⟩
  · rw [hactive, hcount]
    exact h.active
  · rw [hst, hactive]
    exact h.accumulating i (hcount ▸ hi)
  · rw [hst, hsealed, hcount]
    exact h.sealed i
  · rw [hsealed, hat]
    exact h.order
  · rw [hst, hcount]
    exact h.stays e (hlist e he)
  · rw [hnext]
    exact hbound
  · rw [hsealed, hat, hnext]
    exact h.sealedBound
  · rw [hst] at hs
    rw [hat]
    exact h.before e (hlist e he) hs

theorem Inv.createEvent (h : Inv s) : Inv (s.createEvent s.active) := by
  refine h.congr (fun i => ?_) rfl rfl rfl rfl rfl (List.Perm.refl _) fun _ he => he
  show (update s.batch s.active _ i).st = _
  by_cases hi : i = s.active
  · subst hi
    rw [update_self]
  · rw [update_of_ne hi]

theorem Inv.goOn (h : Inv s) {next : Nat} (hnext : next < s.count)
    (hempty : (s.batch next).st = .empty) : Inv (s.goOn next) := by
  have hne : next ≠ s.active := by
    rintro rfl
    rw [h.active_st] at hempty
    cases hempty
  -- the active batch becomes the last of the sealed ones
  have hnew : ((s.goOn next).batch next).st = .accumulating := by
    rw [CommandList.goOn_next]
  have hsealed : ((s.goOn next).batch s.active).st = .sealed := by
    rw [CommandList.goOn_active hne]
  have hother : ∀ i, i ≠ next → i ≠ s.active → (s.goOn next).batch i = s.batch i :=
    fun _ => CommandList.goOn_other
  have hat : ∀ i, i ≠ s.active → (s.goOn next).sealedAt i = s.sealedAt i := fun i hi =>
    update_of_ne hi _ _
  have hatActive : (s.goOn next).sealedAt s.active = s.next := update_self ..
  have hmem : ∀ i ∈ s.sealed, i ≠ s.active := by
    rintro i hi rfl
    exact h.active_not_sealed hi
  refine ⟨⟨hnext, fun i hi => ?_, fun i => ?_, ?_, h.once, fun e he => ?_⟩, fun e he => ?_,
    fun i hi => ?_, fun e he hst => ?_⟩
  · by_cases h₁ : i = next
    · subst h₁
      exact ⟨fun _ => rfl, fun _ => hnew⟩
    · by_cases h₂ : i = s.active
      · subst h₂
        rw [hsealed]
        exact ⟨nofun, fun heq => absurd heq h₁⟩
      · rw [hother i h₁ h₂, h.accumulating i hi]
        exact ⟨fun heq => absurd heq h₂, fun heq => absurd heq h₁⟩
  · show i ∈ s.sealed ++ [s.active] ↔ _
    rw [List.mem_append, List.mem_singleton]
    by_cases h₁ : i = next
    · subst h₁
      rw [hnew]
      refine ⟨fun hi => ?_, fun hi => by cases hi.2⟩
      rcases hi with hi | hi
      · have hst := ((h.sealed i).mp hi).2
        rw [hempty] at hst
        cases hst
      · exact absurd hi hne
    · by_cases h₂ : i = s.active
      · subst h₂
        exact ⟨fun _ => ⟨h.active, hsealed⟩, fun _ => Or.inr rfl⟩
      · rw [hother i h₁ h₂, h.sealed i]
        exact ⟨fun hi => hi.resolve_right h₂, Or.inl⟩
  · show (s.sealed ++ [s.active]).Pairwise _
    rw [List.pairwise_append]
    refine ⟨?_, List.pairwise_singleton _ _, ?_⟩
    · refine h.order.imp_of_mem fun hi hj hlt => ?_
      rw [hat _ (hmem _ hi), hat _ (hmem _ hj)]
      exact hlt
    · intro i hi j hj
      obtain rfl := List.mem_singleton.mp hj
      rw [hat i (hmem i hi), hatActive]
      exact h.sealedBound i hi
  · obtain ⟨hlt, hst⟩ := h.stays e he
    refine ⟨hlt, ?_⟩
    by_cases h₁ : e.completionBatch = next
    · rw [h₁]
      exact Or.inl hnew
    · by_cases h₂ : e.completionBatch = s.active
      · rw [h₂]
        exact Or.inr hsealed
      · rw [hother _ h₁ h₂]
        exact hst
  · exact Nat.lt_succ_of_lt (h.bound e he)
  · show (s.goOn next).sealedAt i < s.next + 1
    rcases List.mem_append.mp hi with hi | hi
    · rw [hat i (hmem i hi)]
      exact Nat.lt_succ_of_lt (h.sealedBound i hi)
    · obtain rfl := List.mem_singleton.mp hi
      rw [hatActive]
      exact Nat.lt_succ_self _
  · by_cases h₂ : e.completionBatch = s.active
    · rw [h₂, hatActive]
      exact h.bound e (List.mem_append_right _ he)
    · have h₁ : e.completionBatch ≠ next := by
        intro heq
        rw [heq, hnew] at hst
        cases hst
      rw [hother _ h₁ h₂] at hst
      rw [hat _ h₂]
      exact h.before e he hst

theorem Inv.complete (h : Inv s) (k : Nat) : Inv (s.complete k) := by
  unfold CommandList.complete
  cases s.pending[k]? with
  | none => exact h
  | some b => exact h.congr (fun _ => rfl) rfl rfl rfl rfl rfl (List.Perm.refl _) fun _ he => he

theorem Inv.take (h : Inv s) (keep : Event → Bool) : Inv (s.take keep) := by
  refine h.congr (fun _ => rfl) rfl rfl rfl rfl rfl ?_ fun e he => (List.mem_filter.mp he).1
  show (s.moved ++ (s.taken ++ s.eventList.filter fun e => !keep e) ++
    s.eventList.filter keep).Perm _
  rw [List.append_assoc, List.append_assoc, List.append_assoc]
  refine List.Perm.append_left _ (List.Perm.append_left _ ?_)
  exact List.perm_append_comm.trans (filter_split keep s.eventList)

theorem Inv.restart (h : Inv s) (signalled : Nat → Bool) : Inv (s.restart signalled) := by
  have hzero : ((s.restart signalled).batch 0).st = .accumulating := by
    rw [CommandList.restart_zero]
  have hother : ∀ i < s.count, i ≠ 0 → ((s.restart signalled).batch i).st = .empty := by
    intro i hi hi'
    rw [CommandList.restart_other signalled hi' hi]
    rfl
  have hperm : (s.moved ++ (s.taken ++ s.eventList) ++ []).Perm
      (s.moved ++ s.taken ++ s.eventList) := by
    rw [List.append_nil, List.append_assoc]
  obtain ⟨honce, hbound⟩ := h.rearranged hperm
  refine ⟨⟨Nat.zero_lt_of_lt h.active, fun i hi => ?_, fun i => ?_, List.Pairwise.nil, honce,
    nofun⟩, hbound, nofun, nofun⟩
  · show _ ↔ i = 0
    by_cases hi' : i = 0
    · subst hi'
      exact ⟨fun _ => rfl, fun _ => hzero⟩
    · rw [hother i hi hi']
      exact ⟨nofun, fun heq => absurd heq hi'⟩
  · refine ⟨nofun, fun hi => ?_⟩
    by_cases hi' : i = 0
    · subst hi'
      cases hi.2
    · rw [hother i hi.1 hi'] at hi
      cases hi.2

/-- **A change keeps the order.** -/
theorem Change.inv (hc : Change clear resets s s') (h : Inv s) : Inv s' := by
  cases hc with
  | append => exact h.append
  | retire oldest rest signalled hsealed _ _ _ => exact h.retire signalled hsealed
  | create => exact h.create
  | createEvent => exact h.createEvent
  | goOn next hnext hempty _ _ => exact h.goOn hnext hempty
  | complete k => exact h.complete k
  | restart signalled _ _ => exact h.restart signalled
  | take keep => exact h.take keep

/-! ## Barriers -/

/-- What is known of the barriers while the events of sealed batches are cleared: a barrier that
has not completed is the last one of a sealed batch, whose event is not signalled. -/
structure Timely (s : CommandList) : Prop where
  pending : ∀ b ∈ s.pending,
    b.batch ∈ s.sealed ∧ b.position = s.sealedAt b.batch ∧ s.signalled b.batch = false
  once : (s.pending.map (·.batch)).Nodup
  signalledDone : ∀ i ∈ s.sealed, s.signalled i = true → s.sealedAt i ∈ s.done
  moved : MovedInTime s

theorem Timely.retire (h : Timely s) (hi : Inv s) {oldest : Nat} {rest : List Nat}
    {signalled : Nat → Bool} (hsealed : s.sealed = oldest :: rest)
    (hcomplete : s.signalled oldest = true) (hfades : Fades s.signalled signalled) :
    Timely (s.retire oldest rest signalled) where
  pending := by
    intro b hb
    obtain ⟨hmem, hpos, hsignal⟩ := h.pending b hb
    rw [hsealed] at hmem
    have hne : b.batch ≠ oldest := by
      intro heq
      rw [heq, hcomplete] at hsignal
      cases hsignal
    refine ⟨(List.mem_cons.mp hmem).resolve_left hne, hpos, ?_⟩
    show signalled b.batch = false
    cases hnow : signalled b.batch with
    | false => rfl
    | true =>
      rw [hfades _ hnow] at hsignal
      cases hsignal
  once := h.once
  signalledDone := by
    intro i hmem hsignal
    exact h.signalledDone i (hsealed ▸ List.mem_cons_of_mem _ hmem) (hfades i hsignal)
  moved := by
    intro e he
    rcases List.mem_append.mp he with he | he
    · exact h.moved e he
    · -- the barrier of the batch is behind all its events, and has completed
      obtain ⟨hlist, htag⟩ := List.mem_filter.mp he
      have htag : e.completionBatch = oldest := by simpa using htag
      have hmem : oldest ∈ s.sealed := hsealed ▸ List.mem_cons_self
      have hst := ((hi.sealed oldest).mp hmem).2
      refine ⟨s.sealedAt oldest, h.signalledDone oldest hmem hcomplete, ?_⟩
      have hbefore := hi.before e hlist
      rw [htag] at hbefore
      exact hbefore hst

theorem Timely.createEvent (h : Timely s) (hi : Inv s) : Timely (s.createEvent s.active) := by
  have hne : ∀ i ∈ s.sealed, i ≠ s.active := by
    rintro i hmem rfl
    exact hi.active_not_sealed hmem
  refine ⟨fun b hb => ?_, h.once, fun i hmem hsignal => ?_, h.moved⟩
  · obtain ⟨hmem, hpos, hsignal⟩ := h.pending b hb
    refine ⟨hmem, hpos, ?_⟩
    show update s.signalled s.active false b.batch = false
    rw [update_of_ne (hne _ hmem)]
    exact hsignal
  · have hsignal' : update s.signalled s.active false i = true := hsignal
    rw [update_of_ne (hne i hmem)] at hsignal'
    exact h.signalledDone i hmem hsignal'

theorem Timely.goOn (h : Timely s) (hi : Inv s) (next : Nat)
    (hclear : s.signalled s.active = false) : Timely (s.goOn next) := by
  have hne : ∀ i ∈ s.sealed, i ≠ s.active := by
    rintro i hmem rfl
    exact hi.active_not_sealed hmem
  have hat : ∀ i ∈ s.sealed, (s.goOn next).sealedAt i = s.sealedAt i := fun i hmem =>
    update_of_ne (hne i hmem) _ _
  have hatActive : (s.goOn next).sealedAt s.active = s.next := update_self ..
  refine ⟨fun b hb => ?_, ?_, fun i hmem hsignal => ?_, h.moved⟩
  · rcases List.mem_append.mp hb with hb | hb
    · obtain ⟨hmem, hpos, hsignal⟩ := h.pending b hb
      exact ⟨List.mem_append_left _ hmem, hpos.trans (hat _ hmem).symm, hsignal⟩
    · obtain rfl := List.mem_singleton.mp hb
      exact ⟨List.mem_append_right _ List.mem_cons_self, hatActive.symm, hclear⟩
  · show ((s.pending ++ [(⟨s.active, s.next⟩ : Barrier)]).map (·.batch)).Nodup
    rw [List.map_append, List.nodup_append]
    refine ⟨h.once, List.nodup_singleton _, ?_⟩
    intro i hmem j hj
    obtain ⟨b, hb, rfl⟩ := List.mem_map.mp hmem
    obtain rfl := List.mem_singleton.mp hj
    exact hne _ (h.pending b hb).1
  · rcases List.mem_append.mp hmem with hmem | hmem
    · rw [hat i hmem]
      exact h.signalledDone i hmem hsignal
    · obtain rfl := List.mem_singleton.mp hmem
      have hsignal' : s.signalled s.active = true := hsignal
      rw [hclear] at hsignal'
      cases hsignal'

theorem Timely.complete (h : Timely s) (k : Nat) : Timely (s.complete k) := by
  unfold CommandList.complete
  cases hk : s.pending[k]? with
  | none => exact h
  | some b =>
    obtain ⟨hlt, hget⟩ := List.getElem?_eq_some_iff.mp hk
    have hperm : (b :: s.pending.eraseIdx k).Perm s.pending := by
      rw [← hget]
      exact List.getElem_cons_eraseIdx_perm hlt
    have hnodup := (hperm.map (·.batch)).nodup_iff.mpr h.once
    rw [List.map_cons, List.nodup_cons] at hnodup
    have hne : ∀ c ∈ s.pending.eraseIdx k, c.batch ≠ b.batch := fun c hc heq =>
      hnodup.1 (heq ▸ List.mem_map_of_mem hc)
    have hb : b ∈ s.pending := hperm.mem_iff.mp List.mem_cons_self
    refine ⟨fun c hc => ?_, hnodup.2, fun i hmem hsignal => ?_, fun e he => ?_⟩
    · obtain ⟨hmem, hpos, hsignal⟩ := h.pending c (hperm.mem_iff.mp (List.mem_cons_of_mem _ hc))
      refine ⟨hmem, hpos, ?_⟩
      show update s.signalled b.batch true c.batch = false
      rw [update_of_ne (hne c hc)]
      exact hsignal
    · by_cases heq : i = b.batch
      · subst heq
        show s.sealedAt b.batch ∈ b.position :: s.done
        rw [(h.pending b hb).2.1]
        exact List.mem_cons_self
      · have hsignal' : update s.signalled b.batch true i = true := hsignal
        rw [update_of_ne heq] at hsignal'
        exact List.mem_cons_of_mem _ (h.signalledDone i hmem hsignal')
    · obtain ⟨p, hp, hlt⟩ := h.moved e he
      exact ⟨p, List.mem_cons_of_mem _ hp, hlt⟩

/-- **A change keeps events and barriers in time.** -/
theorem Change.timely (hc : Change clear resets s s') (hclear : clear) (hi : Inv s)
    (h : Timely s) : Timely s' := by
  cases hc with
  | append => exact ⟨h.pending, h.once, h.signalledDone, h.moved⟩
  | retire oldest rest signalled hsealed hcomplete hfades _ =>
    exact h.retire hi hsealed hcomplete hfades
  | create => exact ⟨h.pending, h.once, h.signalledDone, h.moved⟩
  | createEvent => exact h.createEvent hi
  | goOn next _ _ _ hevent => exact h.goOn hi next (hevent hclear)
  | complete k => exact h.complete k
  | restart signalled _ _ =>
    refine ⟨nofun, List.nodup_nil, nofun, fun e he => ?_⟩
    obtain ⟨p, hp, hlt⟩ := h.moved e he
    exact ⟨p, List.mem_append_right _ hp, hlt⟩
  | take keep => exact ⟨h.pending, h.once, h.signalledDone, h.moved⟩

/-! ## Events that are reset -/

/-- While the driver resets what it is asked to, no event is signalled but those of sealed
batches. -/
structure Clean (s : CommandList) : Prop where
  signalled : ∀ i, s.signalled i = true → i ∈ s.sealed
  made : ∀ i ∈ s.sealed, (s.batch i).barrierEvent = true

/-- **A change keeps the events clean.** -/
theorem Change.clean (hc : Change clear resets s s') (hresets : resets) (hi : Inv s)
    (ht : Timely s) (h : Clean s) : Clean s' := by
  have hne : ∀ i ∈ s.sealed, i ≠ s.active := by
    rintro i hmem rfl
    exact hi.active_not_sealed hmem
  -- only sealed batches are signalled, and a batch is sealed once its event is made
  cases hc with
  | append =>
    refine ⟨h.signalled, fun i hmem => ?_⟩
    show (update s.batch s.active _ i).barrierEvent = true
    rw [update_of_ne (hne i hmem)]
    exact h.made i hmem
  | retire oldest rest signalled hsealed hcomplete hfades hreset =>
    have hold : oldest ∈ s.sealed := hsealed ▸ List.mem_cons_self
    have hrest : oldest ∉ rest := by
      intro hmem
      have horder := hi.order
      rw [hsealed, List.pairwise_cons] at horder
      exact Nat.lt_irrefl _ (horder.1 oldest hmem)
    refine ⟨fun i hsignal => ?_, fun i hmem => ?_⟩
    · have hmem := h.signalled i (hfades i hsignal)
      rw [hsealed, List.mem_cons] at hmem
      refine hmem.resolve_left ?_
      rintro rfl
      have hsignal' : signalled i = true := hsignal
      rw [hreset hresets (h.made i hold)] at hsignal'
      cases hsignal'
    · have hi' : i ≠ oldest := by
        rintro rfl
        exact hrest hmem
      rw [CommandList.retire_other rest signalled hi']
      exact h.made i (hsealed ▸ List.mem_cons_of_mem _ hmem)
  | create =>
    refine ⟨h.signalled, fun i hmem => ?_⟩
    show (update s.batch s.count _ i).barrierEvent = true
    rw [update_of_ne (Nat.ne_of_lt ((hi.sealed i).mp hmem).1)]
    exact h.made i hmem
  | createEvent =>
    refine ⟨fun i hsignal => ?_, fun i hmem => ?_⟩
    · have hsignal' : update s.signalled s.active false i = true := hsignal
      by_cases heq : i = s.active
      · subst heq
        rw [update_self] at hsignal'
        cases hsignal'
      · rw [update_of_ne heq] at hsignal'
        exact h.signalled i hsignal'
    · show (update s.batch s.active _ i).barrierEvent = true
      rw [update_of_ne (hne i hmem)]
      exact h.made i hmem
  | goOn next hnext hempty hevent _ =>
    have hactive : next ≠ s.active := by
      rintro rfl
      rw [hi.active_st] at hempty
      cases hempty
    refine ⟨fun i hsignal => List.mem_append_left _ (h.signalled i hsignal), fun i hmem => ?_⟩
    rcases List.mem_append.mp hmem with hold | hnew
    · have hother : i ≠ next := by
        rintro rfl
        have hst := ((hi.sealed i).mp hold).2
        rw [hempty] at hst
        cases hst
      rw [CommandList.goOn_other hother (hne i hold)]
      exact h.made i hold
    · obtain rfl := List.mem_singleton.mp hnew
      rw [CommandList.goOn_active hactive]
      exact hevent
  | complete k =>
    unfold CommandList.complete
    cases hk : s.pending[k]? with
    | none => exact h
    | some b =>
      refine ⟨fun i hsignal => ?_, h.made⟩
      by_cases heq : i = b.batch
      · rw [heq]
        exact (ht.pending b (List.mem_of_getElem? hk)).1
      · have hsignal' : update s.signalled b.batch true i = true := hsignal
        rw [update_of_ne heq] at hsignal'
        exact h.signalled i hsignal'
  | restart signalled hfades hreset =>
    refine ⟨fun i hsignal => ?_, nofun⟩
    have hbefore : (s.signalled i || s.pending.any (·.batch == i)) = true := hfades i hsignal
    have hmem : i ∈ s.sealed := by
      rcases (Bool.or_eq_true _ _).mp hbefore with hsig | hpend
      · exact h.signalled i hsig
      · obtain ⟨b, hb, heq⟩ := List.any_eq_true.mp hpend
        have heq : b.batch = i := by simpa using heq
        exact heq ▸ (ht.pending b hb).1
    have hsignal' : signalled i = true := hsignal
    rw [hreset hresets i ((hi.sealed i).mp hmem).1 (h.made i hmem)] at hsignal'
    cases hsignal'
  | take keep => exact ⟨h.signalled, h.made⟩

end UnifiedRuntime.LevelZero.Completion
