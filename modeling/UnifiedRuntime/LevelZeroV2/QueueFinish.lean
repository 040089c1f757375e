import UnifiedRuntime.Lib.ListLoops

/-!
# Finishing an in-order queue of the v2 adapter

The queue keeps the events whose release waits for the driver (`deferEventFree`) and
the kernels that were submitted (`recordSubmittedKernel`), for each a reference of its
own. `queueFinish` waits for the driver, releases the events one by one and clears their
list, and then does the same with the kernels. Where a release fails it returns at once,
before the list is cleared.

A reference gets a number when the queue takes it, and `released` counts the release
calls for each number; a call counts whether it fails or not, as a kernel's `RefCount` is
taken down before anything of its release can fail. The `RefCount` is kept as well, as an
integer: a second release takes it below what the others hold.

Main results:
- `queueFinish_once`: in every run each reference is released at most once, and exactly
  once when a finish succeeds, if and only if no finish walks over a list in which an
  earlier finish failed.
-/

namespace UnifiedRuntime.LevelZeroV2.Finish

open Function (update update_of_ne update_self)

/-! ## The queue -/

/-- A reference that the queue has taken on an event or a kernel. -/
structure Ref where
  ticket : Nat
  handle : Nat

/-- The lists of `ur_queue_immediate_in_order_t`, and what was done so far. -/
structure Queue where
  deferredEvents : List Ref
  submittedKernels : List Ref
  /-- How many references were taken. -/
  taken : Nat
  /-- The release calls for each of them. -/
  released : Nat → Nat
  /-- The kernels' `RefCount`. -/
  refCount : Nat → Int

/-- What the driver and the objects say during one `queueFinish`. -/
structure FinishAnswers where
  synchronized : Bool
  eventReleased : Ref → Bool
  kernelReleased : Ref → Bool

namespace Queue

def new (refCount : Nat → Int) : Queue := ⟨[], [], 0, fun _ => 0, refCount⟩

def deferEventFree (s : Queue) (hEvent : Nat) : Queue :=
  { s with
    deferredEvents := s.deferredEvents ++ [⟨s.taken, hEvent⟩]
    taken := s.taken + 1 }

def recordSubmittedKernel (s : Queue) (hKernel : Nat) : Queue :=
  { s with
    submittedKernels := s.submittedKernels ++ [⟨s.taken, hKernel⟩]
    taken := s.taken + 1
    refCount := update s.refCount hKernel (s.refCount hKernel + 1) }

/-- `releaseDeferred` of an event. -/
def releaseDeferred (s : Queue) (hEvent : Ref) : Queue :=
  { s with
    released := update s.released hEvent.ticket (s.released hEvent.ticket + 1) }

/-- `release` of a kernel. -/
def release (s : Queue) (hKernel : Ref) : Queue :=
  { s with
    released := update s.released hKernel.ticket (s.released hKernel.ticket + 1)
    refCount := update s.refCount hKernel.handle (s.refCount hKernel.handle - 1) }

def queueFinish (s : Queue) (a : FinishAnswers) : Queue × Bool :=
  if !a.synchronized then (s, false)
  else
    match walk releaseDeferred a.eventReleased s s.deferredEvents with
    | (s, false) => (s, false)
    | (s, true) =>
      let s := { s with deferredEvents := [] }
      match walk release a.kernelReleased s s.submittedKernels with
      | (s, false) => (s, false)
      | (s, true) => ({ s with submittedKernels := [] }, true)

end Queue

/-! ## Runs -/

inductive Op where
  | deferEventFree (hEvent : Nat)
  | recordSubmittedKernel (hKernel : Nat)
  | queueFinish (a : FinishAnswers)

/-- A step, and whether it was a finish that succeeded. -/
def Queue.step (s : Queue) : Op → Queue × Bool
  | .deferEventFree hEvent => (s.deferEventFree hEvent, false)
  | .recordSubmittedKernel hKernel => (s.recordSubmittedKernel hKernel, false)
  | .queueFinish a => s.queueFinish a

/-- Nothing is released twice, and a finish that succeeds leaves nothing referenced: all
references taken so far are released, and the kernels' counts are those of the others. -/
def Once (others : Nat → Int) (r : Queue × Bool) : Prop :=
  (∀ t, r.1.released t ≤ 1) ∧
    (r.2 = true → r.1.deferredEvents = [] ∧ r.1.submittedKernels = [] ∧
      (∀ t, t < r.1.taken → r.1.released t = 1) ∧ r.1.refCount = others)

/-- That after each step of a run. -/
def OnceAlong (others : Nat → Int) : Queue → List Op → Prop
  | _, [] => True
  | s, op :: ops => Once others (s.step op) ∧ OnceAlong others (s.step op).1 ops

/-- No element of the list was released by an earlier finish, which then failed. -/
def Fresh (s : Queue) (l : List Ref) : Prop := ∀ e ∈ l, s.released e.ticket = 0

/-- A finish that gets beyond the driver walks over fresh lists: the events', and the
kernels' if no event fails. -/
def Unspoilt (s : Queue) : Op → Prop
  | .deferEventFree _ | .recordSubmittedKernel _ => True
  | .queueFinish a => a.synchronized = true → Fresh s s.deferredEvents ∧
      (s.deferredEvents.all a.eventReleased = true → Fresh s s.submittedKernels)

def UnspoiltAlong : Queue → List Op → Prop
  | _, [] => True
  | s, op :: ops => Unspoilt s op ∧ UnspoiltAlong (s.step op).1 ops

/-! ## Release calls for a list -/

/-- The counts after one more release call for each of the references. -/
def bump (released : Nat → Nat) (vs : List Ref) : Nat → Nat := fun t =>
  released t + (vs.map Ref.ticket).count t

variable {released : Nat → Nat} {vs l : List Ref} {e : Ref} {t : Nat}

theorem le_bump : released t ≤ bump released vs t := Nat.le_add_right _ _

theorem bump_of_not_mem (h : t ∉ vs.map Ref.ticket) : bump released vs t = released t := by
  unfold bump
  rw [List.count_eq_zero_of_not_mem h, Nat.add_zero]

theorem bump_of_mem (hnd : (vs.map Ref.ticket).Nodup) (he : e ∈ vs)
    (h0 : released e.ticket = 0) : bump released vs e.ticket = 1 := by
  unfold bump
  rw [h0, List.count_eq_one_of_mem hnd (List.mem_map_of_mem he)]

theorem lt_bump_of_mem (he : e ∈ vs) : released e.ticket < bump released vs e.ticket := by
  have hpos : 0 < (vs.map Ref.ticket).count e.ticket :=
    List.count_pos_iff.mpr (List.mem_map_of_mem he)
  unfold bump
  omega

/-- Release calls for fresh references leave every count at most one. -/
theorem bump_le_one (hnd : (vs.map Ref.ticket).Nodup) (h0 : ∀ e ∈ vs, released e.ticket = 0)
    (hle : ∀ t, released t ≤ 1) : bump released vs t ≤ 1 := by
  by_cases ht : t ∈ vs.map Ref.ticket
  · obtain ⟨e, he, rfl⟩ := List.mem_map.mp ht
    exact Nat.le_of_eq (bump_of_mem hnd he (h0 e he))
  · rw [bump_of_not_mem ht]
    exact hle t

theorem bump_cons (e : Ref) (vs : List Ref) :
    bump (update released e.ticket (released e.ticket + 1)) vs =
      bump released (e :: vs) := by
  funext t
  unfold bump
  rw [List.map_cons, List.count_cons]
  by_cases ht : t = e.ticket
  · subst ht
    rw [update_self, beq_self_eq_true, if_pos rfl]
    omega
  · rw [update_of_ne ht, if_neg (by simpa using Ne.symm ht)]
    omega

namespace Queue

variable {s : Queue} {a : FinishAnswers}

/-- The loop over the events changes nothing else. -/
theorem foldl_releaseDeferred (vs : List Ref) (s : Queue) :
    vs.foldl releaseDeferred s = { s with released := bump s.released vs } := by
  induction vs generalizing s with
  | nil => rfl
  | cons e vs ih =>
    rw [List.foldl_cons, ih]
    show { s with released := bump (update s.released e.ticket _) vs } = _
    rw [bump_cons]

/-- The loop over the kernels counts them down as well. -/
theorem foldl_release (vs : List Ref) (s : Queue) :
    vs.foldl release s = { s with
      released := bump s.released vs
      refCount := fun h => s.refCount h - (vs.map Ref.handle).count h } := by
  induction vs generalizing s with
  | nil =>
    have hcount : (fun h => s.refCount h - (([].map Ref.handle).count h : Nat)) = s.refCount := by
      funext h
      simp
    show s = { s with released := s.released, refCount := _ }
    rw [hcount]
  | cons k vs ih =>
    rw [List.foldl_cons, ih]
    show { s with
      released := bump (update s.released k.ticket _) vs
      refCount := fun h => update s.refCount k.handle _ h - _ } = _
    rw [bump_cons]
    congr 1
    funext h
    rw [List.map_cons, List.count_cons]
    by_cases hk : h = k.handle
    · subst hk
      rw [update_self, beq_self_eq_true, if_pos rfl]
      omega
    · rw [update_of_ne hk, if_neg (by simpa using Ne.symm hk)]
      omega

/-- What the walk over the events leaves. -/
def afterEvents (s : Queue) (ok : Ref → Bool) : Queue :=
  { s with released := bump s.released (visited ok s.deferredEvents) }

/-- What the walk over the kernels leaves. -/
def afterKernels (s : Queue) (ok : Ref → Bool) : Queue :=
  { s with
    released := bump s.released (visited ok s.submittedKernels)
    refCount := fun h => s.refCount h - ((visited ok s.submittedKernels).map Ref.handle).count h }

def clearEvents (s : Queue) : Queue := { s with deferredEvents := [] }

def clearKernels (s : Queue) : Queue := { s with submittedKernels := [] }

/-- `queueFinish` in terms of these. -/
theorem queueFinish_eq (s : Queue) (a : FinishAnswers) :
    s.queueFinish a =
      if a.synchronized = false then (s, false)
      else if s.deferredEvents.all a.eventReleased = false then
        (s.afterEvents a.eventReleased, false)
      else if s.submittedKernels.all a.kernelReleased = false then
        ((s.afterEvents a.eventReleased).clearEvents.afterKernels a.kernelReleased, false)
      else
        (((s.afterEvents a.eventReleased).clearEvents.afterKernels a.kernelReleased).clearKernels,
          true) := by
  unfold queueFinish
  cases a.synchronized with
  | false => rfl
  | true =>
    rw [walk_eq, foldl_releaseDeferred]
    cases s.deferredEvents.all a.eventReleased with
    | false => rfl
    | true =>
      show (match walk release a.kernelReleased _ s.submittedKernels with
        | (s, false) => (s, false)
        | (s, true) => (s.clearKernels, true)) = _
      rw [walk_eq, foldl_release]
      cases s.submittedKernels.all a.kernelReleased with
      | false => rfl
      | true => rfl

/-- All references in the lists. -/
def refs (s : Queue) : List Ref := s.deferredEvents ++ s.submittedKernels

/-- The kernels that the queue still has a reference to. -/
def unreleased (s : Queue) : List Ref :=
  s.submittedKernels.filter fun k => decide (s.released k.ticket = 0)

end Queue

/-! ## The invariant -/

open Queue

/-- If a reference of the list was released before, the first one was. -/
def HeadFirst (s : Queue) (l : List Ref) : Prop :=
  ∀ e rest, l = e :: rest → s.released e.ticket = 0 → Fresh s l

/-- The numbers of the references in the lists, and how often each number was released. -/
structure Numbered (refs : List Ref) (taken : Nat) (released : Nat → Nat) : Prop where
  nodup : (refs.map Ref.ticket).Nodup
  lt : ∀ e ∈ refs, e.ticket < taken
  once : ∀ t, released t ≤ 1
  gone : ∀ t, t < taken → t ∉ refs.map Ref.ticket → released t = 1
  fresh : ∀ t, taken ≤ t → released t = 0

structure Inv (others : Nat → Int) (s : Queue) : Prop where
  numbered : Numbered s.refs s.taken s.released
  events : HeadFirst s s.deferredEvents
  kernels : HeadFirst s s.submittedKernels
  count : ∀ h, s.refCount h = others h + (s.unreleased.map Ref.handle).count h

namespace Numbered

variable {refs refs' : List Ref} {n h : Nat}

/-- The queue takes one more reference. -/
theorem push (hn : Numbered refs n released) (hp : refs'.Perm (⟨n, h⟩ :: refs)) :
    Numbered refs' (n + 1) released where
  nodup := by
    refine (hp.map Ref.ticket).nodup_iff.mpr ?_
    refine List.nodup_cons.mpr ⟨fun hmem => ?_, hn.nodup⟩
    obtain ⟨e, he, hte⟩ := List.mem_map.mp hmem
    have hlt := hn.lt e he
    rw [hte] at hlt
    exact Nat.lt_irrefl n hlt
  lt := fun e he => by
    rcases List.mem_cons.mp (hp.mem_iff.mp he) with rfl | he
    · exact Nat.lt_succ_self n
    · exact Nat.lt_succ_of_lt (hn.lt e he)
  once := hn.once
  gone := fun t ht hmem => by
    have hnot : t ∉ (⟨n, h⟩ :: refs).map Ref.ticket := fun hin =>
      hmem ((hp.map Ref.ticket).mem_iff.mpr hin)
    rw [List.map_cons, List.mem_cons, not_or] at hnot
    refine hn.gone t ?_ hnot.2
    have hne : t ≠ n := hnot.1
    omega
  fresh := fun t ht => hn.fresh t (by omega)

/-- Fresh references are released. -/
theorem bump (hn : Numbered refs n released) (hsub : vs.Sublist refs)
    (h0 : ∀ e ∈ vs, released e.ticket = 0) : Numbered refs n (Finish.bump released vs) where
  nodup := hn.nodup
  lt := hn.lt
  once := fun _ => bump_le_one ((hsub.map Ref.ticket).nodup hn.nodup) h0 hn.once
  gone := fun t ht hmem => by
    rw [bump_of_not_mem fun hin => hmem ((hsub.map Ref.ticket).subset hin)]
    exact hn.gone t ht hmem
  fresh := fun t ht => by
    rw [bump_of_not_mem, hn.fresh t ht]
    intro hin
    obtain ⟨e, he, rfl⟩ := List.mem_map.mp hin
    exact absurd (hn.lt e (hsub.subset he)) (Nat.not_lt.mpr ht)

/-- Released references leave the lists. -/
theorem clear (hn : Numbered refs n released) (hsub : refs'.Sublist refs)
    (h1 : ∀ e ∈ refs, e ∉ refs' → released e.ticket = 1) : Numbered refs' n released where
  nodup := (hsub.map Ref.ticket).nodup hn.nodup
  lt := fun e he => hn.lt e (hsub.subset he)
  once := hn.once
  gone := fun t ht hmem => by
    by_cases hin : t ∈ refs.map Ref.ticket
    · obtain ⟨e, he, rfl⟩ := List.mem_map.mp hin
      exact h1 e he fun he' => hmem (List.mem_map_of_mem he')
    · exact hn.gone t ht hin
  fresh := hn.fresh

end Numbered

variable {others : Nat → Int} {s : Queue} {ok : Ref → Bool} {a : FinishAnswers}

theorem visited_sublist (ok : Ref → Bool) (l : List Ref) : (visited ok l).Sublist l := by
  conv_rhs => rw [← visited_append_unvisited ok l]
  exact List.sublist_append_left _ _

theorem Inv.new (others : Nat → Int) : Inv others (.new others) where
  numbered := {
    nodup := List.nodup_nil
    lt := fun _ h => absurd h List.not_mem_nil
    once := fun _ => Nat.zero_le _
    gone := fun t h => absurd h (Nat.not_lt_zero t)
    fresh := fun _ _ => rfl }
  events := fun _ _ h => by cases h
  kernels := fun _ _ h => by cases h
  count := fun h => by simp [Queue.new, Queue.unreleased]

/-- An event and a kernel have different numbers. -/
theorem Inv.apart (h : Inv others s) {e k : Ref} (he : e ∈ s.deferredEvents)
    (hk : k ∈ s.submittedKernels) : k.ticket ≠ e.ticket := by
  intro heq
  have hnd := h.numbered.nodup
  unfold Queue.refs at hnd
  rw [List.map_append] at hnd
  exact (List.nodup_append.mp hnd).2.2 _ (List.mem_map_of_mem he) _ (List.mem_map_of_mem hk)
    heq.symm

/-! ## The steps -/

/-- A list that a reference with count 0 was added to. -/
theorem HeadFirst.push {x : Ref} (h : HeadFirst s l) (hx : s.released x.ticket = 0) :
    HeadFirst s (l ++ [x]) := by
  intro e rest heq h0
  have hl : Fresh s l := by
    cases l with
    | nil => exact fun _ hmem => absurd hmem List.not_mem_nil
    | cons y l =>
      rw [List.cons_append, List.cons.injEq] at heq
      exact h y l rfl (heq.1 ▸ h0)
  intro y hy
  rcases List.mem_append.mp hy with hy | hy
  · exact hl y hy
  · rw [List.mem_singleton.mp hy]
    exact hx

theorem Inv.deferEventFree (h : Inv others s) (hEvent : Nat) :
    Inv others (s.deferEventFree hEvent) where
  numbered := h.numbered.push (by
    show ((s.deferredEvents ++ [Ref.mk s.taken hEvent]) ++ s.submittedKernels).Perm _
    rw [List.append_assoc]
    exact List.perm_middle)
  events := HeadFirst.push (s := s.deferEventFree hEvent) h.events
    (h.numbered.fresh s.taken (Nat.le_refl _))
  kernels := h.kernels
  count := h.count

theorem Inv.recordSubmittedKernel (h : Inv others s) (hKernel : Nat) :
    Inv others (s.recordSubmittedKernel hKernel) where
  numbered := h.numbered.push (by
    show (s.deferredEvents ++ (s.submittedKernels ++ [Ref.mk s.taken hKernel])).Perm _
    rw [← List.append_assoc]
    exact List.perm_append_singleton _ _)
  events := h.events
  kernels := HeadFirst.push (s := s.recordSubmittedKernel hKernel) h.kernels
    (h.numbered.fresh s.taken (Nat.le_refl _))
  count := fun k => by
    have hfresh := h.numbered.fresh s.taken (Nat.le_refl _)
    have hlist : (s.recordSubmittedKernel hKernel).unreleased =
        s.unreleased ++ [⟨s.taken, hKernel⟩] := by
      have hnew : [Ref.mk s.taken hKernel].filter (fun k => decide (s.released k.ticket = 0)) =
          [Ref.mk s.taken hKernel] := by
        refine List.filter_eq_self.mpr fun k hk => ?_
        rw [List.mem_singleton.mp hk]
        exact decide_eq_true hfresh
      show (s.submittedKernels ++ [_]).filter _ = _
      rw [List.filter_append]
      exact congrArg (s.unreleased ++ ·) hnew
    rw [hlist]
    show update s.refCount hKernel (s.refCount hKernel + 1) k = _
    by_cases hk : k = hKernel
    · subst hk
      rw [h.count]
      simp [add_assoc]
    · rw [update_of_ne hk, h.count]
      simp [Ne.symm hk]

/-- What is left when a list was walked over to its first failure: if anything of it was
released, the first one was. -/
theorem HeadFirst.of_visited (ok : Ref → Bool) {s' : Queue}
    (hrel : s'.released = bump s.released (visited ok l)) : HeadFirst s' l := by
  intro e rest heq h0
  subst heq
  have hlt : s.released e.ticket <
      bump s.released (visited ok (e :: rest)) e.ticket :=
    lt_bump_of_mem List.mem_cons_self
  rw [hrel] at h0
  omega

/-- Release calls for other references leave a list as it was. -/
theorem HeadFirst.frame {s' : Queue} (h : HeadFirst s l)
    (hrel : ∀ e ∈ l, s'.released e.ticket = s.released e.ticket) : HeadFirst s' l := by
  intro e rest heq h0 x hx
  rw [hrel x hx]
  refine h e rest heq ?_ x hx
  rw [← hrel e (heq ▸ List.mem_cons_self)]
  exact h0

/-- Release calls for the front of a fresh list leave the rest unreleased. -/
theorem filter_unreleased {us : List Ref} (hnd : ((vs ++ us).map Ref.ticket).Nodup)
    (h0 : ∀ e ∈ vs ++ us, released e.ticket = 0) :
    (vs ++ us).filter (fun e => decide (bump released vs e.ticket = 0)) = us := by
  rw [List.map_append] at hnd
  obtain ⟨hvs, -, hapart⟩ := List.nodup_append.mp hnd
  have hleft : vs.filter (fun e => decide (bump released vs e.ticket = 0)) = [] := by
    refine List.filter_eq_nil_iff.mpr fun e he => ?_
    rw [bump_of_mem hvs he (h0 e (List.mem_append_left _ he))]
    simp
  have hright : us.filter (fun e => decide (bump released vs e.ticket = 0)) = us := by
    refine List.filter_eq_self.mpr fun e he => ?_
    rw [bump_of_not_mem fun hin => hapart _ hin _ (List.mem_map_of_mem he) rfl]
    exact decide_eq_true (h0 e (List.mem_append_right _ he))
  rw [List.filter_append, hleft, hright, List.nil_append]

/-- The walk over the events. -/
theorem Inv.afterEvents (h : Inv others s) (hf : Fresh s s.deferredEvents) (ok : Ref → Bool) :
    Inv others (s.afterEvents ok) := by
  have hkernels : ∀ k ∈ s.submittedKernels,
      (s.afterEvents ok).released k.ticket = s.released k.ticket := by
    intro k hk
    refine bump_of_not_mem fun hmem => ?_
    obtain ⟨e, he, heq⟩ := List.mem_map.mp hmem
    exact h.apart (mem_of_mem_visited he) hk heq.symm
  refine ⟨h.numbered.bump ?_ fun e he => hf e (mem_of_mem_visited he),
    HeadFirst.of_visited ok rfl, h.kernels.frame hkernels, fun k => ?_⟩
  · exact (visited_sublist ok _).trans (List.sublist_append_left _ _)
  · have hlist : (s.afterEvents ok).unreleased = s.unreleased :=
      List.filter_congr fun k hk => by rw [hkernels k hk]
    rw [hlist]
    exact h.count k

/-- Where the walk went through, its events can go. -/
theorem Inv.clearEvents (h : Inv others s) (h1 : ∀ e ∈ s.deferredEvents, s.released e.ticket = 1) :
    Inv others s.clearEvents where
  numbered := h.numbered.clear (List.sublist_append_right _ _) fun e he hnot => by
    rcases List.mem_append.mp he with he | he
    · exact h1 e he
    · exact absurd he hnot
  events := fun _ _ heq => by cases heq
  kernels := h.kernels
  count := h.count

/-- The walk over the kernels. -/
theorem Inv.afterKernels (h : Inv others s) (hf : Fresh s s.submittedKernels) (ok : Ref → Bool) :
    Inv others (s.afterKernels ok) := by
  have hsub : (visited ok s.submittedKernels).Sublist s.refs :=
    (visited_sublist ok _).trans (List.sublist_append_right _ _)
  have hevents : ∀ e ∈ s.deferredEvents,
      (s.afterKernels ok).released e.ticket = s.released e.ticket := by
    intro e he
    refine bump_of_not_mem fun hmem => ?_
    obtain ⟨k, hk, heq⟩ := List.mem_map.mp hmem
    exact h.apart he (mem_of_mem_visited hk) heq
  refine ⟨h.numbered.bump hsub fun k hk => hf k (mem_of_mem_visited hk),
    h.events.frame hevents, HeadFirst.of_visited ok rfl, fun k => ?_⟩
  have hbefore : s.unreleased = s.submittedKernels :=
    List.filter_eq_self.mpr fun k hk => decide_eq_true (hf k hk)
  have hafter : (s.afterKernels ok).unreleased = unvisited ok s.submittedKernels := by
    have hkernels := ((List.sublist_append_right s.deferredEvents s.submittedKernels).map
      Ref.ticket).nodup h.numbered.nodup
    have hsplit := @filter_unreleased s.released (visited ok s.submittedKernels)
      (unvisited ok s.submittedKernels)
    rw [visited_append_unvisited] at hsplit
    exact hsplit hkernels hf
  show s.refCount k - _ = _
  rw [h.count, hbefore, hafter]
  conv_lhs => rw [← visited_append_unvisited ok s.submittedKernels]
  rw [List.map_append, List.count_append, visited_append_unvisited]
  omega

theorem Inv.clearKernels (h : Inv others s)
    (h1 : ∀ k ∈ s.submittedKernels, s.released k.ticket = 1) : Inv others s.clearKernels where
  numbered := h.numbered.clear (by
    show (s.deferredEvents ++ []).Sublist _
    rw [List.append_nil]
    exact List.sublist_append_left _ _) fun e he hnot => by
    rcases List.mem_append.mp he with he | he
    · exact absurd (List.mem_append_left _ he) hnot
    · exact h1 e he
  events := h.events
  kernels := fun _ _ heq => by cases heq
  count := fun k => by
    have hnone : s.unreleased = [] := by
      refine List.filter_eq_nil_iff.mpr fun k hk => ?_
      rw [h1 k hk]
      decide
    have hcount := h.count k
    rw [hnone] at hcount
    exact hcount

/-! ## A finish -/

/-- After a walk that goes through, each of the list is released. -/
theorem bump_all (hnd : (l.map Ref.ticket).Nodup) (h0 : ∀ e ∈ l, released e.ticket = 0)
    (hall : l.all ok = true) (he : e ∈ l) : bump released (visited ok l) e.ticket = 1 := by
  rw [visited_of_all hall]
  exact bump_of_mem hnd he (h0 e he)

theorem Inv.fresh_kernels (h : Inv others s) (hf : Fresh s s.submittedKernels) (ok : Ref → Bool) :
    Fresh (s.afterEvents ok).clearEvents s.submittedKernels := by
  intro k hk
  show bump s.released (visited ok s.deferredEvents) k.ticket = 0
  rw [bump_of_not_mem]
  · exact hf k hk
  · intro hmem
    obtain ⟨e, he, heq⟩ := List.mem_map.mp hmem
    exact h.apart (mem_of_mem_visited he) hk heq.symm

/-- The invariant between the two walks. -/
theorem Inv.between (h : Inv others s) (hf : Fresh s s.deferredEvents)
    (hall : s.deferredEvents.all ok = true) : Inv others (s.afterEvents ok).clearEvents := by
  refine (h.afterEvents hf ok).clearEvents fun e he => bump_all ?_ hf hall he
  exact ((List.sublist_append_left s.deferredEvents s.submittedKernels).map Ref.ticket).nodup
    h.numbered.nodup

/-- And after both. -/
theorem Inv.done {okₑ okₖ : Ref → Bool} (h : Inv others s) (hf : Fresh s s.deferredEvents)
    (hall : s.deferredEvents.all okₑ = true) (hfk : Fresh s s.submittedKernels)
    (hallk : s.submittedKernels.all okₖ = true) :
    Inv others ((s.afterEvents okₑ).clearEvents.afterKernels okₖ).clearKernels := by
  have hfk' := h.fresh_kernels hfk okₑ
  refine ((h.between hf hall).afterKernels hfk' okₖ).clearKernels fun k hk => ?_
  refine bump_all ?_ hfk' hallk hk
  exact ((List.sublist_append_right s.deferredEvents s.submittedKernels).map Ref.ticket).nodup
    h.numbered.nodup

/-- A state with empty lists: everything is released, and only the others' references are
left. -/
theorem Inv.settled (h : Inv others s) (he : s.deferredEvents = []) (hk : s.submittedKernels = []) :
    (∀ t, t < s.taken → s.released t = 1) ∧ s.refCount = others := by
  have hrefs : s.refs = [] := by
    unfold Queue.refs
    rw [he, hk]
    rfl
  refine ⟨fun t ht => h.numbered.gone t ht (by rw [hrefs]; exact List.not_mem_nil), ?_⟩
  funext x
  have hcount := h.count x
  unfold Queue.unreleased at hcount
  rw [hk] at hcount
  simpa using hcount

/-- **A finish over fresh lists** keeps the invariant and releases each reference once. -/
theorem Inv.queueFinish (h : Inv others s) (hok : Unspoilt s (.queueFinish a)) :
    Inv others (s.queueFinish a).1 ∧ Once others (s.queueFinish a) := by
  rw [queueFinish_eq]
  split
  next => exact ⟨h, h.numbered.once, fun hf => by cases hf⟩
  next hsync =>
    obtain ⟨hf, hfk⟩ := hok ((Bool.not_eq_false _).mp hsync)
    split
    next =>
      have hinv := h.afterEvents hf a.eventReleased
      exact ⟨hinv, hinv.numbered.once, fun hf => by cases hf⟩
    next hall =>
      have hall' := (Bool.not_eq_false _).mp hall
      have hfk' := hfk hall'
      split
      next =>
        have hinv := (h.between hf hall').afterKernels (h.fresh_kernels hfk' _) a.kernelReleased
        exact ⟨hinv, hinv.numbered.once, fun hf => by cases hf⟩
      next hallk =>
        have hinv := h.done hf hall' hfk' ((Bool.not_eq_false _).mp hallk)
        exact ⟨hinv, hinv.numbered.once, fun _ => ⟨rfl, rfl, hinv.settled rfl rfl⟩⟩

/-- The first reference of a list that is not fresh was released. -/
theorem HeadFirst.head (h : HeadFirst s l) (hn : ¬ Fresh s l) :
    ∃ e rest, l = e :: rest ∧ s.released e.ticket ≠ 0 := by
  cases l with
  | nil => exact absurd (fun _ hmem => absurd hmem List.not_mem_nil) hn
  | cons e rest => exact ⟨e, rest, rfl, fun h0 => hn (h e rest rfl h0)⟩

/-- A walk over a list that is not fresh releases its first reference again. -/
theorem HeadFirst.again (h : HeadFirst s l) (hn : ¬ Fresh s l) (ok : Ref → Bool)
    (hle : ∀ t, s.released t ≤ released t) :
    ∃ t, 1 < bump released (visited ok l) t := by
  obtain ⟨e, rest, rfl, h0⟩ := h.head hn
  refine ⟨e.ticket, ?_⟩
  have hlt : released e.ticket < bump released (visited ok (e :: rest)) e.ticket :=
    lt_bump_of_mem List.mem_cons_self
  have hge := hle e.ticket
  omega

/-- **A finish over a list that is not fresh** releases something twice. -/
theorem Inv.spoilt (h : Inv others s) (hok : ¬ Unspoilt s (.queueFinish a)) :
    ∃ t, 1 < (s.queueFinish a).1.released t := by
  unfold Unspoilt at hok
  rw [Classical.not_imp] at hok
  obtain ⟨hsync, hok⟩ := hok
  have hmono : ∀ t, (s.afterEvents a.eventReleased).released t ≤
      ((s.afterEvents a.eventReleased).clearEvents.afterKernels a.kernelReleased).released t :=
    fun t => le_bump
  rw [queueFinish_eq, if_neg (by rw [hsync]; simp)]
  by_cases hf : Fresh s s.deferredEvents
  · obtain ⟨hall, hfk⟩ := Classical.not_imp.mp fun himp => hok ⟨hf, himp⟩
    obtain ⟨t, ht⟩ := h.kernels.again hfk a.kernelReleased
      fun t => @le_bump s.released (visited a.eventReleased s.deferredEvents) t
    rw [if_neg (by rw [hall]; simp)]
    split
    next => exact ⟨t, ht⟩
    next => exact ⟨t, ht⟩
  · obtain ⟨t, ht⟩ := h.events.again hf a.eventReleased fun t => Nat.le_refl _
    split
    next => exact ⟨t, ht⟩
    next =>
      split
      next => exact ⟨t, Nat.lt_of_lt_of_le ht (hmono t)⟩
      next => exact ⟨t, Nat.lt_of_lt_of_le ht (hmono t)⟩

/-! ## Runs -/

/-- One step: the invariant and what is promised, for a step that meets the condition. -/
theorem Inv.step (h : Inv others s) {op : Op} (hok : Unspoilt s op) :
    Inv others (s.step op).1 ∧ Once others (s.step op) := by
  cases op with
  | deferEventFree hEvent =>
    have hinv := h.deferEventFree hEvent
    exact ⟨hinv, hinv.numbered.once, fun hf => by cases hf⟩
  | recordSubmittedKernel hKernel =>
    have hinv := h.recordSubmittedKernel hKernel
    exact ⟨hinv, hinv.numbered.once, fun hf => by cases hf⟩
  | queueFinish a => exact h.queueFinish hok

/-- A step that does not meet it breaks the promise. -/
theorem Inv.step_spoilt (h : Inv others s) {op : Op} (hok : ¬ Unspoilt s op) :
    ¬ Once others (s.step op) := by
  cases op with
  | deferEventFree hEvent => exact absurd trivial hok
  | recordSubmittedKernel hKernel => exact absurd trivial hok
  | queueFinish a =>
    obtain ⟨t, ht⟩ := h.spoilt hok
    exact fun honce => absurd (honce.1 t) (Nat.not_le.mpr ht)

theorem Inv.run_iff (ops : List Op) (h : Inv others s) :
    OnceAlong others s ops ↔ UnspoiltAlong s ops := by
  induction ops generalizing s with
  | nil => exact Iff.rfl
  | cons op ops ih =>
    by_cases hok : Unspoilt s op
    · obtain ⟨hinv, honce⟩ := h.step hok
      exact ⟨fun hr => ⟨hok, (ih hinv).mp hr.2⟩, fun hr => ⟨honce, (ih hinv).mpr hr.2⟩⟩
    · exact ⟨fun hr => absurd hr.1 (h.step_spoilt hok), fun hr => absurd hr.1 hok⟩

/-- **Every deferred reference is released exactly once** in a run exactly if no finish walks
over a list in which an earlier one failed. -/
theorem queueFinish_once (others : Nat → Int) (ops : List Op) :
    OnceAlong others (.new others) ops ↔ UnspoiltAlong (.new others) ops :=
  (Inv.new others).run_iff ops

/-- Two kernels are submitted; the release of the second fails in a finish, which the
application repeats. -/
def repeatedFinish : List Op :=
  [.recordSubmittedKernel 0, .recordSubmittedKernel 1,
    .queueFinish ⟨true, fun _ => true, fun k => k.handle != 1⟩,
    .queueFinish ⟨true, fun _ => true, fun _ => true⟩]

/-- Only the first kernel has references besides the deferred one. -/
def firstHeld : Nat → Int := fun k => if k = 0 then 1 else 0

/-- Both kernels are released twice. -/
theorem queueFinish_once_fails : ¬ OnceAlong firstHeld (.new firstHeld) repeatedFinish := by
  rw [queueFinish_once]
  intro h
  exact absurd ((h.2.2.2.1 rfl).2 rfl ⟨0, 0⟩ List.mem_cons_self) (by decide)

end UnifiedRuntime.LevelZeroV2.Finish
