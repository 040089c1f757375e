import UnifiedRuntime.Lib.Partition
import UnifiedRuntime.LevelZeroV2.EventPool

/-!
# Who has an event

Every event is in one freelist once, or with its holder, or in the list of a queue that
defers its release (`EventInv.events`); every driver event is in one freelist of a
provider once, or with its event (`EventInv.ze`). An event in a freelist is one of the
freelist's pool, has one reference and is reset.
-/

namespace UnifiedRuntime.LevelZeroV2

open Function (update update_of_ne update_self)
open EventState

/-! ## Owners -/

inductive EventOwner where
  | freelist (p : Nat)
  | holder
  | deferred (q : Nat)
  | abandoned
deriving DecidableEq

inductive ZeOwner where
  | provider (p : Nat)
  | event (e : Nat)
deriving DecidableEq

def ZeEvent.ofProviders : ZeEvent → List Nat
  | .pooled z => [z]
  | .native _ => []

namespace EventState

/-- The events an owner has. -/
def listOf (s : EventState) : EventOwner → List Nat
  | .freelist p => (s.pools p).elim [] EventPool.freelist
  | .holder => s.held
  | .deferred q => (s.queues q).elim [] EventQueue.deferredEvents
  | .abandoned => s.abandoned

/-- The driver events an owner has from the providers. -/
def zeListOf (s : EventState) : ZeOwner → List Nat
  | .provider p => ((s.pools p).map EventPool.provider).elim [] List.flatten
  | .event e => ((s.events e).map Event.zeEvent).elim [] ZeEvent.ofProviders

end EventState

/-- What an event is like where it is. -/
def Event.FitFor (ev : Event) : EventOwner → Prop
  | .freelist p => ev.pool = some p ∧ ev.refCount = 1 ∧ (ev.flags.counter = false → ev.signaled = false)
  | .deferred _ => ev.refCount = 0 ∧ ev.pool.isSome
  | .holder | .abandoned => True

structure EventInv (s : EventState) : Prop where
  events : Partitioned s.listOf fun e => (s.events e).isSome
  ze : Partitioned s.zeListOf fun z => z < s.nextZe
  fresh : ∀ e, s.nextEvent ≤ e → s.events e = none
  freshPool : ∀ p, s.nextPool ≤ p → s.pools p = none
  pooled : ∀ e ev p, s.events e = some ev → ev.pool = some p →
    ∃ pool, s.pools p = some pool ∧ ev.flags = pool.flags
  fit : ∀ o, ∀ e ∈ s.listOf o, ∀ ev, s.events e = some ev → ev.FitFor o
  native : ∀ e ev, s.events e = some ev → ev.pool = none →
    ev.startTimestamp = 0 ∧ ev.zeEvent.ofProviders = []

/-- The parts of an event that its use leaves alone. -/
def Event.SameKind (ev ev' : Event) : Prop :=
  ev'.pool = ev.pool ∧ ev'.zeEvent = ev.zeEvent ∧ ev'.flags = ev.flags

section Changes

variable {s s' : EventState} {e : Nat} {ev ev' : Event}

theorem isSome_update (hev : s.events e = some ev)
    (hev' : s'.events = update s.events e (some ev')) (e' : Nat) :
    (s'.events e').isSome ↔ (s.events e').isSome := by
  rw [hev']
  by_cases he : e' = e
  · simp [he, hev]
  · rw [update_of_ne he]

/-- Driver events stay with their events and providers. -/
theorem zeListOf_update (hev : s.events e = some ev)
    (hev' : s'.events = update s.events e (some ev')) (hk : ev.SameKind ev')
    (hp : ∀ p, (s'.pools p).map EventPool.provider = (s.pools p).map EventPool.provider)
    (o : ZeOwner) : s'.zeListOf o = s.zeListOf o := by
  cases o with
  | provider p => simp [zeListOf, hp p]
  | event e' =>
    simp only [zeListOf, hev']
    by_cases he : e' = e
    · subst he
      rw [update_self, hev, Option.map_some, Option.map_some, hk.2.1]
    · rw [update_of_ne he]

/-- An event changes where it is, or goes from one owner to another. -/
structure Moved (s s' : EventState) (e : Nat) (ev ev' : Event) (o o₂ : EventOwner) : Prop where
  was : s.events e = some ev
  is : s'.events = update s.events e (some ev')
  kind : ev.SameKind ev'
  lists : (o = o₂ ∧ ∀ o', (s'.listOf o').Perm (s.listOf o')) ∨
    (o ≠ o₂ ∧ (s.listOf o).Perm (e :: s'.listOf o) ∧ (s'.listOf o₂).Perm (e :: s.listOf o₂) ∧
      ∀ o', o' ≠ o → o' ≠ o₂ → (s'.listOf o').Perm (s.listOf o'))
  pools : ∀ p, (s'.pools p).map (fun x => (x.flags, x.provider))
    = (s.pools p).map fun x => (x.flags, x.provider)
  next : s'.nextEvent = s.nextEvent ∧ s'.nextZe = s.nextZe ∧ s'.nextPool = s.nextPool
  mem : e ∈ s.listOf o
  fit : ev'.FitFor o₂
  stamped : ev'.pool = none → ev'.startTimestamp = 0

theorem EventInv.moved (h : EventInv s) (e : Nat) (ev ev' : Event) (o o₂ : EventOwner)
    (hm : Moved s s' e ev ev' o o₂) :
    EventInv s' := by
  obtain ⟨hne, hnz, hnp⟩ := hm.next
  have hsome := isSome_update hm.was hm.is
  have hprov : ∀ p, (s'.pools p).map EventPool.provider = (s.pools p).map EventPool.provider :=
    fun p => by
      have hp := congrArg (Option.map Prod.snd) (hm.pools p)
      rw [Option.map_map, Option.map_map] at hp
      exact hp
  have hpart : Partitioned s'.listOf fun e => (s'.events e).isSome := by
    rcases hm.lists with ⟨-, hl⟩ | ⟨hoo, hfrom, hto, hother⟩
    · exact h.events.congr hl hsome
    · exact h.events.transfer o o₂ [e] hoo hfrom hto hother hsome
  refine ⟨hpart, ?_, fun e' he' => ?_, fun p hp => ?_, fun e' w p hw hwp => ?_,
    fun o' e' he' w hw => ?_, fun e' w hw hwp => ?_⟩
  · refine h.ze.congr (fun o => ?_) fun z => by rw [hnz]
    rw [zeListOf_update hm.was hm.is hm.kind hprov]
  · have hno := h.fresh e' (hne ▸ he')
    rw [hm.is, update_of_ne]
    · exact hno
    · rintro rfl
      rw [hm.was] at hno
      cases hno
  · have hpl := hm.pools p
    rw [h.freshPool p (hnp ▸ hp)] at hpl
    exact Option.map_eq_none_iff.mp hpl
  · -- the pool of an event is as before
    have hold : ∃ pool, s.pools p = some pool ∧ w.flags = pool.flags := by
      rw [hm.is] at hw
      by_cases he : e' = e
      · subst he
        rw [update_self] at hw
        obtain rfl := Option.some.inj hw
        rw [hm.kind.1] at hwp
        rw [hm.kind.2.2]
        exact h.pooled _ _ p hm.was hwp
      · rw [update_of_ne he] at hw
        exact h.pooled e' w p hw hwp
    obtain ⟨pool, hpool, hflags⟩ := hold
    have hpl := hm.pools p
    rw [hpool, Option.map_some, Option.map_eq_some_iff] at hpl
    obtain ⟨pool', hpool', heq⟩ := hpl
    exact ⟨pool', hpool', hflags.trans (Prod.mk.inj heq).1.symm⟩
  · rw [hm.is] at hw
    by_cases he : e' = e
    · subst he
      rw [update_self] at hw
      obtain rfl := Option.some.inj hw
      -- the event has no other owner
      have ho : o' = o₂ := by
        rcases hm.lists with ⟨rfl, hl⟩ | ⟨-, -, hto, -⟩
        · exact h.events.unique ((hl o').mem_iff.mp he') hm.mem
        · exact hpart.unique he' (hto.mem_iff.mpr List.mem_cons_self)
      rw [ho]
      exact hm.fit
    · rw [update_of_ne he] at hw
      have hin : e' ∈ s.listOf o' := by
        rcases hm.lists with ⟨-, hl⟩ | ⟨-, hfrom, hto, hother⟩
        · exact (hl o').mem_iff.mp he'
        · by_cases h₁ : o' = o
          · subst h₁
            exact hfrom.mem_iff.mpr (List.mem_cons_of_mem _ he')
          · by_cases h₂ : o' = o₂
            · subst h₂
              exact (List.mem_cons.mp (hto.mem_iff.mp he')).resolve_left he
            · exact (hother o' h₁ h₂).mem_iff.mp he'
      exact h.fit o' e' hin w hw
  · rw [hm.is] at hw
    by_cases he : e' = e
    · subst he
      rw [update_self] at hw
      obtain rfl := Option.some.inj hw
      rw [hm.kind.1] at hwp
      exact ⟨hm.stamped (hm.kind.1.trans hwp), by rw [hm.kind.2.1]; exact (h.native _ _ hm.was hwp).2⟩
    · rw [update_of_ne he] at hw
      exact h.native e' w hw hwp

/-- Nothing about the events changes. -/
theorem EventInv.frame (h : EventInv s) (he : s'.events = s.events)
    (hl : ∀ o, s'.listOf o = s.listOf o) (hz : ∀ o, s'.zeListOf o = s.zeListOf o)
    (hn : s'.nextEvent = s.nextEvent ∧ s'.nextZe = s.nextZe)
    (hp : ∀ p pool, s.pools p = some pool → s'.pools p = some pool)
    (hfp : ∀ p, s'.nextPool ≤ p → s'.pools p = none) : EventInv s' := by
  refine ⟨h.events.congr (fun o => by rw [hl o]) fun e => by rw [he],
    h.ze.congr (fun o => by rw [hz o]) fun z => by rw [hn.2], fun e' he' => ?_, hfp,
    fun e' w p hw hwp => ?_, fun o e' he' w hw => ?_, fun e' w hw hwp => ?_⟩
  · rw [he]
    exact h.fresh e' (hn.1 ▸ he')
  · rw [he] at hw
    obtain ⟨pool, hpool, hflags⟩ := h.pooled e' w p hw hwp
    exact ⟨pool, hp p pool hpool, hflags⟩
  · rw [he] at hw
    rw [hl o] at he'
    exact h.fit o e' he' w hw
  · rw [he] at hw
    exact h.native e' w hw hwp

/-- The holder of an event changes it. -/
theorem Moved.modify (hmem : e ∈ s.held) (hev : s.events e = some ev) {f : Event → Event}
    (hk : ev.SameKind (f ev)) (hs : (f ev).pool = none → (f ev).startTimestamp = 0) :
    Moved s (s.modify e f) e ev (f ev) .holder .holder where
  was := hev
  is := by
    unfold EventState.modify
    rw [hev]
    rfl
  kind := hk
  lists := .inl ⟨rfl, fun _ => .refl _⟩
  pools := fun _ => rfl
  next := ⟨rfl, rfl, rfl⟩
  mem := hmem
  fit := trivial
  stamped := hs

theorem EventInv.held_event (h : EventInv s) (hmem : e ∈ s.held) : ∃ ev, s.events e = some ev :=
  Option.isSome_iff_exists.mp (h.events.dom_of_mem (show e ∈ s.listOf .holder from hmem))

theorem EventInv.retain (h : EventInv s) (hr : s.retain e = some s') : EventInv s' := by
  obtain ⟨hmem, ⟨⟩⟩ := Option.ite_none_right_eq_some.mp hr
  obtain ⟨ev, hev⟩ := h.held_event hmem
  exact h.moved _ _ _ _ _ (Moved.modify hmem hev ⟨rfl, rfl, rfl⟩ fun hp => (h.native e ev hev hp).1)

theorem EventInv.use (h : EventInv s) {f : Event → Event} (hr : s.use e f = some s')
    (hf : ∀ ev : Event, ev.SameKind (f ev)) : EventInv s' := by
  obtain ⟨⟨hmem, hpool⟩, ⟨⟩⟩ := Option.ite_none_right_eq_some.mp hr
  obtain ⟨ev, hev⟩ := h.held_event hmem
  refine h.moved _ _ _ _ _ (Moved.modify hmem hev (hf ev) fun hno => ?_)
  -- events that have no pool are not used
  rw [hev, Option.bind_some, ← (hf ev).1, hno] at hpool
  cases hpool

end Changes

/-! ## Releases -/

section Release

variable {s s' : EventState} {e : Nat} {ev ev₁ : Event}

/-- The event has lost its last reference. -/
def EventState.detach (s : EventState) (e : Nat) (ev₁ : Event) : EventState :=
  { s with events := update s.events e (some ev₁), held := s.held.erase e }

theorem EventState.release_cases {timestamp : Nat} (h : s.release e timestamp = some s') :
    e ∈ s.held ∧ ∃ ev, s.events e = some ev ∧
      (s' = s.modify e (fun ev => { ev with refCount := ev.refCount - 1 }) ∨
        ∃ ev₁, ev.SameKind ev₁ ∧ ev₁.refCount = 0 ∧ ev₁.startTimestamp = ev.startTimestamp ∧
          (s' = (s.detach e ev₁).forceRelease e ∨
            (ev.isTimestamped = true ∧ (s.detach e ev₁).deferEventFree e ev = some s'))) := by
  obtain ⟨hmem, h⟩ := Option.ite_none_right_eq_some.mp h
  obtain ⟨ev, hev, h⟩ := Option.bind_eq_some_iff.mp h
  refine ⟨hmem, ev, hev, ?_⟩
  have hdec : s.modify e (fun ev => { ev with refCount := ev.refCount - 1 })
      = { s with
          events := update s.events e (some { ev with refCount := ev.refCount - 1 }) } := by
    unfold EventState.modify
    rw [hev]
    rfl
  split at h
  · exact .inl (Option.some.inj h).symm
  · next hlast =>
    have hzero : ev.refCount - 1 = 0 := by omega
    rw [hdec] at h
    simp only [EventState.modify, update_self, Function.update_idem, Option.map_some] at h
    split at h
    · next hst =>
      refine .inr ⟨{ ev with
        refCount := ev.refCount - 1
        endTimestamp := ev.getEventEndTimestamp timestamp }, ⟨rfl, rfl, rfl⟩, hzero, rfl, ?_⟩
      split at h
      · exact .inr ⟨hst, h⟩
      · exact .inl (Option.some.inj h).symm
    · exact .inr ⟨{ ev with refCount := ev.refCount - 1 }, ⟨rfl, rfl, rfl⟩, hzero, rfl,
        .inl (Option.some.inj h).symm⟩

/-- The event goes back to the freelist of its pool. -/
theorem free_moved (h : EventInv s) (s₁ : EventState) (ev₁ : Event) (o : EventOwner) {p : Nat}
    (hno : ∀ p, o ≠ .freelist p) (hev : s.events e = some ev)
    (hev₁ : s₁.events = update s.events e (some ev₁)) (hk : ev.SameKind ev₁)
    (hp : ev.pool = some p) (hc : ev₁.refCount = 0) (hfrom : (s.listOf o).Perm (e :: s₁.listOf o))
    (hother : ∀ o', o' ≠ o → s₁.listOf o' = s.listOf o') (hpools : s₁.pools = s.pools)
    (hnext : s₁.nextEvent = s.nextEvent ∧ s₁.nextZe = s.nextZe ∧ s₁.nextPool = s.nextPool) :
    EventInv (s₁.forceRelease e) := by
  obtain ⟨pool, hpool, -⟩ := h.pooled e ev p hev hp
  have he₁ : s₁.events e = some ev₁ := by
    rw [hev₁, update_self]
  have hrel : s₁.forceRelease e = s₁.free p e := by
    unfold EventState.forceRelease
    rw [he₁, Option.bind_some, hk.1, hp]
  -- the freelist of the pool is the only list that changes
  have hlist : ∀ o', o' ≠ .freelist p → (s₁.free p e).listOf o' = s₁.listOf o' := by
    intro o' ho'
    cases o' with
    | freelist p' =>
      have hpp : p' ≠ p := fun hpp => ho' (by rw [hpp])
      simp [EventState.listOf, EventState.free, update_of_ne hpp]
    | holder | deferred q | abandoned => rfl
  have hto : (s₁.free p e).listOf (.freelist p) = e :: s.listOf (.freelist p) := by
    simp only [EventState.listOf, EventState.free, update_self, hpools, hpool]
    rfl
  have hreset : ev₁.reset.pool = ev₁.pool ∧ ev₁.reset.zeEvent = ev₁.zeEvent ∧
      ev₁.reset.flags = ev₁.flags ∧
      (ev₁.flags.counter = false → ev₁.reset.signaled = false) := by
    unfold Event.reset
    split
    · next hcount => exact ⟨rfl, rfl, rfl, fun hno => (by rw [hcount] at hno; cases hno)⟩
    · exact ⟨rfl, rfl, rfl, fun _ => rfl⟩
  obtain ⟨hr₁, hr₂, hr₃, hr₄⟩ := hreset
  rw [hrel]
  refine h.moved e ev { ev₁.reset with refCount := ev₁.refCount + 1 } o (.freelist p) ⟨hev, ?_,
      ⟨hr₁.trans hk.1, hr₂.trans hk.2.1, hr₃.trans hk.2.2⟩, .inr ⟨hno p, ?_, ?_, fun o' h₁ h₂ => ?_⟩,
      fun p' => ?_, hnext, hfrom.mem_iff.mpr List.mem_cons_self, ⟨?_, ?_, fun hcount => ?_⟩,
      fun hnone => ?_⟩
  · simp only [EventState.free, EventState.modify, he₁, Option.map_some]
    rw [hev₁, Function.update_idem]
  · rw [hlist o (hno p)]
    exact hfrom
  · rw [hto]
  · rw [hlist o' h₂, hother o' h₁]
  · by_cases hpp : p' = p
    · subst hpp
      simp only [EventState.free, update_self, hpools, hpool]
      rfl
    · simp [EventState.free, update_of_ne hpp, hpools]
  · exact hr₁.trans (hk.1.trans hp)
  · simp [hc]
  · exact hr₄ (by rw [← hr₃]; exact hcount)
  · rw [show ({ ev₁.reset with refCount := ev₁.refCount + 1 } : Event).pool = ev.pool from
      hr₁.trans hk.1, hp] at hnone
    cases hnone

theorem detach_listOf (s : EventState) (e : Nat) (ev₁ : Event) (hmem : e ∈ s.held) :
    (s.listOf .holder).Perm (e :: (s.detach e ev₁).listOf .holder) ∧
    ∀ o, o ≠ .holder → (s.detach e ev₁).listOf o = s.listOf o := by
  refine ⟨List.perm_cons_erase hmem, fun o ho => ?_⟩
  cases o with
  | holder => exact absurd rfl ho
  | freelist p | deferred q | abandoned => rfl

/-- An event that waits for its timestamp goes to its queue. -/
theorem EventInv.deferEventFree (h : EventInv s) (hmem : e ∈ s.held) (hev : s.events e = some ev)
    (hk : ev.SameKind ev₁) (hc : ev₁.refCount = 0) (hp : ev.pool.isSome)
    (hd : (s.detach e ev₁).deferEventFree e ev = some s') : EventInv s' := by
  obtain ⟨hfrom, hother⟩ := detach_listOf s e ev₁ hmem
  obtain ⟨q, -, hd⟩ := Option.bind_eq_some_iff.mp hd
  obtain ⟨queue, hq, rfl⟩ := Option.map_eq_some_iff.mp hd
  have hqs : s.queues q = some queue := hq
  refine h.moved e ev ev₁ .holder (.deferred q) ⟨hev, rfl, hk, .inr
    ⟨fun ho => (by cases ho), hfrom, ?_, fun o' h₁ h₂ => ?_⟩, fun _ => rfl, ⟨rfl, rfl, rfl⟩, hmem,
    ⟨hc, by rw [hk.1]; exact hp⟩, fun hno => ?_⟩
  · simp only [EventState.listOf, update_self, hqs, Option.elim]
    exact List.perm_append_singleton e queue.deferredEvents
  · cases o' with
    | deferred q' =>
      have hqq : q' ≠ q := fun hqq => h₂ (by rw [hqq])
      simp only [EventState.listOf, update_of_ne hqq]
      exact .refl _
    | holder => exact absurd rfl h₁
    | freelist p | abandoned => exact .refl _
  · rw [← hk.1, hno] at hp
    cases hp

/-- An event without a pool is deleted. -/
theorem EventInv.delete (h : EventInv s) (hmem : e ∈ s.held) (hev : s.events e = some ev)
    (hp : ev.pool = none) :
    EventInv { s.detach e ev₁ with events := update s.events e none } := by
  obtain ⟨hfrom, hother⟩ := detach_listOf s e ev₁ hmem
  obtain ⟨-, hz⟩ := h.native e ev hev hp
  set s' : EventState := { s.detach e ev₁ with events := update s.events e none }
  have hne : ∀ {e' w}, s'.events e' = some w → e' ≠ e ∧ s.events e' = some w := by
    intro e' w hw
    by_cases he : e' = e
    · subst he
      rw [show s'.events e' = none from update_self ..] at hw
      cases hw
    · exact ⟨he, by rwa [show s'.events e' = s.events e' from update_of_ne he ..] at hw⟩
  refine ⟨h.events.leave .holder [e] hfrom (fun o' ho' => by
      rw [show s'.listOf o' = s.listOf o' from hother o' ho']) fun e' => ?_,
    h.ze.congr (fun o => ?_) fun _ => .rfl, fun e' he' => ?_, h.freshPool,
    fun e' w p hw => h.pooled e' w p (hne hw).2, fun o e' he' w hw => ?_,
    fun e' w hw => h.native e' w (hne hw).2⟩
  · by_cases he : e' = e
    · subst he
      simp [s']
    · simp [s', he]
  · cases o with
    | provider p => exact .refl _
    | event e' =>
      by_cases he : e' = e
      · subst he
        simp only [EventState.zeListOf, s', update_self, hev, Option.map_some, Option.elim,
          hz, Option.map_none]
        exact .refl _
      · simp only [EventState.zeListOf, s', update_of_ne he]
        exact .refl _
  · by_cases he : e' = e
    · subst he
      exact update_self ..
    · exact (update_of_ne he ..).trans (h.fresh e' he')
  · obtain ⟨-, hw⟩ := hne hw
    by_cases ho : o = .holder
    · subst ho
      exact trivial
    · rw [show s'.listOf o = s.listOf o from hother o ho] at he'
      exact h.fit o e' he' w hw

/-- What the last release leads to. -/
theorem EventInv.forceRelease (h : EventInv s) (hmem : e ∈ s.held) (hev : s.events e = some ev)
    (hk : ev.SameKind ev₁) (hc : ev₁.refCount = 0) :
    EventInv ((s.detach e ev₁).forceRelease e) := by
  cases hp : ev.pool with
  | none =>
    have hrel : (s.detach e ev₁).forceRelease e
        = { s.detach e ev₁ with events := update s.events e none } := by
      unfold EventState.forceRelease EventState.detach
      simp [hk.1, hp]
    rw [hrel]
    exact h.delete hmem hev hp
  | some p =>
    obtain ⟨hfrom, hother⟩ := detach_listOf s e ev₁ hmem
    exact free_moved h _ ev₁ .holder (fun p ho => by cases ho) hev rfl hk hp hc hfrom hother rfl ⟨rfl, rfl, rfl⟩

theorem EventInv.release (h : EventInv s) {timestamp : Nat}
    (hr : s.release e timestamp = some s') : EventInv s' := by
  obtain ⟨hmem, ev, hev, rfl | ⟨ev₁, hk, hc, hst, rfl | ⟨hts, hd⟩⟩⟩ := EventState.release_cases hr
  · exact h.moved _ _ _ _ _ (Moved.modify hmem hev ⟨rfl, rfl, rfl⟩ fun hp => (h.native e ev hev hp).1)
  · exact h.forceRelease hmem hev hk hc
  · refine h.deferEventFree hmem hev hk hc ?_ hd
    -- a timestamp is recorded for pooled events only
    by_contra hno
    have hstart := (h.native e ev hev (Option.not_isSome_iff_eq_none.mp hno)).1
    simp [Event.isTimestamped, hstart] at hts

end Release

/-! ## Queues -/

section Queues

variable {s s' : EventState} {q : Nat}

def EventState.setDeferred (s : EventState) (q : Nat) (es : List Nat) : EventState :=
  { s with
    queues := update s.queues q
      ((s.queues q).map fun queue => { queue with deferredEvents := es }) }

theorem setDeferred_listOf_ne (s : EventState) (es : List Nat) {o : EventOwner}
    (ho : o ≠ .deferred q) : (s.setDeferred q es).listOf o = s.listOf o := by
  cases o with
  | deferred q' =>
    have hqq : q' ≠ q := fun hqq => ho (by rw [hqq])
    simp [EventState.listOf, EventState.setDeferred, update_of_ne hqq]
  | holder | freelist p | abandoned => rfl

theorem setDeferred_listOf {queue : EventQueue} (hq : s.queues q = some queue) (es : List Nat) :
    (s.setDeferred q es).listOf (.deferred q) = es := by
  simp only [EventState.listOf, EventState.setDeferred, update_self, hq]
  rfl

theorem forceRelease_queues (s : EventState) (e : Nat) : (s.forceRelease e).queues = s.queues := by
  unfold EventState.forceRelease
  split <;> rfl

/-- The loop over the deferred events, of which `es` are left. -/
theorem EventInv.releaseDeferred (es : List Nat) {queue : EventQueue}
    (hq : s.queues q = some queue) (h : EventInv (s.setDeferred q es)) :
    EventInv ((es.foldl EventState.forceRelease s).setDeferred q []) := by
  induction es generalizing s with
  | nil => exact h
  | cons e es ih =>
    refine ih (by rw [forceRelease_queues]; exact hq) ?_
    have hin : e ∈ (s.setDeferred q (e :: es)).listOf (.deferred q) := by
      rw [setDeferred_listOf hq]
      exact List.mem_cons_self
    obtain ⟨ev, hev⟩ := Option.isSome_iff_exists.mp (h.events.dom_of_mem hin)
    have hev' : s.events e = some ev := hev
    obtain ⟨hc, hp⟩ := h.fit _ e hin ev hev
    obtain ⟨p, hp⟩ := Option.isSome_iff_exists.mp hp
    -- releasing and taking the event off the list commute
    have hcomm : (s.forceRelease e).setDeferred q es = (s.setDeferred q es).forceRelease e := by
      unfold EventState.forceRelease
      rw [show (s.setDeferred q es).events = s.events from rfl, hev', Option.bind_some, hp]
      rfl
    rw [hcomm]
    refine free_moved h _ ev (.deferred q) (fun p ho => by cases ho) hev ?_ ⟨rfl, rfl, rfl⟩ hp hc
      ?_ (fun o' ho' => ?_) rfl ⟨rfl, rfl, rfl⟩
    · exact (Function.update_eq_self_iff.mpr hev.symm).symm
    · rw [setDeferred_listOf hq, setDeferred_listOf hq]
    · rw [setDeferred_listOf_ne s es ho', setDeferred_listOf_ne s (e :: es) ho']

theorem setDeferred_self {queue : EventQueue} (hq : s.queues q = some queue) :
    s.setDeferred q queue.deferredEvents = s := by
  unfold EventState.setDeferred
  rw [hq, Function.update_eq_self_iff.mpr hq.symm]

theorem foldl_forceRelease_queues (s : EventState) (es : List Nat) :
    (es.foldl EventState.forceRelease s).queues = s.queues := by
  induction es generalizing s with
  | nil => rfl
  | cons e es ih => rw [List.foldl_cons, ih, forceRelease_queues]

theorem EventInv.queueFinish (h : EventInv s) {ok : Bool} (hf : s.queueFinish q ok = some s') :
    EventInv s' := by
  obtain ⟨queue, hq, rfl⟩ := Option.map_eq_some_iff.mp hf
  split
  · have hloop := EventInv.releaseDeferred queue.deferredEvents hq
      (by rw [setDeferred_self hq]; exact h)
    unfold EventState.setDeferred at hloop
    rw [foldl_forceRelease_queues, hq] at hloop
    simp only [foldl_forceRelease_queues]
    exact hloop
  · exact h

theorem EventInv.destroyQueue (h : EventInv s) {ok : Bool} (hd : s.destroyQueue q ok = some s') :
    EventInv s' := by
  obtain ⟨s₁, hf, hd⟩ := Option.bind_eq_some_iff.mp hd
  obtain ⟨queue, hq, hd⟩ := Option.bind_eq_some_iff.mp hd
  obtain ⟨pool, -, rfl⟩ := Option.map_eq_some_iff.mp hd
  have h₁ := h.queueFinish hf
  have hfrom : s₁.listOf (.deferred q) = queue.deferredEvents := by
    simp [EventState.listOf, hq]
  set s₂ : EventState := { s₁ with
    queues := update s₁.queues q none
    abandoned := queue.deferredEvents ++ s₁.abandoned
    cache := update s₁.cache pool.index (queue.pool :: s₁.cache pool.index) }
  have hgone : s₂.listOf (.deferred q) = [] := by
    simp [EventState.listOf, s₂]
  have hother : ∀ o, o ≠ .deferred q → o ≠ .abandoned → s₂.listOf o = s₁.listOf o := by
    intro o h₁ h₂
    cases o with
    | deferred q' =>
      have hqq : q' ≠ q := fun hqq => h₁ (by rw [hqq])
      simp [EventState.listOf, s₂, update_of_ne hqq]
    | abandoned => exact absurd rfl h₂
    | holder | freelist p => rfl
  refine ⟨h₁.events.transfer (.deferred q) .abandoned queue.deferredEvents
      (fun ho => by cases ho) ?_ (.refl _) (fun o h₁ h₂ => by rw [hother o h₁ h₂]) fun _ => .rfl,
    h₁.ze, h₁.fresh, h₁.freshPool, h₁.pooled, fun o e he ev hev => ?_, h₁.native⟩
  · rw [hfrom, hgone, List.append_nil]
  · by_cases ha : o = .abandoned
    · subst ha
      exact trivial
    · by_cases hdq : o = .deferred q
      · subst hdq
        rw [hgone] at he
        cases he
      · rw [hother o hdq ha] at he
        exact h₁.fit o e he ev hev

theorem EventInv.borrow (h : EventInv s) {b : EventBuild} {device : Nat} {flags : EventFlags}
    (hb : s.borrow b q device flags = some s') : EventInv s' := by
  obtain ⟨hnew, hb⟩ := Option.ite_none_left_eq_some.mp hb
  have hq : s.queues q = none := Option.not_isSome_iff_eq_none.mp hnew
  -- a new queue defers nothing
  have hdef : ∀ p q', ((update s.queues q (some ⟨p, []⟩)) q').elim []
      EventQueue.deferredEvents = (s.queues q').elim [] EventQueue.deferredEvents := by
    intro p q'
    by_cases hqq : q' = q
    · subst hqq
      rw [update_self, hq]
      rfl
    · rw [update_of_ne hqq]
  split at hb
  · obtain rfl := Option.some.inj hb
    exact h
  · split at hb
    · -- a new pool has no events
      obtain rfl := Option.some.inj hb
      have hnone : s.pools s.nextPool = none := h.freshPool _ (Nat.le_refl _)
      have hp : ∀ p pool, s.pools p = some pool → p ≠ s.nextPool := fun p pool hpool he => by
        rw [he, hnone] at hpool
        cases hpool
      refine h.frame rfl (fun o => ?_) (fun o => ?_) ⟨rfl, rfl⟩ (fun p pool hpool => ?_)
        fun p hle => ?_
      · cases o with
        | freelist p =>
          by_cases hpp : p = s.nextPool
          · subst hpp
            simp [EventState.listOf, hnone]
          · simp [EventState.listOf, update_of_ne hpp]
        | deferred q' => exact hdef _ q'
        | holder | abandoned => rfl
      · cases o with
        | provider p =>
          by_cases hpp : p = s.nextPool
          · subst hpp
            simp only [EventState.zeListOf, update_self, hnone]
            rfl
          · simp [EventState.zeListOf, update_of_ne hpp]
        | event e => rfl
      · exact (update_of_ne (hp p pool hpool) ..).trans hpool
      · have hpp : p ≠ s.nextPool := by
          simp only at hle
          omega
        have hle' : s.nextPool ≤ p := by
          simp only at hle
          omega
        exact (update_of_ne hpp ..).trans (h.freshPool p hle')
    · obtain rfl := Option.some.inj hb
      refine h.frame rfl (fun o => ?_) (fun o => ?_) ⟨rfl, rfl⟩ (fun _ _ hpool => hpool) h.freshPool
      · cases o with
        | deferred q' => exact hdef _ q'
        | holder | abandoned | freelist p => rfl
      · cases o <;> rfl

end Queues

end UnifiedRuntime.LevelZeroV2
