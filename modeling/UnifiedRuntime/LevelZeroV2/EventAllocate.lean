import UnifiedRuntime.LevelZeroV2.EventPoolRuns

/-!
# Handing out an event

The provider's pools have what was free and what the driver made for them, whichever
way they are sorted (`allocate_perm`). The loop of `event_pool::allocate` makes events for
the freelist one by one, and keeps what is known of the state also where the driver
stops it. The event that is handed out has one reference and is reset; what it had of
its previous use is gone in builds with assertions only, and for everyone once a queue
has made it the event of a command.
-/

namespace UnifiedRuntime.LevelZeroV2

open Function (update update_of_ne update_self)
open EventState

/-! ## Providers -/

namespace Provider

theorem popBack_flatten {pools pools' : List (List Nat)} {z : Nat}
    (h : popBack pools = some (z, pools')) : pools.flatten = z :: pools'.flatten := by
  match pools, h with
  | (z' :: free) :: rest, h =>
    obtain ⟨rfl, rfl⟩ := Prod.mk.inj (Option.some.inj h)
    rfl

/-- What an allocation leaves, with what it hands out, is what was there and what the
driver made. -/
def Accounts (v : Provider) (r : Provider × Option Nat) : Prop :=
  ∃ k, r.1.nextZe = v.nextZe + k ∧
    (r.2.toList ++ r.1.pools.flatten).Perm (List.range' v.nextZe k ++ v.pools.flatten)

theorem Accounts.same (v v' : Provider) (hn : v'.nextZe = v.nextZe)
    (hp : v'.pools.flatten.Perm v.pools.flatten) : Accounts v (v', none) :=
  ⟨0, hn, hp⟩

theorem Accounts.popped {v : Provider} (v' : Provider) {z : Nat} {pools : List (List Nat)} (hn : v'.nextZe = v.nextZe)
    (hp : v'.pools.flatten.Perm v.pools.flatten) (h : popBack v'.pools = some (z, pools)) :
    Accounts v (⟨pools, v'.nextZe, v'.budget⟩, some z) := by
  refine ⟨0, hn, ?_⟩
  rw [popBack_flatten h] at hp
  exact hp

theorem allocateNew_accounts (v : Provider) : Accounts v v.allocateNew := by
  unfold allocateNew createProviderPool
  by_cases hb : v.budget = 0
  · rw [if_pos hb]
    exact .same v v rfl (.refl _)
  · rw [if_neg hb]
    have hmade : ((List.range' v.nextZe eventsBurst).reverse ++ v.pools.flatten).Perm
        (List.range' v.nextZe eventsBurst ++ v.pools.flatten) :=
      (List.reverse_perm _).append_right _
    simp only
    split
    · next z pools h =>
      have hf := popBack_flatten h
      rw [List.flatten_cons] at hf
      rw [hf] at hmade
      exact ⟨eventsBurst, rfl, hmade⟩
    · exact ⟨eventsBurst, rfl, hmade⟩

theorem Accounts.trans {v : Provider} (v' : Provider) {r : Provider × Option Nat} (hn : v'.nextZe = v.nextZe)
    (hp : v'.pools.flatten.Perm v.pools.flatten) (h : Accounts v' r) : Accounts v r := by
  obtain ⟨k, hk, hperm⟩ := h
  refine ⟨k, hk.trans (by rw [hn]), hperm.trans ?_⟩
  rw [hn]
  exact hp.append_left _

theorem allocate_accounts (sort : ProviderSort) (v : Provider) : Accounts v (v.allocate sort) := by
  have hsort : (sort.sort v.pools).flatten.Perm v.pools.flatten := (sort.perm v.pools).flatten
  unfold allocate
  split
  · exact allocateNew_accounts v
  · split
    · next h => exact .popped v rfl (.refl _) h
    · simp only
      split
      · next h => exact .popped ⟨sort.sort v.pools, v.nextZe, v.budget⟩ rfl hsort h
      · exact .trans ⟨sort.sort v.pools, v.nextZe, v.budget⟩ rfl hsort
          (allocateNew_accounts _)

end Provider

/-! ## The loop -/

section Fill

variable {s : EventState} {p : Nat} {pool : EventPool} {f : Filling}

theorem refill_zeListOf_provider (s : EventState) (p : Nat) (pool : EventPool) (f : Filling) :
    (s.refill p pool f).zeListOf (.provider p) = f.provider.pools.flatten := by
  simp only [zeListOf, refill, update_self]
  rfl

theorem refill_zeListOf_ne (s : EventState) (pool : EventPool) (f : Filling) {o : ZeOwner}
    (ho : o ≠ .provider p) : (s.refill p pool f).zeListOf o
      = match o with
        | .provider p' => s.zeListOf (.provider p')
        | .event e => ((f.events e).map Event.zeEvent).elim [] ZeEvent.ofProviders := by
  cases o with
  | provider p' =>
    have hpp : p' ≠ p := fun hpp => ho (by rw [hpp])
    simp [zeListOf, refill, update_of_ne hpp]
  | event e => rfl

theorem refill_listOf_freelist (s : EventState) (p : Nat) (pool : EventPool) (f : Filling) :
    (s.refill p pool f).listOf (.freelist p) = f.freelist := by
  simp only [listOf, refill, update_self]
  rfl

theorem refill_listOf_ne (s : EventState) (pool : EventPool) (f : Filling) {o : EventOwner}
    (ho : o ≠ .freelist p) : (s.refill p pool f).listOf o = s.listOf o := by
  cases o with
  | freelist p' =>
    have hpp : p' ≠ p := fun hpp => ho (by rw [hpp])
    simp [listOf, refill, update_of_ne hpp]
  | holder | deferred q | abandoned => rfl

/-- The loop's next step: what the provider hands out is in a new event of the freelist. -/
structure Filling.Next (f f' : Filling) (p : Nat) (flags : EventFlags) (z : Option Nat)
    (news : List Nat) : Prop where
  accounts : f.provider.Accounts (f'.provider, z)
  made : (z = none ∧ news = []) ∨ ∃ z', z = some z' ∧ news = [f.nextEvent] ∧
    f'.events f.nextEvent = some (.new (some p) (.pooled z') flags)
  freelist : f'.freelist = news ++ f.freelist
  old : ∀ e, e ∉ news → f'.events e = f.events e
  next : f'.nextEvent = f.nextEvent + news.length

theorem Filling.one_next (sort : ProviderSort) (p : Nat) (flags : EventFlags) (f : Filling) :
    ∃ z news, f.Next (f.one sort p flags).1 p flags z news := by
  have hacc := f.provider.allocate_accounts sort
  unfold Filling.one
  cases hr : f.provider.allocate sort with
  | mk v z =>
    rw [hr] at hacc
    cases z with
    | none => exact ⟨none, [], hacc, .inl ⟨rfl, rfl⟩, rfl, fun _ _ => rfl, rfl⟩
    | some z =>
      exact ⟨some z, [f.nextEvent], hacc, .inr ⟨z, rfl, rfl, update_self ..⟩, rfl,
        fun e he => update_of_ne (fun h => he (List.mem_singleton.mpr h)) .., rfl⟩

/-- Driver events after a step. -/
theorem EventInv.refill_ze (h : EventInv (s.refill p pool f)) {f' : Filling} {z : Option Nat}
    {news : List Nat} (hn : f.Next f' p pool.flags z news) :
    Partitioned (s.refill p pool f').zeListOf fun z => z < f'.provider.nextZe := by
  have hfresh : f.events f.nextEvent = none := h.fresh _ (Nat.le_refl _)
  -- the driver's new events go to the provider
  obtain ⟨k, hk, hperm⟩ := hn.accounts
  have hze : Partitioned (fun o => if o = .provider p then
        List.range' f.provider.nextZe k ++ f.provider.pools.flatten
      else (s.refill p pool f).zeListOf o) fun z => z < f'.provider.nextZe := by
    refine h.ze.enter (.provider p) (List.range' f.provider.nextZe k) ?_ (fun o ho => ?_)
      List.nodup_range' (fun z hz hlt => ?_) fun z => ?_
    · rw [if_pos rfl, refill_zeListOf_provider]
    · rw [if_neg ho]
    · have hle := (List.mem_range'_1.mp hz).1
      have hlt' : z < f.provider.nextZe := hlt
      omega
    · rw [hk, List.mem_range'_1]
      change _ ↔ z < f.provider.nextZe ∨ _
      omega
  rcases hn.made with ⟨rfl, rfl⟩ | ⟨z', rfl, rfl, hev⟩
  · refine hze.congr (fun o => ?_) fun _ => .rfl
    by_cases ho : o = .provider p
    · subst ho
      rw [refill_zeListOf_provider, if_pos rfl]
      exact hperm
    · rw [if_neg ho, refill_zeListOf_ne s pool f' ho, refill_zeListOf_ne s pool f ho]
      cases o with
      | provider p' => exact .refl _
      | event e =>
        simp only
        rw [hn.old e (by simp)]
  · -- and the one that is handed out to its event
    refine hze.transfer (.provider p) (.event f.nextEvent) [z']
      (fun ho => by cases ho) ?_ ?_ (fun o ho ho₂ => ?_) fun _ => .rfl
    · rw [if_pos rfl, refill_zeListOf_provider]
      exact hperm.symm
    · rw [refill_zeListOf_ne s pool f' (fun ho => by cases ho),
        refill_zeListOf_ne s pool f (fun ho => by cases ho)]
      simp only [hev, hfresh]
      exact .refl _
    · rw [if_neg ho, refill_zeListOf_ne s pool f' ho, refill_zeListOf_ne s pool f ho]
      cases o with
      | provider p' => exact .refl _
      | event e =>
        have he : e ∉ [f.nextEvent] := fun he => ho₂ (by rw [List.mem_singleton.mp he])
        simp only
        rw [hn.old e he]

theorem EventInv.refill_next (h : EventInv (s.refill p pool f)) {f' : Filling} {z : Option Nat}
    {news : List Nat} (hn : f.Next f' p pool.flags z news) : EventInv (s.refill p pool f') := by
  have hnews : ∀ e ∈ news, e = f.nextEvent ∧
      ∃ z', f'.events e = some (.new (some p) (.pooled z') pool.flags) := by
    intro e he
    rcases hn.made with ⟨-, rfl⟩ | ⟨z', -, rfl, hev⟩
    · cases he
    · obtain rfl := List.mem_singleton.mp he
      exact ⟨rfl, z', hev⟩
  have hnone : ∀ e ∈ news, f.events e = none := fun e he => by
    rw [(hnews e he).1]
    exact h.fresh _ (Nat.le_refl _)
  -- an event is one of before or a new one
  have hcase : ∀ e ev, f'.events e = some ev → (e ∉ news ∧ f.events e = some ev) ∨
      (e ∈ news ∧ ∃ z', ev = .new (some p) (.pooled z') pool.flags) := by
    intro e ev hev
    by_cases he : e ∈ news
    · obtain ⟨-, z', hz'⟩ := hnews e he
      exact .inr ⟨he, z', Option.some.inj (hev.symm.trans hz')⟩
    · exact .inl ⟨he, (hn.old e he).symm.trans hev⟩
  have hpool : ∀ g : Filling, (s.refill p pool g).pools p
      = some { pool with provider := g.provider.pools, freelist := g.freelist } := fun g =>
    update_self ..
  have hpools : ∀ g p', p' ≠ p → (s.refill p pool g).pools p' = s.pools p' := fun g p' hp' =>
    update_of_ne hp' ..
  refine ⟨h.events.enter (.freelist p) news ?_ (fun o ho => ?_) ?_ (fun e he => ?_)
      fun e => ?_, h.refill_ze hn, fun e he => ?_, fun p' hp' => ?_, fun e ev p' he hp' => ?_,
      fun o e he ev hev => ?_, fun e ev he hp' => ?_⟩
  · rw [refill_listOf_freelist, refill_listOf_freelist, hn.freelist]
  · rw [refill_listOf_ne s pool f' ho, refill_listOf_ne s pool f ho]
  · rcases hn.made with ⟨-, rfl⟩ | ⟨z', -, rfl, -⟩
    · exact List.nodup_nil
    · exact List.nodup_singleton _
  · change ¬ (f.events e).isSome = true
    rw [hnone e he]
    simp
  · change (f'.events e).isSome = true ↔ (f.events e).isSome = true ∨ e ∈ news
    by_cases he : e ∈ news
    · obtain ⟨-, z', hz'⟩ := hnews e he
      simp [he, hz']
    · simp [he, hn.old e he]
  · -- the next number is past the new event
    have hle : f.nextEvent + news.length ≤ e := hn.next ▸ he
    have hno : e ∉ news := fun hin => by
      have hlen := List.length_pos_of_mem hin
      have heq := (hnews e hin).1
      omega
    change f'.events e = none
    rw [hn.old e hno]
    exact h.fresh e (show f.nextEvent ≤ e by omega)
  · have hno := h.freshPool p' hp'
    by_cases hpp : p' = p
    · subst hpp
      rw [hpool f] at hno
      cases hno
    · rw [hpools f' p' hpp]
      rwa [hpools f p' hpp] at hno
  · rcases hcase e ev he with ⟨-, he'⟩ | ⟨-, z', rfl⟩
    · obtain ⟨pool', hpl, hflags⟩ := h.pooled e ev p' he' hp'
      by_cases hpp : p' = p
      · subst hpp
        rw [hpool f] at hpl
        obtain rfl := Option.some.inj hpl
        exact ⟨_, hpool f', hflags⟩
      · rw [hpools f p' hpp] at hpl
        exact ⟨pool', (hpools f' p' hpp).trans hpl, hflags⟩
    · obtain rfl := Option.some.inj hp'
      exact ⟨_, hpool f', rfl⟩
  · rcases hcase e ev hev with ⟨hno, he'⟩ | ⟨hin, z', rfl⟩
    · refine h.fit o e ?_ ev he'
      by_cases ho : o = .freelist p
      · subst ho
        rw [refill_listOf_freelist, hn.freelist] at he
        rw [refill_listOf_freelist]
        exact (List.mem_append.mp he).resolve_left hno
      · rw [refill_listOf_ne s pool f' ho] at he
        rw [refill_listOf_ne s pool f ho]
        exact he
    · by_cases ho : o = .freelist p
      · subst ho
        exact ⟨rfl, rfl, fun _ => rfl⟩
      · -- a new event is in no other list
        rw [refill_listOf_ne s pool f' ho, ← refill_listOf_ne s pool f ho] at he
        have hsome : (f.events e).isSome = true := h.events.dom_of_mem he
        rw [hnone e hin] at hsome
        cases hsome
  · rcases hcase e ev he with ⟨-, he'⟩ | ⟨-, z', rfl⟩
    · exact h.native e ev he' hp'
    · cases hp'

theorem EventInv.fill (sort : ProviderSort) (n : Nat) (h : EventInv (s.refill p pool f)) :
    EventInv (s.refill p pool (f.fill sort p pool.flags n).1) := by
  induction n generalizing f with
  | zero => exact h
  | succ n ih =>
    obtain ⟨z, news, hn⟩ := f.one_next sort p pool.flags
    have hstep := h.refill_next hn
    unfold Filling.fill
    split
    · next f' hone =>
      rw [hone] at hstep
      exact hstep
    · next f' hone =>
      rw [hone] at hstep
      exact ih hstep

/-- The state after the loop, or without it. -/
theorem EventInv.filled (h : EventInv s) (hp : s.pools p = some pool) (d : EventDriver) :
    EventInv (s.refill p pool (s.filled p pool d).1) := by
  have hself : s.refill p pool ⟨s.events, ⟨pool.provider, s.nextZe, d.budget⟩, pool.freelist,
      s.nextEvent⟩ = s := by
    unfold EventState.refill
    rw [Function.update_eq_self_iff.mpr hp.symm]
  unfold EventState.filled
  split
  · exact EventInv.fill d.sort eventsBurst (by rw [hself]; exact h)
  · rw [hself]
    exact h

end Fill

/-! ## What is handed out -/

/-- Nothing is left of a previous use. -/
def Event.Clean (ev : Event) : Prop :=
  ev.hQueue = none ∧ ev.commandType = commandForceUint32 ∧ ev.startTimestamp = 0 ∧
    ev.endTimestamp = 0

/-- The event has one reference, the one of who is given it; it was reset, and it is clean
in builds with assertions. -/
def EventState.HandsOut (b : EventBuild) (s : EventState) (p e : Nat) : Prop :=
  e ∈ s.held ∧ ∃ ev, s.events e = some ev ∧ ev.refCount = 1 ∧ ev.pool = some p ∧
    (ev.flags.counter = false → ev.signaled = false) ∧ (b.debug = true → ev.Clean)

section HandsOut

variable {b : EventBuild} {s s' : EventState} {p : Nat} {d : EventDriver}

theorem allocate_cases {o : Option Nat} (h : s.allocate b p d = some (s', o)) :
    ∃ pool, s.pools p = some pool ∧
      ((o = none ∧ s' = s.refill p pool (s.filled p pool d).1) ∨
        ∃ e rest, o = some e ∧ (s.filled p pool d).1.freelist = e :: rest ∧
          s' = (s.refill p pool (s.filled p pool d).1).pop b p
            { pool with provider := (s.filled p pool d).1.provider.pools } e rest) := by
  unfold EventState.allocate at h
  split at h
  · cases h
  · next pool hp =>
    refine ⟨pool, hp, ?_⟩
    simp only at h
    split at h
    · obtain ⟨⟩ := Option.some.inj h
      exact .inl ⟨rfl, rfl⟩
    · split at h
      · cases h
      · next e rest hfree =>
        obtain ⟨⟩ := Option.some.inj h
        exact .inr ⟨e, rest, rfl, hfree, rfl⟩

theorem EventInv.allocate (h : EventInv s) {o : Option Nat}
    (ha : s.allocate b p d = some (s', o)) :
    EventInv s' ∧ ∀ e, o = some e → s'.HandsOut b p e := by
  obtain ⟨pool, hp, ⟨rfl, rfl⟩ | ⟨e, rest, rfl, hfree, rfl⟩⟩ := allocate_cases ha
  · exact ⟨h.filled hp d, fun e he => by cases he⟩
  · have h₁ := h.filled hp d
    have hlist := refill_listOf_freelist s p pool (s.filled p pool d).1
    have hpool : (s.refill p pool (s.filled p pool d).1).pools p = some { pool with
        provider := (s.filled p pool d).1.provider.pools
        freelist := (s.filled p pool d).1.freelist } := update_self ..
    set s₁ := s.refill p pool (s.filled p pool d).1
    rw [hfree] at hlist
    have hin : e ∈ s₁.listOf (.freelist p) := by
      rw [hlist]
      exact List.mem_cons_self
    obtain ⟨ev, hev⟩ := Option.isSome_iff_exists.mp (h₁.events.dom_of_mem hin)
    obtain ⟨hevp, hone, hreset⟩ := h₁.fit _ e hin ev hev
    set ev' := if b.debug then ev.resetQueueAndCommand none commandForceUint32 else ev
    have hevents : ∀ pool', (s₁.pop b p pool' e rest).events
        = update s₁.events e (some ev') := by
      intro pool'
      unfold EventState.pop
      simp only [hev, Option.map_some, ev']
      split
      · rfl
      · exact (Function.update_eq_self_iff.mpr hev.symm).symm
    have hkind : ev.SameKind ev' ∧ ev'.refCount = 1 ∧ ev'.signaled = ev.signaled ∧
        (b.debug = true → ev'.Clean) := by
      simp only [ev']
      split
      · exact ⟨⟨rfl, rfl, rfl⟩, hone, rfl, fun _ => ⟨rfl, rfl, rfl, rfl⟩⟩
      · next hno => exact ⟨⟨rfl, rfl, rfl⟩, hone, rfl, fun hyes => absurd hyes hno⟩
    obtain ⟨hk, hone', hsig, hclean⟩ := hkind
    refine ⟨h₁.moved e ev ev' (.freelist p) .holder ⟨hev, hevents _, hk, .inr
        ⟨fun ho => (by cases ho), ?_, .refl _, fun o' h₁ h₂ => ?_⟩, fun p' => ?_, ⟨rfl, rfl, rfl⟩,
        hin, trivial, fun hno => ?_⟩, fun e' he' => ?_⟩
    · rw [hlist]
      simp only [EventState.listOf, EventState.pop, update_self]
      exact .refl _
    · cases o' with
      | freelist p' =>
        have hpp : p' ≠ p := fun hpp => h₁ (by rw [hpp])
        simp only [EventState.listOf, EventState.pop, update_of_ne hpp]
        exact .refl _
      | holder => exact absurd rfl h₂
      | deferred q | abandoned => exact .refl _
    · by_cases hpp : p' = p
      · subst hpp
        simp only [EventState.pop, update_self, hpool]
        rfl
      · simp [EventState.pop, update_of_ne hpp]
    · rw [hk.1, hevp] at hno
      cases hno
    · obtain rfl := Option.some.inj he'
      refine ⟨List.mem_cons_self, ev', by rw [hevents]; exact update_self .., hone',
        hk.1.trans hevp, fun hcount => ?_, hclean⟩
      rw [hsig]
      exact hreset (by rw [← hk.2.2]; exact hcount)

/-- The holder's first use of an event. -/
theorem EventInv.modify_held (h : EventInv s) {e : Nat} {f : Event → Event}
    (ho : s.HandsOut b p e) (hf : ∀ ev : Event, ev.SameKind (f ev)) : EventInv (s.modify e f) := by
  obtain ⟨hmem, ev, hev, -, hp, -⟩ := ho
  refine h.moved _ _ _ _ _ (Moved.modify hmem hev (hf ev) fun hno => ?_)
  rw [(hf ev).1, hp] at hno
  cases hno

theorem EventInv.getSignalEvent (h : EventInv s) {q commandType : Nat} {o : Option Nat}
    (hg : s.getSignalEvent b q commandType d = some (s', o)) :
    EventInv s' ∧ ∀ e, o = some e → e ∈ s'.held ∧ ∃ ev, s'.events e = some ev ∧ ev.refCount = 1 ∧
      (ev.flags.counter = false → ev.signaled = false) ∧ ev.hQueue = some q ∧
      ev.commandType = commandType ∧ ev.startTimestamp = 0 ∧ ev.endTimestamp = 0 := by
  obtain ⟨queue, -, hg⟩ := Option.bind_eq_some_iff.mp hg
  obtain ⟨⟨s₁, o₁⟩, ha, hg⟩ := Option.map_eq_some_iff.mp hg
  obtain ⟨h₁, hout⟩ := h.allocate ha
  cases o₁ with
  | none =>
    obtain ⟨rfl, rfl⟩ := Prod.mk.inj hg
    exact ⟨h₁, fun e he => by cases he⟩
  | some e =>
    obtain ⟨rfl, rfl⟩ := Prod.mk.inj hg
    have ho := hout e rfl
    refine ⟨h₁.modify_held ho fun ev => ⟨rfl, rfl, rfl⟩, fun e' he' => ?_⟩
    obtain rfl := Option.some.inj he'
    obtain ⟨hmem, ev, hev, hone, -, hreset, -⟩ := ho
    refine ⟨hmem, ev.resetQueueAndCommand (some q) commandType, ?_, hone, hreset, rfl, rfl, rfl, rfl⟩
    unfold EventState.modify
    rw [hev]
    exact update_self ..

theorem EventInv.createNative (h : EventInv s) {o : Option Nat}
    (hc : s.createNative b d = some (s', o)) : EventInv s' := by
  obtain ⟨⟨s₁, o₁⟩, ha, hg⟩ := Option.map_eq_some_iff.mp hc
  obtain ⟨h₁, hout⟩ := h.allocate ha
  cases o₁ with
  | none =>
    obtain ⟨rfl, rfl⟩ := Prod.mk.inj hg
    exact h₁
  | some e =>
    obtain ⟨rfl, rfl⟩ := Prod.mk.inj hg
    exact h₁.modify_held (hout e rfl) fun ev => ⟨rfl, rfl, rfl⟩

theorem EventInv.createWithNativeHandle (h : EventInv s) (z : Nat) :
    EventInv (s.createWithNativeHandle z) := by
  have hnone : s.events s.nextEvent = none := h.fresh _ (Nat.le_refl _)
  have hcase : ∀ e ev, (s.createWithNativeHandle z).events e = some ev →
      (e = s.nextEvent ∧ ev = .new none (.native z) ⟨false, true⟩) ∨ s.events e = some ev := by
    intro e ev hev
    by_cases he : e = s.nextEvent
    · subst he
      rw [show (s.createWithNativeHandle z).events s.nextEvent = _ from update_self ..] at hev
      exact .inl ⟨rfl, (Option.some.inj hev).symm⟩
    · rw [show (s.createWithNativeHandle z).events e = _ from update_of_ne he ..] at hev
      exact .inr hev
  refine ⟨h.events.enter .holder [s.nextEvent] (.refl _) (fun o ho => ?_)
      (List.nodup_singleton _) (fun e he => ?_) (fun e => ?_), h.ze.congr (fun o => ?_) fun _ => .rfl,
    fun e he => ?_, h.freshPool, fun e ev p he hp => ?_, fun o e he ev hev => ?_,
    fun e ev he hp => ?_⟩
  · cases o with
    | holder => exact absurd rfl ho
    | freelist p | deferred q | abandoned => exact .refl _
  · rw [List.mem_singleton.mp he, hnone]
    simp
  · by_cases he : e = s.nextEvent
    · simp [EventState.createWithNativeHandle, he]
    · simp [EventState.createWithNativeHandle, he]
  · cases o with
    | provider p => exact .refl _
    | event e =>
      by_cases he : e = s.nextEvent
      · subst he
        simp only [EventState.zeListOf, EventState.createWithNativeHandle, update_self, hnone]
        exact .refl _
      · simp only [EventState.zeListOf, EventState.createWithNativeHandle, update_of_ne he]
        exact .refl _
  · have hle : s.nextEvent + 1 ≤ e := he
    have hne : e ≠ s.nextEvent := by omega
    exact (update_of_ne hne ..).trans (h.fresh e (by omega))
  · rcases hcase e ev he with ⟨-, rfl⟩ | he
    · cases hp
    · exact h.pooled e ev p he hp
  · by_cases ho : o = .holder
    · subst ho
      exact trivial
    · have hin : e ∈ s.listOf o := by
        cases o with
        | holder => exact absurd rfl ho
        | freelist p | deferred q | abandoned => exact he
      rcases hcase e ev hev with ⟨rfl, -⟩ | hev
      · have hsome : (s.events s.nextEvent).isSome = true := h.events.dom_of_mem hin
        rw [hnone] at hsome
        cases hsome
      · exact h.fit o e hin ev hev
  · rcases hcase e ev he with ⟨-, rfl⟩ | he
    · exact ⟨rfl, rfl⟩
    · exact h.native e ev he hp

end HandsOut

/-! ## Runs -/

theorem init_listOf (o : EventOwner) : EventState.init.listOf o = [] := by
  cases o with
  | freelist p =>
    by_cases hp : p = nativeEventsPool
    · subst hp
      rfl
    · simp only [EventState.listOf, EventState.init, update_of_ne hp]
      rfl
  | holder | deferred q | abandoned => rfl

theorem init_zeListOf (o : ZeOwner) : EventState.init.zeListOf o = [] := by
  cases o with
  | provider p =>
    by_cases hp : p = nativeEventsPool
    · subst hp
      rfl
    · simp only [EventState.zeListOf, EventState.init, update_of_ne hp]
      rfl
  | event e => rfl

theorem EventInv.init : EventInv EventState.init where
  events := .empty init_listOf fun e => by simp [EventState.init]
  ze := .empty init_zeListOf fun z => Nat.not_lt_zero z
  fresh := fun _ _ => rfl
  freshPool := fun p hp => by
    have hle : 1 ≤ p := hp
    have hne : p ≠ nativeEventsPool := by
      unfold nativeEventsPool
      omega
    simp [EventState.init, update_of_ne hne]
  pooled := fun _ _ _ h => by cases h
  fit := fun o e h => by rw [init_listOf] at h; cases h
  native := fun _ _ h => by cases h

theorem EventInv.step {b : EventBuild} {s s' : EventState} {op : EventOp} {o : Option Nat}
    (h : EventInv s) (hs : s.step b op = some (s', o)) : EventInv s' := by
  cases op with
  | borrow q device flags =>
    obtain ⟨s₁, hb, ⟨⟩⟩ := Option.map_eq_some_iff.mp hs
    exact h.borrow hb
  | allocate q d =>
    obtain ⟨queue, -, ha⟩ := Option.bind_eq_some_iff.mp hs
    exact (h.allocate ha).1
  | getSignalEvent q commandType d => exact (h.getSignalEvent hs).1
  | createNative d => exact h.createNative hs
  | createWithNativeHandle z =>
    obtain ⟨⟩ := Option.some.inj hs
    exact h.createWithNativeHandle z
  | resetQueueAndCommand e q commandType =>
    obtain ⟨s₁, hu, ⟨⟩⟩ := Option.map_eq_some_iff.mp hs
    exact h.use hu fun ev => ⟨rfl, rfl, rfl⟩
  | recordStartTimestamp e timestamp =>
    obtain ⟨s₁, hu, ⟨⟩⟩ := Option.map_eq_some_iff.mp hs
    exact h.use hu fun ev => ⟨rfl, rfl, rfl⟩
  | retain e =>
    obtain ⟨s₁, hr, ⟨⟩⟩ := Option.map_eq_some_iff.mp hs
    exact h.retain hr
  | release e timestamp =>
    obtain ⟨s₁, hr, ⟨⟩⟩ := Option.map_eq_some_iff.mp hs
    exact h.release hr
  | queueFinish q ok =>
    obtain ⟨s₁, hf, ⟨⟩⟩ := Option.map_eq_some_iff.mp hs
    exact h.queueFinish hf
  | destroyQueue q ok =>
    obtain ⟨s₁, hd, ⟨⟩⟩ := Option.map_eq_some_iff.mp hs
    exact h.destroyQueue hd

theorem eventInv_run {b : EventBuild} {s s' : EventState} (h : EventInv s) (ops : List EventOp)
    (hr : s.run b ops = some s') : EventInv s' := by
  induction ops generalizing s with
  | nil =>
    obtain rfl := Option.some.inj hr
    exact h
  | cons op ops ih =>
    obtain ⟨r, hstep, hr⟩ := Option.bind_eq_some_iff.mp hr
    exact ih (h.step hstep) hr

/-- Every event has one owner and is there once, as has every driver event of the
providers; an event in a freelist came from the freelist's pool. -/
structure Recycled (s : EventState) : Prop where
  events : ∀ e, (s.events e).isSome → ∃! o, e ∈ s.listOf o
  once : ∀ o, (s.listOf o).Nodup
  zeEvents : ∀ z, z < s.nextZe → ∃! o, z ∈ s.zeListOf o
  zeOnce : ∀ o, (s.zeListOf o).Nodup
  home : ∀ p, ∀ e ∈ s.listOf (.freelist p), ∃ ev, s.events e = some ev ∧ ev.pool = some p

theorem EventInv.recycled {s : EventState} (h : EventInv s) : Recycled s where
  events := fun _ he => h.events.existsUnique he
  once := h.events.nodup
  zeEvents := fun _ hz => h.ze.existsUnique hz
  zeOnce := h.ze.nodup
  home := fun p e he => by
    obtain ⟨ev, hev⟩ := Option.isSome_iff_exists.mp (h.events.dom_of_mem he)
    exact ⟨ev, hev, (h.fit _ e he ev hev).1⟩

/-- **Events are recycled.** After every run each event and each driver event has one
owner, an event that a pool hands out has one reference and is reset (and is clean in
builds with assertions), and the event of a command has this command's queue and type
and no timestamps. -/
theorem events_recycled (b : EventBuild) (ops : List EventOp) (s : EventState)
    (hr : EventState.init.run b ops = some s) :
    Recycled s ∧
    (∀ p d s' e, s.allocate b p d = some (s', some e) → s'.HandsOut b p e) ∧
    ∀ q commandType d s' e, s.getSignalEvent b q commandType d = some (s', some e) →
      e ∈ s'.held ∧ ∃ ev, s'.events e = some ev ∧ ev.refCount = 1 ∧
        (ev.flags.counter = false → ev.signaled = false) ∧ ev.hQueue = some q ∧
        ev.commandType = commandType ∧ ev.startTimestamp = 0 ∧ ev.endTimestamp = 0 := by
  have h := eventInv_run .init ops hr
  exact ⟨h.recycled, fun p d s' e ha => (h.allocate ha).2 e rfl,
    fun q commandType d s' e hg => (h.getSignalEvent hg).2 e rfl⟩

/-- A driver that creates one pool; its sort is an insertion sort. -/
def onePool : EventDriver where
  sort := ⟨List.insertionSort fun a b => b.length ≤ a.length,
    List.perm_insertionSort (fun a b : List Nat => b.length ≤ a.length), fun pools => by
      exact List.pairwise_insertionSort ..⟩
  budget := 1

def counterBased : EventFlags := ⟨true, false⟩

/-- A queue's event is given back, in a build without assertions. -/
def usedEvent : List EventOp :=
  [.borrow 0 0 counterBased, .getSignalEvent 0 7 onePool, .release 63 0]

theorem events_recycled_used : ∃ s s', EventState.init.run ⟨false, 1⟩ usedEvent = some s ∧
    s.getSignalEvent ⟨false, 1⟩ 0 8 onePool = some (s', some 63) ∧ Recycled s ∧ 63 ∈ s'.held := by
  have hr : EventState.init.run ⟨false, 1⟩ usedEvent = some _ := rfl
  have h := events_recycled _ _ _ hr
  exact ⟨_, _, hr, rfl, h.1, (h.2.2 0 8 onePool _ 63 rfl).1⟩

/-- The holder of an event still has it when the queue is destroyed. -/
def outlivedQueue : List EventOp :=
  [.borrow 0 0 counterBased, .allocate 0 onePool, .destroyQueue 0 true]

def runThen {α : Type} (b : EventBuild) (ops : List EventOp) (f : EventState → α) : Option α :=
  (EventState.init.run b ops).map f

/-- Without assertions an event is handed out with the queue and the command of its
previous use; and an event whose queue was destroyed goes back to the pool that is in the
cache, or is lent to another queue. -/
theorem events_recycled_otherwise :
    runThen ⟨false, 1⟩ (usedEvent ++ [.allocate 0 onePool])
      (fun s => (s.held, (s.events 63).map fun ev => (ev.hQueue, ev.commandType)))
      = some ([63], some (some 0, 7)) ∧
    runThen ⟨true, 1⟩ (outlivedQueue ++ [.release 63 0])
      (fun s => (s.cache 1, (s.listOf (.freelist 1)).head?)) = some ([1], some 63) ∧
    runThen ⟨true, 1⟩ (outlivedQueue ++ [.borrow 1 0 counterBased, .release 63 0])
      (fun s => ((s.queues 1).map EventQueue.pool, (s.listOf (.freelist 1)).head?))
      = some (some 1, some 63) ∧
    ¬ ∀ b ops s, EventState.init.run b ops = some s → ∀ p d s' e,
      s.allocate b p d = some (s', some e) → ∃ ev, s'.events e = some ev ∧ ev.Clean := by
  refine ⟨by decide, by decide, by decide, fun h => ?_⟩
  obtain ⟨ev, hev, hclean⟩ := h ⟨false, 1⟩ usedEvent _ rfl 1 onePool _ 63 rfl
  obtain rfl := Option.some.inj hev
  cases hclean.1

end UnifiedRuntime.LevelZeroV2
