import UnifiedRuntime.LevelZero.EventPoolSlots

/-!
# The destruction of an event of a pool

`decrementUnreleasedEventsInPool` counts the event off and, with the last one,
puts its pool back to a cache: the one the fields of the event name at that time.
If that is the cache the pool was made for, the cache is not empty, and the pool
is either its head or in no cache at all.

Main result: `Books.decrement` (an event whose fields still say where its pool
belongs can be destroyed).
-/

namespace UnifiedRuntime.LevelZero.EventPool

open Function (update update_of_ne update_self)

/-- The state with one driver event less, in `live` and in the counter. -/
def State.dropEvent (s : State) (id : EventId) (p : PoolId) : State :=
  ((s.eraseEvent id).countDown p).forgetSlot id

variable {cfg : Config} {s : State}

theorem State.eraseEvent_live {id : EventId} {sl : Slot} (hs : s.slot id = some sl) :
    (s.eraseEvent id).live = s.live.erase sl := by
  unfold State.eraseEvent
  rw [hs]

/-- Erasing a live event takes one off the number of its pool. -/
theorem count_erase_slot {live : List Slot} {sl : Slot} (h : sl ∈ live) (q : PoolId) :
    (live.map Prod.fst).count q =
      ((live.erase sl).map Prod.fst).count q + if q = sl.1 then 1 else 0 := by
  have hperm := (List.perm_cons_erase h).map Prod.fst
  rw [hperm.count_eq, List.map_cons]
  split
  next hq => rw [hq, List.count_cons_self]
  next hq => rw [List.count_cons_of_ne (fun he => hq he.symm), Nat.add_zero]

/-- **One event less.** -/
theorem Books.dropEvent (h : Books cfg s) {id : EventId} {sl : Slot}
    (hs : s.slot id = some sl) : Books cfg (s.dropEvent id sl.1) := by
  have hmem := h.holds id sl hs
  have hlive : (s.dropEvent id sl.1).live = s.live.erase sl := State.eraseEvent_live hs
  refine { h with
    directory := h.directory.congr rfl rfl rfl
    unreleased := ?_
    known := ?_
    index := ?_
    holds := ?_
    apart := ?_
    shelved := h.shelved
    idle := ?_ }
  · intro q
    have hcount := count_erase_slot hmem q
    have hu := h.unreleased q
    unfold State.liveIn at hu ⊢
    rw [hlive]
    show update s.unreleased sl.1 (s.unreleased sl.1 - 1) q = _
    by_cases hq : q = sl.1
    · rw [← hq, update_self]
      rw [if_pos hq] at hcount
      omega
    · rw [update_of_ne hq]
      rw [if_neg hq] at hcount
      omega
  · intro sl' hsl'
    rw [hlive] at hsl'
    exact h.known sl' (List.mem_of_mem_erase hsl')
  · intro sl' hsl'
    rw [hlive] at hsl'
    exact h.index sl' (List.mem_of_mem_erase hsl')
  · intro id' sl' hsl'
    change update s.slot id none id' = some sl' at hsl'
    rw [hlive]
    by_cases hid : id' = id
    · rw [hid, update_self] at hsl'
      exact absurd hsl' nofun
    · rw [update_of_ne hid] at hsl'
      -- no other object holds the event
      have hne : sl' ≠ sl := by
        intro he
        exact hid (h.apart id' id sl' hsl' (he ▸ hs))
      exact (List.mem_erase_of_ne hne).mpr (h.holds id' sl' hsl')
  · intro id₁ id₂ sl' h₁ h₂
    change update s.slot id none id₁ = some sl' at h₁
    change update s.slot id none id₂ = some sl' at h₂
    have hold : ∀ id', update s.slot id none id' = some sl' → s.slot id' = some sl' := by
      intro id' h'
      by_cases hid : id' = id
      · rw [hid, update_self] at h'
        exact absurd h' nofun
      · rw [update_of_ne hid] at h'
        exact h'
    exact h.apart id₁ id₂ sl' (hold id₁ h₁) (hold id₂ h₂)
  · intro k q hq
    obtain ⟨hu, ha⟩ := h.idle k q hq
    refine ⟨?_, ha⟩
    show update s.unreleased sl.1 (s.unreleased sl.1 - 1) q = 0
    by_cases hne : q = sl.1
    · rw [hne, update_self, ← hne, hu]
    · rw [update_of_ne hne, hu]

/-- **An empty pool starts over.** -/
theorem Books.startOver (h : Books cfg s) {p : PoolId} (hu : s.unreleased p = 0) :
    Books cfg (s.startOver cfg p) := by
  have hnone : ∀ sl ∈ s.live, sl.1 ≠ p := by
    intro sl hsl he
    have hpos := State.liveIn_pos hsl
    rw [he, ← h.unreleased p, hu] at hpos
    exact absurd hpos (lt_irrefl 0)
  refine { h with
    directory := h.directory.congr rfl rfl rfl
    index := ?_
    available_le := ?_
    availableNull := ?_
    idle := ?_
    shelved := h.shelved }
  · intro sl hsl
    show sl.2 + update s.available (some p) cfg.maxNumEventsPerPool (some sl.1) < _
    rw [update_of_ne (fun he => hnone sl hsl (Option.some.inj he))]
    exact h.index sl hsl
  · intro q
    show update s.available (some p) cfg.maxNumEventsPerPool (some q) ≤ _
    by_cases hq : some q = some p
    · rw [hq, update_self]
    · rw [update_of_ne hq]
      exact h.available_le q
  · show update s.available (some p) cfg.maxNumEventsPerPool none = 0
    exact h.availableNull
  · intro k q hq
    obtain ⟨huq, haq⟩ := h.idle k q hq
    refine ⟨huq, ?_⟩
    show update s.available (some p) cfg.maxNumEventsPerPool (some q) = _
    by_cases hqp : some q = some p
    · rw [hqp, update_self]
    · rw [update_of_ne hqp]
      exact haq

/-- **A pool that left its cache comes back**, at the tail. -/
theorem Books.pushBack (h : Books cfg s) {p : PoolId} {k : Nat}
    (hp : p < s.nextPool) (hat : s.cacheAt (cacheKey cfg (s.created p)) = some k)
    (hne : s.zeEventPoolCache k ≠ []) (hout : ∀ k', some p ∉ s.zeEventPoolCache k')
    (hu : s.unreleased p = 0) (ha : s.available (some p) = cfg.maxNumEventsPerPool) :
    Books cfg (s.setCache k (s.zeEventPoolCache k ++ [some p])) := by
  have hk := h.directory.cacheAt_lt hat
  have hself : ∀ l, (s.setCache k l).zeEventPoolCache k = l := fun l => update_self ..
  have hother : ∀ l k', k' ≠ k → (s.setCache k l).zeEventPoolCache k' = s.zeEventPoolCache k' :=
    fun l k' hk' => update_of_ne hk' ..
  -- the front of the list does not change
  have htail : (s.zeEventPoolCache k ++ [some p]).tail =
      (s.zeEventPoolCache k).tail ++ [some p] := List.tail_append_of_ne_nil hne
  refine { h with
    directory := h.directory.setCache hk _
    shelved := ?_
    own := ?_
    nullFront := ?_
    idle := ?_
    used := ?_ }
  · have hnot : ¬ Waits s.pools p := by
      intro ⟨k', hk'⟩
      exact hout k' (mem_pools.mp hk')
    have happend : (s.zeEventPoolCache k ++ [some p]).reduceOption = s.pools k ++ [p] := by
      rw [List.reduceOption_append]
      rfl
    rw [pools_setCache, happend]
    exact h.shelved.put k hnot
  · intro k' q hq
    rcases mem_setCache.mp hq with ⟨rfl, hl⟩ | ⟨-, hold⟩
    · rcases List.mem_append.mp hl with hold | hnew
      · exact h.own _ q hold
      · rw [Option.some.inj (List.mem_singleton.mp hnew)]
        exact ⟨hp, hat⟩
    · exact h.own k' q hold
  · intro k'
    by_cases hk' : k' = k
    · rw [hk', hself, htail]
      intro hmem
      rcases List.mem_append.mp hmem with hold | hnew
      · exact h.nullFront k hold
      · exact Option.some_ne_none p (List.mem_singleton.mp hnew).symm
    · rw [hother _ k' hk']
      exact h.nullFront k'
  · intro k' q hq
    by_cases hk' : k' = k
    · rw [hk', hself, htail] at hq
      rcases List.mem_append.mp hq with hold | hnew
      · exact h.idle k q hold
      · rw [Option.some.inj (List.mem_singleton.mp hnew)]
        exact ⟨hu, ha⟩
    · rw [hother _ k' hk'] at hq
      exact h.idle k' q hq
  · intro q hq
    obtain ⟨k', hat', hne'⟩ := h.used q hq
    refine ⟨k', hat', ?_⟩
    by_cases hk' : k' = k
    · rw [hk', hself]
      exact List.append_ne_nil_of_left_ne_nil hne _
    · rw [hother _ k' hk']
      exact hne'

theorem Books.forgetSlot (h : Books cfg s) (id : EventId) : Books cfg (s.forgetSlot id) := by
  have hold : ∀ id' sl, (s.forgetSlot id).slot id' = some sl → s.slot id' = some sl := by
    intro id' sl h'
    change update s.slot id none id' = some sl at h'
    by_cases hid : id' = id
    · rw [hid, update_self] at h'
      exact absurd h' nofun
    · rw [update_of_ne hid] at h'
      exact h'
  refine { h with
    directory := h.directory.congr rfl rfl rfl
    shelved := h.shelved
    holds := ?_
    apart := ?_ }
  · intro id' sl h'
    exact h.holds id' sl (hold id' sl h')
  · intro id₁ id₂ sl h₁ h₂
    exact h.apart id₁ id₂ sl (hold id₁ sl h₁) (hold id₂ sl h₂)

/-- The event still says where its pool belongs, if it is the pool's last. -/
def KeepsCache (cfg : Config) (s : State) (id : EventId) : Prop :=
  ∀ sl, s.slot id = some sl → s.liveIn sl.1 = 1 →
    cacheKey cfg (attributesNow cfg id (s.events id)) = cacheKey cfg (s.created sl.1)

theorem State.getZeEventPoolCache_eraseEvent (cfg : Config) (s : State) (id : EventId)
    (a : Attributes) :
    (s.eraseEvent id).getZeEventPoolCache cfg a =
      ((s.getZeEventPoolCache cfg a).1.eraseEvent id, (s.getZeEventPoolCache cfg a).2) := by
  cases hd : a.device.map cfg.zeDevice with
  | none => simp [State.getZeEventPoolCache, hd]
  | some d =>
    cases hn : s.zeEventPoolCacheDeviceMap (cacheIndex a) d <;>
      simp only [State.getZeEventPoolCache, State.eraseEvent, hd, hn]

/-- **An empty pool goes back**: it is at the head of its cache, or in no cache. -/
theorem Books.giveBack (h : Books cfg s) {p : PoolId} {k : Nat}
    (hp : p < s.nextPool) (hat : s.cacheAt (cacheKey cfg (s.created p)) = some k)
    (hidle : ∀ k', some p ∉ (s.zeEventPoolCache k').tail) (hu : s.unreleased p = 0) :
    ∃ s', s.giveBack cfg k p = .ok s' ∧ Books cfg s' ∧ s'.toEventState = s.toEventState ∧
      s'.slot = s.slot := by
  have hsome : s.zeEventPoolCache k ≠ [] := by
    obtain ⟨k', hat', hne'⟩ := h.used p hp
    rw [← Option.some.inj (hat'.symm.trans hat)]
    exact hne'
  unfold State.giveBack
  cases hc : s.zeEventPoolCache k with
  | nil => exact absurd hc hsome
  | cons front rest =>
    dsimp only
    by_cases hfront : front = some p
    · rw [if_neg (not_not_intro hfront)]
      exact ⟨_, rfl, h.startOver hu, rfl, rfl⟩
    · rw [if_pos hfront, ← hc]
      have hout : ∀ k', some p ∉ s.zeEventPoolCache k' := by
        intro k' hmem
        have hk' := Option.some.inj ((h.own k' p hmem).2.symm.trans hat)
        have htail := hidle k'
        rw [hk', hc] at hmem htail
        rcases List.mem_cons.mp hmem with he | hrest
        · exact hfront he.symm
        · exact htail hrest
      refine ⟨_, rfl, ?_, rfl, rfl⟩
      -- the two updates are of different fields
      exact (h.startOver hu).pushBack hp hat hsome hout hu (update_self ..)

theorem State.giveBack_forgetSlot {s s' : State} {k : Nat} {p : PoolId}
    {id : EventId} (h : (s.forgetSlot id).giveBack cfg k p = .ok s') :
    ∃ s₀, s.giveBack cfg k p = .ok s₀ ∧ s₀.forgetSlot id = s' := by
  unfold State.giveBack at h ⊢
  cases hc : s.zeEventPoolCache k with
  | nil =>
    have hc' : (s.forgetSlot id).zeEventPoolCache k = [] := hc
    rw [hc'] at h
    exact absurd h nofun
  | cons front rest =>
    have hc' : (s.forgetSlot id).zeEventPoolCache k = front :: rest := hc
    rw [hc'] at h
    refine ⟨_, rfl, ?_⟩
    rw [← Except.ok.inj h]
    by_cases hfront : front = some p
    · rw [if_neg (not_not_intro hfront), if_neg (not_not_intro hfront)]
      rfl
    · rw [if_pos hfront, if_pos hfront]
      rfl

/-- **Destruction.** The process does not end, and the books are as they should be
once the object has let go of its driver event. -/
theorem Books.decrement (h : Books cfg s) {id : EventId} (hkey : KeepsCache cfg s id) :
    ∃ s', (s.eraseEvent id).decrementUnreleasedEventsInPool cfg id = .ok s' ∧
      Books cfg (s'.forgetSlot id) ∧ s'.toEventState = s.toEventState ∧
      (s'.forgetSlot id).slot = (s.forgetSlot id).slot := by
  cases hs : s.slot id with
  | none =>
    have hsame : s.eraseEvent id = s := by
      unfold State.eraseEvent
      rw [hs]
    refine ⟨s, ?_, h.forgetSlot id, rfl, rfl⟩
    rw [hsame]
    unfold State.decrementUnreleasedEventsInPool
    rw [hs]
  | some sl =>
    cases hl : s.getZeEventPoolCache cfg (attributesNow cfg id (s.events id)) with
    | mk s₁ k =>
      obtain ⟨hgrown, hat⟩ := h.directory.lookup cfg _ hl
      have h₁ := h.grown hgrown
      have hslot₁ : s₁.slot id = some sl := by
        rw [hgrown.sameBut]
        exact hs
      have hu₁ : s₁.unreleased sl.1 = s.liveIn sl.1 := by
        rw [hgrown.sameBut]
        exact h.unreleased sl.1
      have hevents : s₁.toEventState = s.toEventState := by rw [hgrown.sameBut]
      have hslots : (s₁.forgetSlot id).slot = (s.forgetSlot id).slot := by
        rw [hgrown.sameBut]
        rfl
      have hpos := State.liveIn_pos (h.holds id sl hs)
      have hdrop := h₁.dropEvent hslot₁
      have hlookup : (s.eraseEvent id).getZeEventPoolCache cfg
          (attributesNow cfg id ((s.eraseEvent id).events id)) = (s₁.eraseEvent id, k) := by
        have hcommute := s.getZeEventPoolCache_eraseEvent cfg id
          (attributesNow cfg id (s.events id))
        rw [hl] at hcommute
        exact hcommute
      have hslot : (s.eraseEvent id).slot id = some sl := hs
      have hne : (s₁.eraseEvent id).unreleased sl.1 ≠ 0 := by
        show s₁.unreleased sl.1 ≠ 0
        omega
      unfold State.decrementUnreleasedEventsInPool
      rw [hslot]
      dsimp only
      rw [hlookup]
      rw [if_neg hne]
      by_cases hlast : ((s₁.eraseEvent id).countDown sl.1).unreleased sl.1 = 0
      · rw [if_pos hlast]
        have hone : s.liveIn sl.1 = 1 := by
          change update s₁.unreleased sl.1 (s₁.unreleased sl.1 - 1) sl.1 = 0 at hlast
          rw [update_self] at hlast
          omega
        have hcreated : s₁.created = s.created := by rw [hgrown.sameBut]
        have hplace : s₁.cacheAt (cacheKey cfg (s₁.created sl.1)) = some k := by
          rw [hcreated, ← hkey sl hs hone]
          exact hat
        -- behind the heads there are only pools without events
        have hidle : ∀ k', some sl.1 ∉ (s₁.zeEventPoolCache k').tail := by
          intro k' hmem
          have := (h₁.idle k' sl.1 hmem).1
          omega
        have hknown := h₁.known sl (h₁.holds id sl hslot₁)
        obtain ⟨s₂, hgive, hbooks, hsame, hslot₂⟩ := hdrop.giveBack hknown hplace hidle hlast
        obtain ⟨s₃, hgive₃, hforget⟩ := State.giveBack_forgetSlot hgive
        refine ⟨s₃, hgive₃, ?_, ?_, ?_⟩
        · rw [hforget]
          exact hbooks
        · have hevents₃ : s₃.toEventState = (s₃.forgetSlot id).toEventState := rfl
          rw [hevents₃, hforget]
          exact hsame.trans hevents
        · rw [hforget, hslot₂]
          exact hslots
      · rw [if_neg hlast]
        exact ⟨_, rfl, hdrop, hevents, hslots⟩

end UnifiedRuntime.LevelZero.EventPool
