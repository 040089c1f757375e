import UnifiedRuntime.LevelZero.EventPoolInvariant

/-!
# A free slot of an event pool

`getFreeSlotInExistingOrNewPool` first sees to it that the head of the cache is a
pool with room or a null pointer, then takes the next slot of the head. Where
that is a pool in use, the index is the number of slots handed out since the pool
was last empty, so every event that is alive has a smaller one.

Main result: `Books.getFreeSlot` (a slot is free, in range and of a pool with the
attributes asked for).
-/

namespace UnifiedRuntime.LevelZero.EventPool

open Function (update update_of_ne update_self)

/-- What `withRoom` leaves at the head of a cache. -/
structure HasRoom (s : State) (k : Nat) : Prop where
  head : s.zeEventPoolCache k = [none] ∨
    ∃ p rest, s.zeEventPoolCache k = some p :: rest ∧ 0 < s.available (some p)

variable {s : State} {cfg : Config}

/-- **Room at the head.** The full pool is taken off; the next one has no events. -/
theorem Books.withRoom (h : Books cfg s)
    (hoff : cfg.disableEventsCaching = true) {k : Nat} (hk : k < s.numCaches) :
    Books cfg (s.setCache k (State.withRoom cfg s.available (s.zeEventPoolCache k))) ∧
      HasRoom (s.setCache k (State.withRoom cfg s.available (s.zeEventPoolCache k))) k := by
  have hself : ∀ l, (s.setCache k l).zeEventPoolCache k = l := fun l => update_self ..
  -- an empty cache gets a null pointer
  have hnone : ∀ l, s.zeEventPoolCache k = l → l.length ≤ 1 →
      Books cfg (s.setCache k [none]) ∧ HasRoom (s.setCache k [none]) k := by
    intro l hl hlen
    refine ⟨h.setCache hk (List.cons_ne_nil _ _) List.not_mem_nil ?_ nofun, ⟨.inl (hself _)⟩⟩
    exact List.nil_sublist _
  cases hc : s.zeEventPoolCache k with
  | nil => exact hnone [] hc (Nat.zero_le 1)
  | cons front rest =>
    by_cases hfull : s.available front = 0
    · -- the head is full, or null: what follows it is the cache
      cases hrest : rest with
      | nil =>
        have hroom : State.withRoom cfg s.available [front] = [none] := by
          simp [State.withRoom, hfull, hoff]
        rw [hroom]
        exact hnone [front] (by rw [hc, hrest]) le_rfl
      | cons next others =>
        have hroom : State.withRoom cfg s.available (front :: next :: others) =
            next :: others := by
          simp [State.withRoom, hfull, hoff]
        rw [hroom]
        have htail : (s.zeEventPoolCache k).tail = next :: others := by
          rw [hc, hrest]
          rfl
        have hnull := h.nullFront k
        rw [htail] at hnull
        refine ⟨h.setCache hk (List.cons_ne_nil _ _) ?_ ?_ ?_, ⟨?_⟩⟩
        · intro hmem
          exact hnull (List.mem_cons_of_mem _ hmem)
        · rw [hc, hrest]
          exact (List.sublist_cons_self front _).filterMap id
        · intro p hp
          rw [htail]
          exact List.mem_cons_of_mem _ hp
        · rw [hself]
          cases hnext : next with
          | none => exact absurd (hnext ▸ List.mem_cons_self ..) hnull
          | some p =>
            have hidle := h.idle k p (by rw [htail, hnext]; exact List.mem_cons_self ..)
            have hpos : 0 < s.available (some p) := by
              rw [hidle.2]
              exact cfg.maxNumEventsPerPool_pos
            exact .inr ⟨p, others, rfl, hpos⟩
    · have hroom : State.withRoom cfg s.available (front :: rest) = front :: rest := by
        simp [State.withRoom, hfull]
      rw [hroom]
      have hnull := h.nullFront k
      rw [hc] at hnull
      refine ⟨h.setCache hk (List.cons_ne_nil _ _) hnull ?_ ?_, ⟨?_⟩⟩
      · rw [hc]
      · intro p hp
        rw [hc]
        exact hp
      · rw [hself]
        cases hfront : front with
        | none => exact absurd (hfront ▸ h.availableNull) hfull
        | some p => exact .inr ⟨p, rest, rfl, Nat.pos_of_ne_zero (hfront ▸ hfull)⟩

/-- The driver event at a slot is made. -/
def State.addLive (s : State) (sl : Slot) : State := { s with live := sl :: s.live }

theorem State.liveIn_addLive_self (s : State) (sl : Slot) :
    (s.addLive sl).liveIn sl.1 = s.liveIn sl.1 + 1 := by
  simp [State.liveIn, State.addLive]

theorem State.liveIn_addLive_ne (s : State) {sl : Slot} {p : PoolId} (hp : p ≠ sl.1) :
    (s.addLive sl).liveIn p = s.liveIn p := by
  unfold State.liveIn State.addLive
  rw [List.map_cons, List.count_cons_of_ne (fun he => hp he.symm)]

theorem State.liveIn_eq_zero {p : PoolId} (h : ∀ sl ∈ s.live, sl.1 ≠ p) : s.liveIn p = 0 := by
  refine List.count_eq_zero.mpr ?_
  intro hmem
  obtain ⟨sl, hsl, he⟩ := List.mem_map.mp hmem
  exact h sl hsl he

theorem State.liveIn_pos {sl : Slot} (h : sl ∈ s.live) : 0 < s.liveIn sl.1 :=
  List.count_pos_iff.mpr (List.mem_map_of_mem h)

/-- What is true of a slot that was handed out. -/
structure Granted (cfg : Config) (s s' : State) (a : Attributes) (sl : Slot) : Prop where
  inRange : sl.2 < cfg.maxNumEventsPerPool
  free : sl ∉ s.live
  key : cacheKey cfg (s'.created sl.1) = cacheKey cfg a
  books : Books cfg (s'.addLive sl)

/-- **A slot of the pool in use.** The index is past all that were handed out. -/
theorem Books.frontSlot (h : Books cfg s) {a : Attributes} {k : Nat}
    (hat : s.cacheAt (cacheKey cfg a) = some k) {p : PoolId} {rest : List (Option PoolId)}
    (hc : s.zeEventPoolCache k = some p :: rest) (havail : 0 < s.available (some p)) :
    Granted cfg s
      { s with
        available := update s.available (some p) (s.available (some p) - 1)
        unreleased := update s.unreleased p (s.unreleased p + 1) } a
      (p, cfg.maxNumEventsPerPool - s.available (some p)) := by
  have hle := h.available_le p
  have hmem : some p ∈ s.zeEventPoolCache k := hc ▸ List.mem_cons_self ..
  obtain ⟨hlt, hown⟩ := h.own k p hmem
  -- the head of a cache is behind the head of none
  have hhead : ∀ k' q, some q ∈ (s.zeEventPoolCache k').tail → q ≠ p := by
    intro k' q hq he
    rw [he] at hq
    have hk' : k' = k := h.oneCache (List.mem_of_mem_tail hq) hmem
    have hnodup := h.shelved.once k
    unfold State.pools at hnodup
    rw [hk', hc] at hq
    rw [hc] at hnodup
    exact (List.nodup_cons.mp hnodup).1 (List.reduceOption_mem_iff.mpr hq)
  refine ⟨by omega, ?_, h.directory.cacheAt_inj hown hat, ?_⟩
  · intro hlive
    have := h.index _ hlive
    dsimp only at this
    omega
  refine { h with
    directory := h.directory.congr rfl rfl rfl
    unreleased := ?_
    known := ?_
    index := ?_
    available_le := ?_
    availableNull := ?_
    holds := ?_
    idle := ?_
    shelved := h.shelved }
  · intro q
    by_cases hq : q = p
    · rw [hq, State.liveIn_addLive_self]
      show update s.unreleased p (s.unreleased p + 1) p = s.liveIn p + 1
      rw [update_self, h.unreleased]
    · rw [State.liveIn_addLive_ne _ hq]
      show update s.unreleased p (s.unreleased p + 1) q = s.liveIn q
      rw [update_of_ne hq, h.unreleased]
  · intro sl hsl
    rcases List.mem_cons.mp hsl with rfl | hsl
    · exact hlt
    · exact h.known sl hsl
  · intro sl hsl
    show sl.2 + update s.available (some p) (s.available (some p) - 1) (some sl.1) < _
    rcases List.mem_cons.mp hsl with rfl | hsl
    · rw [update_self]
      omega
    · have hold := h.index sl hsl
      by_cases hp : some sl.1 = some p
      · rw [hp, update_self]
        rw [hp] at hold
        omega
      · rw [update_of_ne hp]
        exact hold
  · intro q
    show update s.available (some p) (s.available (some p) - 1) (some q) ≤ _
    by_cases hq : some q = some p
    · rw [hq, update_self]
      omega
    · rw [update_of_ne hq]
      exact h.available_le q
  · show update s.available (some p) (s.available (some p) - 1) none = 0
    exact h.availableNull
  · intro id sl hsl
    exact List.mem_cons_of_mem _ (h.holds id sl hsl)
  · intro k' q hq
    have hne := hhead k' q hq
    obtain ⟨hu, ha⟩ := h.idle k' q hq
    refine ⟨?_, ?_⟩
    · show update s.unreleased p (s.unreleased p + 1) q = 0
      rw [update_of_ne hne, hu]
    · show update s.available (some p) (s.available (some p) - 1) (some q) = _
      rw [update_of_ne (fun he => hne (Option.some.inj he)), ha]

/-- **A new pool.** It is nowhere yet, and takes the place of the null pointer. -/
theorem Books.newPool (h : Books cfg s) {a : Attributes} {k : Nat}
    (hat : s.cacheAt (cacheKey cfg a) = some k) (hc : s.zeEventPoolCache k = [none]) :
    Granted cfg s
      { s.setCache k [some s.nextPool] with
        available := update s.available (some s.nextPool) (cfg.maxNumEventsPerPool - 1)
        unreleased := update s.unreleased s.nextPool 1
        created := update s.created s.nextPool a
        nextPool := s.nextPool + 1 } a (s.nextPool, 0) := by
  have hk := h.directory.cacheAt_lt hat
  have hpos := cfg.maxNumEventsPerPool_pos
  -- no slot and no list has the number of the new pool yet
  have hnotLive : ∀ sl ∈ s.live, sl.1 ≠ s.nextPool := by
    intro sl hsl he
    exact Nat.lt_irrefl _ (he ▸ h.known sl hsl)
  have hnotCached : ∀ k' q, some q ∈ s.zeEventPoolCache k' → q ≠ s.nextPool := by
    intro k' q hq he
    exact Nat.lt_irrefl _ (he ▸ (h.own k' q hq).1)
  have hself : (s.setCache k [some s.nextPool]).zeEventPoolCache k = [some s.nextPool] :=
    update_self ..
  have hother : ∀ k', k' ≠ k →
      (s.setCache k [some s.nextPool]).zeEventPoolCache k' = s.zeEventPoolCache k' :=
    fun k' hk' => update_of_ne hk' ..
  refine ⟨hpos, fun hlive => hnotLive _ hlive rfl, ?_, ?_⟩
  · dsimp only
    rw [update_self]
  refine { h with
    directory := (h.directory.setCache hk _).congr rfl rfl rfl
    unreleased := ?_
    known := ?_
    index := ?_
    available_le := ?_
    availableNull := ?_
    holds := ?_
    shelved := ?_
    own := ?_
    nullFront := ?_
    idle := ?_
    used := ?_ }
  · intro q
    by_cases hq : q = s.nextPool
    · rw [hq, State.liveIn_addLive_self _ (s.nextPool, 0)]
      show update s.unreleased s.nextPool 1 s.nextPool = s.liveIn s.nextPool + 1
      rw [update_self, State.liveIn_eq_zero hnotLive]
    · rw [State.liveIn_addLive_ne _ hq]
      show update s.unreleased s.nextPool 1 q = s.liveIn q
      rw [update_of_ne hq, h.unreleased]
  · intro sl hsl
    show sl.1 < s.nextPool + 1
    rcases List.mem_cons.mp hsl with rfl | hsl
    · exact Nat.lt_succ_self _
    · exact Nat.lt_succ_of_lt (h.known sl hsl)
  · intro sl hsl
    show sl.2 + update s.available (some s.nextPool) (cfg.maxNumEventsPerPool - 1)
      (some sl.1) < _
    rcases List.mem_cons.mp hsl with rfl | hsl
    · rw [update_self]
      omega
    · rw [update_of_ne (fun he => hnotLive sl hsl (Option.some.inj he))]
      exact h.index sl hsl
  · intro q
    show update s.available (some s.nextPool) (cfg.maxNumEventsPerPool - 1) (some q) ≤ _
    by_cases hq : some q = some s.nextPool
    · rw [hq, update_self]
      omega
    · rw [update_of_ne hq]
      exact h.available_le q
  · show update s.available (some s.nextPool) (cfg.maxNumEventsPerPool - 1) none = 0
    exact h.availableNull
  · intro id sl hsl
    exact List.mem_cons_of_mem _ (h.holds id sl hsl)
  · show Shelved (s.setCache k [some s.nextPool]).pools
    have hnew : ¬ Waits s.pools s.nextPool := by
      intro ⟨k', hk'⟩
      exact hnotCached k' _ (mem_pools.mp hk') rfl
    -- the null pointer stands for no pool
    have hempty : s.pools k = [] := by
      unfold State.pools
      rw [hc]
      rfl
    have hput := h.shelved.put k hnew
    rw [hempty] at hput
    rw [pools_setCache]
    exact hput
  · intro k' q hq
    show q < s.nextPool + 1 ∧
      s.cacheAt (cacheKey cfg (update s.created s.nextPool a q)) = some k'
    rcases mem_setCache.mp hq with ⟨rfl, hl⟩ | ⟨-, hold⟩
    · rw [Option.some.inj (List.mem_singleton.mp hl), update_self]
      exact ⟨Nat.lt_succ_self _, hat⟩
    · obtain ⟨hlt, hown⟩ := h.own k' q hold
      rw [update_of_ne (hnotCached k' q hold)]
      exact ⟨Nat.lt_succ_of_lt hlt, hown⟩
  · intro k'
    show none ∉ ((s.setCache k [some s.nextPool]).zeEventPoolCache k').tail
    by_cases hk' : k' = k
    · rw [hk', hself]
      exact List.not_mem_nil
    · rw [hother k' hk']
      exact h.nullFront k'
  · intro k' q hq
    show update s.unreleased s.nextPool 1 q = 0 ∧
      update s.available (some s.nextPool) (cfg.maxNumEventsPerPool - 1) (some q) = _
    change some q ∈ ((s.setCache k [some s.nextPool]).zeEventPoolCache k').tail at hq
    by_cases hk' : k' = k
    · rw [hk', hself] at hq
      exact absurd hq List.not_mem_nil
    · rw [hother k' hk'] at hq
      have hne := hnotCached k' q (List.mem_of_mem_tail hq)
      rw [update_of_ne hne, update_of_ne (fun he => hne (Option.some.inj he))]
      exact h.idle k' q hq
  · intro q hq
    show ∃ k', s.cacheAt (cacheKey cfg (update s.created s.nextPool a q)) = some k' ∧
      (s.setCache k [some s.nextPool]).zeEventPoolCache k' ≠ []
    change q < s.nextPool + 1 at hq
    by_cases hnew : q = s.nextPool
    · rw [hnew, update_self]
      refine ⟨k, hat, ?_⟩
      rw [hself]
      exact List.cons_ne_nil _ _
    · rw [update_of_ne hnew]
      obtain ⟨k', hat', hne⟩ := h.used q (Nat.lt_of_le_of_ne (Nat.le_of_lt_succ hq) hnew)
      refine ⟨k', hat', ?_⟩
      by_cases hk' : k' = k
      · rw [hk', hself]
        exact List.cons_ne_nil _ _
      · rw [hother k' hk']
        exact hne

/-- **A free slot, or none.** -/
theorem Books.takeFront (h : Books cfg s) {a : Attributes} {k : Nat}
    (hat : s.cacheAt (cacheKey cfg a) = some k) (hroom : HasRoom s k) {poolCreate : Bool}
    {s' : State} {r : Option Slot} (hg : s.takeFront cfg k a poolCreate = (s', r)) :
    s'.slot = s.slot ∧ s'.live = s.live ∧ s'.toEventState = s.toEventState ∧
      (r = none → Books cfg s') ∧ ∀ sl, r = some sl → Granted cfg s s' a sl := by
  unfold State.takeFront at hg
  rcases hroom.head with hc | ⟨p, rest, hc, havail⟩
  · rw [hc] at hg
    dsimp only at hg
    split at hg
    next =>
      obtain ⟨rfl, rfl⟩ := Prod.mk.inj hg
      refine ⟨rfl, rfl, rfl, nofun, ?_⟩
      intro sl hsl
      obtain rfl := Option.some.inj hsl
      exact h.newPool hat hc
    next =>
      obtain ⟨rfl, rfl⟩ := Prod.mk.inj hg
      exact ⟨rfl, rfl, rfl, fun _ => h, nofun⟩
  · rw [hc] at hg
    obtain ⟨rfl, rfl⟩ := Prod.mk.inj hg
    refine ⟨rfl, rfl, rfl, nofun, ?_⟩
    intro sl hsl
    obtain rfl := Option.some.inj hsl
    exact h.frontSlot hat hc havail

/-- **Allocation.** With the caching of events disabled, a slot that is handed out is
free, in range and of a pool for the attributes; a failure leaves the books as they
should be. -/
theorem Books.getFreeSlot (h : Books cfg s)
    (hoff : cfg.disableEventsCaching = true) (a : Attributes) {poolCreate : Bool} {s' : State}
    {r : Option Slot}
    (hg : s.getFreeSlotInExistingOrNewPool cfg a poolCreate = (s', r)) :
    s'.slot = s.slot ∧ s'.live = s.live ∧ s'.toEventState = s.toEventState ∧
      (r = none → Books cfg s') ∧ ∀ sl, r = some sl → Granted cfg s s' a sl := by
  unfold State.getFreeSlotInExistingOrNewPool at hg
  cases hl : s.getZeEventPoolCache cfg a with
  | mk s₁ k =>
    rw [hl] at hg
    obtain ⟨hgrown, hat⟩ := h.directory.lookup cfg a hl
    have h₁ := h.grown hgrown
    obtain ⟨h₂, hroom⟩ := h₁.withRoom hoff (h₁.directory.cacheAt_lt hat)
    obtain ⟨hslot, hlive, hevents, hfail, hgrant⟩ := h₂.takeFront hat hroom hg
    have hlive₁ : s₁.live = s.live := by rw [hgrown.sameBut]
    have hslot₁ : s₁.slot = s.slot := by rw [hgrown.sameBut]
    have hevents₁ : s₁.toEventState = s.toEventState := by rw [hgrown.sameBut]
    refine ⟨hslot.trans hslot₁, hlive.trans hlive₁, hevents.trans hevents₁, hfail, ?_⟩
    intro sl hsl
    obtain ⟨hrange, hfree, hkey, hbooks⟩ := hgrant sl hsl
    refine ⟨hrange, ?_, hkey, hbooks⟩
    intro hmem
    exact hfree (hlive₁ ▸ hmem)

end UnifiedRuntime.LevelZero.EventPool
