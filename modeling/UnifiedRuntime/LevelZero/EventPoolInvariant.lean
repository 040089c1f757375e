import UnifiedRuntime.LevelZero.EventPool

/-!
# What the caches and counters of the event pools say

`Books` is the invariant. The counter of unreleased events is the number of live
events of a pool, every live event has an index below the slots handed out, and
the pools in the caches are apart: each in the cache of its own attributes, once,
and all but the head of a cache without events. A pool that left its cache is
not lost, since the cache it left holds something.

Main results: `zeEventPoolDesc_of_key` (one cache, one kind of pool),
`Directory.lookup` (looking a cache up), `Books.setCache` (a cache may lose pools
from its head).
-/

namespace UnifiedRuntime.LevelZero.EventPool

open Function (update update_of_ne update_self)

/-! ## Keys and descriptors -/

theorem calculateCacheIndex_inj {hv cb im ib hv' cb' im' ib' : Bool}
    (h : (calculateCacheIndex hv cb im ib).toNat = (calculateCacheIndex hv' cb' im' ib').toNat) :
    hv = hv' ∧ cb = cb' ∧ ib = ib' ∧ (cb = true → im = im') := by
  revert hv cb im ib hv' cb' im' ib'
  decide

theorem calculateCacheIndex_lt (hv cb im ib : Bool) :
    (calculateCacheIndex hv cb im ib).toNat < 14 := by
  revert hv cb im ib
  decide

theorem cacheIndex_lt (a : Attributes) : cacheIndex a < 28 := by
  have h := calculateCacheIndex_lt a.hostVisible a.counterBased a.immediate a.interruptBased
  unfold cacheIndex
  dsimp only
  split <;> omega

/-- Attributes with one index differ in the kind of command list of an event that
is not counter-based, and in the device. -/
theorem cacheIndex_inj {a b : Attributes} (h : cacheIndex a = cacheIndex b) :
    a.profiling = b.profiling ∧ a.hostVisible = b.hostVisible ∧
      a.counterBased = b.counterBased ∧ a.interruptBased = b.interruptBased ∧
      (a.counterBased = true → a.immediate = b.immediate) := by
  have hsplit : a.profiling = b.profiling ∧
      (calculateCacheIndex a.hostVisible a.counterBased a.immediate a.interruptBased).toNat =
        (calculateCacheIndex b.hostVisible b.counterBased b.immediate b.interruptBased).toNat := by
    unfold cacheIndex at h
    cases ha : a.profiling <;> cases hb : b.profiling <;>
      simp only [ha, hb, if_true, if_false, Bool.false_eq_true] at h
    · exact ⟨rfl, by omega⟩
    · omega
    · omega
    · exact ⟨rfl, by omega⟩
  obtain ⟨hp, hi⟩ := hsplit
  obtain ⟨hhv, hcb, hib, him⟩ := calculateCacheIndex_inj hi
  exact ⟨hp, hhv, hcb, hib, him⟩

variable {s : State} {cfg : Config} {k : Nat}

/-- A pool made for attributes with the same key is made the same way. -/
theorem zeEventPoolDesc_of_key {a b : Attributes}
    (h : cacheKey cfg a = cacheKey cfg b) : zeEventPoolDesc cfg a = zeEventPoolDesc cfg b := by
  obtain ⟨hi, hd⟩ := Prod.mk.inj h
  obtain ⟨hp, hhv, hcb, hib, him⟩ := cacheIndex_inj hi
  unfold zeEventPoolDesc
  -- what is left is the list of devices
  cases ha : a.device <;> cases hb : b.device <;> simp_all

/-! ## The invariant -/

/-- The live events of a pool. -/
def State.liveIn (s : State) (p : PoolId) : Nat := (s.live.map Prod.fst).count p

/-- The caches of devices lie behind the ones for all devices, apart from each other. -/
structure Directory (s : State) : Prop where
  fixed : 30 ≤ s.numCaches
  range : ∀ i d n, s.zeEventPoolCacheDeviceMap i d = some n → 30 ≤ n ∧ n < s.numCaches
  inj : ∀ i d i' d' n, s.zeEventPoolCacheDeviceMap i d = some n →
    s.zeEventPoolCacheDeviceMap i' d' = some n → i = i' ∧ d = d'
  pastEnd : ∀ k, s.numCaches ≤ k → s.zeEventPoolCache k = []

/-- The pools in a cache. -/
def State.pools (s : State) (k : Nat) : List PoolId := (s.zeEventPoolCache k).reduceOption

structure Books (cfg : Config) (s : State) : Prop where
  directory : Directory s
  eventCaches : ∀ k, s.eventCaches k = []
  unreleased : ∀ p, s.unreleased p = s.liveIn p
  known : ∀ sl ∈ s.live, sl.1 < s.nextPool
  index : ∀ sl ∈ s.live, sl.2 + s.available (some sl.1) < cfg.maxNumEventsPerPool
  available_le : ∀ p, s.available (some p) ≤ cfg.maxNumEventsPerPool
  availableNull : s.available none = 0
  holds : ∀ id sl, s.slot id = some sl → sl ∈ s.live
  apart : ∀ id id' sl, s.slot id = some sl → s.slot id' = some sl → id = id'
  shelved : Shelved s.pools
  own : ∀ k p, some p ∈ s.zeEventPoolCache k →
    p < s.nextPool ∧ s.cacheAt (cacheKey cfg (s.created p)) = some k
  nullFront : ∀ k, none ∉ (s.zeEventPoolCache k).tail
  idle : ∀ k p, some p ∈ (s.zeEventPoolCache k).tail →
    s.unreleased p = 0 ∧ s.available (some p) = cfg.maxNumEventsPerPool
  used : ∀ p, p < s.nextPool →
    ∃ k, s.cacheAt (cacheKey cfg (s.created p)) = some k ∧ s.zeEventPoolCache k ≠ []

theorem Directory.congr {s s' : State} (h : Directory s) (hn : s'.numCaches = s.numCaches)
    (hm : s'.zeEventPoolCacheDeviceMap = s.zeEventPoolCacheDeviceMap)
    (hc : s'.zeEventPoolCache = s.zeEventPoolCache) : Directory s' := by
  refine ⟨?_, ?_, ?_, ?_⟩
  · rw [hn]
    exact h.fixed
  · rw [hm, hn]
    exact h.range
  · rw [hm]
    exact h.inj
  · rw [hn, hc]
    exact h.pastEnd

/-- Keys with one cache are one key. -/
theorem Directory.cacheAt_inj (h : Directory s) {a b : Attributes}
    (ha : s.cacheAt (cacheKey cfg a) = some k)
    (hb : s.cacheAt (cacheKey cfg b) = some k) : cacheKey cfg a = cacheKey cfg b := by
  have hla := cacheIndex_lt a
  have hlb := cacheIndex_lt b
  unfold State.cacheAt cacheKey at ha hb
  unfold cacheKey
  cases hda : a.device.map cfg.zeDevice with
  | none =>
    rw [hda] at ha
    cases hdb : b.device.map cfg.zeDevice with
    | none =>
      rw [hdb] at hb
      dsimp only at ha hb
      rw [Option.some.inj (ha.trans hb.symm)]
    | some d =>
      rw [hdb] at hb
      have := h.range _ _ _ hb
      have := Option.some.inj ha
      omega
  | some d =>
    rw [hda] at ha
    cases hdb : b.device.map cfg.zeDevice with
    | none =>
      rw [hdb] at hb
      have := h.range _ _ _ ha
      have := Option.some.inj hb
      omega
    | some d' =>
      rw [hdb] at hb
      dsimp only at ha hb
      obtain ⟨hi, hd⟩ := h.inj _ _ _ _ _ ha hb
      rw [hi, hd]

theorem mem_pools {p : PoolId} : p ∈ s.pools k ↔ some p ∈ s.zeEventPoolCache k :=
  List.reduceOption_mem_iff

/-- **Once in all the caches.** -/
theorem Books.oneCache (h : Books cfg s) {k k' : Nat} {p : PoolId}
    (hk : some p ∈ s.zeEventPoolCache k) (hk' : some p ∈ s.zeEventPoolCache k') : k = k' :=
  h.shelved.oneShelf k k' p (mem_pools.mpr hk) (mem_pools.mpr hk')

/-- `reduceOption` of replaced caches. -/
theorem pools_setCache (s : State) (k : Nat) (l : List (Option PoolId)) :
    (s.setCache k l).pools = update s.pools k l.reduceOption := by
  funext k'
  by_cases hk : k' = k
  · rw [hk]
    simp [State.pools, State.setCache]
  · simp [State.pools, State.setCache, update_of_ne hk]

/-! ## Looking a cache up -/

/-- A cache that is made is empty, as everything past the end is. -/
theorem Directory.update_end (h : Directory s) :
    update s.zeEventPoolCache s.numCaches [] = s.zeEventPoolCache := by
  have hend := h.pastEnd s.numCaches le_rfl
  rw [← hend]
  exact Function.update_eq_self _ _

/-- `s'` is `s` but for caches that were made. -/
structure Grown (s s' : State) : Prop where
  sameBut : s' = { s with
    numCaches := s'.numCaches, zeEventPoolCacheDeviceMap := s'.zeEventPoolCacheDeviceMap }
  keeps : ∀ key n, s.cacheAt key = some n → s'.cacheAt key = some n
  directory : Directory s'

theorem Grown.refl (h : Directory s) : Grown s s :=
  ⟨rfl, fun _ _ hk => hk, h⟩

/-- A device map with one more entry, at the end. -/
theorem Directory.grow (h : Directory s) {i : Nat} {d : ZeDevice}
    (hnew : s.zeEventPoolCacheDeviceMap i d = none) :
    Grown s { s with
      numCaches := s.numCaches + 1
      zeEventPoolCacheDeviceMap := update s.zeEventPoolCacheDeviceMap i
        (update (s.zeEventPoolCacheDeviceMap i) d (some s.numCaches)) } := by
  -- an entry of the new map is the new one, or an old one at another place
  have hentry : ∀ i' d' n, update s.zeEventPoolCacheDeviceMap i
        (update (s.zeEventPoolCacheDeviceMap i) d (some s.numCaches)) i' d' = some n →
      (i' = i ∧ d' = d ∧ n = s.numCaches) ∨ s.zeEventPoolCacheDeviceMap i' d' = some n := by
    intro i' d' n hn
    by_cases hi : i' = i
    · rw [hi, update_self] at hn
      by_cases hd : d' = d
      · rw [hd, update_self] at hn
        exact .inl ⟨hi, hd, (Option.some.inj hn).symm⟩
      · rw [update_of_ne hd] at hn
        exact .inr (by rw [hi]; exact hn)
    · rw [update_of_ne hi] at hn
      exact .inr hn
  refine ⟨rfl, ?_, ?_, ?_, ?_, ?_⟩
  · intro key n hkey
    unfold State.cacheAt at hkey ⊢
    split at hkey
    next hnone => exact hkey
    next d' hd' =>
      dsimp only
      by_cases hi : key.1 = i
      · rw [hi, update_self]
        by_cases hd : d' = d
        · rw [hi, hd, hnew] at hkey
          exact absurd hkey nofun
        · rw [update_of_ne hd, ← hi]
          exact hkey
      · rw [update_of_ne hi]
        exact hkey
  · exact Nat.le_succ_of_le h.fixed
  · intro i' d' n hn
    have hfixed := h.fixed
    dsimp only
    rcases hentry i' d' n hn with ⟨-, -, rfl⟩ | hold
    · omega
    · have := h.range i' d' n hold
      omega
  · intro i₁ d₁ i₂ d₂ n h₁ h₂
    rcases hentry _ _ _ h₁ with ⟨rfl, rfl, rfl⟩ | hold₁
    · rcases hentry _ _ _ h₂ with ⟨rfl, rfl, -⟩ | hold₂
      · exact ⟨rfl, rfl⟩
      · exact absurd (h.range _ _ _ hold₂).2 (lt_irrefl _)
    · rcases hentry _ _ _ h₂ with ⟨-, -, rfl⟩ | hold₂
      · exact absurd (h.range _ _ _ hold₁).2 (lt_irrefl _)
      · exact h.inj _ _ _ _ _ hold₁ hold₂
  · intro k hk
    dsimp only at hk
    exact h.pastEnd k (by omega)

/-- **The cache of attributes.** Looking it up makes at most a new cache. -/
theorem Directory.lookup (h : Directory s) (cfg : Config) (a : Attributes)
    {s' : State} (hg : s.getZeEventPoolCache cfg a = (s', k)) :
    Grown s s' ∧ s'.cacheAt (cacheKey cfg a) = some k := by
  unfold State.getZeEventPoolCache at hg
  split at hg
  next hd =>
    obtain ⟨rfl, rfl⟩ := Prod.mk.inj hg
    refine ⟨.refl h, ?_⟩
    unfold State.cacheAt cacheKey
    rw [hd]
  next d hd =>
    split at hg
    next n hn =>
      obtain ⟨rfl, rfl⟩ := Prod.mk.inj hg
      refine ⟨.refl h, ?_⟩
      unfold cacheKey
      rw [hd]
      exact hn
    next hn =>
      rw [h.update_end] at hg
      obtain ⟨rfl, rfl⟩ := Prod.mk.inj hg
      refine ⟨h.grow hn, ?_⟩
      unfold State.cacheAt cacheKey
      rw [hd]
      dsimp only
      rw [update_self, update_self]

/-- Making a cache keeps the books. -/
theorem Books.grown {s s' : State} (h : Books cfg s) (hg : Grown s s') : Books cfg s' := by
  have hdirectory := hg.directory
  have hkeeps := hg.keeps
  rw [hg.sameBut] at hdirectory hkeeps ⊢
  refine { h with directory := hdirectory, own := ?_, used := ?_ }
  · intro k p hp
    obtain ⟨hlt, hat⟩ := h.own k p hp
    exact ⟨hlt, hkeeps _ _ hat⟩
  · intro p hp
    obtain ⟨k, hat, hne⟩ := h.used p hp
    exact ⟨k, hkeeps _ _ hat, hne⟩

/-! ## Replacing a cache -/

theorem Directory.setCache (h : Directory s) (hk : k < s.numCaches)
    (l : List (Option PoolId)) : Directory (s.setCache k l) := by
  refine { fixed := h.fixed, range := h.range, inj := h.inj, pastEnd := ?_ }
  intro k' hk'
  have hne : k' ≠ k := by
    have : s.numCaches ≤ k' := hk'
    omega
  unfold State.setCache
  dsimp only
  rw [update_of_ne hne]
  exact h.pastEnd k' hk'

/-- A key's cache is one of the caches there are. -/
theorem Directory.cacheAt_lt (h : Directory s) {a : Attributes}
    (ha : s.cacheAt (cacheKey cfg a) = some k) : k < s.numCaches := by
  have hlt := cacheIndex_lt a
  have hfixed := h.fixed
  unfold State.cacheAt cacheKey at ha
  split at ha
  next =>
    have := Option.some.inj ha
    omega
  next => exact (h.range _ _ _ ha).2

/-- The entries of a replaced cache. -/
theorem mem_setCache {k k' : Nat} {l : List (Option PoolId)} {x : Option PoolId} :
    x ∈ (s.setCache k l).zeEventPoolCache k' ↔
      (k' = k ∧ x ∈ l) ∨ (k' ≠ k ∧ x ∈ s.zeEventPoolCache k') :=
  mem_update_shelf

/-- A cache may lose pools from its head, as long as it keeps something. -/
theorem Books.setCache (h : Books cfg s)
    {l : List (Option PoolId)} (hk : k < s.numCaches) (hne : l ≠ []) (hnull : none ∉ l.tail)
    (hsub : l.reduceOption.Sublist (s.zeEventPoolCache k).reduceOption)
    (htail : ∀ p, some p ∈ l.tail → some p ∈ (s.zeEventPoolCache k).tail) :
    Books cfg (s.setCache k l) := by
  have hself : (s.setCache k l).zeEventPoolCache k = l := update_self ..
  have hother : ∀ k', k' ≠ k → (s.setCache k l).zeEventPoolCache k' = s.zeEventPoolCache k' :=
    fun k' hk' => update_of_ne hk' ..
  refine { h with
    directory := h.directory.setCache hk l
    shelved := ?_
    own := ?_
    nullFront := ?_
    idle := ?_
    used := ?_ }
  · rw [pools_setCache]
    exact h.shelved.take hsub
  · intro k' p hp
    rcases mem_setCache.mp hp with ⟨rfl, hl⟩ | ⟨-, hold⟩
    · exact h.own k' p (mem_pools.mp (hsub.subset (List.reduceOption_mem_iff.mpr hl)))
    · exact h.own k' p hold
  · intro k'
    by_cases hk' : k' = k
    · rw [hk', hself]
      exact hnull
    · rw [hother k' hk']
      exact h.nullFront k'
  · intro k' p hp
    by_cases hk' : k' = k
    · rw [hk', hself] at hp
      exact h.idle k p (htail p hp)
    · rw [hother k' hk'] at hp
      exact h.idle k' p hp
  · intro p hp
    obtain ⟨k', hat, hne'⟩ := h.used p hp
    refine ⟨k', hat, ?_⟩
    by_cases hk' : k' = k
    · rw [hk', hself]
      exact hne
    · rw [hother k' hk']
      exact hne'

end UnifiedRuntime.LevelZero.EventPool
