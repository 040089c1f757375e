import UnifiedRuntime.Lib.GuardedRuns
import UnifiedRuntime.LevelZero.UsmPoolsInvariant

/-!
# What the pools of the application do

They take their parameters from the settings of the environment, and the query looks at three of
their four maps.

- `Good.step`: one call that meets the condition.
- `usm_pools_right_iff`: which runs are right.
-/

namespace UnifiedRuntime.LevelZero.UsmPools

open Function (update update_of_ne update_self)
open UsmPools.Context
open Pools (MemType PoolConfig)

variable {setup : Setup} {c c' : Context} {kind : MemType} {u : Nat} {handle : Option Nat}
  {h : Nat} {pool : UsmPool} {ptr : Ptr}

/-! ## The query -/

/-- The maps that the query searches. -/
def searched (pool : UsmPool) (u : Nat) : Bool :=
  searchMatchingPool pool.devicePools.deviceMemPools u ||
    searchMatchingPool pool.devicePools.sharedMemPools u || pool.hostMemPool = u

theorem searchMatchingPool_iff (map : PoolMap) (u : Nat) :
    searchMatchingPool map u = true ↔ ∃ device, (device, some u) ∈ map := by
  unfold searchMatchingPool
  rw [List.any_eq_true]
  constructor
  · rintro ⟨⟨device, v⟩, hmem, hv⟩
    obtain rfl : v = some u := of_decide_eq_true hv
    exact ⟨device, hmem⟩
  · rintro ⟨device, hmem⟩
    exact ⟨(device, some u), hmem, decide_eq_true rfl⟩

/-- **Read-only shared memory is not searched for.** -/
theorem searched_iff (pool : UsmPool) (u : Nat) :
    searched pool u = true ↔ ∃ kind, kind ≠ .sharedReadOnly ∧ pool.Has kind u := by
  unfold searched
  rw [Bool.or_eq_true, Bool.or_eq_true, searchMatchingPool_iff, searchMatchingPool_iff,
    decide_eq_true_iff]
  constructor
  · rintro ((hdevice | hshared) | hhost)
    · exact ⟨.device, nofun, hdevice⟩
    · exact ⟨.shared, nofun, hshared⟩
    · exact ⟨.host, nofun, hhost⟩
  · rintro ⟨kind, hkind, hhas⟩
    cases kind with
    | host => exact Or.inr hhas
    | device => exact Or.inl (Or.inl hhas)
    | shared => exact Or.inl (Or.inr hhas)
    | sharedReadOnly => exact absurd rfl hkind

/-- **What the query reports**: the handle that a searched memory pool was made for. -/
theorem Core.allocInfoPool (hc : Core setup c) (hptr : c.umf.byPtr ptr = some u)
    (hpool : pool ∈ c.usmPoolHandles) (hhas : pool.Has kind u) :
    c.allocInfoPool ptr = if kind = .sharedReadOnly then none else some pool.handle := by
  have hmade := (hc.pools pool hpool).made kind u hhas
  have hquery : c.allocInfoPool ptr =
      (c.usmPoolHandles.find? fun pool => searched pool u).map UsmPool.handle := by
    unfold Context.allocInfoPool
    rw [hptr]
    rfl
  -- a pool that has the memory pool has it for this kind, and is this one
  have hsame : ∀ p ∈ c.usmPoolHandles, searched p u = true →
      kind ≠ .sharedReadOnly ∧ p.handle = pool.handle := by
    intro p hp hs
    obtain ⟨kind', hkind', hhas'⟩ := (searched_iff p u).mp hs
    have hmade' := (hc.pools p hp).made kind' u hhas'
    rw [hmade] at hmade'
    obtain ⟨rfl, -, hhandle⟩ := Made.mk.inj (Option.some.inj hmade')
    exact ⟨hkind', (Option.some.inj hhandle).symm⟩
  rw [hquery]
  split
  next hkind =>
    rw [List.find?_eq_none.mpr fun p hp hs => (hsame p hp hs).1 hkind]
    rfl
  next hkind =>
    have hfinds : (c.usmPoolHandles.find? fun pool => searched pool u).isSome := by
      rw [List.find?_isSome]
      exact ⟨pool, hpool, (searched_iff pool u).mpr ⟨kind, hkind, hhas⟩⟩
    obtain ⟨p, hp⟩ := Option.isSome_iff_exists.mp hfinds
    rw [hp, Option.map_some,
      (hsame p (List.mem_of_find?_eq_some hp) (List.find?_some (p := fun pool => searched pool u) hp)).2]

/-- **Memory from a proxy pool** is not reported to be from any pool of the application. -/
theorem Core.allocInfoPool_proxy (hc : Core setup c) (hu : Proxy c u)
    (hptr : c.umf.byPtr ptr = some u) : c.allocInfoPool ptr = none := by
  have hnone : c.usmPoolHandles.find? (fun pool => searched pool u) = none :=
    List.find?_eq_none.mpr fun p hp hs => by
      obtain ⟨kind, -, hhas⟩ := (searched_iff p u).mp hs
      cases (hc.proxies u hu).2 _ ((hc.pools p hp).made kind u hhas)
  unfold Context.allocInfoPool
  rw [hptr]
  show (c.usmPoolHandles.find? fun pool => searched pool u).map UsmPool.handle = none
  rw [hnone, Option.map_none]

/-! ## Calls that meet the condition -/

/-- **What holds in a run that is right**: memory pools have the limits of the chain, and pointers
are from memory pools that the query searches. -/
structure Good (setup : Setup) (c : Context) : Prop where
  limits : ∀ pool ∈ c.usmPoolHandles, ∀ limits, lastLimits pool.chain = some limits →
    ∀ kind u, pool.Has kind u → HasLimits (setup.disjointPoolConfigInstance kind) limits
  through : ∀ ptr h, c.through ptr = some h → ∃ pool ∈ c.usmPoolHandles, pool.handle = h ∧
    ∃ kind u, kind ≠ .sharedReadOnly ∧ pool.Has kind u ∧ c.umf.byPtr ptr = some u

theorem Good.init (setup : Setup) : Good setup (initializePools setup) := by
  have hb := Base.initializePools setup
  refine ⟨fun pool hpool => ?_, fun ptr h hthrough => ?_⟩
  · rw [hb.usmPoolHandles] at hpool
    cases hpool
  · rw [hb.through] at hthrough
    cases hthrough

/-- Every pool is still there after a call that changes one. -/
theorem Core.kept (hc : Core setup c) {p pool' : UsmPool} (hpool : pool ∈ c.usmPoolHandles)
    (hsame : SamePool pool pool') (hp : p ∈ c.usmPoolHandles) :
    ∃ p' ∈ (c.setPool pool').usmPoolHandles, p'.handle = p.handle ∧
      ∀ kind u, p'.Has kind u ↔ p.Has kind u := by
  by_cases heq : p.handle = pool'.handle
  · obtain rfl := hc.unique p hp pool hpool (heq.trans hsame.handle)
    exact ⟨pool', List.mem_map.mpr ⟨p, hp, if_pos heq⟩, heq.symm, hsame.has⟩
  · exact ⟨p, List.mem_map.mpr ⟨p, hp, if_neg heq⟩, rfl, fun _ _ => Iff.rfl⟩

theorem Good.setPool (hg : Good setup c) {pool' : UsmPool} (hc : Core setup c)
    (hpool : pool ∈ c.usmPoolHandles) (hsame : SamePool pool pool') :
    Good setup (c.setPool pool') where
  limits := fun p hp limits hlimits kind u hhas => by
    rcases mem_setPool hp with rfl | ⟨hold, -⟩
    · rw [hsame.chain] at hlimits
      exact hg.limits pool hpool limits hlimits kind u ((hsame.has kind u).mp hhas)
    · exact hg.limits p hold limits hlimits kind u hhas
  through := fun ptr h hthrough => by
    obtain ⟨p, hp, hph, kind, u, hkind, hhas, hptr⟩ := hg.through ptr h hthrough
    obtain ⟨p', hp', hph', hsame'⟩ := hc.kept hpool hsame hp
    exact ⟨p', hp', hph'.trans hph, kind, u, hkind, (hsame' kind u).mpr hhas, hptr⟩

theorem Good.create (hg : Good setup c) (hc : Core setup c) {zeroInit : Bool}
    {chain : List (Option (Nat × Nat))} (hfine : Fine setup (.create zeroInit chain)) :
    Good setup (c.urUSMPoolCreate setup zeroInit chain) := by
  by_cases hchain : readChain setup.disjointPoolConfigInstance chain = none
  · unfold urUSMPoolCreate
    rw [hchain]
    exact hg
  · obtain ⟨pool, umf, hnew, hpc, heq⟩ := created_of_create hc.fresh zeroInit hchain
    rw [heq]
    refine ⟨fun p hp limits hlimits kind u hhas => ?_, fun ptr h hthrough => ?_⟩
    · rcases List.mem_append.mp hp with hold | hmem
      · exact hg.limits p hold limits hlimits kind u hhas
      · obtain rfl := List.mem_singleton.mp hmem
        rw [hpc] at hlimits
        exact hfine hchain limits hlimits kind (hnew.devices kind u hhas)
    · obtain ⟨p, hp, hph, kind, u, hkind, hhas, hptr⟩ := hg.through ptr h hthrough
      refine ⟨p, List.mem_append_left _ hp, hph, kind, u, hkind, hhas, ?_⟩
      show umf.byPtr ptr = some u
      rw [hnew.byPtr]
      exact hptr

theorem Good.release (hg : Good setup c) (hc : Core setup c) (h : Nat) :
    Good setup (c.urUSMPoolRelease h) := by
  unfold urUSMPoolRelease
  split
  next => exact hg
  next pool hpool =>
    split
    · refine ⟨fun p hp limits hlimits kind u hhas =>
        hg.limits p (List.mem_filter.mp hp).1 limits hlimits kind u hhas,
        fun ptr h' hthrough => ?_⟩
      have hthrough : (if c.isFrom h ptr then none else c.through ptr) = some h' := hthrough
      split at hthrough
      · cases hthrough
      next hfrom =>
        obtain ⟨p, hp, hph, kind, u, hkind, hhas, hptr⟩ := hg.through ptr h' hthrough
        -- the pointer is another pool's
        have hne : p.handle ≠ h := by
          intro heq
          refine hfrom ?_
          unfold Context.isFrom
          rw [hptr]
          dsimp only
          rw [(hc.pools p hp).made kind u hhas, heq]
          exact decide_eq_true rfl
        refine ⟨p, List.mem_filter.mpr ⟨hp, decide_eq_true hne⟩, hph, kind, u, hkind, hhas, ?_⟩
        show (if c.isFrom h ptr then none else c.umf.byPtr ptr) = some u
        rw [if_neg hfrom]
        exact hptr
    · exact hg.setPool hc (pool?_mem hpool).1 ⟨rfl, rfl, fun _ _ => Iff.rfl, fun _ _ => rfl⟩

/-- The memory pool that a lookup finds in a pool of the application. -/
theorem found_has {device : Device} (huse : setup.useUSMAllocator = true)
    (hpool : c.pool? h = some pool)
    (hfound : hPoolInternal setup c kind device (some h) = some (c', some u)) :
    pool.Has kind u ∧ (kind ≠ .host → pool.devicePools.get kind device = some u) := by
  by_cases hkind : kind = .host
  · subst hkind
    unfold hPoolInternal at hfound
    rw [huse] at hfound
    dsimp only at hfound
    rw [hpool] at hfound
    exact ⟨Option.some.inj (Prod.mk.inj (Option.some.inj hfound)).2,
      fun hne => absurd rfl hne⟩
  · rw [hPoolInternal_pool huse hkind hpool] at hfound
    have hget := (Prod.mk.inj (Option.some.inj hfound)).2
    refine ⟨?_, fun _ => hget⟩
    have hmem := mem_of_get hget
    cases kind with
    | host => exact absurd rfl hkind
    | device => exact ⟨device, hmem⟩
    | shared => exact ⟨device, hmem⟩
    | sharedReadOnly => exact ⟨device, hmem⟩

variable {desc : Option UsmDesc} {answer : Option Ptr}

theorem Good.alloc (hg : Good setup c) (hc : Core setup c) {entry : Entry}
    (hallowed : Allowed c (.alloc entry desc handle answer))
    (hfine : Fine setup (.alloc entry desc handle answer)) :
    Good setup (c.alloc setup (entry.kind desc) entry.on desc handle answer) := by
  rcases alloc_cases entry.on desc answer with hsame | ⟨c', v, halign, hfound, hcases⟩
  · rw [hsame]
    exact hg
  · have hg' : Good setup c' := by
      rcases hPoolInternal_same hfound with rfl | ⟨pool, pool', hpool, hsame, rfl⟩
      · exact hg
      · exact hg.setPool hc hpool hsame
    rcases hcases with ⟨heq, -⟩ | ⟨u, ptr, rfl, rfl, heq⟩
    · rw [heq]
      exact hg'
    · rw [heq]
      refine ⟨hg'.limits, fun ptr' h hthrough => ?_⟩
      have hthrough : update c'.through ptr handle ptr' = some h := hthrough
      by_cases hptr : ptr' = ptr
      · subst hptr
        rw [update_self] at hthrough
        subst hthrough
        have hfine := hfine rfl halign
        cases huse : setup.useUSMAllocator with
        | false =>
          -- the condition leaves no memory to the proxy pools
          obtain ⟨rfl, -⟩ := proxy_of_found huse hfound
          rw [huse] at hfine
          cases hfine ((hc.finds_proxy huse entry.on).mpr ⟨u, hfound⟩)
        | true =>
          rw [if_pos huse] at hfine
          obtain ⟨pool, hpool⟩ := Option.isSome_iff_exists.mp (hallowed.1 h rfl)
          obtain ⟨hmem, hph⟩ := pool?_mem hpool
          obtain ⟨hhas, hget⟩ := found_has huse hpool hfound
          have hkind : entry.kind desc ≠ .sharedReadOnly := by
            intro hro
            have hhost : entry.kind desc ≠ .host := by
              rw [hro]
              nofun
            have hdevice := ((hc.pools pool hmem).get _ hhost entry.on).mpr ⟨u, hget hhost⟩
            cases (hfine hhost).2 hro hdevice
          obtain ⟨p, hp, hpp, hsame⟩ : ∃ p ∈ c'.usmPoolHandles, p.handle = pool.handle ∧
              ∀ kind u, p.Has kind u ↔ pool.Has kind u := by
            rcases hPoolInternal_same hfound with rfl | ⟨pool₁, pool', hpool₁, hsame₁, rfl⟩
            · exact ⟨pool, hmem, rfl, fun _ _ => Iff.rfl⟩
            · exact hc.kept hpool₁ hsame₁ hmem
          exact ⟨p, hp, hpp.trans hph, _, u, hkind, (hsame _ u).mpr hhas,
            update_self _ _ _⟩
      · rw [update_of_ne hptr] at hthrough
        obtain ⟨p, hp, hph, kind, u', hkind, hhas, hbyPtr⟩ := hg'.through ptr' h hthrough
        refine ⟨p, hp, hph, kind, u', hkind, hhas, ?_⟩
        show update c'.umf.byPtr ptr (some u) ptr' = some u'
        rw [update_of_ne hptr]
        exact hbyPtr

theorem Good.free (hg : Good setup c) (ptr : Ptr) : Good setup (c.urUSMFree ptr) := by
  unfold urUSMFree
  split
  next => exact hg
  next =>
    refine ⟨hg.limits, fun ptr' h hthrough => ?_⟩
    have hthrough : update c.through ptr none ptr' = some h := hthrough
    by_cases hptr : ptr' = ptr
    · subst hptr
      rw [update_self] at hthrough
      cases hthrough
    · rw [update_of_ne hptr] at hthrough
      obtain ⟨p, hp, hph, kind, u, hkind, hhas, hbyPtr⟩ := hg.through ptr' h hthrough
      refine ⟨p, hp, hph, kind, u, hkind, hhas, ?_⟩
      show update c.umf.byPtr ptr none ptr' = some u
      rw [update_of_ne hptr]
      exact hbyPtr

/-- **One call** that meets the condition. -/
theorem Good.step (hg : Good setup c) (hc : Core setup c) : ∀ (call : Call), Allowed c call →
    Fine setup call → Good setup (step setup c call)
  | .create _ _, _, hfine => hg.create hc hfine
  | .retain h, _, _ => by
    show Good setup (c.urUSMPoolRetain h)
    unfold urUSMPoolRetain
    split
    next => exact hg
    next pool hpool =>
      exact hg.setPool hc (pool?_mem hpool).1 ⟨rfl, rfl, fun _ _ => Iff.rfl, fun _ _ => rfl⟩
  | .release h, _, _ => hg.release hc h
  | .alloc _ _ _ _, hallowed, hfine => hg.alloc hc hallowed hfine
  | .free ptr, _, _ => hg.free ptr

/-! ## Which calls are right -/

/-- An allocation that meets the condition finds a memory pool where the context's own work. -/
theorem Core.covers (hc : Core setup c) {entry : Entry}
    (hallowed : Allowed c (.alloc entry desc (some h) answer))
    (hfine : setup.useUSMAllocator = true → entry.kind desc ≠ .host →
      setup.Covered entry.on → entry.on ∈ setup.Devices)
    (hfinds : Finds setup c (entry.kind desc) entry.on none) :
    Finds setup c (entry.kind desc) entry.on (some h) := by
  obtain ⟨pool, hpool⟩ := Option.isSome_iff_exists.mp (hallowed.1 h rfl)
  cases huse : setup.useUSMAllocator with
  | false =>
    obtain ⟨c', u, hfound⟩ := hfinds
    refine ⟨c', u, ?_⟩
    unfold hPoolInternal at hfound ⊢
    rw [huse] at hfound ⊢
    exact hfound
  | true =>
    by_cases hkind : entry.kind desc = .host
    · refine ⟨c, pool.hostMemPool, ?_⟩
      unfold hPoolInternal
      rw [huse, hkind]
      dsimp only
      rw [hpool]
      rfl
    · rw [hc.finds_some huse hkind hpool]
      exact hfine huse hkind ((hc.finds_none huse hkind entry.on).mp hfinds)

/-- **A call that meets the condition is right.** -/
theorem right_of_fine (hc : Core setup c) (hg : Good setup c) {call : Call}
    (hallowed : Allowed c call) (hfine : Fine setup call) : Right setup c call := by
  have hc' := hc.step call
  have hg' := hg.step hc call hallowed hfine
  refine ⟨fun entry desc h answer hcall halign hfinds => ?_,
    fun pool hpool kind u hhas limits hlimits => ?_, fun ptr h hthrough => ?_⟩
  · subst hcall
    refine hc.covers hallowed (fun huse hkind => ?_) hfinds
    have hfine := hfine rfl halign
    rw [if_pos huse] at hfine
    exact (hfine hkind).1
  · exact ⟨_, _, (hc'.pools pool hpool).made kind u hhas, rfl,
      hg'.limits pool hpool limits hlimits kind u hhas⟩
  · obtain ⟨pool, hpool, hph, kind, u, hkind, hhas, hptr⟩ := hg'.through ptr h hthrough
    rw [hc'.allocInfoPool hptr hpool hhas, if_neg hkind, hph]

/-- A pool that is created has pools of every kind, those for devices if there are any. -/
theorem has_of_inv {umf : Umf} (hp : PoolInv setup umf pool)
    (hkind : kind = .host ∨ setup.devices ≠ []) : ∃ u, pool.Has kind u := by
  by_cases hhost : kind = .host
  · subst hhost
    exact ⟨pool.hostMemPool, rfl⟩
  · obtain ⟨t, ts, hts⟩ := List.exists_cons_of_ne_nil (hkind.resolve_left hhost)
    have hmem : t.device ∈ setup.Devices := by
      unfold Setup.Devices
      rw [hts]
      exact List.mem_cons_self
    obtain ⟨u, hu⟩ := (hp.get kind hhost t.device).mp hmem
    refine ⟨u, ?_⟩
    have hin := mem_of_get hu
    cases kind with
    | host => exact absurd rfl hhost
    | device => exact ⟨t.device, hin⟩
    | shared => exact ⟨t.device, hin⟩
    | sharedReadOnly => exact ⟨t.device, hin⟩

/-- **Where the allocator is on**, an allocation that is right is on a device that the context was
created with, and gives out no read-only shared memory. -/
theorem Right.alloc {entry : Entry}
    (hright : Right setup c (.alloc entry desc (some h) answer)) (hc : Core setup c)
    (hallowed : Allowed c (.alloc entry desc (some h) answer))
    (huse : setup.useUSMAllocator = true) (halign : alignmentOk desc = true)
    (hhost : entry.kind desc ≠ .host) :
    (setup.Covered entry.on → entry.on ∈ setup.Devices) ∧
      (entry.kind desc = .sharedReadOnly → entry.on ∈ setup.Devices → answer = none) := by
  obtain ⟨pool, hpool⟩ := Option.isSome_iff_exists.mp (hallowed.1 h rfl)
  obtain ⟨hmem, hph⟩ := pool?_mem hpool
  constructor
  · intro hcovered
    have hfinds := hright.covers entry desc h answer rfl halign
      ((hc.finds_none huse hhost entry.on).mpr hcovered)
    exact (hc.finds_some huse hhost hpool entry.on).mp hfinds
  · intro hro hdevice
    by_contra hanswer
    obtain ⟨ptr, rfl⟩ := Option.ne_none_iff_exists'.mp hanswer
    obtain ⟨u, hget⟩ := ((hc.pools pool hmem).get _ hhost entry.on).mp hdevice
    have hstep : step setup c (.alloc entry desc (some h) (some ptr)) =
        { c.setPool { pool with
            devicePools := pool.devicePools.index (entry.kind desc) entry.on } with
          umf := { c.umf with byPtr := update c.umf.byPtr ptr (some u) }
          through := update c.through ptr (some h) } := by
      show c.alloc setup (entry.kind desc) entry.on desc (some h) (some ptr) = _
      unfold Context.alloc
      rw [halign, hPoolInternal_pool huse hhost hpool, hget]
      rfl
    have hc' := hc.step (.alloc entry desc (some h) (some ptr))
    have hreports := hright.reports ptr h (by rw [hstep]; exact update_self _ _ _)
    -- the memory pool is one that the query does not search
    have hsame := SamePool.index pool (entry.kind desc) entry.on
    have hin : { pool with devicePools := pool.devicePools.index (entry.kind desc) entry.on } ∈
        (step setup c (.alloc entry desc (some h) (some ptr))).usmPoolHandles := by
      rw [hstep]
      exact List.mem_map.mpr ⟨pool, hmem, if_pos rfl⟩
    have hhas : pool.Has (entry.kind desc) u := by
      rw [hro] at hget ⊢
      exact ⟨entry.on, mem_of_get hget⟩
    rw [hc'.allocInfoPool (by rw [hstep]; exact update_self _ _ _) hin
      ((hsame.has _ u).mpr hhas), if_pos hro] at hreports
    cases hreports

/-- **Where the allocator is off**, an allocation from a pool that is right gives out nothing. -/
theorem Right.proxy {entry : Entry}
    (hright : Right setup c (.alloc entry desc (some h) answer)) (hc : Core setup c)
    (huse : setup.useUSMAllocator = false) (halign : alignmentOk desc = true)
    (hon : entry.kind desc = .host ∨ setup.Covered entry.on) : answer = none := by
  obtain ⟨u, hfound⟩ : ∃ u, hPoolInternal setup c (entry.kind desc) entry.on (some h) =
      some (c, some u) := (hc.finds_proxy huse entry.on).mp hon
  cases answer with
  | none => rfl
  | some ptr =>
    have hstep : step setup c (.alloc entry desc (some h) (some ptr)) =
        { c with
          umf := { c.umf with byPtr := update c.umf.byPtr ptr (some u) }
          through := update c.through ptr (some h) } := by
      show c.alloc setup (entry.kind desc) entry.on desc (some h) (some ptr) = _
      unfold Context.alloc
      rw [halign, hfound]
      rfl
    have hreports := hright.reports ptr h (by rw [hstep]; exact update_self ..)
    have hc' := hc.step (.alloc entry desc (some h) (some ptr))
    rw [hstep] at hc' hreports
    rw [hc'.allocInfoPool_proxy (proxy_of_found huse hfound).2 (update_self ..)]
      at hreports
    cases hreports

/-- **A call that is right meets the condition.** -/
theorem fine_of_right (hc : Core setup c) {call : Call} (hallowed : Allowed c call)
    (hright : Right setup c call) : Fine setup call := by
  cases call with
  | create zeroInit chain =>
    intro hchain limits hlimits kind hkind
    obtain ⟨pool, umf, hnew, hpc, heq⟩ := created_of_create hc.fresh zeroInit hchain
    have hmem : pool ∈ (step setup c (.create zeroInit chain)).usmPoolHandles := by
      show pool ∈ (c.urUSMPoolCreate setup zeroInit chain).usmPoolHandles
      rw [heq]
      exact List.mem_append_right _ List.mem_cons_self
    obtain ⟨u, hhas⟩ := has_of_inv hnew.inv hkind
    obtain ⟨made, config, hmade, hconfig, hhl⟩ := hright.configured pool hmem kind u hhas limits
      (by rw [hpc]; exact hlimits)
    have hmade' := ((hc.step _).pools pool hmem).made kind u hhas
    rw [hmade] at hmade'
    obtain rfl := Option.some.inj hmade'
    obtain rfl : setup.disjointPoolConfigInstance kind = config := Option.some.inj hconfig
    exact hhl
  | retain h => trivial
  | release h => trivial
  | free ptr => trivial
  | alloc entry desc handle answer =>
    intro hhandle halign
    obtain ⟨h, rfl⟩ := Option.isSome_iff_exists.mp hhandle
    split
    next huse =>
      exact hright.alloc hc hallowed huse halign
    next huse => exact hright.proxy hc (Bool.eq_false_of_not_eq_true huse) halign

/-! ## Runs -/

/-- **Which runs are right**: those whose calls all meet the condition. -/
theorem usm_pools_right_iff (setup : Setup) (calls : List Call)
    (hallowed : Along (step setup) Allowed (initializePools setup) calls) :
    Along (step setup) (Right setup) (initializePools setup) calls ↔
      Along (step setup) (fun _ => Fine setup) (initializePools setup) calls :=
  along_iff (fun c _ (hinv : Core setup c ∧ Good setup c) hallowed =>
      ⟨fun hright => fine_of_right hinv.1 hallowed hright,
        fun hfine => right_of_fine hinv.1 hinv.2 hallowed hfine⟩)
    (fun _ call hinv hallowed hfine =>
      ⟨hinv.1.step call, hinv.2.step hinv.1 call hallowed hfine⟩)
    ⟨Core.init setup, Good.init setup⟩ hallowed

/-- A device with one sub-device, and the settings that are used without any in the
environment. -/
def twoDevices : Setup := ⟨[.node 0 [.node 1 []]], none, id, Pools.defaultConfigs 0, true⟩

/-- Memory of three kinds from a pool without limits. -/
def threeKinds : List Call :=
  [.create false [], .alloc (.device 0) none (some 0) (some 100), .alloc .host none (some 0) (some 101),
    .alloc (.shared 0) none (some 0) (some 102), .retain 0, .free 100, .release 0]

theorem usm_pools_right_iff_three :
    Along (step twoDevices) (Right twoDevices) (initializePools twoDevices) threeKinds := by
  have hallowed : Along (step twoDevices) Allowed (initializePools twoDevices) threeKinds := by
    refine ⟨trivial, ⟨fun h heq => ?_, fun _ _ => rfl⟩, ⟨fun h heq => ?_, fun ptr heq => ?_⟩,
      ⟨fun h heq => ?_, fun ptr heq => ?_⟩, rfl, trivial, rfl, trivial⟩
    · obtain rfl := Option.some.inj heq
      rfl
    · obtain rfl := Option.some.inj heq
      rfl
    · obtain rfl := Option.some.inj heq
      rfl
    · obtain rfl := Option.some.inj heq
      rfl
    · obtain rfl := Option.some.inj heq
      rfl
  refine (usm_pools_right_iff twoDevices threeKinds hallowed).mpr ⟨fun _ limits hlimits => ?_,
    fun _ _ _ => ⟨fun _ => ?_, nofun⟩, fun _ _ hhost => absurd rfl hhost,
    fun _ _ _ => ⟨fun _ => ?_, nofun⟩, trivial, trivial, trivial, trivial⟩
  · cases hlimits
  · exact List.mem_cons_self
  · exact List.mem_cons_self

/-- An allocation on a sub-device. -/
def onSubDevice : List Call := [.create false [], .alloc (.device 1) none (some 0) none]

/-- A pool with limits. -/
def withLimits : List Call := [.create false [some (4096, 65536)]]

/-- Shared memory that the device only reads. -/
def readOnlyShared : List Call :=
  [.create false [], .alloc (.shared 0) (some ⟨0, [deviceReadOnlyFlag]⟩) (some 0) (some 100)]

/-- Memory for the host, while the allocator is off. -/
def hostMemory : List Call := [.create false [], .alloc .host none (some 0) (some 100)]

/-- On a sub-device there is no memory pool, the limits of the chain are not used, and the pool
is not reported of read-only shared memory, nor of any while the allocator is off. -/
theorem usm_pools_wrong :
    (Along (step twoDevices) Allowed (initializePools twoDevices) onSubDevice ∧
      ¬ Along (step twoDevices) (Right twoDevices) (initializePools twoDevices) onSubDevice) ∧
    (Along (step twoDevices) Allowed (initializePools twoDevices) withLimits ∧
      ¬ Along (step twoDevices) (Right twoDevices) (initializePools twoDevices) withLimits) ∧
    (Along (step twoDevices) Allowed (initializePools twoDevices) readOnlyShared ∧
      ¬ Along (step twoDevices) (Right twoDevices) (initializePools twoDevices)
        readOnlyShared) ∧
    Along (step { twoDevices with useUSMAllocator := false }) Allowed
        (initializePools { twoDevices with useUSMAllocator := false }) hostMemory ∧
      ¬ Along (step { twoDevices with useUSMAllocator := false })
        (Right { twoDevices with useUSMAllocator := false })
        (initializePools { twoDevices with useUSMAllocator := false }) hostMemory := by
  refine ⟨⟨⟨trivial, ⟨fun h heq => ?_, fun _ _ => rfl⟩, trivial⟩, fun hright => ?_⟩,
    ⟨⟨trivial, trivial⟩, fun hright => ?_⟩,
    ⟨⟨trivial, ⟨fun h heq => ?_, fun _ _ => rfl⟩, trivial⟩, fun hright => ?_⟩,
    ⟨trivial, ⟨fun h heq => ?_, fun _ _ => rfl⟩, trivial⟩, fun hright => ?_⟩
  · obtain rfl := Option.some.inj heq
    rfl
  · obtain ⟨c', u, hfound⟩ := hright.2.1.covers (.device 1) none 0 none rfl rfl ⟨_, _, rfl⟩
    cases (Prod.mk.inj (Option.some.inj hfound)).2
  · obtain ⟨made, config, hmade, hconfig, hlimits⟩ :=
      hright.1.configured _ List.mem_cons_self .host _ rfl (4096, 65536) rfl
    obtain rfl := Option.some.inj hmade
    obtain rfl := Option.some.inj hconfig
    exact absurd hlimits.1 (by decide)
  · obtain rfl := Option.some.inj heq
    rfl
  · have hreports := hright.2.1.reports 100 0 rfl
    exact absurd hreports (by decide)
  · obtain rfl := Option.some.inj heq
    rfl
  · have hreports := hright.2.1.reports 100 0 rfl
    exact absurd hreports (by decide)

end UnifiedRuntime.LevelZero.UsmPools
