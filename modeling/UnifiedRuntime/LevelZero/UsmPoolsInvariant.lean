import UnifiedRuntime.LevelZero.UsmPools

/-!
# What the USM pools are made for

The pools of a context reach the whole device trees, those of the application only the devices
that the context was created with.

- `Serves.add`: pools for one more device.
- `Base.initializePools`, `created_of_create`: the pools of a context, and of the application.
- `Core.finds_none`, `Core.finds_some`: where they work.
- `Core.step`: what every call keeps.
-/

namespace UnifiedRuntime.LevelZero.UsmPools

open Function (update update_of_ne update_self)
open UsmPools.Context
open Pools (MemType PoolConfig)
open Assoc (emplace lookup_emplace_self lookup_emplace_of_ne mem_emplace subset_emplace
  mem_of_lookup)

variable {setup : Setup} {c c' : Context} {umf : Umf} {pools : DevicePools} {kind : MemType}
  {key : Device} {u : Nat} {handle : Option Nat} {h : Nat}
  {config : MemType → Option PoolConfig} {pool : UsmPool} {ptr : Ptr}

/-! ## Pools for a device -/

/-- Which of the pools for a device the one for memory of a kind is. -/
def offset : MemType → Nat
  | .host => 0
  | .device => 0
  | .shared => 1
  | .sharedReadOnly => 2

theorem add_map (hkind : kind ≠ .host) : (pools.add umf key config handle).1.map kind =
    emplace (pools.map kind) key (some (umf.next + offset kind)) := by
  cases kind with
  | host => exact absurd rfl hkind
  | device => rfl
  | shared => rfl
  | sharedReadOnly => rfl

theorem add_next : (pools.add umf key config handle).2.next = umf.next + 3 := rfl

/-- What the pools for a device are made for; the others are as they were. -/
theorem add_made (hkind : kind ≠ .host) :
    (pools.add umf key config handle).2.made (umf.next + offset kind) =
      some ⟨kind, config kind, handle⟩ := by
  unfold DevicePools.add Umf.make
  dsimp only
  cases kind with
  | host => exact absurd rfl hkind
  | device =>
    show update _ _ _ umf.next = _
    rw [update_of_ne (by omega), update_of_ne (by omega), update_self]
  | shared =>
    show update _ _ _ (umf.next + 1) = _
    rw [update_of_ne (by omega), update_self]
  | sharedReadOnly =>
    show update _ _ _ (umf.next + 1 + 1) = _
    rw [update_self]

theorem add_other (hu : u < umf.next ∨ umf.next + 3 ≤ u) :
    (pools.add umf key config handle).2.made u = umf.made u := by
  unfold DevicePools.add Umf.make
  dsimp only
  rw [update_of_ne (by omega), update_of_ne (by omega),
    update_of_ne (by omega)]

theorem offset_lt (kind : MemType) : offset kind < 3 := by cases kind <;> decide

/-- The pools in the maps are those that were there and those that have just been made. -/
theorem add_mem {key' : Device}
    (hmem : (key', some u) ∈ (pools.add umf key config handle).1.map kind) :
    (key', some u) ∈ pools.map kind ∨ u < umf.next + 3 := by
  by_cases hkind : kind = .host
  · subst hkind
    cases hmem
  · rw [add_map hkind] at hmem
    rcases mem_emplace hmem with hold | hnew
    · exact Or.inl hold
    · obtain ⟨-, hu⟩ := Prod.mk.inj hnew
      obtain rfl := Option.some.inj hu
      have hoffset := offset_lt kind
      exact Or.inr (by omega)

/-- No pool was made for a handle of the application. -/
def Umf.Unowned (umf : Umf) : Prop := ∀ u made, umf.made u = some made → made.handle = none

theorem Umf.Unowned.make (h : umf.Unowned) {m : Made} (hm : m.handle = none) :
    (umf.make m).Unowned := fun u made hmade => by
  have hmade : update umf.made umf.next (some m) u = some made := hmade
  by_cases hu : u = umf.next
  · subst hu
    rw [update_self] at hmade
    rw [← Option.some.inj hmade]
    exact hm
  · rw [update_of_ne hu] at hmade
    exact h u made hmade

/-- What is found in a map is in it. -/
theorem mem_of_get (hget : pools.get kind key = some u) : (key, some u) ∈ pools.map kind := by
  exact mem_of_lookup (Option.join_eq_some_iff.mp hget)

/-- The maps have pools for some keys, and entries without a pool for none. -/
structure Serves (pools : DevicePools) (keys : Set Device) : Prop where
  full : ∀ kind key, (pools.map kind).lookup key ≠ some none
  get : ∀ kind, kind ≠ .host → ∀ key, key ∈ keys ↔ ∃ u, pools.get kind key = some u

theorem Serves.empty : Serves .empty ∅ where
  full := fun kind key => by cases kind <;> nofun
  get := fun kind hkind key => by
    refine ⟨fun hmem => hmem.elim, fun ⟨u, hu⟩ => ?_⟩
    cases kind <;> cases hu

/-- **Pools for one more device.** -/
theorem Serves.add {keys : Set Device} (hs : Serves pools keys) (umf : Umf) (key : Device)
    (config : MemType → Option PoolConfig) (handle : Option Nat) :
    Serves (pools.add umf key config handle).1 (insert key keys) where
  full := fun kind key' => by
    by_cases hkind : kind = .host
    · subst hkind
      nofun
    · rw [add_map hkind]
      by_cases hkey : key' = key
      · subst hkey
        rw [lookup_emplace_self]
        have hfull := hs.full kind key'
        cases hl : (pools.map kind).lookup key' with
        | none => nofun
        | some v =>
          cases v with
          | none => exact absurd hl hfull
          | some u => nofun
      · rw [lookup_emplace_of_ne hkey]
        exact hs.full kind key'
  get := fun kind hkind key' => by
    have hget : (pools.add umf key config handle).1.get kind key' =
        ((emplace (pools.map kind) key (some (umf.next + offset kind))).lookup key').join := by
      unfold DevicePools.get
      rw [add_map hkind]
    rw [hget]
    by_cases hkey : key' = key
    · subst hkey
      refine ⟨fun _ => ?_, fun _ => Set.mem_insert _ _⟩
      rw [lookup_emplace_self]
      have hfull := hs.full kind key'
      cases hl : (pools.map kind).lookup key' with
      | none => exact ⟨_, rfl⟩
      | some v =>
        cases v with
        | none => exact absurd hl hfull
        | some u => exact ⟨u, rfl⟩
    · rw [lookup_emplace_of_ne hkey, Set.mem_insert_iff, or_iff_right hkey]
      exact hs.get kind hkind key'

/-- What is found is what is there. -/
theorem Serves.lookup {keys : Set Device} (hs : Serves pools keys) (hkind : kind ≠ .host) :
    key ∈ keys ↔ ∃ u, (pools.map kind).lookup key = some (some u) := by
  rw [hs.get kind hkind key]
  exact exists_congr fun u => Option.join_eq_some_iff

/-! ## The pools of a context -/

/-- The context has pools for the keys, and none of the application's. -/
structure Base (c : Context) (keys : Set Device) : Prop where
  memPools : Serves c.memPools keys
  memProxyPools : Serves c.memProxyPools keys
  fresh : ∀ u, c.umf.next ≤ u → c.umf.made u = none
  usmPoolHandles : c.usmPoolHandles = []
  through : ∀ ptr, c.through ptr = none
  proxies : ∀ kind key u, (key, some u) ∈ c.memProxyPools.map kind → u < c.umf.next
  unowned : c.umf.Unowned

theorem Base.blank : Base blank ∅ :=
  ⟨.empty, .empty, fun _ _ => rfl, rfl, fun _ => rfl,
    fun kind _ _ hmem => (by cases kind <;> cases hmem), nofun⟩

/-- The keys of some devices. -/
def keysOf (setup : Setup) (devices : List Device) : Set Device :=
  {key | ∃ d ∈ devices, setup.zeDevice d = key}

theorem keysOf_cons (d : Device) (devices : List Device) :
    keysOf setup (d :: devices) = insert (setup.zeDevice d) (keysOf setup devices) := by
  ext key
  constructor
  · rintro ⟨d', hd', rfl⟩
    rcases List.mem_cons.mp hd' with rfl | hd'
    · exact Set.mem_insert _ _
    · exact Set.mem_insert_of_mem _ ⟨d', hd', rfl⟩
  · intro hkey
    rcases Set.mem_insert_iff.mp hkey with rfl | ⟨d', hd', rfl⟩
    · exact ⟨d, List.mem_cons_self, rfl⟩
    · exact ⟨d', List.mem_cons_of_mem _ hd', rfl⟩

theorem keysOf_append (l l' : List Device) :
    keysOf setup (l ++ l') = keysOf setup l ∪ keysOf setup l' := by
  ext key
  constructor
  · rintro ⟨d, hd, rfl⟩
    exact (List.mem_append.mp hd).imp (fun hd => ⟨d, hd, rfl⟩) fun hd => ⟨d, hd, rfl⟩
  · rintro (⟨d, hd, rfl⟩ | ⟨d, hd, rfl⟩)
    · exact ⟨d, List.mem_append_left _ hd, rfl⟩
    · exact ⟨d, List.mem_append_right _ hd, rfl⟩

variable {keys : Set Device}

theorem umf_createUSMAllocators (d : Device) : (c.createUSMAllocators setup d).umf =
    (c.memProxyPools.add (c.memPools.add c.umf (setup.zeDevice d) (configOf setup) none).2
      (setup.zeDevice d) (fun _ => none) none).2 := rfl

theorem Base.device (hb : Base c keys) (setup : Setup) (d : Device) :
    Base (c.createUSMAllocators setup d) (insert (setup.zeDevice d) keys) :=
  ⟨hb.memPools.add _ _ (configOf setup) none, hb.memProxyPools.add _ _ (fun _ => none) none,
    fun u hu => by
    rw [umf_createUSMAllocators, add_next, add_next] at hu
    rw [umf_createUSMAllocators, add_other (Or.inr (by rw [add_next]; omega)),
      add_other (Or.inr (by omega))]
    exact hb.fresh u (by omega), hb.usmPoolHandles, hb.through, fun kind key u hmem => by
    rw [umf_createUSMAllocators, add_next]
    change _ ∈ (c.memProxyPools.add _ _ (fun _ => none) none).1.map kind at hmem
    rcases add_mem hmem with hold | hlt
    · have hold := hb.proxies kind key u hold
      rw [add_next]
      omega
    · exact hlt,
    (((((hb.unowned.make rfl).make rfl).make rfl).make rfl).make rfl).make rfl⟩

theorem Base.tree {d : Device} {subDevices : List DeviceTree} (hb : Base c keys)
    (ih : ∀ {c : Context} {keys : Set Device}, Base c keys →
      Base (createUSMAllocatorsAll setup c subDevices)
        (keysOf setup (allDevices subDevices) ∪ keys)) :
    Base (createUSMAllocatorsRecursive setup c (.node d subDevices))
      (keysOf setup (DeviceTree.node d subDevices).all ∪ keys) := by
  have hkeys : keysOf setup (DeviceTree.node d subDevices).all ∪ keys =
      keysOf setup (allDevices subDevices) ∪ insert (setup.zeDevice d) keys := by
    rw [DeviceTree.all, keysOf_cons, Set.insert_union, Set.union_insert]
  rw [hkeys]
  exact ih (hb.device setup d)

/-- **The context's pools reach all devices** of the trees. -/
theorem Base.trees : ∀ {c : Context} {keys : Set Device}, Base c keys → ∀ ts : List DeviceTree,
    Base (createUSMAllocatorsAll setup c ts) (keysOf setup (allDevices ts) ∪ keys)
  | c, keys, hb, [] => by
    have hkeys : keysOf setup (allDevices []) ∪ keys = keys := by
      ext key
      simp [keysOf, allDevices]
    rw [hkeys]
    exact hb
  | c, keys, hb, .node d subDevices :: ts => by
    have hrest := Base.trees (hb.tree (d := d) fun hb => Base.trees hb subDevices) ts
    have hkeys : keysOf setup (allDevices (.node d subDevices :: ts)) ∪ keys =
        keysOf setup (allDevices ts) ∪
          (keysOf setup (DeviceTree.node d subDevices).all ∪ keys) := by
      rw [show allDevices (.node d subDevices :: ts) =
          (DeviceTree.node d subDevices).all ++ allDevices ts from rfl, keysOf_append,
        Set.union_comm (keysOf setup (DeviceTree.node d subDevices).all), Set.union_assoc]
    rw [hkeys]
    exact hrest

theorem Base.host (hb : Base c keys) : Base (c.createHostPools setup) keys :=
  ⟨hb.memPools, hb.memProxyPools, fun u hu => by
    have hnext : c.umf.next + 1 + 1 ≤ u := hu
    show update (update c.umf.made c.umf.next _) (c.umf.next + 1) _ u = none
    rw [update_of_ne (by omega), update_of_ne (by omega)]
    exact hb.fresh u (by omega), hb.usmPoolHandles, hb.through,
    fun kind key u hmem => Nat.lt_add_right 2 (hb.proxies kind key u hmem),
    (hb.unowned.make rfl).make rfl⟩

/-- **The context's pools** are for all its devices and their root device. -/
theorem Base.initializePools (setup : Setup) : Base (initializePools setup)
    (keysOf setup (allDevices setup.devices ++ setup.singleRootDevice.toList)) := by
  have hb : Base ((Context.blank.createUSMAllocatorsAll setup setup.devices).createHostPools setup)
      (keysOf setup (allDevices setup.devices) ∪ ∅) := (Base.blank.trees setup.devices).host
  rw [Set.union_empty] at hb
  unfold Context.initializePools Context.createRootPools
  cases hroot : setup.singleRootDevice with
  | none =>
    rw [Option.toList_none, List.append_nil]
    exact hb
  | some root =>
    rw [Option.toList_some, keysOf_append, Set.union_comm, keysOf_cons, Set.insert_union]
    have hnil : keysOf setup [] ∪ keysOf setup (allDevices setup.devices) =
        keysOf setup (allDevices setup.devices) := by
      ext key
      simp [keysOf]
    rw [hnil]
    dsimp only
    split
    next v hv =>
      -- the root device has pools already
      have hmem : setup.zeDevice root ∈ keysOf setup (allDevices setup.devices) := by
        refine (hb.memPools.lookup (show MemType.device ≠ .host from nofun)).mpr ?_
        cases v with
        | none => exact absurd hv (hb.memPools.full .device _)
        | some u => exact ⟨u, hv⟩
      rw [Set.insert_eq_of_mem hmem]
      exact hb
    next => exact hb.device setup root

/-- The proxy pool for the host is one of those that have been made. -/
theorem initializePools_host :
    (initializePools setup).hostMemProxyPool < (initializePools setup).umf.next := by
  unfold Context.initializePools Context.createRootPools
  generalize Context.blank.createUSMAllocatorsAll setup setup.devices = c
  have hlt : (c.createHostPools setup).hostMemProxyPool < (c.createHostPools setup).umf.next :=
    Nat.lt_succ_self _
  split
  next => exact hlt
  next root _ =>
    split
    next => exact hlt
    next => exact Nat.lt_add_right 6 hlt

/-- A pool that is used where the allocator is off. -/
def Proxy (c : Context) (u : Nat) : Prop :=
  u = c.hostMemProxyPool ∨ ∃ kind key, (key, some u) ∈ c.memProxyPools.map kind

/-! ## The pools of the application -/

/-- The memory pools were made for the handle, with the parameters of the context's, and are for
the devices that the context was created with. -/
structure PoolInv (setup : Setup) (umf : Umf) (pool : UsmPool) : Prop where
  made : ∀ kind u, pool.Has kind u → umf.made u = some ⟨kind, configOf setup kind, some pool.handle⟩
  get : ∀ kind, kind ≠ .host → ∀ device,
    device ∈ setup.Devices ↔ ∃ u, pool.devicePools.get kind device = some u

/-- Part of the loop over the devices: pools for those in `keys`, from the number `first` on. -/
structure Partial (setup : Setup) (h : Nat) (first : Nat) (old : Nat → Option Made)
    (pools : DevicePools) (umf : Umf) (keys : Set Device) : Prop where
  serves : Serves pools keys
  made : ∀ kind key u, (key, some u) ∈ pools.map kind →
    first ≤ u ∧ u < umf.next ∧ umf.made u = some ⟨kind, configOf setup kind, some h⟩
  le : first ≤ umf.next
  kept : ∀ u, u < first ∨ umf.next ≤ u → umf.made u = old u

variable {first : Nat} {old : Nat → Option Made}

theorem Partial.add (hp : Partial setup h first old pools umf keys) (d : Device) :
    Partial setup h first old (pools.add umf d (configOf setup) (some h)).1
      (pools.add umf d (configOf setup) (some h)).2 (insert d keys) where
  serves := hp.serves.add umf d (configOf setup) (some h)
  made := fun kind key u hmem => by
    by_cases hkind : kind = .host
    · subst hkind
      cases hmem
    · have hoffset := offset_lt kind
      rw [add_map hkind] at hmem
      rw [add_next]
      rcases mem_emplace hmem with hold | hnew
      · obtain ⟨hfirst, hlt, hmade⟩ := hp.made kind key u hold
        rw [add_other (Or.inl hlt)]
        exact ⟨hfirst, by omega, hmade⟩
      · obtain ⟨-, hu⟩ := Prod.mk.inj hnew
        obtain rfl := Option.some.inj hu
        have hle := hp.le
        exact ⟨by omega, by omega, add_made hkind⟩
  le := by
    rw [add_next]
    have hle := hp.le
    omega
  kept := fun u hu => by
    rw [add_next] at hu
    have hle := hp.le
    rw [add_other (by omega)]
    exact hp.kept u (by omega)

/-- **The loop over the devices.** -/
theorem Partial.loop : ∀ (devices : List Device) {pools : DevicePools} {umf : Umf}
    {keys : Set Device}, Partial setup h first old pools umf keys →
    Partial setup h first old (makeDevicePools setup h (pools, umf) devices).1
      (makeDevicePools setup h (pools, umf) devices).2 ({d | d ∈ devices} ∪ keys)
  | [], pools, umf, keys, hp => by
    have hkeys : {d : Device | d ∈ ([] : List Device)} ∪ keys = keys := by
      ext key
      simp
    rw [hkeys]
    exact hp
  | d :: devices, pools, umf, keys, hp => by
    have hrest := Partial.loop devices (hp.add d)
    have hkeys : {d' : Device | d' ∈ d :: devices} ∪ keys =
        {d' : Device | d' ∈ devices} ∪ insert d keys := by
      ext key
      simp only [Set.mem_union, Set.mem_ofPred_eq, List.mem_cons, Set.mem_insert_iff]
      tauto
    rw [hkeys]
    exact hrest

/-- The pool that is created for an accepted chain, and UMF after that. -/
structure Created (setup : Setup) (c : Context) (pool : UsmPool) (umf : Umf) : Prop where
  inv : PoolInv setup umf pool
  handle : pool.handle = c.nextHandle
  le : c.umf.next ≤ umf.next
  old : ∀ u, u < c.umf.next → umf.made u = c.umf.made u
  fresh : ∀ u, umf.next ≤ u → umf.made u = none
  byPtr : umf.byPtr = c.umf.byPtr
  devices : ∀ kind u, pool.Has kind u → kind = .host ∨ setup.devices ≠ []

theorem makeDevicePools_byPtr : ∀ (devices : List Device) (pools : DevicePools) (umf : Umf),
    (makeDevicePools setup h (pools, umf) devices).2.byPtr = umf.byPtr
  | [], _, _ => rfl
  | _ :: devices, _, _ => makeDevicePools_byPtr devices _ _

/-- **A pool is created.** -/
theorem created_of_create (hfresh : ∀ u, c.umf.next ≤ u → c.umf.made u = none) (zeroInit : Bool)
    {chain : List (Option (Nat × Nat))}
    (hchain : readChain setup.disjointPoolConfigInstance chain ≠ none) :
    ∃ pool umf, Created setup c pool umf ∧ pool.chain = chain ∧
      c.urUSMPoolCreate setup zeroInit chain =
        { c with
          usmPoolHandles := c.usmPoolHandles ++ [pool]
          nextHandle := c.nextHandle + 1
          umf := umf } := by
  obtain ⟨configs, hconfigs⟩ := Option.ne_none_iff_exists'.mp hchain
  let umf₀ := c.umf.make ⟨.host, configOf setup .host, some c.nextHandle⟩
  let made := makeDevicePools setup c.nextHandle (.empty, umf₀) setup.Devices
  let pool : UsmPool := ⟨c.nextHandle, 1, zeroInit, configs, made.1, c.umf.next, chain⟩
  have hstart : Partial setup c.nextHandle (c.umf.next + 1) umf₀.made .empty umf₀ ∅ :=
    ⟨Serves.empty, fun kind key u hmem => (by cases kind <;> cases hmem), Nat.le_refl _,
      fun _ _ => rfl⟩
  -- the pool for the host is made before those of the devices
  have hloop := hstart.loop setup.Devices
  rw [Set.union_empty] at hloop
  have hhost : made.2.made c.umf.next =
      some ⟨.host, configOf setup .host, some c.nextHandle⟩ := by
    rw [hloop.kept c.umf.next (Or.inl (Nat.lt_succ_self _))]
    exact update_self _ _ _
  refine ⟨pool, made.2, ⟨⟨fun kind u hu => ?_, fun kind hkind d => hloop.serves.get kind hkind d⟩,
    rfl, Nat.le_of_succ_le hloop.le, fun u hu => ?_, fun u hu => ?_, makeDevicePools_byPtr _ _ _, fun kind u hu => ?_⟩, rfl,
    ?_⟩
  · by_cases hkind : kind = .host
    · subst hkind
      rw [← hu]
      exact hhost
    · obtain ⟨d, hmem⟩ : ∃ d, (d, some u) ∈ made.1.map kind := by
        cases kind with
        | host => exact absurd rfl hkind
        | device => exact hu
        | shared => exact hu
        | sharedReadOnly => exact hu
      exact (hloop.made kind d u hmem).2.2
  · rw [hloop.kept u (Or.inl (by omega))]
    exact update_of_ne (by omega) _ _
  · have hle : c.umf.next + 1 ≤ made.2.next := hloop.le
    rw [hloop.kept u (Or.inr hu)]
    have hne : u ≠ c.umf.next := by omega
    show update c.umf.made c.umf.next _ u = none
    rw [update_of_ne hne]
    exact hfresh u (by omega)
  · by_contra hnot
    obtain ⟨hkind, hnil⟩ := not_or.mp hnot
    have hempty : made.1 = .empty := by
      show (makeDevicePools setup c.nextHandle (.empty, umf₀) (setup.devices.map _)).1 = .empty
      rw [not_not.mp hnil]
      rfl
    cases kind with
    | host => exact hkind rfl
    | device =>
      obtain ⟨d, hmem⟩ := hu
      rw [show pool.devicePools = .empty from hempty] at hmem
      cases hmem
    | shared =>
      obtain ⟨d, hmem⟩ := hu
      rw [show pool.devicePools = .empty from hempty] at hmem
      cases hmem
    | sharedReadOnly =>
      obtain ⟨d, hmem⟩ := hu
      rw [show pool.devicePools = .empty from hempty] at hmem
      cases hmem
  · unfold urUSMPoolCreate
    rw [hconfigs]

/-! ## What every call keeps -/

/-- **What holds in every run.** -/
structure Core (setup : Setup) (c : Context) : Prop where
  memPools : Serves c.memPools
    (keysOf setup (allDevices setup.devices ++ setup.singleRootDevice.toList))
  memProxyPools : Serves c.memProxyPools
    (keysOf setup (allDevices setup.devices ++ setup.singleRootDevice.toList))
  fresh : ∀ u, c.umf.next ≤ u → c.umf.made u = none
  pools : ∀ pool ∈ c.usmPoolHandles, PoolInv setup c.umf pool
  lt : ∀ pool ∈ c.usmPoolHandles, pool.handle < c.nextHandle
  unique : ∀ pool ∈ c.usmPoolHandles, ∀ pool' ∈ c.usmPoolHandles,
    pool.handle = pool'.handle → pool = pool'
  proxies : ∀ u, Proxy c u → u < c.umf.next ∧ ∀ made, c.umf.made u = some made → made.handle = none

theorem Core.init (setup : Setup) : Core setup (initializePools setup) := by
  have hb := Base.initializePools setup
  have hnone : ∀ pool ∈ (initializePools setup).usmPoolHandles, False := by
    rw [hb.usmPoolHandles]
    nofun
  refine ⟨hb.memPools, hb.memProxyPools, hb.fresh, fun pool hpool => (hnone pool hpool).elim,
    fun pool hpool => (hnone pool hpool).elim, fun pool hpool => (hnone pool hpool).elim,
    fun u hu => ⟨?_, hb.unowned u⟩⟩
  rcases hu with rfl | ⟨kind, key, hmem⟩
  · exact initializePools_host
  · exact hb.proxies kind key u hmem

theorem pool?_mem (hpool : c.pool? h = some pool) :
    pool ∈ c.usmPoolHandles ∧ pool.handle = h := by
  have hhandle := List.find?_some hpool
  exact ⟨List.mem_of_find?_eq_some hpool, beq_iff_eq.mp hhandle⟩

/-- The pool with other counts and entries without a pool. -/
structure SamePool (pool pool' : UsmPool) : Prop where
  handle : pool'.handle = pool.handle
  chain : pool'.chain = pool.chain
  has : ∀ kind u, pool'.Has kind u ↔ pool.Has kind u
  get : ∀ kind device, pool'.devicePools.get kind device = pool.devicePools.get kind device

theorem index_map (kind kind' : MemType) (device : Device) :
    (pools.index kind device).map kind' =
      if kind' = kind ∧ kind ≠ .host then emplace (pools.map kind) device none
      else pools.map kind' := by
  cases kind <;> cases kind' <;> rfl

/-- **`operator[]`** finds what was there, and adds no pool. -/
theorem SamePool.index (pool : UsmPool) (kind : MemType) (device : Device) :
    SamePool pool { pool with devicePools := pool.devicePools.index kind device } where
  handle := rfl
  chain := rfl
  has := fun kind' u => by
    have hmem : ∀ d, (d, some u) ∈ (pool.devicePools.index kind device).map kind' ↔
        (d, some u) ∈ pool.devicePools.map kind' := by
      intro d
      rw [index_map]
      split
      next hkind =>
        obtain ⟨rfl, -⟩ := hkind
        constructor
        · intro h
          rcases mem_emplace h with hold | hnew
          · exact hold
          · cases (Prod.mk.inj hnew).2
        · exact subset_emplace
      next => exact Iff.rfl
    cases kind' with
    | host => exact Iff.rfl
    | device => exact exists_congr hmem
    | shared => exact exists_congr hmem
    | sharedReadOnly => exact exists_congr hmem
  get := fun kind' d => by
    show ((DevicePools.map _ kind').lookup d).join = ((DevicePools.map _ kind').lookup d).join
    rw [index_map]
    split
    next hkind =>
      obtain ⟨rfl, -⟩ := hkind
      by_cases hd : d = device
      · subst hd
        rw [lookup_emplace_self]
        cases (pool.devicePools.map kind').lookup d with
        | none => rfl
        | some v => rfl
      · rw [lookup_emplace_of_ne hd]
    next => rfl

/-- A pool in place of another one. -/
theorem mem_setPool {pool' p : UsmPool} (hp : p ∈ (c.setPool pool').usmPoolHandles) :
    p = pool' ∨ p ∈ c.usmPoolHandles ∧ p.handle ≠ pool'.handle := by
  obtain ⟨q, hq, heq⟩ := List.mem_map.mp hp
  split at heq
  next => exact Or.inl heq.symm
  next hne => exact Or.inr (heq ▸ ⟨hq, hne⟩)

theorem PoolInv.same {pool' : UsmPool} (hp : PoolInv setup umf pool)
    (hsame : SamePool pool pool') : PoolInv setup umf pool' where
  made := fun kind u hu => by
    rw [hsame.handle]
    exact hp.made kind u ((hsame.has kind u).mp hu)
  get := fun kind hkind device => by
    rw [hsame.get]
    exact hp.get kind hkind device

theorem Core.setPool (hc : Core setup c) {pool' : UsmPool} (hpool : pool ∈ c.usmPoolHandles)
    (hsame : SamePool pool pool') : Core setup (c.setPool pool') where
  memPools := hc.memPools
  memProxyPools := hc.memProxyPools
  fresh := hc.fresh
  pools := fun p hp => by
    rcases mem_setPool hp with rfl | ⟨hold, -⟩
    · exact (hc.pools pool hpool).same hsame
    · exact hc.pools p hold
  lt := fun p hp => by
    rcases mem_setPool hp with rfl | ⟨hold, -⟩
    · show p.handle < c.nextHandle
      rw [hsame.handle]
      exact hc.lt pool hpool
    · exact hc.lt p hold
  unique := fun p hp q hq heq => by
    rcases mem_setPool hp with rfl | ⟨hp, hpne⟩
    · rcases mem_setPool hq with rfl | ⟨-, hqne⟩
      · rfl
      · exact absurd heq.symm hqne
    · rcases mem_setPool hq with rfl | ⟨hq, -⟩
      · exact absurd heq hpne
      · exact hc.unique p hp q hq heq
  proxies := hc.proxies

/-! ## Lookups -/

theorem covered_iff (device : Device) : setup.Covered device ↔ setup.zeDevice device ∈
    keysOf setup (allDevices setup.devices ++ setup.singleRootDevice.toList) := Iff.rfl

/-- What the lookup in maps of the context finds. -/
theorem Core.lookup (hc : Core setup c) (hkind : kind ≠ .host) (device : Device) :
    setup.Covered device ↔
      ∃ u, (c.memPools.map kind).lookup (setup.zeDevice device) = some (some u) :=
  (covered_iff device).trans (hc.memPools.lookup hkind)

/-- **Where the context's own pools work.** -/
theorem Core.finds_none (hc : Core setup c) (huse : setup.useUSMAllocator = true)
    (hkind : kind ≠ .host) (device : Device) :
    Finds setup c kind device none ↔ setup.Covered device := by
  have heq : hPoolInternal setup c kind device none =
      ((c.memPools.map kind).lookup (setup.zeDevice device)).map fun u => (c, u) := by
    unfold hPoolInternal
    rw [huse]
    cases kind with
    | host => exact absurd rfl hkind
    | device => rfl
    | shared => rfl
    | sharedReadOnly => rfl
  unfold Finds
  rw [heq, hc.lookup hkind]
  constructor
  · rintro ⟨c', u, hmap⟩
    obtain ⟨v, hv, hpair⟩ := Option.map_eq_some_iff.mp hmap
    obtain ⟨-, rfl⟩ := Prod.mk.inj hpair
    exact ⟨u, hv⟩
  · rintro ⟨u, hu⟩
    exact ⟨c, u, by rw [hu]; rfl⟩

/-- The lookup in a pool of the application. -/
theorem hPoolInternal_pool (huse : setup.useUSMAllocator = true) (hkind : kind ≠ .host)
    (hpool : c.pool? h = some pool) (device : Device) :
    hPoolInternal setup c kind device (some h) =
      some (c.setPool { pool with devicePools := pool.devicePools.index kind device },
        pool.devicePools.get kind device) := by
  have hget := (SamePool.index pool kind device).get kind device
  unfold hPoolInternal
  rw [huse]
  dsimp only
  rw [hpool]
  rw [← hget]
  cases kind with
  | host => exact absurd rfl hkind
  | device => rfl
  | shared => rfl
  | sharedReadOnly => rfl

/-- **Where a pool of the application works.** -/
theorem Core.finds_some (hc : Core setup c) (huse : setup.useUSMAllocator = true)
    (hkind : kind ≠ .host) (hpool : c.pool? h = some pool) (device : Device) :
    Finds setup c kind device (some h) ↔ device ∈ setup.Devices := by
  rw [(hc.pools pool (pool?_mem hpool).1).get kind hkind device]
  unfold Finds
  rw [hPoolInternal_pool huse hkind hpool]
  constructor
  · rintro ⟨c', u, heq⟩
    exact ⟨u, (Prod.mk.inj (Option.some.inj heq)).2⟩
  · rintro ⟨u, hu⟩
    exact ⟨_, u, by rw [hu]⟩

/-- **Where the allocator is off** the lookup finds the proxy pools, whatever pool is given. -/
theorem Core.finds_proxy (hc : Core setup c) (huse : setup.useUSMAllocator = false)
    (device : Device) : (kind = .host ∨ setup.Covered device) ↔
      ∃ u, hPoolInternal setup c kind device handle = some (c, some u) := by
  unfold hPoolInternal
  rw [huse]
  by_cases hkind : kind = .host
  · subst hkind
    exact ⟨fun _ => ⟨_, rfl⟩, fun _ => Or.inl rfl⟩
  · have heq : ∀ u, ((c.memProxyPools.map kind).lookup (setup.zeDevice device)).map (fun v => (c, v)) =
        some (c, some u) ↔
        (c.memProxyPools.map kind).lookup (setup.zeDevice device) = some (some u) := fun u => by
      simp
    rw [or_iff_right hkind, covered_iff, hc.memProxyPools.lookup hkind]
    cases kind with
    | host => exact absurd rfl hkind
    | _ => exact exists_congr fun u => (heq u).symm

/-- What is found there is a proxy pool. -/
theorem proxy_of_found {device : Device} (huse : setup.useUSMAllocator = false)
    (hfound : hPoolInternal setup c kind device handle = some (c', some u)) :
    c' = c ∧ Proxy c u := by
  unfold hPoolInternal at hfound
  rw [huse] at hfound
  cases kind with
  | host =>
    obtain ⟨rfl, hu⟩ := Prod.mk.inj (Option.some.inj hfound)
    exact ⟨rfl, Or.inl (Option.some.inj hu).symm⟩
  | _ =>
    obtain ⟨v, hv, hpair⟩ := Option.map_eq_some_iff.mp hfound
    obtain ⟨rfl, rfl⟩ := Prod.mk.inj hpair
    exact ⟨rfl, Or.inr ⟨_, _, mem_of_lookup hv⟩⟩

/-- A lookup leaves the context as it is, or adds entries without a pool to one of the
application's. -/
theorem hPoolInternal_same {device : Device} {v : Option Nat}
    (heq : hPoolInternal setup c kind device handle = some (c', v)) :
    c' = c ∨ ∃ pool pool', pool ∈ c.usmPoolHandles ∧ SamePool pool pool' ∧
      c' = c.setPool pool' := by
  cases huse : setup.useUSMAllocator with
  | false =>
    left
    unfold hPoolInternal at heq
    rw [huse] at heq
    cases kind with
    | host => exact (Prod.mk.inj (Option.some.inj heq)).1.symm
    | _ =>
      obtain ⟨w, -, hpair⟩ := Option.map_eq_some_iff.mp heq
      exact (Prod.mk.inj hpair).1.symm
  | true =>
    cases handle with
    | none =>
      left
      unfold hPoolInternal at heq
      rw [huse] at heq
      cases kind with
      | host => exact (Prod.mk.inj (Option.some.inj heq)).1.symm
      | _ =>
        obtain ⟨w, -, hpair⟩ := Option.map_eq_some_iff.mp heq
        exact (Prod.mk.inj hpair).1.symm
    | some h =>
      cases hpool : c.pool? h with
      | none =>
        unfold hPoolInternal at heq
        rw [huse] at heq
        dsimp only at heq
        rw [hpool] at heq
        cases heq
      | some pool =>
        by_cases hkind : kind = .host
        · left
          subst hkind
          unfold hPoolInternal at heq
          rw [huse] at heq
          dsimp only at heq
          rw [hpool] at heq
          exact (Prod.mk.inj (Option.some.inj heq)).1.symm
        · right
          rw [hPoolInternal_pool huse hkind hpool] at heq
          exact ⟨pool, _, (pool?_mem hpool).1, SamePool.index pool kind device,
            (Prod.mk.inj (Option.some.inj heq)).1.symm⟩

/-- UMF gives another answer for pointers. -/
theorem Core.pointers (hc : Core setup c) (byPtr : Ptr → Option Nat)
    (through : Ptr → Option Nat) :
    Core setup { c with umf := { c.umf with byPtr := byPtr }, through := through } :=
  ⟨hc.memPools, hc.memProxyPools, hc.fresh,
    fun pool hpool => ⟨(hc.pools pool hpool).made, (hc.pools pool hpool).get⟩, hc.lt, hc.unique,
    hc.proxies⟩

theorem Core.create (hc : Core setup c) (zeroInit : Bool) (chain : List (Option (Nat × Nat))) :
    Core setup (c.urUSMPoolCreate setup zeroInit chain) := by
  by_cases hchain : readChain setup.disjointPoolConfigInstance chain = none
  · unfold urUSMPoolCreate
    rw [hchain]
    exact hc
  · obtain ⟨pool, umf, hnew, -, heq⟩ := created_of_create hc.fresh zeroInit hchain
    rw [heq]
    have hhandle := hnew.handle
    refine ⟨hc.memPools, hc.memProxyPools, hnew.fresh, fun p hp => ?_, fun p hp => ?_,
      fun p hp q hq hpq => ?_, fun u hu => ?_⟩
    · rcases List.mem_append.mp hp with hold | hmem
      · refine ⟨fun kind u hu => ?_, (hc.pools p hold).get⟩
        have hmade := (hc.pools p hold).made kind u hu
        have hlt : u < c.umf.next := by
          by_contra hge
          rw [hc.fresh u (by omega)] at hmade
          cases hmade
        rw [hnew.old u hlt]
        exact hmade
      · rw [List.mem_singleton.mp hmem]
        exact hnew.inv
    · show p.handle < c.nextHandle + 1
      rcases List.mem_append.mp hp with hold | hmem
      · have hlt := hc.lt p hold
        omega
      · rw [List.mem_singleton.mp hmem]
        omega
    · rcases List.mem_append.mp hp with hp | hp
      · rcases List.mem_append.mp hq with hq | hq
        · exact hc.unique p hp q hq hpq
        · have hlt := hc.lt p hp
          rw [List.mem_singleton.mp hq] at hpq
          omega
      · rcases List.mem_append.mp hq with hq | hq
        · have hlt := hc.lt q hq
          rw [List.mem_singleton.mp hp] at hpq
          omega
        · rw [List.mem_singleton.mp hp, List.mem_singleton.mp hq]
    · obtain ⟨hlt, hmade⟩ := hc.proxies u hu
      refine ⟨hlt.trans_le hnew.le, fun made heq => hmade made ?_⟩
      rw [← hnew.old u hlt]
      exact heq

/-- An allocation looks a pool up and may give out a pointer. -/
theorem alloc_cases (device : Device) (desc : Option UsmDesc) (answer : Option Ptr) :
    c.alloc setup kind device desc handle answer = c ∨ ∃ c' v, alignmentOk desc = true ∧
      hPoolInternal setup c kind device handle = some (c', v) ∧
      (c.alloc setup kind device desc handle answer = c' ∧ (v = none ∨ answer = none) ∨
        ∃ u ptr, v = some u ∧ answer = some ptr ∧
          c.alloc setup kind device desc handle answer =
            { c' with
              umf := { c'.umf with byPtr := update c'.umf.byPtr ptr (some u) }
              through := update c'.through ptr handle }) := by
  unfold Context.alloc
  cases halign : alignmentOk desc with
  | false => exact Or.inl rfl
  | true =>
    cases hfound : hPoolInternal setup c kind device handle with
    | none => exact Or.inl rfl
    | some found =>
      obtain ⟨c', v⟩ := found
      refine Or.inr ⟨c', v, rfl, rfl, ?_⟩
      cases v with
      | none => exact Or.inl ⟨rfl, Or.inl rfl⟩
      | some u =>
        cases answer with
        | none => exact Or.inl ⟨rfl, Or.inr rfl⟩
        | some ptr => exact Or.inr ⟨u, ptr, rfl, rfl, rfl⟩

/-- **Every call keeps it.** -/
theorem Core.step (hc : Core setup c) : ∀ (call : Call), Core setup (step setup c call)
  | .create zeroInit chain => hc.create zeroInit chain
  | .retain h => by
    show Core setup (c.urUSMPoolRetain h)
    unfold urUSMPoolRetain
    split
    next => exact hc
    next pool hpool => exact hc.setPool (pool?_mem hpool).1 ⟨rfl, rfl, fun _ _ => Iff.rfl, fun _ _ => rfl⟩
  | .release h => by
    show Core setup (c.urUSMPoolRelease h)
    unfold urUSMPoolRelease
    split
    next => exact hc
    next pool hpool =>
      split
      · have hsub : ∀ p ∈ c.usmPoolHandles.filter fun p => p.handle ≠ h, p ∈ c.usmPoolHandles :=
          fun p hp => (List.mem_filter.mp hp).1
        exact ⟨hc.memPools, hc.memProxyPools, hc.fresh,
          fun p hp => ⟨(hc.pools p (hsub p hp)).made, (hc.pools p (hsub p hp)).get⟩,
          fun p hp => hc.lt p (hsub p hp),
          fun p hp q hq => hc.unique p (hsub p hp) q (hsub q hq), hc.proxies⟩
      · exact hc.setPool (pool?_mem hpool).1 ⟨rfl, rfl, fun _ _ => Iff.rfl, fun _ _ => rfl⟩
  | .alloc entry desc handle answer => by
    show Core setup (c.alloc setup (entry.kind desc) entry.on desc handle answer)
    rcases alloc_cases entry.on desc answer with hsame | ⟨c', v, -, hfound, hcases⟩
    · rw [hsame]
      exact hc
    · have hc' : Core setup c' := by
        rcases hPoolInternal_same hfound with rfl | ⟨pool, pool', hpool, hsame, rfl⟩
        · exact hc
        · exact hc.setPool hpool hsame
      rcases hcases with ⟨heq, -⟩ | ⟨u, ptr, -, -, heq⟩
      · rw [heq]
        exact hc'
      · rw [heq]
        exact hc'.pointers _ _
  | .free ptr => by
    show Core setup (c.urUSMFree ptr)
    unfold urUSMFree
    split
    next => exact hc
    next => exact hc.pointers _ _

end UnifiedRuntime.LevelZero.UsmPools
