import Mathlib.Logic.Function.Basic
import Mathlib.Data.List.Basic
import Mathlib.Tactic.Common

/-!
# USM pools of the application (CUDA and HIP)

A pool of the application is three pools of UMF, for host, device and shared memory. The constructor
assigns the ones for device and shared memory anew for every device of the context, which destroys
those of the device before. CUDA allocates from the pool of the kind that is asked for, HIP always
from the one for device memory.

- `Inv`: what holds between the handles, the pools of UMF and the blocks.
- `userPools_right`: what is served, when a context has one device and HIP is only asked for device
  memory.
-/

namespace UnifiedRuntime.UserPools

open Function (update update_of_ne update_self)

/-! ## Pools -/

inductive Adapter where
  | cuda
  | hip

inductive Kind where
  | host
  | device
  | shared
deriving DecidableEq

/-- `MaxPoolableSize` and `SlabMinSize`. -/
structure Limits where
  maxPoolableSize : UInt64
  slabMinSize : UInt64
deriving DecidableEq

/-- A node behind the `ur_usm_pool_desc_t`: a `ur_usm_pool_limits_desc_t`, or another. -/
inductive Desc where
  | limits (l : Limits)
  | other

def Desc.limits? : Desc → Option Limits
  | limits l => some l
  | other => none

/-- A pool of UMF: its memory provider and its parameters. -/
structure UmfPool where
  kind : Kind
  device : Option Nat
  limits : Limits
  alive : Bool
deriving DecidableEq

/-- `ur_usm_pool_handle_t_`. `pools` are all that the constructor has made, and the members say
which of them the handle has. -/
structure PoolHandle where
  refCount : Nat
  context : Nat
  chain : List Desc
  pools : List UmfPool
  hostMemPool : Option Nat
  deviceMemPool : Option Nat
  sharedMemPool : Option Nat
  deleted : Bool

/-- What an allocation was asked for. -/
structure Request where
  handle : Nat
  kind : Kind
  device : Option Nat

/-- `poolHandles` are those of each context and `blocks` is `umfPoolByPtr`, a pool being one of its
handle. `asked` is what a pointer was asked for, which the code does not know. -/
structure State where
  handles : List PoolHandle
  poolHandles : Nat → List Nat
  blocks : Nat → Option (Nat × Nat)
  asked : Nat → Option Request

def State.init : State :=
  { handles := [], poolHandles := fun _ => [], blocks := fun _ => none, asked := fun _ => none }

/-- The adapter, the devices of every context, and the limits when none are given. -/
structure Setup where
  adapter : Adapter
  devices : Nat → List Nat
  defaults : Kind → Limits

variable (setup : Setup) (s : State)

/-- The object of a handle, if it is there. -/
def State.get (handle : Nat) : Option PoolHandle :=
  s.handles[handle]?.filter fun H => !H.deleted

/-! ## Handles -/

/-- The limits of a chain, or the error of the constructor. CUDA takes every node in turn, HIP the
first one with limits. -/
def Setup.configs (chain : List Desc) : Option (Kind → Limits) :=
  match setup.adapter with
  | .cuda =>
    chain.foldlM (fun _ desc => desc.limits?.map fun l => fun _ : Kind => l) setup.defaults
  | .hip => (chain.findSome? Desc.limits?).map fun l => fun _ => l

/-- `umfPoolDestroy`. -/
def PoolHandle.destroy (H : PoolHandle) (u : Option Nat) : PoolHandle :=
  match u with
  | some u => { H with pools := H.pools.modify u fun pool => { pool with alive := false } }
  | none => H

/-- One round of the constructor's loop over the devices: each member is assigned a new pool, which
destroys the one that it had. -/
def PoolHandle.addDevice (configs : Kind → Limits) (H : PoolHandle) (device : Nat) : PoolHandle :=
  let H := H.destroy H.deviceMemPool
  let H := { H with
    deviceMemPool := some H.pools.length
    pools := H.pools ++ [UmfPool.mk .device (some device) (configs .device) true] }
  let H := H.destroy H.sharedMemPool
  { H with
    sharedMemPool := some H.pools.length
    pools := H.pools ++ [UmfPool.mk .shared (some device) (configs .shared) true] }

/-- The constructor, when it does not throw. -/
def PoolHandle.new (context : Nat) (chain : List Desc) (configs : Kind → Limits)
    (devices : List Nat) : PoolHandle :=
  devices.foldl (addDevice configs)
    { refCount := 1, context, chain, pools := [⟨.host, none, configs .host, true⟩],
      hostMemPool := some 0, deviceMemPool := none, sharedMemPool := none, deleted := false }

/-- `addPool`, of a set. -/
def addPool (handle : Nat) (handles : List Nat) : List Nat :=
  if handle ∈ handles then handles else handle :: handles

inductive CallResult where
  | success
  | invalidArgument
  | invalidValue
  | unsupportedFeature
  | umfError

/-- `urUSMPoolCreate`. The constructor adds the handle to those of the context in every round. -/
def urUSMPoolCreate (context : Nat) (zeroInitialize : Bool) (chain : List Desc) :
    CallResult × State :=
  if zeroInitialize then (.unsupportedFeature, s)
  else
    match setup.configs chain with
    | none => (.invalidArgument, s)
    | some configs =>
      let devices := setup.devices context
      let listed := devices.foldl (fun handles _ => addPool s.handles.length handles)
        (s.poolHandles context)
      (.success, { s with
        handles := s.handles ++ [.new context chain configs devices]
        poolHandles := update s.poolHandles context listed })

/-- `urUSMPoolRetain`. -/
def urUSMPoolRetain (handle : Nat) (H : PoolHandle) : State :=
  { s with handles := s.handles.set handle { H with refCount := H.refCount + 1 } }

def PoolHandle.hasUMFPool (H : PoolHandle) (u : Nat) : Bool :=
  H.deviceMemPool == some u || H.sharedMemPool == some u || H.hostMemPool == some u

/-- A pool is one of the members of a handle. -/
def PoolHandle.owns (H : PoolHandle) (handle : Nat) (umfPool : Nat × Nat) : Bool :=
  umfPool.1 == handle && H.hasUMFPool umfPool.2

/-- `urUSMPoolRelease`. What the members have handed out is gone with them. -/
def urUSMPoolRelease (handle : Nat) (H : PoolHandle) : State :=
  if H.refCount - 1 > 0 then
    { s with handles := s.handles.set handle { H with refCount := H.refCount - 1 } }
  else
    let gone := ((H.destroy H.hostMemPool).destroy H.sharedMemPool).destroy H.deviceMemPool
    let listed := (s.poolHandles H.context).filter (· ≠ handle)
    { handles := s.handles.set handle { gone with deleted := true }
      poolHandles := update s.poolHandles H.context listed
      blocks := fun p => if (s.blocks p).any (H.owns handle) then none else s.blocks p
      asked := fun p => if (s.blocks p).any (H.owns handle) then none else s.asked p }

/-! ## Allocations -/

/-- The member that an allocation goes to. -/
def Setup.member (H : PoolHandle) : Kind → Option Nat :=
  match setup.adapter with
  | .cuda => fun
    | .host => H.hostMemPool
    | .device => H.deviceMemPool
    | .shared => H.sharedMemPool
  | .hip => fun _ => H.deviceMemPool

/-- `urUSMHostAlloc`, `urUSMDeviceAlloc` and `urUSMSharedAlloc` with a pool. UMF returns a pointer
that is not in use, or none. -/
def urUSMAlloc (handle : Nat) (H : PoolHandle) (kind : Kind) (device : Option Nat)
    (alignment : UInt32) (ptr : Option Nat) : CallResult × State :=
  if alignment ≠ 0 ∧ alignment &&& (alignment - 1) ≠ 0 then (.invalidValue, s)
  else
    match setup.member H kind, ptr with
    | some u, some p => (.success, { s with
        blocks := update s.blocks p (some (handle, u))
        asked := update s.asked p (some ⟨handle, kind, device⟩) })
    | _, _ => (.umfError, s)

/-- `urUSMFree` of a pointer from a pool. -/
def urUSMFree (ptr : Nat) : State :=
  { s with
    blocks := update s.blocks ptr none
    asked := update s.asked ptr none }

/-- `getOwningURPool`. -/
def State.getOwningURPool (context : Nat) (umfPool : Nat × Nat) : Option Nat :=
  (s.poolHandles context).find? fun handle => (s.get handle).any fun H => H.owns handle umfPool

/-- `UR_USM_ALLOC_INFO_POOL` of `urUSMGetMemAllocInfo`; `none` is an error. -/
def State.poolOfPtr (context ptr : Nat) : Option Nat :=
  (s.blocks ptr).bind (s.getOwningURPool context)

/-! ## Runs -/

inductive Call where
  | create (context : Nat) (zeroInitialize : Bool) (chain : List Desc)
  | retain (handle : Nat)
  | release (handle : Nat)
  | alloc (handle : Nat) (kind : Kind) (device : Option Nat) (alignment : UInt32)
      (ptr : Option Nat)
  | free (ptr : Nat)

/-- One call, if its handles and pointers are there. -/
def step : Call → Option State
  | .create context zeroInitialize chain =>
    some (urUSMPoolCreate setup s context zeroInitialize chain).2
  | .retain handle => (s.get handle).map (urUSMPoolRetain s handle)
  | .release handle => (s.get handle).map (urUSMPoolRelease s handle)
  | .alloc handle kind device alignment ptr =>
    (s.get handle).map fun H => (urUSMAlloc setup s handle H kind device alignment ptr).2
  | .free ptr => if (s.blocks ptr).isSome then some (urUSMFree s ptr) else none

/-- What the caller and UMF promise: a host allocation has no device, another one a device of the
context, and a new pointer is not in use. -/
def Call.Allowed : Call → Prop
  | .alloc handle kind device _ ptr =>
    (∀ p, ptr = some p → s.blocks p = none) ∧
      ∀ H, s.get handle = some H →
        if kind = .host then device = none else ∃ d ∈ setup.devices H.context, device = some d
  | _ => True

/-- Pools are for contexts of one device, and HIP is only asked for device memory. -/
def Call.Careful : Call → Prop
  | .create context _ _ => ∃ d, setup.devices context = [d]
  | .alloc _ kind _ _ _ => setup.adapter = .hip → kind = .device
  | _ => True

/-- The states of runs in which every call is as promised. -/
inductive Reached : State → Prop where
  | init : Reached .init
  | next {s s' : State} {call : Call} (h : Reached s) (hallowed : call.Allowed setup s)
      (hstep : step setup s call = some s') : Reached s'

/-- The states of runs in which every call is careful as well. -/
inductive CarefullyReached : State → Prop where
  | init : CarefullyReached .init
  | next {s s' : State} {call : Call} (h : CarefullyReached s) (hallowed : call.Allowed setup s)
      (hcareful : call.Careful setup) (hstep : step setup s call = some s') : CarefullyReached s'

/-! ## Allocations from pools -/

/-- The limits that a chain gives are in force, or the usual ones if it gives none. -/
def InForce (chain : List Desc) (kind : Kind) (l : Limits) : Prop :=
  if chain.filterMap Desc.limits? = [] then l = setup.defaults kind
  else l ∈ chain.filterMap Desc.limits?

/-- **Every allocation is served** from a pool of its kind, on its device and with the limits of its
handle; the query finds the handle; and the pools of a handle live as long as it does. -/
structure Right : Prop where
  served : ∀ p r, s.asked p = some r → ∃ u pool H, s.blocks p = some (r.handle, u) ∧
    s.get r.handle = some H ∧ H.pools[u]? = some pool ∧ pool.alive = true ∧ pool.kind = r.kind ∧
    pool.device = r.device ∧ InForce setup H.chain pool.kind pool.limits
  query : ∀ p r H, s.asked p = some r → s.get r.handle = some H →
    s.poolOfPtr H.context p = some r.handle
  kept : ∀ handle H, s.get handle = some H → ∀ pool ∈ H.pools, pool.alive = true

/-! ## The invariant -/

variable {setup s}

/-- A handle has its three pools, on the one device of its context. -/
structure PoolHandle.Ok (setup : Setup) (H : PoolHandle) (d : Nat) (configs : Kind → Limits) :
    Prop where
  device : setup.devices H.context = [d]
  hostMemPool : H.hostMemPool = some 0
  deviceMemPool : H.deviceMemPool = some 1
  sharedMemPool : H.sharedMemPool = some 2
  pools : H.pools = [⟨.host, none, configs .host, true⟩, ⟨.device, some d, configs .device, true⟩,
    ⟨.shared, some d, configs .shared, true⟩]
  limits : ∀ kind, InForce setup H.chain kind (configs kind)

structure Inv (setup : Setup) (s : State) : Prop where
  handles : ∀ handle H, s.get handle = some H →
    (∃ d configs, H.Ok setup d configs) ∧ handle ∈ s.poolHandles H.context
  listed : ∀ context, ∀ handle ∈ s.poolHandles context,
    ∃ H, s.get handle = some H ∧ H.context = context
  blocks : ∀ p handle u, s.blocks p = some (handle, u) → ∃ H pool, s.get handle = some H ∧
    H.pools[u]? = some pool ∧ s.asked p = some ⟨handle, pool.kind, pool.device⟩
  asked : ∀ p, s.blocks p = none → s.asked p = none

variable {s' : State} {handle d u p : Nat} {H : PoolHandle} {pool : UmfPool} {chain : List Desc}
  {configs : Kind → Limits}

/-! ## Limits -/

/-- The limits are those of a descriptor of the chain, or the ones before it if none has any. -/
theorem foldlM_limits (chain : List Desc) (before : Kind → Limits)
    (h : chain.foldlM (fun _ desc => desc.limits?.map fun l => fun _ : Kind => l) before =
      some configs) :
    (chain.filterMap Desc.limits? = [] ∧ configs = before) ∨
      ∃ l ∈ chain.filterMap Desc.limits?, configs = fun _ => l := by
  induction chain generalizing before with
  | nil => exact .inl ⟨rfl, (Option.some.inj h).symm⟩
  | cons desc chain ih =>
    cases desc with
    | other => cases h
    | limits l =>
      right
      rcases ih _ h with ⟨-, hlast⟩ | ⟨l', hmem, hlast⟩
      · exact ⟨l, List.mem_cons_self, hlast⟩
      · exact ⟨l', List.mem_cons_of_mem _ hmem, hlast⟩

/-- **The limits of a chain** that the constructor takes are in force. -/
theorem configs_inForce (h : setup.configs chain = some configs)
    (kind : Kind) : InForce setup chain kind (configs kind) := by
  have hgiven : (chain.filterMap Desc.limits? = [] ∧ configs = setup.defaults) ∨
      ∃ l ∈ chain.filterMap Desc.limits?, configs = fun _ => l := by
    unfold Setup.configs at h
    cases hadapter : setup.adapter with
    | cuda =>
      rw [hadapter] at h
      exact foldlM_limits chain _ h
    | hip =>
      rw [hadapter] at h
      obtain ⟨l, hfind, rfl⟩ := Option.map_eq_some_iff.1 h
      obtain ⟨desc, hmem, hl⟩ := List.exists_of_findSome?_eq_some hfind
      exact .inr ⟨l, List.mem_filterMap.2 ⟨desc, hmem, hl⟩, rfl⟩
  unfold InForce
  rcases hgiven with ⟨hnone, rfl⟩ | ⟨l, hmem, rfl⟩
  · rw [if_pos hnone]
  · rw [if_neg (List.ne_nil_of_mem hmem)]
    exact hmem

/-! ## What the invariant says -/

theorem get_eq_some : s.get handle = some H ↔ s.handles[handle]? = some H ∧ H.deleted = false := by
  simp [State.get]

/-- A pool of a handle is one of its members, alive and with its limits. -/
theorem PoolHandle.Ok.member (h : H.Ok setup d configs) (hu : H.pools[u]? = some pool) :
    H.hasUMFPool u = true ∧ pool.alive = true ∧ InForce setup H.chain pool.kind pool.limits := by
  unfold PoolHandle.hasUMFPool
  rw [h.hostMemPool, h.deviceMemPool, h.sharedMemPool]
  rw [h.pools] at hu
  match u with
  | 0 | 1 | 2 =>
    obtain rfl := Option.some.inj hu
    exact ⟨rfl, rfl, h.limits _⟩
  | _ + 3 => cases hu

theorem Inv.block (h : Inv setup s) {r : Request} (hr : s.asked p = some r) :
    ∃ u H pool, s.blocks p = some (r.handle, u) ∧ s.get r.handle = some H ∧
      H.pools[u]? = some pool ∧ r = ⟨r.handle, pool.kind, pool.device⟩ := by
  cases hblock : s.blocks p with
  | none => cases (h.asked p hblock).symm.trans hr
  | some umfPool =>
    obtain ⟨H, pool, hH, hu, hasked⟩ := h.blocks p umfPool.1 umfPool.2 hblock
    obtain rfl := Option.some.inj (hr.symm.trans hasked)
    exact ⟨umfPool.2, H, pool, rfl, hH, hu, rfl⟩

/-- **The owner of a pool** is found. -/
theorem Inv.getOwningURPool (h : Inv setup s) (hH : s.get handle = some H)
    (hu : H.pools[u]? = some pool) :
    s.getOwningURPool H.context (handle, u) = some handle := by
  obtain ⟨⟨d, configs, hok⟩, hlisted⟩ := h.handles handle H hH
  unfold State.getOwningURPool
  cases hfind : (s.poolHandles H.context).find? fun handle' =>
      (s.get handle').any fun H' => H'.owns handle' (handle, u) with
  | none =>
    have hnot := List.find?_eq_none.1 hfind handle hlisted
    simp [hH, PoolHandle.owns] at hnot
    rw [(hok.member hu).1] at hnot
    cases hnot
  | some handle' =>
    have howns := List.find?_some hfind
    obtain ⟨H', -, howns⟩ := (Option.any_eq_true _ _).1 howns
    rw [PoolHandle.owns, Bool.and_eq_true, beq_iff_eq] at howns
    exact congrArg some howns.1.symm

theorem Inv.right (h : Inv setup s) : Right setup s := by
  constructor
  · intro p r hr
    obtain ⟨u, H, pool, hblock, hH, hu, hr⟩ := h.block hr
    obtain ⟨⟨d, configs, hok⟩, -⟩ := h.handles _ H hH
    obtain ⟨-, halive, hlimits⟩ := hok.member hu
    refine ⟨u, pool, H, hblock, hH, hu, halive, ?_, ?_, hlimits⟩
    · rw [hr]
    · rw [hr]
  · intro p r H hr hH
    obtain ⟨u, H', pool, hblock, hH', hu, -⟩ := h.block hr
    obtain rfl := Option.some.inj (hH'.symm.trans hH)
    rw [State.poolOfPtr, hblock]
    exact h.getOwningURPool hH hu
  · intro handle H hH pool hpool
    obtain ⟨⟨d, configs, hok⟩, -⟩ := h.handles handle H hH
    obtain ⟨u, hu⟩ := List.mem_iff_getElem?.1 hpool
    exact (hok.member hu).2.1

/-! ## Creation -/

theorem Inv.init (setup : Setup) : Inv setup .init where
  handles := by
    intro handle H hH
    cases (get_eq_some.1 hH).1
  listed := by
    intro context handle hmem
    cases hmem
  blocks := by
    intro p handle u hp
    cases hp
  asked := by
    intro p _
    rfl

/-- The handle that is made for one device. -/
theorem new_ok {context : Nat} (hdevices : setup.devices context = [d])
    (hconfigs : setup.configs chain = some configs) :
    (PoolHandle.new context chain configs (setup.devices context)).Ok setup d configs := by
  rw [hdevices]
  exact ⟨hdevices, rfl, rfl, rfl, rfl, configs_inForce hconfigs⟩

theorem mem_addPool {handles : List Nat} {i : Nat} :
    i ∈ addPool handle handles ↔ i = handle ∨ i ∈ handles := by
  unfold addPool
  split
  · refine ⟨.inr, ?_⟩
    rintro (rfl | hmem)
    · assumption
    · exact hmem
  · exact List.mem_cons

theorem get_append {new : PoolHandle} (hs : s'.handles = s.handles ++ [new])
    (hlive : new.deleted = false) :
    s'.get handle = some H ↔ s.get handle = some H ∨ handle = s.handles.length ∧ H = new := by
  rw [get_eq_some, get_eq_some, hs]
  rcases Nat.lt_trichotomy handle s.handles.length with hlt | rfl | hgt
  · rw [List.getElem?_append_left hlt]
    simp [Nat.ne_of_lt hlt]
  · rw [List.getElem?_concat_length, List.getElem?_eq_none (Nat.le_refl _)]
    constructor
    · rintro ⟨hH, -⟩
      exact .inr ⟨rfl, (Option.some.inj hH).symm⟩
    · rintro (⟨hH, -⟩ | ⟨-, rfl⟩)
      · cases hH
      · exact ⟨rfl, hlive⟩
  · have hnew : (s.handles ++ [new]).length ≤ handle := by
      rw [List.length_append]
      exact hgt
    rw [List.getElem?_eq_none hnew, List.getElem?_eq_none (Nat.le_of_lt hgt)]
    simp [Nat.ne_of_gt hgt]

theorem Inv.create (h : Inv setup s) {context : Nat} (hdevices : setup.devices context = [d])
    (hconfigs : setup.configs chain = some configs) :
    Inv setup (urUSMPoolCreate setup s context false chain).2 := by
  have hok := new_ok hdevices hconfigs
  have hnew : (PoolHandle.new context chain configs (setup.devices context)).context = context ∧
      (PoolHandle.new context chain configs (setup.devices context)).deleted = false := by
    rw [hdevices]
    exact ⟨rfl, rfl⟩
  have hspec : (urUSMPoolCreate setup s context false chain).2 = { s with
      handles := s.handles ++ [.new context chain configs (setup.devices context)]
      poolHandles := update s.poolHandles context
        (addPool s.handles.length (s.poolHandles context)) } := by
    simp [urUSMPoolCreate, hconfigs, hdevices]
  rw [hspec]
  generalize PoolHandle.new context chain configs (setup.devices context) = new at hok hnew
  obtain ⟨rfl, hlive⟩ := hnew
  -- only the context of the new pool lists one more
  have hlisted : ∀ i context', i ∈ update s.poolHandles new.context
      (addPool s.handles.length (s.poolHandles new.context)) context' ↔
      context' = new.context ∧ i = s.handles.length ∨ i ∈ s.poolHandles context' := by
    intro i context'
    by_cases hcontext : context' = new.context
    · rw [hcontext, update_self, mem_addPool]
      simp
    · simp [hcontext]
  constructor
  · intro handle H hH
    rcases (get_append rfl hlive).1 hH with hold | ⟨rfl, rfl⟩
    · obtain ⟨hok, hmem⟩ := h.handles handle H hold
      exact ⟨hok, (hlisted _ _).2 (.inr hmem)⟩
    · exact ⟨⟨d, configs, hok⟩, (hlisted _ _).2 (.inl ⟨rfl, rfl⟩)⟩
  · intro context' i hmem
    rcases (hlisted _ _).1 hmem with ⟨rfl, rfl⟩ | hmem
    · exact ⟨new, (get_append rfl hlive).2 (.inr ⟨rfl, rfl⟩), rfl⟩
    · obtain ⟨H, hH, hcontext⟩ := h.listed context' i hmem
      exact ⟨H, (get_append rfl hlive).2 (.inl hH), hcontext⟩
  · intro p handle u hp
    obtain ⟨H, pool, hH, hu, hasked⟩ := h.blocks p handle u hp
    exact ⟨H, pool, (get_append rfl hlive).2 (.inl hH), hu, hasked⟩
  · exact h.asked

/-! ## Retain and release -/

theorem get_set_ne (hs : s'.handles = s.handles.set handle H) {i : Nat} (hi : i ≠ handle) :
    s'.get i = s.get i := by
  rw [State.get, State.get, hs, List.getElem?_set_ne hi.symm]

theorem get_set_live (hH : s.get handle = some H) {H' : PoolHandle}
    (hs : s'.handles = s.handles.set handle H') (hlive : H'.deleted = false) :
    s'.get handle = some H' := by
  have hlt := (List.getElem?_eq_some_iff.1 (get_eq_some.1 hH).1).1
  rw [get_eq_some, hs, List.getElem?_set_self hlt]
  exact ⟨rfl, hlive⟩

/-- The count of a handle is no part of the invariant. -/
theorem Inv.setRefCount (h : Inv setup s) (hH : s.get handle = some H) (n : Nat) :
    Inv setup { s with handles := s.handles.set handle { H with refCount := n } } := by
  have hself := @get_set_live s { s with handles := s.handles.set handle { H with refCount := n } }
    handle H hH _ rfl (get_eq_some.1 hH).2
  -- the handles are those that there were, with some count
  have hthere : ∀ {i H'}, s.get i = some H' →
      ∃ m, State.get { s with handles := s.handles.set handle { H with refCount := n } } i =
        some { H' with refCount := m } := by
    intro i H' hH'
    by_cases hi : i = handle
    · obtain rfl := hi
      obtain rfl := Option.some.inj (hH.symm.trans hH')
      exact ⟨n, hself⟩
    · exact ⟨H'.refCount, (get_set_ne rfl hi).trans hH'⟩
  constructor
  · intro i H' hH'
    have hbefore : ∃ H'' m, s.get i = some H'' ∧ H' = { H'' with refCount := m } := by
      by_cases hi : i = handle
      · obtain rfl := hi
        exact ⟨H, n, hH, Option.some.inj (hH'.symm.trans hself)⟩
      · exact ⟨H', H'.refCount, (get_set_ne rfl hi).symm.trans hH', rfl⟩
    obtain ⟨H'', m, hH'', rfl⟩ := hbefore
    obtain ⟨⟨d, configs, hok⟩, hmem⟩ := h.handles i H'' hH''
    exact ⟨⟨d, configs, hok.device, hok.hostMemPool, hok.deviceMemPool, hok.sharedMemPool,
      hok.pools, hok.limits⟩, hmem⟩
  · intro context i hmem
    obtain ⟨H', hH', hcontext⟩ := h.listed context i hmem
    obtain ⟨m, hm⟩ := hthere hH'
    exact ⟨_, hm, hcontext⟩
  · intro p i u hp
    obtain ⟨H', pool, hH', hu, hasked⟩ := h.blocks p i u hp
    obtain ⟨m, hm⟩ := hthere hH'
    exact ⟨_, pool, hm, hu, hasked⟩
  · exact h.asked

/-- **The last release** takes the handle and what it has handed out. -/
theorem Inv.delete (h : Inv setup s) (hH : s.get handle = some H)
    (hlast : ¬ H.refCount - 1 > 0) : Inv setup (urUSMPoolRelease s handle H) := by
  obtain ⟨⟨d, configs, hok⟩, -⟩ := h.handles handle H hH
  unfold urUSMPoolRelease
  rw [if_neg hlast]
  generalize ((H.destroy H.hostMemPool).destroy H.sharedMemPool).destroy H.deviceMemPool = gone
  generalize hs' : State.mk _ _ _ _ = s'
  have hhandles : s'.handles = s.handles.set handle { gone with deleted := true } := by rw [← hs']
  have hget : ∀ {i H'}, s'.get i = some H' ↔ i ≠ handle ∧ s.get i = some H' := by
    intro i H'
    by_cases hi : i = handle
    · refine iff_of_false ?_ fun h => h.1 hi
      intro hH'
      have hlt := (List.getElem?_eq_some_iff.1 (get_eq_some.1 hH).1).1
      obtain ⟨hset, hlive⟩ := get_eq_some.1 hH'
      rw [hi, hhandles, List.getElem?_set_self hlt] at hset
      rw [← Option.some.inj hset] at hlive
      cases hlive
    · rw [get_set_ne hhandles hi]
      simp [hi]
  have hlisted : ∀ {i context}, i ∈ s'.poolHandles context ↔
      i ∈ s.poolHandles context ∧ (context = H.context → i ≠ handle) := by
    intro i context
    rw [← hs']
    by_cases hcontext : context = H.context
    · simp [hcontext]
    · simp [hcontext]
  -- a block is gone if and only if it is one of the handle
  have hblock : ∀ q, (s.blocks q).any (H.owns handle) = true ↔
      ∃ u, s.blocks q = some (handle, u) := by
    intro q
    rw [Option.any_eq_true]
    constructor
    · rintro ⟨⟨i, u⟩, hq, howns⟩
      rw [PoolHandle.owns, Bool.and_eq_true, beq_iff_eq] at howns
      exact ⟨u, howns.1 ▸ hq⟩
    · rintro ⟨u, hq⟩
      obtain ⟨H', pool, hH', hu, -⟩ := h.blocks q handle u hq
      obtain rfl := Option.some.inj (hH'.symm.trans hH)
      refine ⟨_, hq, ?_⟩
      rw [PoolHandle.owns, (hok.member hu).1, beq_self_eq_true, Bool.and_self]
  constructor
  · intro i H' hH'
    obtain ⟨hi, hH'⟩ := hget.1 hH'
    obtain ⟨hok', hmem⟩ := h.handles i H' hH'
    exact ⟨hok', hlisted.2 ⟨hmem, fun _ => hi⟩⟩
  · intro context i hmem
    obtain ⟨hmem, hne⟩ := hlisted.1 hmem
    obtain ⟨H', hH', rfl⟩ := h.listed context i hmem
    refine ⟨H', hget.2 ⟨?_, hH'⟩, rfl⟩
    rintro rfl
    obtain rfl := Option.some.inj (hH'.symm.trans hH)
    exact hne rfl rfl
  · intro q i u hq
    rw [← hs'] at hq ⊢
    obtain ⟨hkept, hbefore⟩ := Option.ite_none_left_eq_some.1 hq
    obtain ⟨H', pool, hH', hu, hasked⟩ := h.blocks q i u hbefore
    refine ⟨H', pool, ?_, hu, (if_neg hkept).trans hasked⟩
    rw [hs', hget]
    refine ⟨?_, hH'⟩
    rintro rfl
    exact hkept ((hblock q).2 ⟨u, hbefore⟩)
  · intro q hq
    rw [← hs'] at hq ⊢
    by_cases hgone : (s.blocks q).any (H.owns handle) = true
    · exact if_pos hgone
    · exact (if_neg hgone).trans (h.asked q ((if_neg hgone).symm.trans hq))

/-! ## Allocation and free -/

/-- A block is handed out or comes back: what it was asked for is what its pool is for. -/
theorem Inv.setBlock (h : Inv setup s) (block : Option (Nat × Nat)) (r : Option Request)
    (hblock : ∀ handle u, block = some (handle, u) → ∃ H pool, s.get handle = some H ∧
      H.pools[u]? = some pool ∧ r = some ⟨handle, pool.kind, pool.device⟩)
    (hnone : block = none → r = none) :
    Inv setup { s with
      blocks := update s.blocks p block
      asked := update s.asked p r } where
  handles := h.handles
  listed := h.listed
  blocks := by
    intro p' handle u hp'
    dsimp only at hp' ⊢
    by_cases hp : p' = p
    · rw [hp, update_self] at hp'
      rw [hp, update_self]
      exact hblock handle u hp'
    · rw [update_of_ne hp] at hp'
      rw [update_of_ne hp]
      exact h.blocks p' handle u hp'
  asked := by
    intro p' hp'
    dsimp only at hp' ⊢
    by_cases hp : p' = p
    · rw [hp, update_self] at hp'
      rw [hp, update_self]
      exact hnone hp'
    · rw [update_of_ne hp] at hp'
      rw [update_of_ne hp]
      exact h.asked p' hp'

/-- The pool that a careful allocation goes to is the one that was asked for. -/
theorem PoolHandle.Ok.served (h : H.Ok setup d configs) {kind : Kind} {device : Option Nat}
    (hadapter : setup.adapter = .hip → kind = .device)
    (hdevice : if kind = .host then device = none
      else ∃ d ∈ setup.devices H.context, device = some d)
    (hu : setup.member H kind = some u) :
    ∃ pool, H.pools[u]? = some pool ∧ pool.kind = kind ∧ pool.device = device := by
  rw [h.device] at hdevice
  have hone : kind ≠ .host → device = some d := by
    intro hkind
    rw [if_neg hkind] at hdevice
    obtain ⟨d', hd', hdev⟩ := hdevice
    rw [hdev, List.mem_singleton.1 hd']
  rw [h.pools]
  unfold Setup.member at hu
  cases hset : setup.adapter with
  | cuda =>
    rw [hset] at hu
    cases kind with
    | host =>
      obtain rfl := Option.some.inj (h.hostMemPool.symm.trans hu)
      exact ⟨_, rfl, rfl, hdevice.symm⟩
    | device =>
      obtain rfl := Option.some.inj (h.deviceMemPool.symm.trans hu)
      exact ⟨_, rfl, rfl, (hone (by decide)).symm⟩
    | shared =>
      obtain rfl := Option.some.inj (h.sharedMemPool.symm.trans hu)
      exact ⟨_, rfl, rfl, (hone (by decide)).symm⟩
  | hip =>
    rw [hset] at hu
    -- the member is the one for device memory whatever is asked for
    obtain rfl := hadapter hset
    obtain rfl := Option.some.inj (h.deviceMemPool.symm.trans hu)
    exact ⟨_, rfl, rfl, (hone (by decide)).symm⟩

theorem Inv.alloc (h : Inv setup s) {kind : Kind} {device : Option Nat} {alignment : UInt32}
    {ptr : Option Nat} (hH : s.get handle = some H)
    (hadapter : setup.adapter = .hip → kind = .device)
    (hdevice : if kind = .host then device = none
      else ∃ d ∈ setup.devices H.context, device = some d) :
    Inv setup (urUSMAlloc setup s handle H kind device alignment ptr).2 := by
  obtain ⟨⟨d, configs, hok⟩, -⟩ := h.handles handle H hH
  unfold urUSMAlloc
  split
  · exact h
  · split
    · rename_i hmember
      obtain ⟨pool, hu, rfl, rfl⟩ := hok.served hadapter hdevice hmember
      refine h.setBlock _ _ ?_ ?_
      · intro handle' u' heq
        cases heq
        exact ⟨H, pool, hH, hu, rfl⟩
      · intro hnone
        cases hnone
    · exact h

theorem Inv.free (h : Inv setup s) (ptr : Nat) : Inv setup (urUSMFree s ptr) := by
  apply h.setBlock none none
  · intro handle u hu
    cases hu
  · intro _
    rfl

/-! ## Runs -/

theorem Inv.step {call : Call} (h : Inv setup s) (hallowed : call.Allowed setup s)
    (hcareful : call.Careful setup) (hstep : UserPools.step setup s call = some s') :
    Inv setup s' := by
  cases call with
  | create context zeroInitialize chain =>
    obtain rfl := Option.some.inj hstep
    obtain ⟨d, hd⟩ := hcareful
    cases zeroInitialize with
    | true => exact h
    | false =>
      cases hconfigs : setup.configs chain with
      | none =>
        simp only [urUSMPoolCreate, hconfigs]
        exact h
      | some configs => exact h.create hd hconfigs
  | retain handle =>
    obtain ⟨H, hH, rfl⟩ := Option.map_eq_some_iff.1 hstep
    exact h.setRefCount hH _
  | release handle =>
    obtain ⟨H, hH, rfl⟩ := Option.map_eq_some_iff.1 hstep
    by_cases hmore : H.refCount - 1 > 0
    · rw [urUSMPoolRelease, if_pos hmore]
      exact h.setRefCount hH _
    · exact h.delete hH hmore
  | alloc handle kind device alignment ptr =>
    obtain ⟨H, hH, rfl⟩ := Option.map_eq_some_iff.1 hstep
    exact h.alloc hH hcareful (hallowed.2 H hH)
  | free ptr =>
    obtain ⟨-, hfree⟩ := Option.ite_none_right_eq_some.1 hstep
    obtain rfl := Option.some.inj hfree
    exact h.free ptr

theorem CarefullyReached.inv (h : CarefullyReached setup s) : Inv setup s := by
  induction h with
  | init => exact Inv.init setup
  | next _ hallowed hcareful hstep ih => exact ih.step hallowed hcareful hstep

/-- **Careful runs**: every allocation is served as asked, the query finds its handle, and no pool
of a handle dies before it. -/
theorem userPools_right (h : CarefullyReached setup s) : Right setup s :=
  h.inv.right

/-- CUDA serves a host allocation on a context of one device. -/
theorem userPools_right_host : ∃ s, s.asked 7 = some ⟨0, .host, none⟩ ∧
    Right ⟨.cuda, fun _ => [0], fun _ => ⟨2, 1⟩⟩ s := by
  have hcreate := @CarefullyReached.next ⟨.cuda, fun _ => [0], fun _ => ⟨2, 1⟩⟩ _ _
    (.create 0 false []) .init trivial ⟨0, rfl⟩ rfl
  refine ⟨_, ?_, userPools_right (@CarefullyReached.next _ _ _ (.alloc 0 .host none 0 (some 7))
    hcreate ⟨?_, ?_⟩ ?_ rfl)⟩
  · rfl
  · intro p _
    rfl
  · intro H _
    rfl
  · intro hadapter
    cases hadapter

/-- **What goes wrong**: the pools for the first of two devices are gone when the constructor
returns, and HIP serves a host allocation from device memory. -/
theorem first_device_destroyed :
    (∃ s, Reached ⟨.cuda, fun _ => [0, 1], fun _ => ⟨2, 1⟩⟩ s ∧
      ¬ Right ⟨.cuda, fun _ => [0, 1], fun _ => ⟨2, 1⟩⟩ s) ∧
    ∃ s, Reached ⟨.hip, fun _ => [0], fun _ => ⟨2, 1⟩⟩ s ∧
      ¬ Right ⟨.hip, fun _ => [0], fun _ => ⟨2, 1⟩⟩ s := by
  constructor
  · refine ⟨_, @Reached.next _ _ _ (.create 0 false []) .init trivial rfl, ?_⟩
    intro h
    cases h.kept 0 _ rfl ⟨.device, some 0, ⟨2, 1⟩, false⟩ (by decide)
  · have hcreate := @Reached.next ⟨.hip, fun _ => [0], fun _ => ⟨2, 1⟩⟩ _ _
      (.create 0 false [.limits ⟨4, 1⟩]) .init trivial rfl
    refine ⟨_, @Reached.next _ _ _ (.alloc 0 .host none 0 (some 7)) hcreate ⟨?_, ?_⟩ rfl, ?_⟩
    · intro p _
      rfl
    · intro H _
      rfl
    · intro h
      obtain ⟨u, pool, H, hblock, hH, hu, -, hkind, -⟩ := h.served 7 _ rfl
      cases hblock
      cases hH
      cases hu
      cases hkind

end UnifiedRuntime.UserPools
