import Mathlib.Data.List.Dedup
import Mathlib.Data.Prod.Lex
import Mathlib.Order.Minimal
import UnifiedRuntime.Lib.GuardedRuns

/-!
# The device cache of a Level Zero platform

The devices of a driver with their sub-devices, the queues of these, and the cards the devices are
on. Children are put into the cache before their parents, and a call that fails leaves there what
it has put: children whose parent is gone, and devices that the next call adds again. The array of
sub-device handles is deleted on one error only.

- `subDevices_spec`, `device_spec`, `devices_spec`: what the loops of a call put into the cache.
-/

namespace UnifiedRuntime.LevelZero.DeviceCache

/-- `ze_device_handle_t`. -/
abbrev ZeHandle := Nat

/-- The address of a `ur_device_handle_t_`. -/
abbrev Address := Nat

/-- The ordinal and the index of a compute queue. -/
abbrev Queue := Nat × Nat

/-! ## What the driver reports -/

structure QueueGroup where
  compute : Bool
  numQueues : Nat

structure SubTree where
  ze : ZeHandle
  groups : List QueueGroup
  isPVC : Bool

/-- A device with its sub-devices, and what `zeDeviceGetRootDevice` gives for it. -/
structure Tree where
  ze : ZeHandle
  subs : List SubTree
  root : Option ZeHandle

/-- The calls of the driver, and what else can fail. The loop counters tell them apart. -/
inductive Step where
  | deviceCount
  | devices
  | initializeDevice (i : Nat)
  | subDeviceCount (i : Nat)
  | subDevices (i : Nat)
  | initializeSub (i j : Nat)
  | queueGroupCount (i j : Nat)
  | queueGroups (i j : Nat)
  | initializeSubSub (i j : Nat) (queue : Queue)
  | rootDevice (i : Nat)
  | initializeRoot (i : Nat)
deriving DecidableEq

inductive Failure where
  | driver
  | unknown

/-! ## The cache -/

/-- `ur_device_handle_t_`: the queue is that of a sub-sub-device. -/
structure Device where
  address : Address
  ze : ZeHandle
  root : Option Address := none
  subs : List Address := []
  queue : Option Queue := none
  id : Nat := 0
deriving DecidableEq

/-- `ur_platform_handle_t_`, with what was allocated: addresses, and arrays not deleted yet. -/
structure Platform where
  cache : List Device := []
  populated : Bool := false
  next : Address := 0
  arrays : Nat := 0

namespace Platform

def alloc (s : Platform) : Platform := { s with next := s.next + 1 }

def push (s : Platform) (device : Device) : Platform := { s with cache := s.cache ++ [device] }

def newArray (s : Platform) : Platform := { s with arrays := s.arrays + 1 }

def deleteArray (s : Platform) : Platform := { s with arrays := s.arrays - 1 }

end Platform

/-- The queues that are sub-sub-devices. -/
def queues (exposeCSlice : Bool) (sub : SubTree) : List Queue :=
  if sub.isPVC || exposeCSlice then
    sub.groups.zipIdx.flatMap fun g =>
      if g.1.compute && 1 < g.1.numQueues then (List.range g.1.numQueues).map fun k => (g.2, k)
      else []
  else []

/-- The sub-sub-devices, which have the handle of their sub-device. -/
def subSubDevices (failing : Option Step) (i j : Nat) (ze : ZeHandle) (parent : Address) :
    List Queue → List Address → Platform → Except Failure (List Address) × Platform
  | [], subs, s => (.ok subs, s)
  | q :: qs, subs, s =>
    if failing = some (.initializeSubSub i j q) then (.error .driver, s.alloc)
    else subSubDevices failing i j ze parent qs (subs ++ [s.next])
      (s.alloc.push { address := s.next, ze := ze, root := some parent, queue := some q })

/-- Devices without compute queues cannot be initialized. -/
def SubTree.hasCompute (sub : SubTree) : Bool := sub.groups.any (·.compute)

/-- One sub-device. -/
def subDevice (exposeCSlice : Bool) (failing : Option Step) (i j : Nat) (device : Address)
    (sub : SubTree) (s : Platform) : Except Failure Address × Platform :=
  if failing = some (.initializeSub i j) ∨ ¬ sub.hasCompute then
    (.error .driver, s.alloc.deleteArray)
  else if failing = some (.queueGroupCount i j) then (.error .driver, s.alloc)
  else if sub.groups = [] then (.error .unknown, s.alloc)
  else if failing = some (.queueGroups i j) then (.error .driver, s.alloc)
  else
    match subSubDevices failing i j sub.ze s.next (queues exposeCSlice sub) [] s.alloc with
    | (.error e, s') => (.error e, s')
    | (.ok subs, s') => (.ok s.next, s'.push
      { address := s.next, ze := sub.ze, root := some device, subs := subs })

def subDevices (exposeCSlice : Bool) (failing : Option Step) (i : Nat) (device : Address) :
    Nat → List SubTree → List Address → Platform → Except Failure (List Address) × Platform
  | _, [], subs, s => (.ok subs, s)
  | j, sub :: rest, subs, s =>
    match subDevice exposeCSlice failing i j device sub s with
    | (.error e, s') => (.error e, s')
    | (.ok x, s') => subDevices exposeCSlice failing i device (j + 1) rest (subs ++ [x]) s'

/-- The card of a device, unless it is in the cache. -/
def rootDevice (failing : Option Step) (i : Nat) (root : Option ZeHandle) (s : Platform) :
    Except Failure Unit × Platform :=
  match root with
  | none => (.ok (), s)
  | some ze =>
    if s.cache.any (·.ze = ze) then (.ok (), s)
    else if failing = some (.initializeRoot i) then (.error .driver, s.alloc)
    else (.ok (), s.alloc.push { address := s.next, ze := ze })

/-- One device: the array of its sub-device handles lives through the loop. -/
def device (exposeCSlice : Bool) (failing : Option Step) (i : Nat) (t : Tree) (s : Platform) :
    Except Failure Unit × Platform :=
  if failing = some (.initializeDevice i) then (.error .driver, s.alloc)
  else if failing = some (.subDeviceCount i) then (.error .driver, s.alloc)
  else if failing = some (.subDevices i) then (.error .driver, s.alloc.newArray)
  else
    match subDevices exposeCSlice failing i s.next 0 t.subs [] s.alloc.newArray with
    | (.error e, s') => (.error e, s')
    | (.ok subs, s') =>
      if failing = some (.rootDevice i) then (.error .driver, s'.deleteArray)
      else
        match rootDevice failing i t.root s'.deleteArray with
        | (.error e, s'') => (.error e, s'')
        | (.ok _, s'') => (.ok (), s''.push { address := s.next, ze := t.ze, subs := subs })

def devices (exposeCSlice : Bool) (failing : Option Step) :
    Nat → List Tree → Platform → Except Failure Unit × Platform
  | _, [], s => (.ok (), s)
  | i, t :: rest, s =>
    match device exposeCSlice failing i t s with
    | (.error e, s') => (.error e, s')
    | (.ok _, s') => devices exposeCSlice failing (i + 1) rest s'

/-- The ids of the cached devices. -/
def withIds (cache : List Device) : List Device :=
  cache.mapIdx fun id device => { device with id := id }

/-- `populateDeviceCacheIfNeeded`, with the step that fails. -/
def populateDeviceCacheIfNeeded (exposeCSlice : Bool) (tree : List Tree) (s : Platform)
    (failing : Option Step) : Except Failure Unit × Platform :=
  if s.populated then (.ok (), s)
  else if failing = some .deviceCount ∨ failing = some .devices then (.error .driver, s)
  else
    match devices exposeCSlice failing 0 tree s with
    | (.error e, s') => (.error e, s')
    | (.ok _, s') => (.ok (), { s' with populated := true, cache := withIds s'.cache })

/-- What a `RootDevice` pointer refers to. -/
def find (cache : List Device) (x : Address) : Option Device := cache.find? (·.address = x)

/-- `getDeviceFromNativeHandle`, in the cache: sub-sub-devices are filtered out. -/
def getDeviceFromNativeHandle (cache : List Device) (ze : ZeHandle) : Option Device :=
  cache.find? fun d => d.ze = ze ∧
    (d.root = none ∨ ∃ x ∈ d.root, ∃ parent ∈ find cache x, parent.root = none)

def getNumDevices (s : Platform) : Nat := s.cache.length

def getDeviceById (cache : List Device) (id : Nat) : Option Device := cache.find? (·.id = id)

/-! ## Trees and their caches -/

def Tree.handles (t : Tree) : List ZeHandle := t.ze :: t.subs.map (·.ze)

/-- What tells the devices of a cache apart. -/
def Device.key (d : Device) : ZeHandle × Option Queue := (d.ze, d.queue)

/-- A sub-device, and those of its queues. -/
def SubTree.keys (exposeCSlice : Bool) (sub : SubTree) : List (ZeHandle × Option Queue) :=
  (queues exposeCSlice sub).map (fun q => (sub.ze, some q)) ++ [(sub.ze, none)]

def Tree.keys (exposeCSlice : Bool) (t : Tree) : List (ZeHandle × Option Queue) :=
  t.subs.flatMap (SubTree.keys exposeCSlice) ++ [(t.ze, none)]

/-- The cards, each once. -/
def cards (tree : List Tree) : List ZeHandle := (tree.filterMap (·.root)).dedup

/-- What a driver reports: the handles differ, the cards are visible as root devices only. -/
structure Reported (tree : List Tree) : Prop where
  nodup : (tree.flatMap Tree.handles).Nodup
  cards : ∀ t ∈ tree, ∀ ze, t.root = some ze → ze ∉ tree.flatMap Tree.handles

/-- **The cache is complete**: every device is there once, the pointers lead to one another, and
both ways to look a device up find it. -/
structure Complete (exposeCSlice : Bool) (tree : List Tree) (cache : List Device) : Prop where
  entries : (cache.map Device.key).Perm
    (tree.flatMap (Tree.keys exposeCSlice) ++ (cards tree).map fun ze => (ze, none))
  addresses : (cache.map (·.address)).Nodup
  root : ∀ d ∈ cache, ∀ x, d.root = some x →
    ∃ parent ∈ cache, parent.address = x ∧ d.address ∈ parent.subs
  subs : ∀ d ∈ cache, ∀ x ∈ d.subs, ∃ child ∈ cache, child.address = x ∧ child.root = some d.address
  ids : cache.map (·.id) = List.range cache.length
  byId : ∀ d ∈ cache, getDeviceById cache d.id = some d
  native : ∀ ze ∈ tree.flatMap Tree.handles ++ cards tree, ∃ d ∈ cache, d.ze = ze ∧ d.queue = none ∧
    getDeviceFromNativeHandle cache ze = some d

/-- **A call is right.** -/
structure CallRight (exposeCSlice : Bool) (tree : List Tree) (s : Platform)
    (failing : Option Step) : Prop where
  success : (populateDeviceCacheIfNeeded exposeCSlice tree s failing).1 = .ok () →
    Complete exposeCSlice tree (populateDeviceCacheIfNeeded exposeCSlice tree s failing).2.cache
  parents : ∀ d ∈ (populateDeviceCacheIfNeeded exposeCSlice tree s failing).2.cache,
    ∀ x, d.root = some x →
      ∃ parent ∈ (populateDeviceCacheIfNeeded exposeCSlice tree s failing).2.cache,
        parent.address = x
  arrays : (populateDeviceCacheIfNeeded exposeCSlice tree s failing).2.arrays = s.arrays

/-! ## Which step fails -/

/-- A step of one sub-device. -/
def Step.AtSub (exposeCSlice : Bool) (i j : Nat) (sub : SubTree) : Step → Prop
  | .initializeSub i' j' | .queueGroupCount i' j' | .queueGroups i' j' => i' = i ∧ j' = j
  | .initializeSubSub i' j' q => i' = i ∧ j' = j ∧ q ∈ queues exposeCSlice sub
  | _ => False

/-- A step of one device: its card is initialized unless it was seen before. -/
def Step.AtDevice (exposeCSlice : Bool) (i : Nat) (t : Tree) (seen : List ZeHandle) : Step → Prop
  | .initializeDevice i' | .subDeviceCount i' | .subDevices i' | .rootDevice i' => i' = i
  | .initializeRoot i' => i' = i ∧ ∃ ze, t.root = some ze ∧ ze ∉ seen
  | step => ∃ j sub, t.subs[j]? = some sub ∧ step.AtSub exposeCSlice i j sub

/-- The handles that a device adds to the cache. -/
def Tree.seen (t : Tree) : List ZeHandle := t.handles ++ t.root.toList

/-- A step on the way of a call, which may end before it. -/
def Occurs (exposeCSlice : Bool) (tree : List Tree) (cache : List Device) (step : Step) : Prop :=
  step = .deviceCount ∨ step = .devices ∨ ∃ i t, tree[i]? = some t ∧
    step.AtDevice exposeCSlice i t (cache.map (·.ze) ++ (tree.take i).flatMap Tree.seen)

/-- A step that fails in a call: initialization does for every sub-device without compute queues. -/
def Fails (tree : List Tree) (failing : Option Step) (step : Step) : Prop :=
  failing = some step ∨ ∃ i j t sub, tree[i]? = some t ∧ t.subs[j]? = some sub ∧
    ¬ sub.hasCompute ∧ step = .initializeSub i j

/-- The order of the steps: those of a device, of its sub-devices one by one, and of its card. -/
def Step.place : Step → ℕ ×ₗ ℕ ×ₗ ℕ
  | .deviceCount => toLex (0, toLex (0, 0))
  | .devices => toLex (0, toLex (0, 1))
  | .initializeDevice i => toLex (i + 1, toLex (0, 0))
  | .subDeviceCount i => toLex (i + 1, toLex (0, 1))
  | .subDevices i => toLex (i + 1, toLex (0, 2))
  | .initializeSub i j => toLex (i + 1, toLex (1, 4 * j))
  | .queueGroupCount i j => toLex (i + 1, toLex (1, 4 * j + 1))
  | .queueGroups i j => toLex (i + 1, toLex (1, 4 * j + 2))
  | .initializeSubSub i j _ => toLex (i + 1, toLex (1, 4 * j + 3))
  | .rootDevice i => toLex (i + 1, toLex (2, 0))
  | .initializeRoot i => toLex (i + 1, toLex (2, 1))

/-- A call ends at the first step that fails. -/
def EndsAt (exposeCSlice : Bool) (tree : List Tree) (cache : List Device) (failing : Option Step)
    (step : Step) : Prop :=
  MinimalFor (fun step => Fails tree failing step ∧ Occurs exposeCSlice tree cache step)
    Step.place step

/-- Nothing of the device is in the cache when the step fails, and no array is lost. -/
def Harmless (tree : List Tree) : Step → Prop
  | .deviceCount | .devices | .initializeDevice _ | .subDeviceCount _ => True
  | .initializeSub _ j => j = 0
  | .rootDevice i | .initializeRoot i => ∀ t, tree[i]? = some t → t.subs = []
  | _ => False

/-- **No call meets a defect**: the step at which a call ends is harmless, and a call where none
fails starts from an empty cache. -/
def Careful (exposeCSlice : Bool) (tree : List Tree) (s : Platform) (failing : Option Step) :
    Prop :=
  s.populated = true ∨
    (∀ step, EndsAt exposeCSlice tree s.cache failing step → Harmless tree step) ∧
    ((∀ step, ¬ EndsAt exposeCSlice tree s.cache failing step) → s.cache = [])

/-! ## Sub-devices -/

variable {exposeCSlice : Bool} {failing : Option Step} {i j : Nat} {s s' : Platform}
  {lo mid hi : Address}

/-- The sub-devices of a device whose address is known, with those of their queues. -/
structure Block (device lo hi : Address) (subs : List Address) (block : List Device) : Prop where
  range : ∀ d ∈ block, lo ≤ d.address ∧ d.address < hi
  nodup : (block.map (·.address)).Nodup
  root : ∀ d ∈ block, (d.root = some device ∧ d.address ∈ subs ∧ d.queue = none) ∨
    ∃ p ∈ block, d.root = some p.address ∧ d.address ∈ p.subs ∧ d.queue ≠ none ∧
      p.root = some device
  children : ∀ d ∈ block, ∀ x ∈ d.subs, ∃ c ∈ block, c.address = x ∧ c.root = some d.address
  there : ∀ x ∈ subs, ∃ c ∈ block, c.address = x ∧ c.root = some device

theorem Block.nil (x lo : Address) : Block x lo lo [] [] :=
  ⟨nofun, List.nodup_nil, nofun, nofun, nofun⟩

theorem Block.append {x : Address} {subs subs' : List Address} {block block' : List Device}
    (h : Block x lo mid subs block) (h' : Block x mid hi subs' block') (hlo : lo ≤ mid)
    (hhi : mid ≤ hi) : Block x lo hi (subs ++ subs') (block ++ block') := by
  refine ⟨fun d hd => ?_, ?_, fun d hd => ?_, fun d hd y hy => ?_, fun y hy => ?_⟩
  · rcases List.mem_append.mp hd with hd | hd
    · exact ⟨(h.range d hd).1, Nat.lt_of_lt_of_le (h.range d hd).2 hhi⟩
    · exact ⟨Nat.le_trans hlo (h'.range d hd).1, (h'.range d hd).2⟩
  · rw [List.map_append, List.nodup_append]
    refine ⟨h.nodup, h'.nodup, fun y hy y' hy' => ?_⟩
    obtain ⟨d, hd, rfl⟩ := List.mem_map.mp hy
    obtain ⟨d', hd', rfl⟩ := List.mem_map.mp hy'
    exact Nat.ne_of_lt (Nat.lt_of_lt_of_le (h.range d hd).2 (h'.range d' hd').1)
  · rcases List.mem_append.mp hd with hd | hd
    · rcases h.root d hd with ⟨hroot, hmem, hqueue⟩ | ⟨p, hp, hrest⟩
      · exact .inl ⟨hroot, List.mem_append_left _ hmem, hqueue⟩
      · exact .inr ⟨p, List.mem_append_left _ hp, hrest⟩
    · rcases h'.root d hd with ⟨hroot, hmem, hqueue⟩ | ⟨p, hp, hrest⟩
      · exact .inl ⟨hroot, List.mem_append_right _ hmem, hqueue⟩
      · exact .inr ⟨p, List.mem_append_right _ hp, hrest⟩
  · rcases List.mem_append.mp hd with hd | hd
    · obtain ⟨c, hc, hrest⟩ := h.children d hd y hy
      exact ⟨c, List.mem_append_left _ hc, hrest⟩
    · obtain ⟨c, hc, hrest⟩ := h'.children d hd y hy
      exact ⟨c, List.mem_append_right _ hc, hrest⟩
  · rcases List.mem_append.mp hy with hy | hy
    · obtain ⟨c, hc, hrest⟩ := h.there y hy
      exact ⟨c, List.mem_append_left _ hc, hrest⟩
    · obtain ⟨c, hc, hrest⟩ := h'.there y hy
      exact ⟨c, List.mem_append_right _ hc, hrest⟩

/-- The sub-sub-devices that are made from an address on. -/
def queueDevices (ze : ZeHandle) (parent lo : Address) (qs : List Queue) : List Device :=
  (qs.zipIdx lo).map fun q => { address := q.2, ze := ze, root := some parent, queue := some q.1 }

theorem subSubDevices_spec (failing : Option Step) (ze : ZeHandle) (parent : Address) :
    ∀ (qs : List Queue) (subs : List Address) (s : Platform),
    (∀ q ∈ qs, failing ≠ some (.initializeSubSub i j q)) →
      subSubDevices failing i j ze parent qs subs s =
        (.ok (subs ++ List.range' s.next qs.length), { s with
          cache := s.cache ++ queueDevices ze parent s.next qs
          next := s.next + qs.length })
  | [], subs, s, _ => by
    rw [subSubDevices]
    simp [queueDevices]
  | q :: qs, subs, s, h => by
    rw [subSubDevices, if_neg (h q List.mem_cons_self),
      subSubDevices_spec failing ze parent qs _ _ fun q' hq' => h q' (List.mem_cons_of_mem q hq')]
    simp [queueDevices, Platform.alloc, Platform.push, List.range'_succ, Nat.add_assoc,
      Nat.add_comm 1]

theorem mem_push {block : List Device} {d d' : Device} : d ∈ block ++ [d'] ↔ d ∈ block ∨ d = d' := by
  rw [List.mem_append, List.mem_singleton]

/-- A sub-device with its queues. -/
theorem subDevice_block {x : Address} (ze : ZeHandle) (qs : List Queue) :
    Block x lo (lo + 1 + qs.length) [lo] (queueDevices ze lo (lo + 1) qs ++
      [{ address := lo, ze := ze, root := some x, subs := List.range' (lo + 1) qs.length }]) := by
  have hqueue : ∀ d ∈ queueDevices ze lo (lo + 1) qs, (lo + 1 ≤ d.address ∧
      d.address < lo + 1 + qs.length) ∧ d.root = some lo ∧ d.queue ≠ none ∧ d.subs = [] := by
    intro d hd
    obtain ⟨q, hq, rfl⟩ := List.mem_map.mp hd
    obtain ⟨h1, h2, -⟩ := List.mem_zipIdx hq
    exact ⟨⟨h1, h2⟩, rfl, nofun, rfl⟩
  have haddresses : (queueDevices ze lo (lo + 1) qs).map (·.address) =
      List.range' (lo + 1) qs.length := by
    unfold queueDevices
    rw [List.map_map]
    exact List.zipIdx_map_snd ..
  refine ⟨fun d hd => ?_, ?_, fun d hd => ?_, fun d hd y hy => ?_, fun y hy => ?_⟩
  · rcases mem_push.mp hd with hd | rfl
    · obtain ⟨hlo, hhi⟩ := (hqueue d hd).1
      exact ⟨Nat.le_trans (Nat.le_succ _) hlo, hhi⟩
    · exact ⟨Nat.le_refl _, Nat.lt_of_lt_of_le (Nat.lt_succ_self _) (Nat.le_add_right ..)⟩
  · rw [List.map_append, haddresses, List.nodup_append]
    refine ⟨List.nodup_range', List.nodup_singleton _, fun y hy y' hy' => ?_⟩
    obtain rfl := List.mem_singleton.mp hy'
    exact Nat.ne_of_gt (List.mem_range'_1.mp hy).1
  · rcases mem_push.mp hd with hd | rfl
    · obtain ⟨-, hroot, hq, -⟩ := hqueue d hd
      refine .inr ⟨_, List.mem_append_right _ (List.mem_singleton_self _), hroot, ?_, hq, rfl⟩
      rw [← haddresses]
      exact List.mem_map_of_mem hd
    · exact .inl ⟨rfl, List.mem_singleton_self _, rfl⟩
  · rcases mem_push.mp hd with hd | rfl
    · rw [(hqueue d hd).2.2.2] at hy
      exact absurd hy List.not_mem_nil
    · rw [← haddresses] at hy
      obtain ⟨c, hc, rfl⟩ := List.mem_map.mp hy
      exact ⟨c, List.mem_append_left _ hc, rfl, (hqueue c hc).2.1⟩
  · obtain rfl := List.mem_singleton.mp hy
    exact ⟨_, List.mem_append_right _ (List.mem_singleton_self _), rfl, rfl⟩

theorem queueDevices_keys {ze : ZeHandle} {parent : Address} {qs : List Queue} :
    (queueDevices ze parent lo qs).map Device.key = qs.map fun q => (ze, some q) := by
  unfold queueDevices
  conv_rhs => rw [← List.zipIdx_map_fst lo qs]
  rw [List.map_map, List.map_map]
  rfl

/-- **One sub-device**, if none of its steps fails. -/
theorem subDevice_spec {x : Address} {sub : SubTree} (hcompute : sub.hasCompute = true)
    (hstep : ∀ step, failing = some step → ¬ step.AtSub exposeCSlice i j sub) (s : Platform) :
    ∃ block next, subDevice exposeCSlice failing i j x sub s =
        (.ok s.next, { s with cache := s.cache ++ block, next := next }) ∧
      s.next ≤ next ∧ Block x s.next next [s.next] block ∧
      block.map Device.key = sub.keys exposeCSlice := by
  have hgroups : sub.groups ≠ [] := by
    intro hnil
    unfold SubTree.hasCompute at hcompute
    rw [hnil] at hcompute
    cases hcompute
  have hqueues := subSubDevices_spec failing sub.ze s.next (i := i) (j := j)
    (queues exposeCSlice sub) [] s.alloc
    fun q hq h => hstep _ h ⟨rfl, rfl, hq⟩
  refine ⟨_, _, ?_, ?_, subDevice_block sub.ze (queues exposeCSlice sub), ?_⟩
  · unfold subDevice
    rw [if_neg, if_neg fun h => hstep (.queueGroupCount i j) h ⟨rfl, rfl⟩, if_neg hgroups,
      if_neg fun h => hstep (.queueGroups i j) h ⟨rfl, rfl⟩, hqueues]
    · dsimp only [Platform.push, Platform.alloc]
      rw [List.append_assoc, List.nil_append]
    · rintro (h | h)
      · exact hstep (.initializeSub i j) h ⟨rfl, rfl⟩
      · exact h hcompute
  · exact Nat.le_trans (Nat.le_succ _) (Nat.le_add_right ..)
  · rw [List.map_append, queueDevices_keys]
    rfl

/-- **The sub-devices of a device.** -/
theorem subDevices_spec (exposeCSlice : Bool) (failing : Option Step) {x : Address} :
    ∀ (subs : List SubTree) (j : Nat) (found : List Address) (s : Platform), (∀ sub ∈ subs, sub.hasCompute = true) →
    (∀ step, failing = some step → ∀ k sub, subs[k]? = some sub →
      ¬ step.AtSub exposeCSlice i (j + k) sub) →
    ∃ block next found', subDevices exposeCSlice failing i x j subs found s =
        (.ok (found ++ found'), { s with cache := s.cache ++ block, next := next }) ∧
      s.next ≤ next ∧ Block x s.next next found' block ∧
      block.map Device.key = subs.flatMap (SubTree.keys exposeCSlice)
  | [], j, found, s, _, _ => by
    refine ⟨[], s.next, [], ?_, Nat.le_refl _, Block.nil x s.next, rfl⟩
    rw [subDevices, List.append_nil, List.append_nil]
  | sub :: rest, j, found, s, hcompute, hstep => by
    obtain ⟨block, next, heq, hle, hblock, hkeys⟩ := subDevice_spec (x := x) (j := j)
      (hcompute sub List.mem_cons_self) (fun step h => hstep step h 0 sub rfl) s
    obtain ⟨block', next', found', heq', hle', hblock', hkeys'⟩ := subDevices_spec exposeCSlice failing
      rest (j + 1) (found ++ [s.next]) { s with cache := s.cache ++ block, next := next }
      (fun sub' h => hcompute sub' (List.mem_cons_of_mem sub h)) fun step h k sub' hk => by
        rw [Nat.add_assoc, Nat.add_comm 1]
        exact hstep step h (k + 1) sub' hk
    refine ⟨block ++ block', next', s.next :: found', ?_, Nat.le_trans hle hle',
      hblock.append hblock' hle hle', ?_⟩
    · rw [subDevices, heq]
      dsimp only
      rw [heq', List.append_assoc, List.append_assoc]
      rfl
    · rw [List.map_append, hkeys, hkeys', List.flatMap_cons]

/-! ## Devices -/

/-- **The invariant of the cache**: pointers lead to one another, and only those of queues lead two
steps up. -/
structure Closed (s : Platform) : Prop where
  range : ∀ d ∈ s.cache, d.address < s.next
  nodup : (s.cache.map (·.address)).Nodup
  root : ∀ d ∈ s.cache, ∀ x, d.root = some x → ∃ p ∈ s.cache, p.address = x ∧
    d.address ∈ p.subs ∧ (d.queue = none ↔ p.root = none)
  top : ∀ d ∈ s.cache, d.root = none → d.queue = none
  children : ∀ d ∈ s.cache, ∀ x ∈ d.subs, ∃ c ∈ s.cache, c.address = x ∧ c.root = some d.address

/-- A device without parent comes after its block. -/
theorem Closed.add (h : Closed s) {x next : Address} (ze : ZeHandle) {subs : List Address}
    {block : List Device} (hblock : Block x lo next subs block) (hlo : s.next ≤ lo)
    (hx : s.next ≤ x) (hxlo : x < lo) (hle : lo ≤ next) :
    Closed { s with
      cache := s.cache ++ (block ++ [{ address := x, ze := ze, subs := subs }]), next := next } := by
  have hcases : ∀ {d d' : Device}, d ∈ s.cache ++ (block ++ [d']) →
      d ∈ s.cache ∨ d ∈ block ∨ d = d' := by
    intro d d' hd
    rwa [List.mem_append, mem_push] at hd
  refine ⟨fun d hd => ?_, ?_, fun d hd y hy => ?_, fun d hd hroot => ?_, fun d hd y hy => ?_⟩
  · rcases hcases hd with hd | hd | rfl
    · exact Nat.lt_of_lt_of_le (h.range d hd) (Nat.le_trans hlo hle)
    · exact (hblock.range d hd).2
    · exact Nat.lt_of_lt_of_le hxlo hle
  · rw [List.map_append, List.map_append, List.nodup_append, List.nodup_append]
    refine ⟨h.nodup, ⟨hblock.nodup, List.nodup_singleton _, fun y hy y' hy' => ?_⟩,
      fun y hy y' hy' => ?_⟩
    · obtain ⟨d, hd, rfl⟩ := List.mem_map.mp hy
      obtain rfl := List.mem_singleton.mp hy'
      exact Nat.ne_of_gt (Nat.lt_of_lt_of_le hxlo (hblock.range d hd).1)
    · obtain ⟨d, hd, rfl⟩ := List.mem_map.mp hy
      rcases List.mem_append.mp hy' with hy' | hy'
      · obtain ⟨d', hd', rfl⟩ := List.mem_map.mp hy'
        exact Nat.ne_of_lt (Nat.lt_of_lt_of_le (h.range d hd)
          (Nat.le_trans hlo (hblock.range d' hd').1))
      · obtain rfl := List.mem_singleton.mp hy'
        exact Nat.ne_of_lt (Nat.lt_of_lt_of_le (h.range d hd) hx)
  · rcases hcases hd with hd | hd | rfl
    · obtain ⟨p, hp, hrest⟩ := h.root d hd y hy
      exact ⟨p, List.mem_append_left _ hp, hrest⟩
    · rcases hblock.root d hd with ⟨hroot, hmem, hqueue⟩ | ⟨p, hp, hroot, hmem, hqueue, hpr⟩
      · obtain rfl := Option.some.inj (hroot.symm.trans hy)
        refine ⟨_, List.mem_append_right _ (List.mem_append_right _ (List.mem_singleton_self _)),
          rfl, hmem, iff_of_true hqueue rfl⟩
      · obtain rfl := Option.some.inj (hroot.symm.trans hy)
        refine ⟨p, List.mem_append_right _ (List.mem_append_left _ hp), rfl, hmem, ?_⟩
        rw [hpr]
        exact iff_of_false hqueue nofun
    · cases hy
  · rcases hcases hd with hd | hd | rfl
    · exact h.top d hd hroot
    · rcases hblock.root d hd with ⟨hsome, -⟩ | ⟨p, -, hsome, -⟩
      · exact nomatch hsome.symm.trans hroot
      · exact nomatch hsome.symm.trans hroot
    · rfl
  · rcases hcases hd with hd | hd | rfl
    · obtain ⟨c, hc, hrest⟩ := h.children d hd y hy
      exact ⟨c, List.mem_append_left _ hc, hrest⟩
    · obtain ⟨c, hc, hrest⟩ := hblock.children d hd y hy
      exact ⟨c, List.mem_append_right _ (List.mem_append_left _ hc), hrest⟩
    · obtain ⟨c, hc, hrest⟩ := hblock.there y hy
      exact ⟨c, List.mem_append_right _ (List.mem_append_left _ hc), hrest⟩

theorem Closed.later (h : Closed s) {next : Address} (hle : s.next ≤ next) {arrays : Nat} :
    Closed { s with next := next, arrays := arrays } :=
  ⟨fun d hd => Nat.lt_of_lt_of_le (h.range d hd) hle, h.nodup, h.root, h.top, h.children⟩

theorem Closed.perm (h : Closed s) {cache : List Device} (hperm : s.cache.Perm cache) :
    Closed { s with cache := cache } := by
  refine ⟨fun d hd => h.range d (hperm.mem_iff.mpr hd), ((hperm.map _).nodup_iff).mp h.nodup,
    fun d hd x hx => ?_, fun d hd => h.top d (hperm.mem_iff.mpr hd), fun d hd x hx => ?_⟩
  · obtain ⟨p, hp, hrest⟩ := h.root d (hperm.mem_iff.mpr hd) x hx
    exact ⟨p, hperm.mem_iff.mp hp, hrest⟩
  · obtain ⟨c, hc, hrest⟩ := h.children d (hperm.mem_iff.mpr hd) x hx
    exact ⟨c, hperm.mem_iff.mp hc, hrest⟩

/-- The card of a device, where it is new. -/
def newCard (t : Tree) (cache : List Device) : List ZeHandle :=
  t.root.toList.filter fun ze => ze ∉ cache.map (·.ze)

/-- **One device**, if none of its steps fails. -/
theorem device_spec (exposeCSlice : Bool) (failing : Option Step) {t : Tree}
    (hcompute : ∀ sub ∈ t.subs, sub.hasCompute = true)
    (hcard : ∀ ze, t.root = some ze → ze ∉ t.handles)
    (hstep : ∀ step, failing = some step →
      ¬ step.AtDevice exposeCSlice i t (s.cache.map (·.ze))) :
    ∃ block next, device exposeCSlice failing i t s =
        (.ok (), { s with cache := s.cache ++ block, next := next }) ∧
      (Closed s → Closed { s with cache := s.cache ++ block, next := next }) ∧
      (block.map Device.key).Perm
        (t.keys exposeCSlice ++ (newCard t s.cache).map fun ze => (ze, none)) := by
  obtain ⟨block, next, found, hsubs, hle, hblock, hkeys⟩ := subDevices_spec exposeCSlice failing
    (i := i) (x := s.next) t.subs 0 [] s.alloc.newArray hcompute
    fun step h k sub hk hat => by
      rw [Nat.zero_add] at hat
      refine hstep step h ?_
      cases step <;> first | exact hat.elim | exact ⟨k, sub, hk, hat⟩
  -- the block has no handles but those of the sub-devices
  have hzes : ∀ ze, ze ∈ block.map (·.ze) → ze ∈ t.handles := by
    intro ze hze
    obtain ⟨d, hd, rfl⟩ := List.mem_map.mp hze
    have hkey := List.mem_map_of_mem (f := Device.key) hd
    rw [hkeys] at hkey
    obtain ⟨sub, hsub, hmem⟩ := List.mem_flatMap.mp hkey
    refine List.mem_cons_of_mem _ (List.mem_map.mpr ⟨sub, hsub, ?_⟩)
    rcases List.mem_append.mp hmem with hq | hq
    · obtain ⟨q, -, heq⟩ := List.mem_map.mp hq
      exact congrArg Prod.fst heq
    · exact (congrArg Prod.fst (List.mem_singleton.mp hq)).symm
  have hadded : Closed s → Closed { s with
      cache := s.cache ++ (block ++ [{ address := s.next, ze := t.ze, subs := found }])
      next := next } :=
    fun hclosed => hclosed.add t.ze hblock (Nat.le_succ _) (Nat.le_refl _) (Nat.lt_succ_self _) hle
  have hdevice : ∀ {r : Except Failure Unit × Platform},
      rootDevice failing i t.root { s with cache := s.cache ++ block, next := next } = r →
      device exposeCSlice failing i t s = match r with
        | (.error e, s'') => (.error e, s'')
        | (.ok _, s'') => (.ok (), s''.push { address := s.next, ze := t.ze, subs := found }) := by
    intro r hr
    unfold device
    rw [if_neg fun h => hstep (.initializeDevice i) h rfl,
      if_neg fun h => hstep (.subDeviceCount i) h rfl,
      if_neg fun h => hstep (.subDevices i) h rfl, hsubs]
    dsimp only [Platform.deleteArray, Platform.newArray, Platform.alloc]
    rw [if_neg fun h => hstep (.rootDevice i) h rfl, List.nil_append, Nat.add_sub_cancel, hr]
  have hplain : (block ++ [({ address := s.next, ze := t.ze, subs := found } : Device)]).map
      Device.key = t.keys exposeCSlice := by
    rw [List.map_append, hkeys]
    rfl
  have hknown : newCard t s.cache = [] → rootDevice failing i t.root
      { s with cache := s.cache ++ block, next := next } =
        (.ok (), { s with cache := s.cache ++ block, next := next }) →
      ∃ block next, device exposeCSlice failing i t s =
        (.ok (), { s with cache := s.cache ++ block, next := next }) ∧
      (Closed s → Closed { s with cache := s.cache ++ block, next := next }) ∧
      (block.map Device.key).Perm
        (t.keys exposeCSlice ++ (newCard t s.cache).map fun ze => (ze, none)) := by
    intro hnew hroot
    refine ⟨_, _, (hdevice hroot).trans ?_, hadded, ?_⟩
    · dsimp only [Platform.push]
      rw [List.append_assoc]
    · rw [hplain, hnew, List.map_nil, List.append_nil]
  cases hroot : t.root with
  | none =>
    refine hknown ?_ (by rw [hroot, rootDevice])
    unfold newCard
    rw [hroot]
    rfl
  | some ze =>
    by_cases hseen : ze ∈ s.cache.map (·.ze)
    · refine hknown ?_ ?_
      · unfold newCard
        rw [hroot]
        exact List.filter_eq_nil_iff.mpr fun ze' h => by
          obtain rfl := List.mem_singleton.mp h
          rw [decide_eq_true_eq]
          exact not_not.mpr hseen
      · obtain ⟨d, hd, hze⟩ := List.mem_map.mp hseen
        rw [hroot, rootDevice, if_pos]
        exact List.any_eq_true.mpr ⟨d, List.mem_append_left _ hd, decide_eq_true hze⟩
    · have hnew : newCard t s.cache = [ze] := by
        unfold newCard
        rw [hroot]
        exact List.filter_eq_self.mpr fun ze' h => by
          obtain rfl := List.mem_singleton.mp h
          exact decide_eq_true hseen
      have hcall : rootDevice failing i t.root
          { s with cache := s.cache ++ block, next := next } =
          (.ok (), { s with
            cache := s.cache ++ block ++ [{ address := next, ze := ze }], next := next + 1 }) := by
        rw [hroot, rootDevice, if_neg, if_neg]
        · rfl
        · exact fun h => hstep (.initializeRoot i) h ⟨rfl, ze, hroot, hseen⟩
        · intro hany
          obtain ⟨d, hd, hze⟩ := List.any_eq_true.mp hany
          have hze' : d.ze = ze := of_decide_eq_true hze
          rcases List.mem_append.mp hd with hd | hd
          · exact hseen (List.mem_map.mpr ⟨d, hd, hze'⟩)
          · exact hcard ze hroot (hzes ze (List.mem_map.mpr ⟨d, hd, hze'⟩))
      refine ⟨block ++ [({ address := next, ze := ze } : Device),
        { address := s.next, ze := t.ze, subs := found }], next + 1,
        (hdevice hcall).trans ?_, fun hclosed => ?_, ?_⟩
      · dsimp only [Platform.push]
        rw [List.append_assoc, List.append_assoc]
        rfl
      · have hcarded := (hadded hclosed).add ze (Block.nil next (next + 1))
          (Nat.le_succ _) (Nat.le_refl _) (Nat.lt_succ_self _) (Nat.le_refl _)
        refine hcarded.perm ?_
        rw [List.append_assoc, List.append_assoc]
        exact ((List.Perm.swap ..).append_left block).append_left s.cache
      · rw [hnew, ← hplain, List.map_append, List.map_append, List.append_assoc]
        exact (List.Perm.swap ..).append_left _

end UnifiedRuntime.LevelZero.DeviceCache
