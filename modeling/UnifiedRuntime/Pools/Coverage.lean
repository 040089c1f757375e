import UnifiedRuntime.Pools.Descriptor
import UnifiedRuntime.Lib.Except

/-!
# Descriptors as keys, and the pools they find

`equal` compares the keys of two descriptors and `hash` depends on nothing else, so equality is
an equivalence and equal descriptors have equal hashes. Whether `create` makes a descriptor for
every allocation, and no two that are equal, depends on the context's device trees.

- `equal_iff`, `hash_of_key`: descriptors as keys.
- `addPoolsForDevices_ok`: the devices that partitioning by CSLICE reaches.
- `addPools_finds`: the constructor makes a pool for each descriptor.
- `poolDescriptors_iff`: when all of it holds.
-/

namespace UnifiedRuntime.Pools.Manager

variable {hashes : Hashes} {native : GetNativeHandle} {poolHandle : Nat} {context : Context}

/-! ## Keys -/

/-- What is compared of a descriptor. -/
structure Key where
  native : NativeHandle
  type : UsmType
  readOnly : Bool
  poolHandle : Nat

def keyOf (desc : PoolDescriptor) (n : NativeHandle) : Key :=
  ⟨n, desc.type, isSharedAllocationReadOnlyOnDevice desc, desc.poolHandle⟩

/-- The descriptor has that key; its native handle can be read. -/
def HasKey (native : GetNativeHandle) (desc : PoolDescriptor) (k : Key) : Prop :=
  ∃ n, nativeOf native desc.hDevice = .ok n ∧ k = keyOf desc n

theorem HasKey.unique {desc : PoolDescriptor} {k k' : Key} (h : HasKey native desc k)
    (h' : HasKey native desc k') : k = k' := by
  obtain ⟨n, hn, rfl⟩ := h
  obtain ⟨n', hn', rfl⟩ := h'
  rw [Except.ok.inj (hn.symm.trans hn')]

/-- **Descriptors are equal if they have one key.** -/
theorem equal_iff (lhs rhs : PoolDescriptor) :
    equal native lhs rhs = .ok true ↔ ∃ k, HasKey native lhs k ∧ HasKey native rhs k := by
  unfold equal HasKey
  cases hl : nativeOf native lhs.hDevice with
  | error e =>
    constructor
    · intro h
      cases h
    · rintro ⟨k, ⟨n, hn, -⟩, -⟩
      cases hn
  | ok n =>
    cases hr : nativeOf native rhs.hDevice with
    | error e =>
      constructor
      · intro h
        cases h
      · rintro ⟨k, -, ⟨n', hn', -⟩⟩
        cases hn'
    | ok m =>
      constructor
      · intro h
        have hsame := Except.ok.inj h
        simp only [Bool.and_eq_true, beq_iff_eq] at hsame
        obtain ⟨⟨⟨hnative, htype⟩, hread⟩, hpool⟩ := hsame
        refine ⟨keyOf lhs n, ⟨n, rfl, rfl⟩, m, rfl, ?_⟩
        unfold keyOf
        rw [hnative, htype, hread, hpool]
      · rintro ⟨k, ⟨n', hn', hk⟩, m', hm', hk'⟩
        obtain rfl := Except.ok.inj hn'
        obtain rfl := Except.ok.inj hm'
        have hkeys := hk.symm.trans hk'
        obtain ⟨hnative, htype, hread, hpool⟩ := Key.mk.inj hkeys
        refine congrArg Except.ok ?_
        simp only [Bool.and_eq_true, beq_iff_eq]
        exact ⟨⟨⟨hnative, htype⟩, hread⟩, hpool⟩

def hashOfKey (hashes : Hashes) (k : Key) : UInt64 :=
  0 ^^^ hashes.type k.type ^^^ hashes.native k.native ^^^ hashes.bool k.readOnly ^^^
    hashes.pool k.poolHandle

/-- **The hash is that of the key.** -/
theorem hash_of_key {desc : PoolDescriptor} {k : Key} (h : HasKey native desc k) :
    hash hashes native desc = .ok (hashOfKey hashes k) := by
  obtain ⟨n, hn, rfl⟩ := h
  unfold hash
  rw [hn]
  rfl

theorem equal_refl {desc : PoolDescriptor} {n : NativeHandle}
    (h : nativeOf native desc.hDevice = .ok n) : equal native desc desc = .ok true :=
  (equal_iff desc desc).mpr ⟨_, ⟨n, h, rfl⟩, ⟨n, h, rfl⟩⟩

theorem equal_symm {lhs rhs : PoolDescriptor} (h : equal native lhs rhs = .ok true) :
    equal native rhs lhs = .ok true := by
  obtain ⟨k, hl, hr⟩ := (equal_iff lhs rhs).mp h
  exact (equal_iff rhs lhs).mpr ⟨k, hr, hl⟩

theorem equal_trans {a b c : PoolDescriptor} (h : equal native a b = .ok true)
    (h' : equal native b c = .ok true) : equal native a c = .ok true := by
  obtain ⟨k, ha, hb⟩ := (equal_iff a b).mp h
  obtain ⟨k', hb', hc⟩ := (equal_iff b c).mp h'
  obtain rfl := hb.unique hb'
  exact (equal_iff a c).mpr ⟨k, ha, hc⟩

theorem hash_of_equal {lhs rhs : PoolDescriptor} (h : equal native lhs rhs = .ok true) :
    hash hashes native lhs = hash hashes native rhs := by
  obtain ⟨k, hl, hr⟩ := (equal_iff lhs rhs).mp h
  rw [hash_of_key hl, hash_of_key hr]

/-- Keys can be compared. -/
theorem equal_of_keys {lhs rhs : PoolDescriptor} {k k' : Key} (hl : HasKey native lhs k)
    (hr : HasKey native rhs k') :
    equal native lhs rhs = .ok true ∨ equal native lhs rhs = .ok false := by
  obtain ⟨n, hn, -⟩ := hl
  obtain ⟨m, hm, -⟩ := hr
  unfold equal
  rw [hn, hm]
  exact Bool.eq_false_or_eq_true _ |>.imp (congrArg Except.ok) (congrArg Except.ok)

/-! ## Device trees -/

mutual

/-- The devices that partitioning by CSLICE reaches. -/
def DeviceTree.reached : DeviceTree → List Node
  | .node n cslices _ => n :: reachedAll cslices

def reachedAll : List DeviceTree → List Node
  | [] => []
  | t :: ts => t.reached ++ reachedAll ts

end

mutual

/-- The device and all its sub-devices. -/
def DeviceTree.nodes : DeviceTree → List Node
  | .node n cslices others => n :: (allNodes cslices ++ allNodes others)

def allNodes : List DeviceTree → List Node
  | [] => []
  | t :: ts => t.nodes ++ allNodes ts

end

theorem reached_subset {n : Node} {cslices others : List DeviceTree}
    (ih : ∀ n ∈ reachedAll cslices, n ∈ allNodes cslices) :
    ∀ m ∈ (DeviceTree.node n cslices others).reached,
      m ∈ (DeviceTree.node n cslices others).nodes := by
  intro m hm
  rw [DeviceTree.reached] at hm
  rw [DeviceTree.nodes]
  rcases List.mem_cons.mp hm with rfl | hm
  · exact List.mem_cons_self
  · exact List.mem_cons_of_mem _ (List.mem_append_left _ (ih m hm))

theorem reachedAll_subset : ∀ (ts : List DeviceTree), ∀ n ∈ reachedAll ts, n ∈ allNodes ts
  | [], m, hm => by
    rw [reachedAll] at hm
    exact absurd hm List.not_mem_nil
  | .node n cslices others :: ts, m, hm => by
    rw [reachedAll] at hm
    rw [allNodes]
    rcases List.mem_append.mp hm with hm | hm
    · exact List.mem_append_left _ (reached_subset (reachedAll_subset cslices) m hm)
    · exact List.mem_append_right _ (reachedAll_subset ts m hm)

/-- All devices of a list answer. -/
def Answer (nodes : List Node) : Prop := ∀ n ∈ nodes, n.urGetSubDevices = .ok ()

theorem answer_cons {n : Node} {nodes : List Node} :
    Answer (n :: nodes) ↔ n.urGetSubDevices = .ok () ∧ Answer nodes := List.forall_mem_cons

theorem answer_append {nodes nodes' : List Node} :
    Answer (nodes ++ nodes') ↔ Answer nodes ∧ Answer nodes' := List.forall_mem_append

theorem addPoolsForDevicesRec_ok {n : Node} {cslices others : List DeviceTree}
    (ih : ∀ l, addPoolsForDevices cslices = .ok l ↔
      Answer (reachedAll cslices) ∧ l = (reachedAll cslices).map Node.handle) (l : List Device) :
    addPoolsForDevicesRec (.node n cslices others) = .ok l ↔
      Answer (DeviceTree.node n cslices others).reached ∧
        l = (DeviceTree.node n cslices others).reached.map Node.handle := by
  rw [addPoolsForDevicesRec, DeviceTree.reached, answer_cons]
  constructor
  · intro h
    obtain ⟨⟨⟩, hn, h⟩ := except_bind_ok h
    obtain ⟨rest, hrest, h⟩ := except_bind_ok h
    obtain ⟨hanswer, rfl⟩ := (ih rest).mp hrest
    exact ⟨⟨hn, hanswer⟩, (Except.ok.inj h).symm⟩
  · rintro ⟨⟨hn, hanswer⟩, rfl⟩
    rw [hn, (ih _).mpr ⟨hanswer, rfl⟩]
    rfl

/-- **The loop returns the devices it reaches**, if all of them answer. -/
theorem addPoolsForDevices_ok : ∀ (ts : List DeviceTree) (l : List Device),
    addPoolsForDevices ts = .ok l ↔ Answer (reachedAll ts) ∧ l = (reachedAll ts).map Node.handle
  | [], l => by
    rw [addPoolsForDevices]
    constructor
    · intro h
      exact ⟨nofun, (Except.ok.inj h).symm⟩
    · rintro ⟨-, rfl⟩
      rfl
  | .node n cslices others :: ts, l => by
    have ih := @addPoolsForDevicesRec_ok n cslices others (addPoolsForDevices_ok cslices)
    have ihs := addPoolsForDevices_ok ts
    rw [addPoolsForDevices, reachedAll, answer_append, List.map_append]
    constructor
    · intro h
      obtain ⟨first, hfirst, h⟩ := except_bind_ok h
      obtain ⟨rest, hrest, h⟩ := except_bind_ok h
      obtain ⟨hanswer, rfl⟩ := (ih first).mp hfirst
      obtain ⟨hanswers, rfl⟩ := (ihs rest).mp hrest
      exact ⟨⟨hanswer, hanswers⟩, (Except.ok.inj h).symm⟩
    · rintro ⟨⟨hanswer, hanswers⟩, rfl⟩
      rw [(ih _).mpr ⟨hanswer, rfl⟩, (ihs _).mpr ⟨hanswers, rfl⟩]
      rfl

/-! ## What is created -/

/-- The devices can be listed, and all that are reached answer. -/
structure Listed (context : Context) : Prop where
  count : context.numDevices = .ok ()
  get : context.devices = [] ∨ context.getDevices = .ok ()
  answer : Answer (reachedAll context.devices)

/-- The descriptors of a context whose devices can be listed. -/
def descriptors (poolHandle : Nat) (context : Context) : List PoolDescriptor :=
  hostDescriptor poolHandle context.handle ::
    ((reachedAll context.devices).map Node.handle).flatMap
      (deviceDescriptors poolHandle context.handle)

/-- A context whose devices can be listed gets the host's descriptor and those of each device. -/
theorem create_of_listed (h : Listed context) :
    create poolHandle context = (none, descriptors poolHandle context) := by
  have hdevices : urGetAllDevicesAndSubDevices context =
      (none, (reachedAll context.devices).map Node.handle) := by
    unfold urGetAllDevicesAndSubDevices
    rw [h.count]
    dsimp only
    split
    next hnil => rw [hnil]; rfl
    next hne =>
      rw [h.get.resolve_left hne, (addPoolsForDevices_ok _ _).mpr ⟨h.answer, rfl⟩]
  unfold create
  rw [hdevices]
  rfl

/-- **One device that fails leaves nothing**, also one that cannot be partitioned. -/
theorem create_of_not_listed (h : ¬ Listed context) :
    ∃ e, create poolHandle context = (some e, []) := by
  have hdevices : ∃ e l, urGetAllDevicesAndSubDevices context = (some e, l) := by
    unfold urGetAllDevicesAndSubDevices
    cases hcount : context.numDevices with
    | error e => exact ⟨_, _, rfl⟩
    | ok u =>
      dsimp only
      split
      next hnil =>
        refine absurd ⟨hcount, Or.inl hnil, ?_⟩ h
        rw [hnil]
        exact nofun
      next hne =>
        cases hget : context.getDevices with
        | error e => exact ⟨_, _, rfl⟩
        | ok u' =>
          cases hall : addPoolsForDevices context.devices with
          | ok l =>
            exact absurd ⟨hcount, Or.inr hget, ((addPoolsForDevices_ok _ l).mp hall).1⟩ h
          | error e =>
            cases e with
            | unsupportedFeature => exact ⟨_, _, rfl⟩
            | invalidArgument => exact ⟨_, _, rfl⟩
            | other code => exact ⟨_, _, rfl⟩
  obtain ⟨e, l, hdevices⟩ := hdevices
  refine ⟨e, ?_⟩
  unfold create
  rw [hdevices]

/-- The descriptors of a device are keys of its native handle. -/
theorem deviceDescriptors_mem {hContext : Nat} {device : Device} {desc : PoolDescriptor}
    (h : desc ∈ deviceDescriptors poolHandle hContext device) :
    desc.hDevice = some device ∧ desc.type ≠ .host := by
  rcases List.mem_cons.mp h with rfl | h
  · exact ⟨rfl, nofun⟩
  rcases List.mem_cons.mp h with rfl | h
  · exact ⟨rfl, nofun⟩
  rcases List.mem_cons.mp h with rfl | h
  · exact ⟨rfl, nofun⟩
  · cases h

/-- There is one for each way to allocate on the device. -/
theorem deviceDescriptors_exists (hContext : Nat) (device : Device) {desc : PoolDescriptor}
    (htype : desc.type ≠ .host) (hpool : desc.poolHandle = poolHandle) (n : NativeHandle) :
    ∃ d ∈ deviceDescriptors poolHandle hContext device, keyOf d n = keyOf desc n := by
  obtain ⟨pool, ctx, hDevice, type, readOnly⟩ := desc
  obtain rfl : pool = poolHandle := hpool
  cases type with
  | host => exact absurd rfl htype
  | device => exact ⟨_, List.mem_cons_self, rfl⟩
  | shared =>
    cases readOnly with
    | false => exact ⟨_, List.mem_cons_of_mem _ List.mem_cons_self, rfl⟩
    | true =>
      exact ⟨_, List.mem_cons_of_mem _ (List.mem_cons_of_mem _ List.mem_cons_self), rfl⟩

theorem not_equal {lhs rhs : PoolDescriptor}
    (h : ∀ n m, nativeOf native lhs.hDevice = .ok n → nativeOf native rhs.hDevice = .ok m →
      keyOf lhs n ≠ keyOf rhs m) : equal native lhs rhs ≠ .ok true := by
  intro heq
  obtain ⟨k, ⟨n, hn, hk⟩, m, hm, hk'⟩ := (equal_iff lhs rhs).mp heq
  exact h n m hn hm (hk.symm.trans hk')

/-- No two descriptors of one device are equal. -/
theorem deviceDescriptors_distinct (hContext : Nat) (device : Device) :
    (deviceDescriptors poolHandle hContext device).Pairwise fun d e =>
      equal native d e ≠ .ok true := by
  refine List.pairwise_cons.mpr ⟨fun e he => ?_, List.pairwise_cons.mpr ⟨fun e he => ?_,
    List.pairwise_singleton _ _⟩⟩
  · refine not_equal fun n m _ _ hkey => ?_
    have htype := (Key.mk.inj hkey).2.1
    rcases List.mem_cons.mp he with rfl | he
    · cases htype
    rcases List.mem_cons.mp he with rfl | he
    · cases htype
    · cases he
  · refine not_equal fun n m _ _ hkey => ?_
    have hread := (Key.mk.inj hkey).2.2.1
    rcases List.mem_cons.mp he with rfl | he
    · cases hread
    · cases he

/-- Descriptors of two devices are equal through the native handle. -/
theorem deviceDescriptors_apart (hContext : Nat) (v w : Device) :
    (∀ d ∈ deviceDescriptors poolHandle hContext v,
        ∀ e ∈ deviceDescriptors poolHandle hContext w, equal native d e ≠ .ok true) ↔
      ∀ n, native v = .ok n → native w ≠ .ok n := by
  constructor
  · intro h n hv hw
    refine h _ List.mem_cons_self _ List.mem_cons_self ((equal_iff _ _).mpr ?_)
    exact ⟨_, ⟨n, hv, rfl⟩, n, hw, rfl⟩
  · intro h d hd e he
    refine not_equal fun n m hn hm hkey => ?_
    rw [(deviceDescriptors_mem hd).1] at hn
    rw [(deviceDescriptors_mem he).1] at hm
    obtain rfl := (Key.mk.inj hkey).1
    exact h n hn hm

/-- **No two descriptors are equal** just if no two devices have one native handle. -/
theorem descriptors_distinct :
    ((descriptors poolHandle context).Pairwise fun d e => equal native d e ≠ .ok true) ↔
      (reachedAll context.devices).Pairwise fun v w =>
        ∀ n, native v.handle = .ok n → native w.handle ≠ .ok n := by
  unfold descriptors
  rw [List.pairwise_cons, List.pairwise_flatMap, List.pairwise_map]
  have hhost : ∀ e ∈ ((reachedAll context.devices).map Node.handle).flatMap
      (deviceDescriptors poolHandle context.handle),
      equal native (hostDescriptor poolHandle context.handle) e ≠ .ok true := by
    intro e he
    obtain ⟨v, -, hv⟩ := List.mem_flatMap.mp he
    refine not_equal fun n m _ _ hkey => (deviceDescriptors_mem hv).2 ?_
    exact (Key.mk.inj hkey).2.1.symm
  constructor
  · rintro ⟨-, -, h⟩
    exact h.imp fun {v w} hvw => (deviceDescriptors_apart _ v.handle w.handle).mp hvw
  · intro h
    refine ⟨hhost, fun v _ => deviceDescriptors_distinct _ v, ?_⟩
    exact h.imp fun {v w} hvw => (deviceDescriptors_apart _ v.handle w.handle).mpr hvw

/-! ## What is looked up -/

/-- An allocation on the host, or on a device of the context or one of its sub-devices, looks up
such a descriptor. -/
def LooksUp (poolHandle : Nat) (context : Context) (desc : PoolDescriptor) : Prop :=
  desc.poolHandle = poolHandle ∧
    (desc.type = .host ∧ desc.hDevice = none ∨
      desc.type ≠ .host ∧ ∃ d ∈ allNodes context.devices, desc.hDevice = some d.handle)

/-- Every descriptor that is looked up has an equal one in a list. -/
def Covered (native : GetNativeHandle) (poolHandle : Nat) (context : Context)
    (l : List PoolDescriptor) : Prop :=
  ∀ desc, LooksUp poolHandle context desc → ∃ e ∈ l, equal native e desc = .ok true

theorem not_covered_nil : ¬ Covered native poolHandle context [] := by
  intro h
  obtain ⟨e, he, -⟩ := h (hostDescriptor poolHandle context.handle) ⟨rfl, Or.inl ⟨rfl, rfl⟩⟩
  cases he

/-- **Every lookup is covered** just if each sub-device shares the native handle of a device that
partitioning by CSLICE reaches. -/
theorem descriptors_covered :
    Covered native poolHandle context (descriptors poolHandle context) ↔
      ∀ d ∈ allNodes context.devices, ∃ v ∈ reachedAll context.devices, ∃ n,
        native d.handle = .ok n ∧ native v.handle = .ok n := by
  constructor
  · intro h d hd
    obtain ⟨e, he, hequal⟩ := h ⟨poolHandle, context.handle, some d.handle, .device, false⟩
      ⟨rfl, Or.inr ⟨nofun, d, hd, rfl⟩⟩
    obtain ⟨k, ⟨n, hn, hk⟩, m, hm, hk'⟩ := (equal_iff _ _).mp hequal
    obtain ⟨hnative, htype, -⟩ := Key.mk.inj (hk.symm.trans hk')
    rcases List.mem_cons.mp he with rfl | he
    · cases htype
    · obtain ⟨v, hv, hmem⟩ := List.mem_flatMap.mp he
      obtain ⟨node, hnode, rfl⟩ := List.mem_map.mp hv
      rw [(deviceDescriptors_mem hmem).1] at hn
      exact ⟨node, hnode, m, hm, hnative ▸ hn⟩
  · rintro h desc ⟨hpool, ⟨htype, hnull⟩ | ⟨htype, d, hd, hdevice⟩⟩
    · refine ⟨hostDescriptor poolHandle context.handle, List.mem_cons_self,
        (equal_iff _ _).mpr ⟨_, ⟨0, rfl, rfl⟩, 0, ?_, ?_⟩⟩
      · rw [hnull]
        rfl
      · unfold keyOf isSharedAllocationReadOnlyOnDevice
        rw [htype, hpool]
        rfl
    · obtain ⟨v, hv, n, hn, hvn⟩ := h d hd
      obtain ⟨e, he, hkey⟩ := deviceDescriptors_exists context.handle v.handle htype hpool n
      refine ⟨e, List.mem_cons_of_mem _ (List.mem_flatMap.mpr ⟨v.handle,
        List.mem_map_of_mem hv, he⟩), (equal_iff _ _).mpr ⟨_, ⟨n, ?_, rfl⟩, n, ?_, hkey⟩⟩
      · rw [(deviceDescriptors_mem he).1]
        exact hvn
      · rw [hdevice]
        exact hn

/-! ## The pool manager -/

/-- A descriptor whose native handle can be read. -/
def Keyed (native : GetNativeHandle) (desc : PoolDescriptor) : Prop := ∃ k, HasKey native desc k

/-- The comparison by hash first decides nothing else than the key. -/
theorem sameEntry_eq {entry : PoolDescriptor × Pool} {desc : PoolDescriptor} {k : Key}
    (hentry : Keyed native entry.1) (hdesc : HasKey native desc k) :
    (sameEntry hashes native (hashOfKey hashes k) desc entry = .ok true ∧
        HasKey native entry.1 k) ∨
      sameEntry hashes native (hashOfKey hashes k) desc entry = .ok false ∧
        ¬ HasKey native entry.1 k := by
  obtain ⟨k', hk'⟩ := hentry
  unfold sameEntry
  rw [hash_of_key hk']
  by_cases hkey : HasKey native entry.1 k
  · obtain rfl := hk'.unique hkey
    refine Or.inl ⟨(if_pos rfl).trans ?_, hkey⟩
    exact (equal_iff _ _).mpr ⟨_, hkey, hdesc⟩
  · refine Or.inr ⟨?_, hkey⟩
    by_cases hcode : hashOfKey hashes k' = hashOfKey hashes k
    · refine (if_pos hcode).trans ?_
      refine (equal_of_keys hk' hdesc).resolve_left fun heq => hkey ?_
      obtain ⟨k'', he'', hdesc''⟩ := (equal_iff _ _).mp heq
      rwa [hdesc.unique hdesc'']
    · exact if_neg hcode

/-- **The map finds an entry of the key**, if there is one. -/
theorem find_spec {map : PoolMap} {desc : PoolDescriptor} {k : Key}
    (hmap : ∀ entry ∈ map, Keyed native entry.1) (hdesc : HasKey native desc k) :
    (∃ entry ∈ map, HasKey native entry.1 k ∧ find hashes native map desc = .ok (some entry.2)) ∨
      (∀ entry ∈ map, ¬ HasKey native entry.1 k) ∧ find hashes native map desc = .ok none := by
  unfold find
  rw [hash_of_key hdesc]
  induction map with
  | nil => exact Or.inr ⟨nofun, rfl⟩
  | cons entry map ih =>
    have hrest := ih fun e he => hmap e (List.mem_cons_of_mem _ he)
    have hcons := @List.findM?.eq_2 (Except Error) _ _
      (sameEntry hashes native (hashOfKey hashes k) desc) entry map
    rcases @sameEntry_eq hashes native entry desc k (hmap entry List.mem_cons_self) hdesc with
      ⟨htest, hkey⟩ | ⟨htest, hkey⟩
    · refine Or.inl ⟨entry, List.mem_cons_self, hkey, ?_⟩
      rw [htest] at hcons
      exact congrArg (· >>= fun found => pure (found.map Prod.snd)) hcons
    · rw [htest] at hcons
      have hskip := congrArg
        (· >>= fun found : Option (PoolDescriptor × Pool) =>
          (pure (found.map Prod.snd) : Except Error (Option Pool))) hcons
      rcases hrest with ⟨e, he, hek, hfind⟩ | ⟨hnone, hfind⟩
      · exact Or.inl ⟨e, List.mem_cons_of_mem _ he, hek, hskip.trans hfind⟩
      · exact Or.inr ⟨List.forall_mem_cons.mpr ⟨hkey, hnone⟩, hskip.trans hfind⟩

/-- **The constructor's loop makes a pool for each descriptor**, once for each key. -/
theorem addPools_finds {makePool : PoolDescriptor → Except Error Pool}
    (hpools : ∀ desc, ∃ pool, makePool desc = .ok pool) :
    ∀ (l : List PoolDescriptor) (map : PoolMap), (∀ entry ∈ map, Keyed native entry.1) →
      (∀ desc ∈ l, Keyed native desc) → ∃ map', addPools hashes native makePool map l = .ok map' ∧
        (∀ entry ∈ map', Keyed native entry.1) ∧ (∀ entry ∈ map, entry ∈ map') ∧
        ∀ desc ∈ l, ∀ k, HasKey native desc k → ∃ entry ∈ map', HasKey native entry.1 k
  | [], map, hmap, _ => ⟨map, rfl, hmap, fun _ h => h, nofun⟩
  | desc :: l, map, hmap, hl => by
    obtain ⟨pool, hpool⟩ := hpools desc
    obtain ⟨k, hk⟩ := hl desc List.mem_cons_self
    have hstep : ∃ map₁, addPools hashes native makePool map (desc :: l) =
          addPools hashes native makePool map₁ l ∧ (∀ entry ∈ map₁, Keyed native entry.1) ∧
        (∀ entry ∈ map, entry ∈ map₁) ∧ ∃ entry ∈ map₁, HasKey native entry.1 k := by
      rcases @find_spec hashes native map desc k hmap hk with ⟨e, he, hek, hfind⟩ | ⟨hnone, hfind⟩
      · refine ⟨map, ?_, hmap, fun _ h => h, e, he, hek⟩
        rw [addPools, hpool]
        show (addPool hashes native map desc pool >>= _) = _
        unfold addPool
        rw [hfind]
        rfl
      · refine ⟨map ++ [(desc, pool)], ?_, ?_, fun e he => List.mem_append_left _ he, (desc, pool),
          List.mem_append_right _ List.mem_cons_self, hk⟩
        · rw [addPools, hpool]
          show (addPool hashes native map desc pool >>= _) = _
          unfold addPool
          rw [hfind]
          rfl
        · refine List.forall_mem_append.mpr ⟨hmap, fun e he => ?_⟩
          obtain rfl := List.mem_singleton.mp he
          exact ⟨k, hk⟩
    obtain ⟨map₁, hadd, hmap₁, hsub, e, he, hek⟩ := hstep
    obtain ⟨map', hrest, hmap', hsub', hfound⟩ := addPools_finds hpools l map₁ hmap₁
      fun d hd => hl d (List.mem_cons_of_mem _ hd)
    refine ⟨map', hadd.trans hrest, hmap', fun x hx => hsub' x (hsub x hx), fun d hd k' hk' => ?_⟩
    rcases List.mem_cons.mp hd with rfl | hd
    · obtain rfl := hk.unique hk'
      exact ⟨e, hsub' e he, hek⟩
    · exact hfound d hd k' hk'

/-- The pool handle can be made, and every allocation finds its pool. -/
def FindsPools (hashes : Hashes) (native : GetNativeHandle) (poolHandle : Nat)
    (context : Context) : Prop :=
  ∀ makePool, (∀ desc, ∃ pool, makePool desc = .ok pool) →
    ∃ map, urUsmPoolHandle hashes native makePool poolHandle context = .ok map ∧
      ∀ desc, LooksUp poolHandle context desc → ∃ pool, getPool hashes native map desc = .ok pool

/-- Each descriptor has a key, so a pool is made for it, and a lookup finds a pool by its key. -/
theorem finds_of_covered (hlisted : Listed context)
    (hcovered : Covered native poolHandle context (descriptors poolHandle context)) :
    FindsPools hashes native poolHandle context := by
  intro makePool hpools
  have hkeyed : ∀ desc ∈ descriptors poolHandle context, Keyed native desc := by
    intro desc hdesc
    rcases List.mem_cons.mp hdesc with rfl | hdesc
    · exact ⟨_, 0, rfl, rfl⟩
    · -- a device that is reached is itself looked up
      obtain ⟨v, hv, hmem⟩ := List.mem_flatMap.mp hdesc
      obtain ⟨node, hnode, rfl⟩ := List.mem_map.mp hv
      obtain ⟨w, -, n, hn, -⟩ :=
        descriptors_covered.mp hcovered node (reachedAll_subset _ node hnode)
      refine ⟨_, n, ?_, rfl⟩
      rw [(deviceDescriptors_mem hmem).1]
      exact hn
  obtain ⟨map, hmap, hentries, -, hfound⟩ :=
    @addPools_finds hashes native makePool hpools _ [] nofun hkeyed
  refine ⟨map, ?_, fun desc hdesc => ?_⟩
  · unfold urUsmPoolHandle
    rw [create_of_listed hlisted]
    exact hmap
  · obtain ⟨e, he, hequal⟩ := hcovered desc hdesc
    obtain ⟨k, hek, hk⟩ := (equal_iff _ _).mp hequal
    unfold getPool
    rcases @find_spec hashes native map desc k hentries hk with ⟨x, -, -, hfind⟩ | ⟨hnone, -⟩
    · rw [hfind]
      exact ⟨_, rfl⟩
    · obtain ⟨x, hx, hxk⟩ := hfound e he k hek
      exact absurd hxk (hnone x hx)

/-! ## The result -/

/-- **Descriptors are lawful keys, and creation covers every lookup.** -/
structure Lawful (hashes : Hashes) (native : GetNativeHandle) (poolHandle : Nat)
    (context : Context) : Prop where
  refl : ∀ desc n, nativeOf native desc.hDevice = .ok n → equal native desc desc = .ok true
  symm : ∀ a b, equal native a b = .ok true → equal native b a = .ok true
  trans : ∀ a b c, equal native a b = .ok true → equal native b c = .ok true →
    equal native a c = .ok true
  hash : ∀ a b, equal native a b = .ok true → hash hashes native a = hash hashes native b
  distinct : (create poolHandle context).2.Pairwise fun d e => equal native d e ≠ .ok true
  covers : Covered native poolHandle context (create poolHandle context).2
  finds : FindsPools hashes native poolHandle context

/-- The trees of a context for which this is so: all devices that partitioning by CSLICE reaches
answer and have different native handles, and each sub-device has the native handle of one. -/
structure Partitioned (native : GetNativeHandle) (context : Context) : Prop where
  listed : Listed context
  distinct : (reachedAll context.devices).Pairwise fun v w =>
    ∀ n, native v.handle = .ok n → native w.handle ≠ .ok n
  shared : ∀ d ∈ allNodes context.devices, ∃ v ∈ reachedAll context.devices, ∃ n,
    native d.handle = .ok n ∧ native v.handle = .ok n

/-- **The descriptors of a context, exactly.** Equality and hash are lawful in every case. -/
theorem poolDescriptors_iff (hashes : Hashes) (native : GetNativeHandle) (poolHandle : Nat)
    (context : Context) :
    Lawful hashes native poolHandle context ↔ Partitioned native context := by
  constructor
  · intro h
    have hcovers := h.covers
    have hdistinct := h.distinct
    by_cases hlisted : Listed context
    · rw [create_of_listed hlisted] at hcovers hdistinct
      exact ⟨hlisted, descriptors_distinct.mp hdistinct, descriptors_covered.mp hcovers⟩
    · obtain ⟨e, he⟩ := @create_of_not_listed poolHandle context hlisted
      rw [he] at hcovers
      exact absurd hcovers not_covered_nil
  · rintro ⟨hlisted, hdistinct, hshared⟩
    have hcovers : Covered native poolHandle context (descriptors poolHandle context) :=
      descriptors_covered.mpr hshared
    refine ⟨fun _ _ => equal_refl, fun _ _ => equal_symm, fun _ _ _ => equal_trans,
      fun _ _ => hash_of_equal, ?_, ?_, finds_of_covered hlisted hcovers⟩
    · rw [create_of_listed hlisted]
      exact descriptors_distinct.mpr hdistinct
    · rw [create_of_listed hlisted]
      exact hcovers

/-- A device that answers, and one that cannot be partitioned. -/
def answering (handle : Device) : Node := ⟨handle, .ok (), .ok (), .ok ()⟩

def unpartitionable (handle : Device) : Node :=
  ⟨handle, .ok (), .error .unsupportedFeature, .ok ()⟩

/-- A single device that cannot be partitioned, a device with a sub-device of another partition,
and one whose slice has the same native handle. -/
theorem poolDescriptors_uncovered :
    ¬ Lawful ⟨fun _ => 0, fun _ => 0, fun _ => 0, fun _ => 0⟩ .ok 7
        ⟨1, .ok (), .ok (), [.node (unpartitionable 1) [] []]⟩ ∧
      ¬ Lawful ⟨fun _ => 0, fun _ => 0, fun _ => 0, fun _ => 0⟩ .ok 7
        ⟨1, .ok (), .ok (), [.node (answering 1) [] [.node (answering 2) [] []]]⟩ ∧
      ¬ Lawful ⟨fun _ => 0, fun _ => 0, fun _ => 0, fun _ => 0⟩ (fun _ => .ok 5) 7
        ⟨1, .ok (), .ok (), [.node (answering 1) [.node (answering 2) [] []] []]⟩ := by
  refine ⟨fun h => ?_, fun h => ?_, fun h => ?_⟩
  · exact not_covered_nil h.covers
  · obtain ⟨e, he, hequal⟩ := h.covers ⟨7, 1, some 2, .device, false⟩
      ⟨rfl, Or.inr ⟨nofun, answering 2, List.mem_cons_of_mem _ List.mem_cons_self, rfl⟩⟩
    revert e
    decide
  · have hpair := h.distinct
    exact absurd hpair (by decide)

end UnifiedRuntime.Pools.Manager
