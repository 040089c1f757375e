import Mathlib
import UnifiedRuntime.Lib.GuardedRuns
import UnifiedRuntime.NativeCpu.Kernel

/-!
# What a kernel object holds

The storage of a value belongs to the kernel as long as the index keeps it; a pointer takes its
place without a trace. So a value may follow a value, but it goes to the user's memory where it
follows a pointer. The destructor counts down once more than it should, and frees nothing.

- `Stored`, `setArgValue_stored`: what setting a value does where it is right.
- `Kept`: what a kernel holds; `Kept.stored` and its siblings: one call.
- `args_right_iff`: all of it for a run.
-/

namespace UnifiedRuntime.NativeCpu

open Function (update_of_ne update_self)

/-! ## The arguments of a kernel -/

/-- The size of the local memory for an index, if it is on the list; the last entry counts. -/
def Kernel.localSize (k : Kernel) (i : Nat) : Option UInt64 :=
  (k.localArgInfo.reverse.find? (·.argIndex == i)).map (·.argSize)

namespace World

def length (w : World) : Nat := w.kernel.Args.Indices.length

def pointerAt (w : World) (i : Nat) : Ptr := w.kernel.Args.pointerAt i

def paramSize (w : World) (i : Nat) : Nat := w.kernel.Args.ParamSizes.getD i 0

/-- What the kernel has for an index is what the index was set to. -/
def Holds (w : World) (i : Nat) : Arg → Prop
  | .value bytes => w.kernel.localSize i = none ∧
    ∃ id, w.pointerAt i = .block id 0 ∧ w.heap.blocks id = some bytes
  | .pointer p => w.kernel.localSize i = none ∧ w.pointerAt i = p
  | .localMem size => w.kernel.localSize i = some size

end World

/-- Every block is freed once. -/
structure FreesAll (h h' : Heap) : Prop where
  none_live : ∀ id, h'.blocks id = none
  once : h'.freed.Nodup
  all : ∀ id bytes, h.blocks id = some bytes → id ∈ h'.freed

/-- **A call is right**: every index has what it was set to last, the user's memory is as the
user left it, and the blocks are freed by the call that deletes the kernel and by no other. -/
structure RightCall (w w' : World) : Prop where
  holds : w'.alive = true → ∀ i arg, w'.last i = some arg → w'.Holds i arg
  clean : w'.heap.Clean
  frees : if w'.alive then w'.heap.freed = [] else FreesAll w.heap w'.heap

def Right (w : World) (call : ArgCall) : Prop := RightCall w (w.step call)

/-- Nobody uses a kernel that is gone. -/
def Allowed (w : World) (_ : ArgCall) : Prop := w.alive = true

/-- The index has the storage of a value. -/
def World.Owned (w : World) (i : Nat) : Prop := ∃ bytes, w.last i = some (.value bytes)

/-- There is room for a value: a new index gets it, one with a value keeps it or gets another,
and so does one with a null pointer if its size is another. -/
def World.Room (w : World) (i size : Nat) (ok : Bool) : Prop :=
  if w.length ≤ i then ok = true
  else if w.paramSize i = size then w.Owned i
  else ok = true ∧ (w.Owned i ∨ w.pointerAt i = .null)

/-- **When a call is right**: there is room for a value, an index that is on the list of local
arguments is not set to anything else, and the last release finds no block that is allocated. -/
def Fine (w : World) : ArgCall → Prop
  | .setValue i arg ok => arg.length = 0 ∨ w.kernel.localSize i = none ∧ w.Room i arg.length ok
  | .setPointer i arg => arg = none ∨ w.kernel.localSize i = none
  | .setMemObj i _ => w.kernel.localSize i = none
  | .setLocal _ _ => True
  | .updateMemPool _ _ => True
  | .retain => True
  | .release => w.kernel.refCount = 1 → ∀ id, w.heap.blocks id = none

/-! ## Vectors -/

section Vectors

variable {α : Type} {l : List α} {i j n : Nat} {a d : α}

theorem length_resize (h : l.length ≤ n) : (resize l n a).length = n := by
  unfold resize
  rw [List.length_append, List.length_replicate]
  omega

theorem getD_resize (j : Nat) : (resize l n a).getD j a = l.getD j a := by
  unfold resize
  by_cases hj : j < l.length
  · rw [List.getD_append _ _ _ _ hj]
  · rw [List.getD_append_right _ _ _ _ (Nat.le_of_not_lt hj),
      List.getD_eq_default _ _ (Nat.le_of_not_lt hj), List.getD_eq_getElem?_getD,
      List.getElem?_replicate]
    split
    · rfl
    · rfl

theorem getD_set_self (h : i < l.length) : (l.set i a).getD i d = a := by
  rw [List.getD_eq_getElem?_getD, List.getElem?_set_self h]
  rfl

theorem getD_set_ne (h : i ≠ j) : (l.set i a).getD j d = l.getD j d := by
  rw [List.getD_eq_getElem?_getD, List.getElem?_set_ne h, ← List.getD_eq_getElem?_getD]

end Vectors

/-! ## Clean heaps -/

section Heaps

variable {h : Heap} {p : Ptr} {bytes : List UInt8} {size : Nat} {ok : Bool}

theorem fault_not_clean : ¬ h.fault.Clean := fun hc =>
  Bool.noConfusion (show true = false from hc.faulted)

theorem clean_malloc (hc : (h.malloc size ok).1.Clean) : h.Clean := by
  cases ok with
  | true => exact ⟨hc.touched, hc.faulted⟩
  | false => exact hc

theorem clean_write (hc : (h.write p bytes).Clean) (hne : bytes ≠ []) :
    h.Clean ∧ ∃ id offset, p = .block id offset := by
  cases p with
  | null =>
    unfold Heap.write at hc
    rw [if_neg hne] at hc
    exact absurd hc fault_not_clean
  | user addr => exact absurd hc.touched (List.cons_ne_nil _ _)
  | block id offset =>
    refine ⟨?_, id, offset, rfl⟩
    unfold Heap.write at hc
    dsimp only at hc
    split at hc
    · exact absurd hc fault_not_clean
    · split at hc
      · exact ⟨hc.touched, hc.faulted⟩
      · exact absurd hc fault_not_clean

theorem realloc_user (addr : Nat) : ¬ (h.realloc (.user addr) size ok).1.Clean := by
  intro hc
  exact absurd (clean_malloc (h := h.touch addr) hc).touched (List.cons_ne_nil _ _)

theorem realloc_not_ok : (h.realloc p size false).2 = .null := by
  cases p with
  | null => rfl
  | user addr => rfl
  | block id offset =>
    unfold Heap.realloc
    dsimp only
    split
    · rfl
    · split
      · rfl
      · rfl

end Heaps

/-! ## Setting a value -/

variable {w w' : World} {i j : Nat} {arg : List UInt8} {ok : Bool}

/-- **A value is stored**: the index has a block of its own with the value, which it had before
or which is new, and everything else is as it was. -/
structure Stored (w w' : World) (i : Nat) (arg : List UInt8) : Prop where
  localArgInfo : w'.kernel.localArgInfo = w.kernel.localArgInfo
  pool : w'.kernel.localMemPool = w.kernel.localMemPool
  poolSize : w'.kernel.localMemPoolSize = w.kernel.localMemPoolSize
  last : w'.last = w.record i (.value arg)
  alive : w'.alive = w.alive
  length : w.length ≤ w'.length ∧ i < w'.length
  sizes : w'.kernel.Args.ParamSizes.length = w'.length
  size : w'.paramSize i = arg.length
  others : ∀ j, j ≠ i → w'.pointerAt j = w.pointerAt j ∧ w'.paramSize j = w.paramSize j
  block : ∃ id, w'.pointerAt i = .block id 0 ∧ w'.heap.blocks id = some arg ∧
    (w.heap.next ≤ id ∨ i < w.length ∧ w.pointerAt i = .block id 0) ∧
    ∀ id', id' ≠ id → w.pointerAt i ≠ .block id' 0 → w'.heap.blocks id' = w.heap.blocks id'
  inPlace : i < w.length → w.paramSize i = arg.length → w'.pointerAt i = w.pointerAt i
  fresh : w'.heap.Fresh
  clean : w'.heap.Clean
  freed : w'.heap.freed = w.heap.freed

theorem pointerAt_ge (h : w.length ≤ i) : w.pointerAt i = .null := List.getD_eq_default _ _ h

/-- A new block in the place of a pointer. -/
theorem replaced_spec {h : Heap} (hf : h.Fresh) (hc : h.Clean) (p : Ptr) (bytes : List UInt8) :
    (h.replaced p bytes).blocks h.next = some bytes ∧ (h.replaced p bytes).Fresh ∧
      (h.replaced p bytes).Clean ∧
      ∀ id, id ≠ h.next → (∀ o, p ≠ .block id o) →
        (h.replaced p bytes).blocks id = h.blocks id := by
  refine ⟨update_self _ _ _, fun id hid => ?_, ⟨hc.touched, hc.faulted⟩,
    fun id hid hp => ?_⟩
  · have hid : h.next + 1 ≤ id := hid
    unfold Heap.replaced
    dsimp only
    rw [update_of_ne (by omega)]
    cases p with
    | null => exact hf id (by omega)
    | user addr => exact hf id (by omega)
    | block id' offset =>
      dsimp only
      by_cases heq : id = id'
      · rw [heq, update_self]
      · rw [update_of_ne heq]
        exact hf id (by omega)
  · unfold Heap.replaced
    dsimp only
    rw [update_of_ne hid]
    cases p with
    | null => rfl
    | user addr => rfl
    | block id' offset =>
      dsimp only
      rw [update_of_ne fun heq => hp offset (by rw [heq])]

/-- Setting a value, behind what makes room for it. -/
theorem setArgValue_eq {args : Arguments} {h : Heap} (hlen : arg.length ≠ 0)
    (hreserve : w.kernel.Args.reserve w.heap i arg.length ok = (args, h)) :
    w.setArgValue i arg ok =
      { w with
        kernel := { w.kernel with Args := args }
        heap := h.write (args.pointerAt i) arg
        last := w.record i (.value arg) } := by
  unfold World.setArgValue Arguments.addArg
  rw [if_neg hlen, hreserve]

section
variable (hsizes : w.kernel.Args.ParamSizes.length = w.length) (hf : w.heap.Fresh)
  (hc : w.heap.Clean) (hlen : arg.length ≠ 0)

include hsizes hf hc hlen

/-- The value gets a new index. -/
theorem setArgValue_new (hi : w.length ≤ i) :
    Stored w (w.setArgValue i arg true) i arg := by
  have hgrow : w.kernel.Args.Indices.length < i + 1 := Nat.lt_succ_of_le hi
  let args : Arguments :=
    { Indices := (resize w.kernel.Args.Indices (i + 1) .null).set i (.block w.heap.next 0)
      OwnsMem := (resize w.kernel.Args.OwnsMem (i + 1) false).set i true
      ParamSizes := (resize w.kernel.Args.ParamSizes (i + 1) 0).set i arg.length }
  have hreserve : w.kernel.Args.reserve w.heap i arg.length true =
      (args, (w.heap.malloc arg.length true).1) := if_pos hgrow
  have hat : args.pointerAt i = .block w.heap.next 0 :=
    getD_set_self (by rw [length_resize (Nat.le_of_lt hgrow)]; omega)
  have hwrite : (w.heap.malloc arg.length true).1.write (.block w.heap.next 0) arg =
      w.heap.replaced .null arg := Heap.malloc_write w.heap arg
  obtain ⟨hblock, hfresh, hclean, hothers⟩ := replaced_spec hf hc .null arg
  have hindices : (resize w.kernel.Args.Indices (i + 1) .null).length = i + 1 :=
    length_resize (Nat.le_of_lt hgrow)
  have hparams : (resize w.kernel.Args.ParamSizes (i + 1) 0).length = i + 1 :=
    length_resize (by rw [hsizes]; exact Nat.le_succ_of_le hi)
  rw [setArgValue_eq hlen hreserve, hat, hwrite]
  refine ⟨rfl, rfl, rfl, rfl, rfl, ⟨?_, ?_⟩, ?_, ?_, fun j hj => ⟨?_, ?_⟩, ⟨w.heap.next, ?_, hblock,
    Or.inl (Nat.le_refl _), fun id' hne _ => hothers id' hne (fun _ => nofun)⟩,
    fun hlt => absurd hlt (Nat.not_lt.mpr hi), hfresh, hclean, rfl⟩
  · show _ ≤ (List.set _ _ _).length
    rw [List.length_set, hindices]
    exact Nat.le_succ_of_le hi
  · show _ < (List.set _ _ _).length
    rw [List.length_set, hindices]
    exact Nat.lt_succ_self i
  · show (List.set _ _ _).length = (List.set _ _ _).length
    rw [List.length_set, List.length_set, hindices, hparams]
  · exact getD_set_self (by omega)
  · exact (getD_set_ne (Ne.symm hj)).trans (getD_resize j)
  · exact (getD_set_ne (Ne.symm hj)).trans (getD_resize j)
  · exact getD_set_self (by omega)

/-- The value gets a new block at an index that is there. -/
theorem setArgValue_moved (hi : i < w.length)
    (hsize : w.paramSize i ≠ arg.length)
    (hptr : w.pointerAt i = .null ∨
      ∃ id old, w.pointerAt i = .block id 0 ∧ w.heap.blocks id = some old) :
    Stored w (w.setArgValue i arg true) i arg := by
  have hmoved : (w.heap.realloc (w.pointerAt i) arg.length true).2 = .block w.heap.next 0 ∧
      (w.heap.realloc (w.pointerAt i) arg.length true).1.write
        (w.heap.realloc (w.pointerAt i) arg.length true).2 arg =
          w.heap.replaced (w.pointerAt i) arg := by
    rcases hptr with hnull | ⟨id, old, hblock, hold⟩
    · rw [hnull]
      exact ⟨rfl, Heap.malloc_write w.heap arg⟩
    · rw [hblock]
      exact Heap.realloc_write hold
  have hgrow : ¬ i + 1 > w.kernel.Args.Indices.length := Nat.not_lt.mpr hi
  let args : Arguments :=
    { w.kernel.Args with
      Indices := w.kernel.Args.Indices.set i (w.heap.realloc (w.pointerAt i) arg.length true).2
      ParamSizes := w.kernel.Args.ParamSizes.set i arg.length }
  have hreserve : w.kernel.Args.reserve w.heap i arg.length true =
      (args, (w.heap.realloc (w.pointerAt i) arg.length true).1) :=
    (if_neg hgrow).trans (if_pos hsize)
  have hat : args.pointerAt i = (w.heap.realloc (w.pointerAt i) arg.length true).2 :=
    getD_set_self hi
  obtain ⟨hblock, hfresh, hclean, hothers⟩ := replaced_spec hf hc (w.pointerAt i) arg
  rw [setArgValue_eq hlen hreserve, hat, hmoved.2]
  refine ⟨rfl, rfl, rfl, rfl, rfl, ⟨?_, ?_⟩, ?_, ?_, fun j hj => ⟨?_, ?_⟩, ⟨w.heap.next, ?_, hblock,
    Or.inl (Nat.le_refl _), fun id' hne hother => hothers id' hne fun o ho => ?_⟩,
    fun _ hsame => absurd hsame hsize, hfresh, hclean, rfl⟩
  · show _ ≤ (List.set _ _ _).length
    rw [List.length_set]
    exact Nat.le_refl _
  · show _ < (List.set _ _ _).length
    rw [List.length_set]
    exact hi
  · show (List.set _ _ _).length = (List.set _ _ _).length
    rw [List.length_set, List.length_set]
    exact hsizes
  · exact getD_set_self (by rw [hsizes]; exact hi)
  · exact getD_set_ne (Ne.symm hj)
  · exact getD_set_ne (Ne.symm hj)
  · exact hat.trans hmoved.1
  · rcases hptr with hnull | ⟨id, old, hid, -⟩
    · rw [hnull] at ho
      cases ho
    · rw [hid] at ho hother
      obtain ⟨rfl, rfl⟩ := Ptr.block.inj ho
      exact hother rfl

/-- The value is written where the one before it was. -/
theorem setArgValue_kept (hi : i < w.length)
    (hsize : w.paramSize i = arg.length) {id : Nat} {old : List UInt8}
    (hptr : w.pointerAt i = .block id 0) (hold : w.heap.blocks id = some old)
    (holdlen : arg.length = old.length) (ok : Bool) :
    Stored w (w.setArgValue i arg ok) i arg := by
  have hgrow : ¬ i + 1 > w.kernel.Args.Indices.length := Nat.not_lt.mpr hi
  have hreserve : w.kernel.Args.reserve w.heap i arg.length ok = (w.kernel.Args, w.heap) :=
    (if_neg hgrow).trans (if_neg (not_not_intro hsize))
  have hat : w.kernel.Args.pointerAt i = .block id 0 := hptr
  rw [setArgValue_eq hlen hreserve, hat, Heap.write_whole hold holdlen]
  refine ⟨rfl, rfl, rfl, rfl, rfl, ⟨Nat.le_refl _, hi⟩, hsizes, hsize, fun j _ => ⟨rfl, rfl⟩,
    ⟨id, hptr, update_self _ _ _, Or.inr ⟨hi, hptr⟩,
      fun id' hne _ => update_of_ne hne _ _⟩, fun _ _ => rfl, fun id' hid' => ?_,
    ⟨hc.touched, hc.faulted⟩, rfl⟩
  have hlt := hf.lt hold
  have hid' : w.heap.next ≤ id' := hid'
  exact (update_of_ne (by omega) _ _).trans (hf id' hid')

end

/-! ## What is kept -/

/-- **What a kernel holds**, whatever has become of the list of local arguments: values in
blocks of their own, the pointers as they were passed, and a pool apart from the values. -/
structure Kept (w : World) : Prop where
  sizes : w.kernel.Args.ParamSizes.length = w.length
  fresh : w.heap.Fresh
  clean : w.heap.Clean
  freed : w.heap.freed = []
  set : ∀ i arg, w.last i = some arg → i < w.length
  values : ∀ i bytes, w.last i = some (.value bytes) → w.paramSize i = bytes.length ∧
    ∃ id, w.pointerAt i = .block id 0 ∧ w.heap.blocks id = some bytes ∧
      ∀ offset, w.kernel.localMemPool ≠ .block id offset
  distinct : ∀ i j bytes bytes', w.last i = some (.value bytes) → w.last j = some (.value bytes') →
    w.pointerAt i = w.pointerAt j → i = j
  pointers : ∀ i p, w.last i = some (.pointer p) → w.pointerAt i = p
  entries : ∀ i arg, w.last i = some arg → (∀ size, arg ≠ .localMem size) →
    w.kernel.localSize i = none
  pool : w.kernel.localMemPool = .null ∨ ∃ id old, w.kernel.localMemPool = .block id 0 ∧
    w.heap.blocks id = some old ∧ old.length = w.kernel.localMemPoolSize.toNat

theorem World.last_record {i j : Nat} {arg arg' : Arg} (h : w.record i arg j = some arg') :
    j = i ∧ arg' = arg ∨ j ≠ i ∧ w.last j = some arg' := by
  unfold World.record at h
  by_cases hji : j = i
  · subst hji
    rw [update_self] at h
    exact Or.inl ⟨rfl, (Option.some.inj h).symm⟩
  · rw [update_of_ne hji] at h
    exact Or.inr ⟨hji, h⟩

/-- **Setting a value** where there is room for it. -/
theorem Kept.room (h : Kept w) (hlen : arg.length ≠ 0) (hroom : w.Room i arg.length ok) :
    Stored w (w.setArgValue i arg ok) i arg := by
  unfold World.Room at hroom
  split at hroom
  next hnew =>
    rw [hroom]
    exact setArgValue_new h.sizes h.fresh h.clean hlen hnew
  next hold =>
    have hi := Nat.lt_of_not_le hold
    split at hroom
    next hsize =>
      obtain ⟨bytes, hbytes⟩ := hroom
      obtain ⟨hparam, id, hptr, hblock, -⟩ := h.values i bytes hbytes
      exact setArgValue_kept h.sizes h.fresh h.clean hlen hi hsize hptr hblock
        (hsize.symm.trans hparam) ok
    next hsize =>
      rw [hroom.1]
      refine setArgValue_moved h.sizes h.fresh h.clean hlen hi hsize ?_
      rcases hroom.2 with ⟨bytes, hbytes⟩ | hnull
      · obtain ⟨-, id, hptr, hblock, -⟩ := h.values i bytes hbytes
        exact Or.inr ⟨id, bytes, hptr, hblock⟩
      · exact Or.inl hnull

/-- The block of a stored value is nobody else's. -/
theorem Kept.stored (h : Kept w) (hentry : w.kernel.localSize i = none)
    (hroom : w.Owned i ∨ ∀ id, w.pointerAt i ≠ .block id 0) (hs : Stored w w' i arg) :
    Kept w' := by
  obtain ⟨id, hptr, hblock, hid, hothers⟩ := hs.block
  -- a block of another value or of the pool is not the one that is written or replaced
  have hsafe : ∀ id' old, w.heap.blocks id' = some old →
      (∀ bytes, w.last i = some (.value bytes) → w.pointerAt i ≠ .block id' 0) →
      id' ≠ id ∧ w'.heap.blocks id' = some old := by
    intro id' old hold hnot
    have hne : w.pointerAt i ≠ .block id' 0 := by
      rcases hroom with ⟨bytes, hbytes⟩ | hnone
      · exact hnot bytes hbytes
      · exact hnone id'
    have hlt := h.fresh.lt hold
    have hid' : id' ≠ id := by
      rintro rfl
      rcases hid with hge | ⟨-, heq⟩
      · omega
      · exact hne heq
    exact ⟨hid', (hothers id' hid' hne).trans hold⟩
  have hpool : ∀ offset, w'.kernel.localMemPool ≠ .block id offset := by
    intro offset hpool
    rw [hs.pool] at hpool
    rcases h.pool with hnull | ⟨pid, old, hpid, hold, -⟩
    · rw [hnull] at hpool
      cases hpool
    · rw [hpid] at hpool
      obtain ⟨rfl, -⟩ := Ptr.block.inj hpool
      refine (hsafe pid old hold fun bytes hbytes heq => ?_).1 rfl
      obtain ⟨-, id', hptr', -, hapart⟩ := h.values i bytes hbytes
      rw [heq] at hptr'
      obtain ⟨rfl, -⟩ := Ptr.block.inj hptr'
      exact hapart 0 hpid
  have hothervalue : ∀ j bytes, j ≠ i → w.last j = some (.value bytes) →
      w'.paramSize j = bytes.length ∧ ∃ id', w'.pointerAt j = .block id' 0 ∧ id' ≠ id ∧
        w'.heap.blocks id' = some bytes ∧ ∀ offset, w'.kernel.localMemPool ≠ .block id' offset := by
    intro j bytes hj hlast
    obtain ⟨hparam, id', hptr', hblock', hapart⟩ := h.values j bytes hlast
    have hne : ∀ bytes', w.last i = some (.value bytes') → w.pointerAt i ≠ .block id' 0 := by
      intro bytes' hlast' heq
      exact hj (h.distinct j i bytes bytes' hlast hlast' (hptr'.trans heq.symm))
    obtain ⟨hid', hkept⟩ := hsafe id' bytes hblock' hne
    exact ⟨(hs.others j hj).2.trans hparam, id', (hs.others j hj).1.trans hptr', hid', hkept,
      fun offset => by rw [hs.pool]; exact hapart offset⟩
  have hinfo : ∀ j, w'.kernel.localSize j = w.kernel.localSize j := by
    intro j
    unfold Kernel.localSize
    rw [hs.localArgInfo]
  refine
    { sizes := hs.sizes
      fresh := hs.fresh
      clean := hs.clean
      freed := hs.freed.trans h.freed
      set := fun j arg' hlast => ?_
      values := fun j bytes hlast => ?_
      distinct := fun j k bytes bytes' hj hk heq => ?_
      pointers := fun j p hlast => ?_
      entries := fun j arg' hlast hnot => ?_
      pool := ?_ }
  · rw [hs.last] at hlast
    rcases World.last_record hlast with ⟨rfl, -⟩ | ⟨hji, hlast⟩
    · exact hs.length.2
    · exact Nat.lt_of_lt_of_le (h.set j arg' hlast) hs.length.1
  · rw [hs.last] at hlast
    rcases World.last_record hlast with ⟨rfl, heq⟩ | ⟨hji, hlast⟩
    · obtain rfl := Arg.value.inj heq
      exact ⟨hs.size, id, hptr, hblock, hpool⟩
    · obtain ⟨hparam, id', hptr', -, hblock', hapart⟩ := hothervalue j bytes hji hlast
      exact ⟨hparam, id', hptr', hblock', hapart⟩
  · rw [hs.last] at hj hk
    rcases World.last_record hj with ⟨hji, -⟩ | ⟨hji, hjlast⟩
    · rcases World.last_record hk with ⟨hki, -⟩ | ⟨hki, hklast⟩
      · exact hji.trans hki.symm
      · obtain ⟨-, id', hptr', hne, -⟩ := hothervalue k bytes' hki hklast
        rw [hji, hptr, hptr'] at heq
        exact absurd (Ptr.block.inj heq).1.symm hne
    · rcases World.last_record hk with ⟨hki, -⟩ | ⟨hki, hklast⟩
      · obtain ⟨-, id', hptr', hne, -⟩ := hothervalue j bytes hji hjlast
        rw [hki, hptr, hptr'] at heq
        exact absurd (Ptr.block.inj heq).1 hne
      · rw [(hs.others j hji).1, (hs.others k hki).1] at heq
        exact h.distinct j k bytes bytes' hjlast hklast heq
  · rw [hs.last] at hlast
    rcases World.last_record hlast with ⟨-, heq⟩ | ⟨hji, hlast⟩
    · cases heq
    · exact (hs.others j hji).1.trans (h.pointers j p hlast)
  · rw [hinfo]
    rw [hs.last] at hlast
    rcases World.last_record hlast with ⟨rfl, -⟩ | ⟨hji, hlast⟩
    · exact hentry
    · exact h.entries j arg' hlast hnot
  · rw [hs.pool, hs.poolSize]
    rcases h.pool with hnull | ⟨pid, old, hpid, hold, hsize⟩
    · exact Or.inl hnull
    · refine Or.inr ⟨pid, old, hpid, (hsafe pid old hold fun bytes hbytes heq => ?_).2, hsize⟩
      obtain ⟨-, id', hptr', -, hapart⟩ := h.values i bytes hbytes
      rw [heq] at hptr'
      obtain ⟨rfl, -⟩ := Ptr.block.inj hptr'
      exact hapart 0 hpid

/-! ## Pointers and local memory -/

theorem addPtrArg_spec (a : Arguments) (i : Nat) (p : Ptr) :
    (a.addPtrArg i p).Indices.length = max a.Indices.length (i + 1) ∧
      (a.addPtrArg i p).pointerAt i = p ∧
      (a.ParamSizes.length = a.Indices.length →
        (a.addPtrArg i p).ParamSizes.length = (a.addPtrArg i p).Indices.length) ∧
      ∀ j, j ≠ i → (a.addPtrArg i p).pointerAt j = a.pointerAt j ∧
        (a.addPtrArg i p).ParamSizes.getD j 0 = a.ParamSizes.getD j 0 := by
  by_cases hgrow : i + 1 > a.Indices.length
  · have ha : a.addPtrArg i p =
        { Indices := (resize a.Indices (i + 1) .null).set i p
          OwnsMem := (resize a.OwnsMem (i + 1) false).set i false
          ParamSizes := (resize a.ParamSizes (i + 1) 0).set i Arguments.pointerSize } := by
      unfold Arguments.addPtrArg
      rw [if_pos hgrow]
    have hindices : (resize a.Indices (i + 1) .null).length = i + 1 :=
      length_resize (Nat.le_of_lt hgrow)
    rw [ha]
    refine ⟨?_, ?_, fun hsizes => ?_, fun j hj => ⟨?_, ?_⟩⟩
    · rw [List.length_set]
      omega
    · exact getD_set_self (by omega)
    · rw [List.length_set, List.length_set, hindices, length_resize (by omega)]
    · exact (getD_set_ne (Ne.symm hj)).trans (getD_resize j)
    · exact (getD_set_ne (Ne.symm hj)).trans (getD_resize j)
  · have ha : a.addPtrArg i p = { a with Indices := a.Indices.set i p } := by
      unfold Arguments.addPtrArg
      rw [if_neg hgrow]
    rw [ha]
    refine ⟨?_, getD_set_self (by omega), fun hsizes => ?_, fun j hj => ⟨?_, rfl⟩⟩
    · show (List.set _ _ _).length = _
      rw [List.length_set]
      omega
    · show _ = (List.set _ _ _).length
      rw [List.length_set]
      exact hsizes
    · exact getD_set_ne (Ne.symm hj)

/-- The world after a call that puts a pointer at an index. -/
def World.pointed (w : World) (i : Nat) (p : Ptr) (info : List LocalArgInfo) (arg : Arg) : World :=
  { w with
    kernel := { w.kernel with Args := w.kernel.Args.addPtrArg i p, localArgInfo := info }
    last := w.record i arg }

/-- **A pointer is put at an index**, which is no longer a value then. -/
theorem Kept.pointed (h : Kept w) {p : Ptr} (info : List LocalArgInfo) {a : Arg}
    (ha : ∀ bytes, a ≠ .value bytes) (hp : ∀ q, a = .pointer q → q = p)
    (hentries : ∀ j arg', (w.pointed i p info a).last j = some arg' →
      (∀ size, arg' ≠ .localMem size) → (w.pointed i p info a).kernel.localSize j = none) :
    Kept (w.pointed i p info a) := by
  obtain ⟨hlength, hself, hsizes, hothers⟩ := addPtrArg_spec w.kernel.Args i p
  have hvalue : ∀ j bytes, (w.pointed i p info a).last j = some (.value bytes) →
      j ≠ i ∧ w.last j = some (.value bytes) := by
    intro j bytes hlast
    rcases World.last_record hlast with ⟨-, heq⟩ | hother
    · exact absurd heq.symm (ha bytes)
    · exact hother
  refine
    { sizes := hsizes h.sizes
      fresh := h.fresh
      clean := h.clean
      freed := h.freed
      set := fun j arg' hlast => ?_
      values := fun j bytes hlast => ?_
      distinct := fun j k bytes bytes' hj hk heq => ?_
      pointers := fun j q hlast => ?_
      entries := hentries
      pool := h.pool }
  · show j < (w.kernel.Args.addPtrArg i p).Indices.length
    rw [hlength]
    rcases World.last_record hlast with ⟨rfl, -⟩ | ⟨-, hold⟩
    · exact Nat.lt_of_lt_of_le (Nat.lt_succ_self j) (Nat.le_max_right _ _)
    · exact Nat.lt_of_lt_of_le (h.set j arg' hold) (Nat.le_max_left _ _)
  · obtain ⟨hji, hold⟩ := hvalue j bytes hlast
    obtain ⟨hparam, id, hptr, hblock, hapart⟩ := h.values j bytes hold
    exact ⟨(hothers j hji).2.trans hparam, id, (hothers j hji).1.trans hptr, hblock, hapart⟩
  · obtain ⟨hji, hjold⟩ := hvalue j bytes hj
    obtain ⟨hki, hkold⟩ := hvalue k bytes' hk
    refine h.distinct j k bytes bytes' hjold hkold ?_
    exact (hothers j hji).1.symm.trans (heq.trans (hothers k hki).1)
  · rcases World.last_record hlast with ⟨rfl, heq⟩ | ⟨hji, hold⟩
    · exact hself.trans (hp q heq.symm).symm
    · exact (hothers j hji).1.trans (h.pointers j q hold)

/-- `urKernelSetArgPointer` and `urKernelSetArgMemObj`. -/
theorem Kept.addPtrArg (h : Kept w) (hentry : w.kernel.localSize i = none) (p : Ptr) :
    Kept (w.addPtrArg i p) := by
  refine h.pointed w.kernel.localArgInfo (a := .pointer p) (fun _ => nofun)
    (fun q heq => (Arg.pointer.inj heq).symm) fun j arg' hlast hnot => ?_
  show w.kernel.localSize j = none
  rcases World.last_record hlast with ⟨rfl, -⟩ | ⟨-, hold⟩
  · exact hentry
  · exact h.entries j arg' hold hnot

/-- The last entry of the list counts. -/
theorem localSize_append (k : Kernel) (i j : Nat) (size : UInt64) :
    ({ k with localArgInfo := k.localArgInfo ++ [⟨i, size⟩] } : Kernel).localSize j =
      if i = j then some size else k.localSize j := by
  unfold Kernel.localSize
  rw [List.reverse_append, List.reverse_singleton, List.singleton_append, List.find?_cons]
  by_cases hij : i = j
  · simp only [hij, beq_self_eq_true]
    rfl
  · rw [if_neg hij]
    have hbeq : (i == j) = false := beq_eq_false_iff_ne.mpr hij
    simp [hbeq]

/-- `urKernelSetArgLocal`. -/
theorem Kept.setArgLocal (h : Kept w) (i : Nat) (size : UInt64) : Kept (w.setArgLocal i size) := by
  refine h.pointed _ (a := .localMem size) (fun _ => nofun) (fun _ => nofun)
    fun j arg' hlast hnot => ?_
  rcases World.last_record hlast with ⟨-, heq⟩ | ⟨hji, hold⟩
  · exact absurd heq (hnot size)
  · refine (localSize_append { w.kernel with Args := w.kernel.Args.addPtrArg i .null } i j
      size).trans ?_
    rw [if_neg (Ne.symm hji)]
    exact h.entries j arg' hold hnot

/-! ## The pool -/

/-- What sizing the pool does: nothing, or another block takes the place of the pool. -/
theorem updateMemPool_cases (w : World) (numParallelThreads : UInt64) (ok : Bool) :
    ((Kernel.reqSize w.kernel.localArgInfo numParallelThreads = 0 ∨
          Kernel.reqSize w.kernel.localArgInfo numParallelThreads = w.kernel.localMemPoolSize) ∧
        w.updateMemPool numParallelThreads ok = w) ∨
      (Kernel.reqSize w.kernel.localArgInfo numParallelThreads ≠ 0 ∧
        Kernel.reqSize w.kernel.localArgInfo numParallelThreads ≠ w.kernel.localMemPoolSize) ∧
      w.updateMemPool numParallelThreads ok =
        { w with
          kernel := { w.kernel with
            localMemPool := (w.heap.realloc w.kernel.localMemPool
              (Kernel.reqSize w.kernel.localArgInfo numParallelThreads).toNat ok).2
            localMemPoolSize := Kernel.reqSize w.kernel.localArgInfo numParallelThreads }
          heap := (w.heap.realloc w.kernel.localMemPool
            (Kernel.reqSize w.kernel.localArgInfo numParallelThreads).toNat ok).1 } := by
  unfold World.updateMemPool Kernel.updateMemPool
  dsimp only
  split
  next hsame => exact Or.inl ⟨hsame, rfl⟩
  next hother => exact Or.inr ⟨not_or.mp hother, rfl⟩

/-- A pool that gets another block. -/
theorem realloc_pool {h : Heap} {pool : Ptr} (size : Nat) (hf : h.Fresh) (hc : h.Clean)
    (hpool : pool = .null ∨ ∃ id old, pool = .block id 0 ∧ h.blocks id = some old) (ok : Bool) :
    (h.realloc pool size ok).1.Fresh ∧ (h.realloc pool size ok).1.Clean ∧
      (h.realloc pool size ok).1.freed = h.freed ∧
      (∀ id, (h.blocks id).isSome → (∀ o, pool ≠ .block id o) →
        (h.realloc pool size ok).1.blocks id = h.blocks id ∧
          ∀ o, (h.realloc pool size ok).2 ≠ .block id o) ∧
      if ok then ∃ old, (h.realloc pool size ok).2 = .block h.next 0 ∧
        (h.realloc pool size ok).1.blocks h.next = some old ∧ old.length = size
      else (h.realloc pool size ok).2 = .null := by
  cases ok with
  | false =>
    have hre : h.realloc pool size false = (h, .null) := by
      rcases hpool with rfl | ⟨pid, old, rfl, hold⟩
      · rfl
      · unfold Heap.realloc
        dsimp only
        rw [hold]
        rfl
    rw [hre]
    exact ⟨hf, hc, rfl, fun _ _ _ => ⟨rfl, fun _ => nofun⟩, rfl⟩
  | true =>
    have hre : ∃ bytes, (h.realloc pool size true) = (h.replaced pool bytes, .block h.next 0) ∧
        bytes.length = size := by
      rcases hpool with rfl | ⟨pid, old, rfl, hold⟩
      · exact ⟨List.replicate size 0, rfl, List.length_replicate ..⟩
      · refine ⟨Heap.resized old size, ?_, Heap.resized_length old size⟩
        unfold Heap.realloc
        dsimp only
        rw [hold]
        rfl
    obtain ⟨bytes, hre, hlen⟩ := hre
    obtain ⟨hblock, hfresh, hclean, hothers⟩ := replaced_spec hf hc pool bytes
    rw [hre]
    refine ⟨hfresh, hclean, rfl, fun id hid hne => ?_, ⟨bytes, rfl, hblock, hlen⟩⟩
    obtain ⟨old, hold⟩ := Option.isSome_iff_exists.mp hid
    have hlt := hf.lt hold
    refine ⟨hothers id (by omega) hne, fun o heq => ?_⟩
    obtain ⟨rfl, -⟩ := Ptr.block.inj heq
    exact Nat.lt_irrefl _ hlt

/-- **Sizing the pool** leaves the values. -/
theorem Kept.updateMemPool (h : Kept w) (numParallelThreads : UInt64) (ok : Bool) :
    Kept (w.updateMemPool numParallelThreads ok) := by
  rcases updateMemPool_cases w numParallelThreads ok with ⟨-, heq⟩ | ⟨-, heq⟩
  · rw [heq]
    exact h
  have hpool : w.kernel.localMemPool = .null ∨ ∃ id old, w.kernel.localMemPool = .block id 0 ∧
      w.heap.blocks id = some old := by
    rcases h.pool with hnull | ⟨id, old, hid, hold, -⟩
    · exact Or.inl hnull
    · exact Or.inr ⟨id, old, hid, hold⟩
  obtain ⟨hfresh, hclean, hfreed, hothers, hnew⟩ := realloc_pool
    (Kernel.reqSize w.kernel.localArgInfo numParallelThreads).toNat h.fresh h.clean hpool ok
  rw [heq]
  refine
    { sizes := h.sizes
      fresh := hfresh
      clean := hclean
      freed := hfreed.trans h.freed
      set := h.set
      values := fun j bytes hlast => ?_
      distinct := h.distinct
      pointers := h.pointers
      entries := h.entries
      pool := ?_ }
  · obtain ⟨hparam, id, hptr, hblock, hapart⟩ := h.values j bytes hlast
    obtain ⟨hkept, hne⟩ := hothers id (by rw [hblock]; rfl) hapart
    exact ⟨hparam, id, hptr, hkept.trans hblock, hne⟩
  · cases ok with
    | false => exact Or.inl hnew
    | true =>
      obtain ⟨old, hptr, hblock, hlen⟩ := hnew
      exact Or.inr ⟨_, old, hptr, hblock, hlen⟩

/-! ## Runs -/

/-- **The invariant**: what is kept, with the list of local arguments as it was filled, and no
pointer into a block but for the values. -/
structure Inv (w : World) : Prop where
  kept : Kept w
  locals : ∀ i size, w.last i = some (.localMem size) → w.kernel.localSize i = some size
  plain : ∀ i id offset, w.pointerAt i = .block id offset → w.Owned i

theorem Inv.create : Inv .create where
  kept :=
    { sizes := rfl
      fresh := fun _ _ => rfl
      clean := ⟨rfl, rfl⟩
      freed := rfl
      set := nofun
      values := nofun
      distinct := nofun
      pointers := nofun
      entries := nofun
      pool := Or.inl rfl }
  locals := nofun
  plain := fun i _ _ hptr => by
    cases hptr

/-- What the invariant says of an index. -/
theorem Inv.holds (h : Inv w) {a : Arg} (hlast : w.last i = some a) : w.Holds i a := by
  cases a with
  | value bytes =>
    obtain ⟨-, id, hptr, hblock, -⟩ := h.kept.values i bytes hlast
    exact ⟨h.kept.entries i _ hlast (fun _ => nofun), id, hptr, hblock⟩
  | pointer p =>
    exact ⟨h.kept.entries i _ hlast (fun _ => nofun), h.kept.pointers i p hlast⟩
  | localMem size => exact h.locals i size hlast

/-- A call that leaves the kernel there is right if the invariant holds behind it. -/
theorem Inv.right (h : Inv w') (halive : w'.alive = true) : RightCall w w' := by
  refine ⟨fun _ i a hlast => h.holds hlast, h.kept.clean, ?_⟩
  rw [if_pos halive]
  exact h.kept.freed

theorem Inv.stored (h : Inv w) (hlen : arg.length ≠ 0) (hentry : w.kernel.localSize i = none)
    (hroom : w.Room i arg.length ok) : Inv (w.setArgValue i arg ok) := by
  have hs := h.kept.room hlen hroom
  have hinfo : ∀ j, (w.setArgValue i arg ok).kernel.localSize j = w.kernel.localSize j := by
    intro j
    unfold Kernel.localSize
    rw [hs.localArgInfo]
  refine ⟨h.kept.stored hentry ?_ hs, fun j size hlast => ?_, fun j id offset hptr => ?_⟩
  · by_cases howned : w.Owned i
    · exact Or.inl howned
    · exact Or.inr fun id hptr => howned (h.plain i id 0 hptr)
  · rw [hinfo]
    rw [hs.last] at hlast
    rcases World.last_record hlast with ⟨-, heq⟩ | ⟨-, hold⟩
    · cases heq
    · exact h.locals j size hold
  · unfold World.Owned
    rw [hs.last]
    by_cases hji : j = i
    · subst hji
      exact ⟨arg, update_self _ _ _⟩
    · rw [(hs.others j hji).1] at hptr
      obtain ⟨bytes, hbytes⟩ := h.plain j id offset hptr
      exact ⟨bytes, (update_of_ne hji _ _).trans hbytes⟩

/-- No block is pointed to from an index with a pointer. -/
theorem plain_pointed (h : Inv w) {p : Ptr} (hp : ∀ id offset, p ≠ .block id offset)
    (info : List LocalArgInfo) (a : Arg) :
    ∀ j id offset, (w.pointed i p info a).pointerAt j = .block id offset →
      (w.pointed i p info a).Owned j := by
  intro j id offset hptr
  obtain ⟨-, hself, -, hothers⟩ := addPtrArg_spec w.kernel.Args i p
  by_cases hji : j = i
  · subst hji
    exact absurd (hself.symm.trans hptr) (hp id offset)
  · obtain ⟨bytes, hbytes⟩ := h.plain j id offset ((hothers j hji).1.symm.trans hptr)
    exact ⟨bytes, (update_of_ne hji _ _).trans hbytes⟩

theorem userPtr?_ne (arg : Option Nat) (id offset : Nat) : userPtr? arg ≠ .block id offset := by
  cases arg with
  | none => exact nofun
  | some addr => exact nofun

theorem Inv.addPtrArg (h : Inv w) (hentry : w.kernel.localSize i = none) (arg : Option Nat) :
    Inv (w.addPtrArg i (userPtr? arg)) := by
  refine ⟨h.kept.addPtrArg hentry _, fun j size hlast => ?_,
    plain_pointed h (userPtr?_ne arg) w.kernel.localArgInfo _⟩
  rcases World.last_record hlast with ⟨-, heq⟩ | ⟨-, hold⟩
  · cases heq
  · exact h.locals j size hold

theorem Inv.setArgLocal (h : Inv w) (i : Nat) (size : UInt64) : Inv (w.setArgLocal i size) := by
  refine ⟨h.kept.setArgLocal i size, fun j size' hlast => ?_,
    plain_pointed (p := .null) h (fun _ _ => nofun) _ _⟩
  refine (localSize_append { w.kernel with Args := w.kernel.Args.addPtrArg i .null } i j
    size).trans ?_
  rcases World.last_record hlast with ⟨rfl, heq⟩ | ⟨hji, hold⟩
  · rw [if_pos rfl, Arg.localMem.inj heq]
  · rw [if_neg (Ne.symm hji)]
    exact h.locals j size' hold

theorem Inv.updateMemPool (h : Inv w) (n : UInt64) (ok : Bool) : Inv (w.updateMemPool n ok) := by
  have hkept := h.kept.updateMemPool n ok
  rcases updateMemPool_cases w n ok with ⟨-, heq⟩ | ⟨-, heq⟩
  · rw [heq]
    exact h
  · rw [heq] at hkept ⊢
    exact ⟨hkept, h.locals, h.plain⟩

/-- **One call** that meets the condition keeps the invariant, as long as the kernel is there. -/
theorem Inv.step (h : Inv w) : ∀ call, Fine w call → (w.step call).alive = true →
    Inv (w.step call)
  | .setValue i arg ok, hfine, _ => by
    show Inv (w.setArgValue i arg ok)
    by_cases hlen : arg.length = 0
    · unfold World.setArgValue
      rw [if_pos hlen]
      exact h
    · obtain ⟨hentry, hroom⟩ := hfine.resolve_left hlen
      exact h.stored hlen hentry hroom
  | .setPointer i arg, hfine, _ => by
    show Inv (w.setArgPointer i arg)
    unfold World.setArgPointer
    split
    · exact h
    next hnull => exact h.addPtrArg (hfine.resolve_left hnull) arg
  | .setMemObj i mem, hfine, _ => h.addPtrArg hfine mem
  | .setLocal i size, _, _ => h.setArgLocal i size
  | .updateMemPool n ok, _, _ => h.updateMemPool n ok
  | .retain, _, _ =>
    ⟨⟨h.kept.sizes, h.kept.fresh, h.kept.clean, h.kept.freed, h.kept.set, h.kept.values,
      h.kept.distinct, h.kept.pointers, h.kept.entries, h.kept.pool⟩, h.locals, h.plain⟩
  | .release, _, halive => by
    unfold World.step World.release at halive ⊢
    dsimp only at halive ⊢
    split
    next hzero =>
      rw [if_pos hzero] at halive
      cases halive
    next hzero =>
      exact ⟨⟨h.kept.sizes, h.kept.fresh, h.kept.clean, h.kept.freed, h.kept.set, h.kept.values,
        h.kept.distinct, h.kept.pointers, h.kept.entries, h.kept.pool⟩, h.locals, h.plain⟩

/-! ## When a call is right -/

/-- Only the last release deletes the kernel. -/
theorem step_alive (halive : w.alive = true) : ∀ call, call ≠ .release →
    (w.step call).alive = true
  | .setValue i arg ok, _ => by
    unfold World.step World.setArgValue
    dsimp only
    split
    · exact halive
    · exact halive
  | .setPointer i arg, _ => by
    unfold World.step World.setArgPointer
    dsimp only
    split
    · exact halive
    · exact halive
  | .setMemObj i mem, _ => halive
  | .setLocal i size, _ => halive
  | .updateMemPool n ok, _ => halive
  | .retain, _ => halive
  | .release, hne => absurd rfl hne

/-- **A value that is stored right** had room. -/
theorem Inv.room (h : Inv w) (hlen : arg.length ≠ 0)
    (hclean : (w.setArgValue i arg ok).heap.Clean) : w.Room i arg.length ok := by
  have hne : arg ≠ [] := fun heq => hlen (by rw [heq]; rfl)
  have hlength : w.kernel.Args.Indices.length = w.length := rfl
  unfold World.setArgValue at hclean
  rw [if_neg hlen] at hclean
  obtain ⟨hreserve, id, offset, hptr⟩ := clean_write hclean hne
  unfold World.Room
  unfold Arguments.reserve at hreserve hptr
  split
  next hnew =>
    rw [if_pos (by omega)] at hptr
    cases ok with
    | true => rfl
    | false =>
      -- without a block the pointer is null
      have hnull := hptr.symm.trans (getD_set_self (by rw [length_resize (by omega)]; omega))
      cases hnull
  next hold =>
    rw [if_neg (by omega)] at hreserve hptr
    split
    next hsize =>
      have hsize : w.kernel.Args.ParamSizes.getD i 0 = arg.length := hsize
      rw [if_neg (not_not_intro hsize)] at hptr
      exact h.plain i id offset hptr
    next hsize =>
      have hsize : w.kernel.Args.ParamSizes.getD i 0 ≠ arg.length := hsize
      rw [if_pos hsize] at hreserve hptr
      have hmoved : (w.heap.realloc (w.pointerAt i) arg.length ok).2 = .block id offset :=
        (getD_set_self (Nat.lt_of_not_le hold)).symm.trans hptr
      refine ⟨?_, ?_⟩
      · cases ok with
        | true => rfl
        | false =>
          rw [realloc_not_ok] at hmoved
          cases hmoved
      · cases hcur : w.pointerAt i with
        | null => exact Or.inr rfl
        | user addr =>
          have huser : (w.heap.realloc (w.pointerAt i) arg.length ok).1.Clean := hreserve
          rw [hcur] at huser
          exact absurd huser (realloc_user addr)
        | block id' offset' => exact Or.inl (h.plain i id' offset' hcur)

theorem setArgValue_localSize (w : World) (i : Nat) (arg : List UInt8) (ok : Bool) (j : Nat) :
    (w.setArgValue i arg ok).kernel.localSize j = w.kernel.localSize j := by
  unfold World.setArgValue
  split
  · rfl
  · rfl

/-- The destructor counts down from zero, and frees nothing. -/
theorem release_last (w : World) (h : w.kernel.refCount = 1) :
    w.release.alive = false ∧ w.release.heap = w.heap := by
  have hzero : w.kernel.refCount - 1 = 0 := by
    rw [h]
    rfl
  have hdestroy : Kernel.destroy { w.kernel with refCount := w.kernel.refCount - 1 } w.heap =
      w.heap := by
    unfold Kernel.destroy
    dsimp only
    rw [hzero]
    exact if_neg (by decide)
  unfold World.release
  rw [if_pos hzero]
  exact ⟨rfl, hdestroy⟩

theorem release_other (w : World) (h : w.kernel.refCount ≠ 1) :
    w.release.alive = w.alive := by
  have hne : w.kernel.refCount - 1 ≠ 0 := by
    intro hzero
    apply h
    have hback := congrArg (· + 1) hzero
    simpa using hback
  unfold World.release
  rw [if_neg hne]

/-- **When a call is right.** -/
theorem right_iff_fine (h : Inv w) (halive : w.alive = true) : ∀ call,
    Right w call ↔ Fine w call := by
  have hkeep : ∀ call, (w.step call).alive = true → Fine w call → Right w call :=
    fun call halive' hfine => (h.step call hfine halive').right halive'
  intro call
  cases call with
  | setValue i arg ok =>
    refine ⟨fun hright => ?_, hkeep _ (step_alive halive _ nofun)⟩
    by_cases hlen : arg.length = 0
    · exact Or.inl hlen
    · refine Or.inr ⟨?_, h.room hlen hright.clean⟩
      have hlast : (w.setArgValue i arg ok).last i = some (.value arg) := by
        unfold World.setArgValue
        rw [if_neg hlen]
        exact update_self _ _ _
      have hholds := (hright.holds (step_alive halive _ nofun) i _ hlast).1
      rwa [show w.step (.setValue i arg ok) = w.setArgValue i arg ok from rfl,
        setArgValue_localSize] at hholds
  | setPointer i arg =>
    refine ⟨fun hright => ?_, hkeep _ (step_alive halive _ nofun)⟩
    by_cases hnull : arg = none
    · exact Or.inl hnull
    · have hset : w.step (.setPointer i arg) = w.addPtrArg i (userPtr? arg) := if_neg hnull
      unfold Right at hright
      rw [hset] at hright
      exact Or.inr (hright.holds halive i _ (update_self _ _ _)).1
  | setMemObj i mem =>
    refine ⟨fun hright => ?_, hkeep _ halive⟩
    exact (hright.holds halive i _ (update_self _ _ _)).1
  | setLocal i size => exact ⟨fun _ => trivial, hkeep _ halive⟩
  | updateMemPool n ok => exact ⟨fun _ => trivial, hkeep _ halive⟩
  | retain => exact ⟨fun _ => trivial, hkeep _ halive⟩
  | release =>
    by_cases hlast : w.kernel.refCount = 1
    · obtain ⟨hdead, hheap⟩ := release_last w hlast
      constructor
      · intro hright _ id
        have hfrees := hright.frees
        rw [show w.step .release = w.release from rfl, hdead, hheap] at hfrees
        exact hfrees.none_live id
      · intro hfine
        refine ⟨fun halive' => ?_, ?_, ?_⟩
        · exact absurd (hdead.symm.trans halive') Bool.false_ne_true
        · show w.release.heap.Clean
          rw [hheap]
          exact h.kept.clean
        · rw [show w.step .release = w.release from rfl, hdead, hheap]
          refine ⟨hfine hlast, ?_, fun id bytes hid => ?_⟩
          · rw [h.kept.freed]
            exact List.nodup_nil
          · rw [hfine hlast id] at hid
            cases hid
    · exact ⟨fun _ h1 => absurd h1 hlast, hkeep _ ((release_other w hlast).trans halive)⟩

/-- **Kernel arguments**: in every run of calls on a kernel, all calls are right exactly if all
meet the condition. -/
theorem args_right_iff (calls : List ArgCall)
    (hallowed : Along World.step Allowed .create calls) :
    Along World.step Right .create calls ↔ Along World.step Fine .create calls := by
  have hright : ∀ (w : World) call, (w.alive = true → Inv w) → Allowed w call →
      (Right w call ↔ Fine w call) :=
    fun w call hinv halive => right_iff_fine (hinv halive) halive call
  have hstep : ∀ (w : World) call, (w.alive = true → Inv w) → Allowed w call → Fine w call →
      (w.step call).alive = true → Inv (w.step call) :=
    fun w call hinv halive hfine halive' => (hinv halive).step call hfine halive'
  exact along_iff hright hstep (fun _ => Inv.create) hallowed

/-- A value of four bytes that becomes one of one byte, a pointer, and a reference that is given
back. -/
theorem args_right_iff_values : Along World.step Right .create
    [.setValue 0 [1, 2, 3, 4] true, .setPointer 1 (some 5), .setValue 0 [9] true, .retain,
      .release] := by
  refine (args_right_iff _ ?_).mpr ?_
  · exact ⟨rfl, rfl, rfl, rfl, rfl, trivial⟩
  · refine ⟨Or.inr ⟨rfl, ?_⟩, Or.inr rfl, Or.inr ⟨rfl, ?_⟩, trivial, ?_, trivial⟩
    · unfold World.Room
      rw [if_pos (by decide)]
    · exact ⟨rfl, Or.inl ⟨[1, 2, 3, 4], rfl⟩⟩
    · intro h
      exact absurd h (by decide)

/-- A value of the size of a pointer is written where the pointer before it points, one of
another size makes the kernel reallocate it, and the last release leaves the storage. -/
theorem args_wrong :
    (Along World.step Allowed .create
        [.setPointer 0 (some 5), .setValue 0 [1, 2, 3, 4, 5, 6, 7, 8] true] ∧
      ¬ Along World.step Right .create
        [.setPointer 0 (some 5), .setValue 0 [1, 2, 3, 4, 5, 6, 7, 8] true]) ∧
    (Along World.step Allowed .create [.setPointer 0 (some 5), .setValue 0 [1] true] ∧
      ¬ Along World.step Right .create [.setPointer 0 (some 5), .setValue 0 [1] true]) ∧
    Along World.step Allowed .create [.setValue 0 [1] true, .release] ∧
      ¬ Along World.step Right .create [.setValue 0 [1] true, .release] := by
  refine ⟨⟨⟨rfl, rfl, trivial⟩, fun h => ?_⟩, ⟨⟨rfl, rfl, trivial⟩, fun h => ?_⟩,
    ⟨rfl, rfl, trivial⟩, fun h => ?_⟩
  · exact absurd h.2.1.clean.touched (by decide)
  · exact absurd h.2.1.clean.touched (by decide)
  · have hfrees := h.2.1.frees
    exact absurd (hfrees.none_live 0) (by decide)

end UnifiedRuntime.NativeCpu
