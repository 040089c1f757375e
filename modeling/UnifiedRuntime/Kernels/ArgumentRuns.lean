import UnifiedRuntime.Kernels.ArgumentSlots

/-!
# Runs on kernel arguments

`addArg` does not clear the original size of a local argument that it replaces, nor does anything
remove a memory object. So an index must keep its kind: then every launch has the arguments that
were set last.

- `Inv.call`: what a careful call keeps.
- `kernelArguments_right`: runs of careful calls are right.
-/

namespace UnifiedRuntime.Kernels

open Function (update update_of_ne update_self)
open Streams (Adapter)

/-! ## Careful calls -/

namespace Arguments

/-- No memory object is recorded for the index. -/
def NoMemObj (a : Arguments) (index : Nat) : Prop := ∀ m ∈ a.memObjArgs, m.index ≠ index

/-- The index never was a local argument, and there is room. -/
def Settable (asserts : Bool) (a : Arguments) (index n : Nat) : Prop :=
  index < 2 ^ 31 ∧ a.originalLocalMemSize index = 0 ∧ a.Fits asserts index n

/-- The work-group memory that a launch lays out behind. -/
def launchMemory (adapter : Adapter) (a : Arguments) (workGroupMemory : Nat) : Nat :=
  if adapter = .cuda ∧ workGroupMemory ≠ 0 then workGroupMemory else a.workGroupMemory

/-- **A call that keeps the kind of its index**, for which there is room. -/
def Careful (adapter : Adapter) (asserts : Bool) (a : Arguments) : Call → Prop
  | .setArgValue index value => adapter = .cuda ∧ value.length = 0 ∨
      a.Settable asserts index value.length ∧ a.NoMemObj index
  | .setArgPointer index _ => a.Settable asserts index 8 ∧ a.NoMemObj index
  | .setArgMemObj _ none _ => False
  | .setArgMemObj index (some (_, ptr)) _ => ptr = none ∨ a.Settable asserts index 8
  | .setArgSampler index _ => a.Settable asserts index 4 ∧ a.NoMemObj index
  | .setArgLocal index size => size = 0 ∨ index < 2 ^ 31 ∧ a.Fits asserts index 8 ∧
      a.NoMemObj index ∧ layoutEnd alignment a.workGroupMemory
        (update a.originalLocalMemSize index size) (max a.numArgs (index + 1)) < 2 ^ 64
  | .launch _ workGroupMemory => layoutEnd alignment (a.launchMemory adapter workGroupMemory)
      a.originalLocalMemSize a.numArgs < 2 ^ 32

/-- All calls of a run are careful. -/
def CarefulRun (adapter : Adapter) (asserts : Bool) : Arguments → List Call → Prop
  | _, [] => True
  | a, call :: calls => a.Careful adapter asserts call ∧
      ∀ a', callArguments adapter asserts a call = .ok a' → CarefulRun adapter asserts a' calls

instance (a : Arguments) (index n : Nat) (asserts : Bool) : Decidable (a.Fits asserts index n) :=
  inferInstanceAs (Decidable ((a.paramSizes index = 0 → a.insertPos + n ≤ maxParamBytes) ∧
    (a.paramSizes index ≠ 0 → n ≤ a.paramSizes index ∧ (asserts = true → n = a.paramSizes index))))

instance (a : Arguments) (index : Nat) : Decidable (a.NoMemObj index) :=
  inferInstanceAs (Decidable (∀ m ∈ a.memObjArgs, m.index ≠ index))

instance (a : Arguments) (index n : Nat) (asserts : Bool) :
    Decidable (a.Settable asserts index n) :=
  inferInstanceAs (Decidable (_ ∧ _ ∧ _))

instance decidableCareful (adapter : Adapter) (asserts : Bool) (a : Arguments) :
    (call : Call) → Decidable (a.Careful adapter asserts call)
  | .setArgValue _ _ => inferInstanceAs (Decidable ((_ ∧ _) ∨ _ ∧ _))
  | .setArgPointer _ _ => inferInstanceAs (Decidable (_ ∧ _))
  | .setArgMemObj _ none _ => inferInstanceAs (Decidable False)
  | .setArgMemObj _ (some _) _ => inferInstanceAs (Decidable (_ ∨ _))
  | .setArgSampler _ _ => inferInstanceAs (Decidable (_ ∧ _))
  | .setArgLocal _ _ => inferInstanceAs (Decidable (_ ∨ _ ∧ _ ∧ _ ∧ _))
  | .launch _ _ => inferInstanceAs (Decidable (_ < _))

instance decidableCarefulRun (adapter : Adapter) (asserts : Bool) :
    (a : Arguments) → (calls : List Call) → Decidable (a.CarefulRun adapter asserts calls)
  | _, [] => .isTrue trivial
  | a, call :: calls =>
    match hcall : callArguments adapter asserts a call with
    | .error _ => decidable_of_iff (a.Careful adapter asserts call)
        ⟨fun h => ⟨h, fun _ ha => by rw [hcall] at ha; cases ha⟩, And.left⟩
    | .ok a₁ =>
      have := decidableCarefulRun adapter asserts a₁ calls
      decidable_of_iff (a.Careful adapter asserts call ∧ a₁.CarefulRun adapter asserts calls)
        ⟨fun h => ⟨h.1, fun _ ha => by rw [hcall] at ha; cases ha; exact h.2⟩,
          fun h => ⟨h.1, h.2 a₁ hcall⟩⟩

end Arguments

/-! ## The invariant -/

/-- **What is kept**: places and layout, the values that were set last, and memory objects. -/
structure Inv (adapter : Adapter) (a : Arguments) (h : History) : Prop where
  layable : a.Layable
  laid : a.LaidOut a.numArgs
  beyond : ∀ i, a.numArgs ≤ i → a.originalLocalMemSize i = 0
  fits : layoutEnd alignment a.workGroupMemory a.originalLocalMemSize a.numArgs < 2 ^ 64
  original : ∀ i size, h.arg i = some (.localMem size) ↔ size ≠ 0 ∧ a.originalLocalMemSize i = size
  values : ∀ i value, h.arg i = some (.bytes value) →
    value.length ≤ a.paramSizes i ∧ a.Holds i value
  mem : ∀ m ∈ a.memObjArgs, h.mem m.index = some m.mem
  distinct : (a.memObjArgs.map (·.index)).Nodup
  hip : adapter = .hip → a.workGroupMemory = 0

variable {adapter : Adapter} {asserts : Bool} {a a' : Arguments} {h : History} {index size : Nat}
  {arg : List UInt8}

theorem inv_init (adapter : Adapter) (storage : Nat → UInt8) :
    Inv adapter (.init storage) .init where
  layable := ⟨⟨Nat.zero_le _, fun _ hne => absurd rfl hne, fun _ _ _ _ _ hne => absurd rfl hne⟩,
    fun _ hne => absurd rfl hne, fun _ _ => rfl⟩
  laid := ⟨fun k hk => by rw [Nat.le_zero.mp hk]; rfl, fun _ hj => absurd hj (Nat.not_lt_zero _)⟩
  beyond := fun _ _ => rfl
  fits := by
    show (0 : Nat) < 2 ^ 64
    omega
  original := fun i size =>
    ⟨fun hsome => (by cases hsome), fun hsize => absurd hsize.2.symm hsize.1⟩
  values := fun _ _ hsome => (by cases hsome)
  mem := fun _ hm => (List.not_mem_nil hm).elim
  distinct := List.nodup_nil
  hip := fun _ => rfl

/-- An index that is not local by now. -/
theorem Inv.original_zero (hinv : Inv adapter a h) {i : Nat}
    (hlocal : ∀ size, h.arg i ≠ some (.localMem size)) : a.originalLocalMemSize i = 0 := by
  by_contra hne
  exact hlocal _ ((hinv.original i _).mpr ⟨hne, rfl⟩)

theorem Inv.laid_all (hinv : Inv adapter a h) (m : Nat) : a.LaidOut m :=
  hinv.laid.extend hinv.layable hinv.beyond

/-- **An argument that is not local** is set where none was. -/
theorem Inv.setKernelArg (hinv : Inv adapter a h) (hset : a.Settable asserts index arg.length)
    {mem : Nat → Option Nat} (hmem : ∀ m ∈ a.memObjArgs, mem m.index = some m.mem) :
    ∃ a', setKernelArg asserts a index arg = .ok a' ∧
      Inv adapter a' ⟨update h.arg index (some (.bytes arg)), mem⟩ ∧
      a'.workGroupMemory = a.workGroupMemory := by
  obtain ⟨hindex, hzero, hfits⟩ := hset
  obtain ⟨a', hadd, hput⟩ := Arguments.addArg_spec hinv.layable.slots hfits 0
  have haligned : a'.alignedLocalMemSize = a.alignedLocalMemSize := by
    rw [hput.aligned, ← hinv.layable.plain index hzero, Function.update_eq_self]
  -- local arguments are at other indices, and stay where they are
  have hother : ∀ {j}, a.originalLocalMemSize j ≠ 0 → j ≠ index := fun hne heq => hne (heq ▸ hzero)
  have hlayable : a'.Layable := by
    refine ⟨hput.slots, fun i hi => ?_, fun i hi => ?_⟩
    · rw [hput.original] at hi
      rw [(hput.others i (hother hi)).1]
      exact hinv.layable.eight i hi
    · rw [hput.original] at hi
      rw [haligned]
      exact hinv.layable.plain i hi
  have hlaid : ∀ m, a'.LaidOut m := by
    intro m
    refine ⟨fun k hk => ?_, fun j hj hne => ?_⟩
    · unfold Arguments.SumsTo
      rw [hput.memory, haligned, hput.original]
      exact (hinv.laid_all m).sums k hk
    · unfold Arguments.localOffset
      rw [hput.memory, hput.original]
      rw [hput.original] at hne
      exact (hput.others j (hother hne)).2 _
        (hinv.layable.eight j hne) ((hinv.laid_all m).held j hj hne)
  have hbeyond : ∀ i, a'.numArgs ≤ i → a'.originalLocalMemSize i = 0 := by
    intro i hi
    rw [hput.original]
    rw [hput.numArgs] at hi
    exact hinv.beyond i (Nat.le_trans (Nat.le_max_left _ _) hi)
  refine ⟨a', ?_, ⟨hlayable, hlaid _, hbeyond, ?_, fun i size => ?_, fun i value hvalue => ?_, ?_, ?_,
    fun hhip => hput.memory.trans (hinv.hip hhip)⟩, hput.memory⟩
  · unfold Kernels.setKernelArg
    rw [if_neg (by omega)]
    exact hadd
  · rw [hput.memory, hput.original, hput.numArgs,
      layoutEnd_tail (Nat.le_max_left _ _) fun k hk _ => hinv.beyond k hk]
    exact hinv.fits
  · rw [hput.original]
    dsimp only
    by_cases heq : i = index
    · rw [heq, update_self]
      refine ⟨fun hsome => (by cases hsome), fun hsize => ?_⟩
      exact absurd (hsize.2.symm.trans hzero) hsize.1
    · rw [update_of_ne heq]
      exact hinv.original i size
  · dsimp only at hvalue
    by_cases heq : i = index
    · rw [heq, update_self] at hvalue
      obtain rfl := Arg.bytes.inj (Option.some.inj hvalue)
      rw [heq]
      exact ⟨hput.room, hput.holds⟩
    · rw [update_of_ne heq] at hvalue
      obtain ⟨hle, hholds⟩ := hinv.values i value hvalue
      obtain ⟨hsize, hkept⟩ := hput.others i heq
      exact ⟨by rw [hsize]; exact hle, hkept value hle hholds⟩
  · rw [hput.memObjArgs]
    exact hmem
  · rw [hput.memObjArgs]
    exact hinv.distinct

/-- The layout below an index is that of the sizes in front of it. -/
theorem Inv.sumsTo_before (hinv : Inv adapter a h) {k : Nat} (hk : k ≤ index) :
    a.workGroupMemory + ∑ x ∈ Finset.range k, a.alignedLocalMemSize x =
      layoutEnd alignment a.workGroupMemory (update a.originalLocalMemSize index size) k := by
  have hsum := (hinv.laid_all k).sums k (Nat.le_refl k)
  rw [hsum]
  refine layoutEnd_congr fun x hx => (update_of_ne ?_ ..).symm
  omega

/-- **A local argument is put into its place**, and the layout reaches behind it. -/
theorem Inv.addArg_local (hinv : Inv adapter a h) (hsize : size ≠ 0)
    (hfits : a.Fits asserts index 8) {b : Arguments}
    (hb : b = { a with originalLocalMemSize := update a.originalLocalMemSize index size }) :
    ∃ a', b.addArg asserts index (sizeBytes (b.localOffset index))
        (b.localOffset index + size -
          layoutEnd alignment b.workGroupMemory b.originalLocalMemSize index) = .ok a' ∧
      b.Put a' index (sizeBytes (b.localOffset index))
        (b.localOffset index + size -
          layoutEnd alignment b.workGroupMemory b.originalLocalMemSize index) ∧
      a'.Layable ∧ a'.LaidOut (index + 1) := by
  have hown : b.originalLocalMemSize index = size := by
    rw [hb]
    exact update_self ..
  have hother : ∀ j ≠ index, b.originalLocalMemSize j = a.originalLocalMemSize j := by
    intro j hj
    rw [hb]
    exact update_of_ne hj ..
  have hslots : b.Slots := by
    rw [hb]
    exact hinv.layable.slots.congr rfl rfl rfl
  have hfits' : b.Fits asserts index (sizeBytes (b.localOffset index)).length := by
    rw [hb]
    exact hfits
  have hheld : ∀ {j value}, a.Holds j value → b.Holds j value := by
    intro j value hholds
    rw [hb]
    exact hholds.congr rfl fun _ _ _ _ => rfl
  have hsizes : b.paramSizes = a.paramSizes := by rw [hb]
  have haligned : b.alignedLocalMemSize = a.alignedLocalMemSize := by rw [hb]
  obtain ⟨a', hadd, hput⟩ := Arguments.addArg_spec hslots hfits' (b.localOffset index + size -
    layoutEnd alignment b.workGroupMemory b.originalLocalMemSize index)
  refine ⟨a', hadd, hput, ⟨hput.slots, fun i hi => ?_, fun i hi => ?_⟩, fun k hk => ?_,
    fun j hj hne => ?_⟩
  · by_cases heq : i = index
    · have hroom := hput.room
      rw [heq]
      exact hroom
    · rw [hput.original, hother i heq] at hi
      rw [(hput.others i heq).1, hsizes]
      exact hinv.layable.eight i hi
  · rw [hput.original] at hi
    have heq : i ≠ index := fun heq => hsize (hown.symm.trans (heq ▸ hi))
    rw [hput.aligned, update_of_ne heq, haligned]
    rw [hother i heq] at hi
    exact hinv.layable.plain i hi
  · refine Arguments.sumsTo_update (by rw [hown]; exact hsize) (fun m hm => ?_) hput.memory
      hput.original ?_ k hk
    · rw [hb]
      exact hinv.sumsTo_before hm
    · rw [hput.aligned, hown]
  · have hoffset : a'.localOffset j = b.localOffset j := by
      unfold Arguments.localOffset
      rw [hput.memory, hput.original]
    rw [hoffset]
    by_cases heq : j = index
    · rw [heq]
      exact hput.holds
    · rw [hput.original, hother j heq] at hne
      -- arguments in front of the index keep their offsets
      have hsame : b.localOffset j = a.localOffset j := by
        rw [hb]
        refine offsetAt_congr fun k hk => update_of_ne ?_ ..
        omega
      rw [hsame]
      refine (hput.others j heq).2 _ ?_ (hheld ((hinv.laid_all (j + 1)).held j
        (Nat.lt_succ_self j) hne))
      rw [hsizes]
      exact hinv.layable.eight j hne

/-- **A local argument is set**, and those behind it are laid out again. -/
theorem Inv.setKernelLocalArg (hinv : Inv adapter a h) (hsize : size ≠ 0) (hindex : index < 2 ^ 31)
    (hfits : a.Fits asserts index 8)
    (hend : layoutEnd alignment a.workGroupMemory
      (update a.originalLocalMemSize index size) (max a.numArgs (index + 1)) < 2 ^ 64)
    {mem : Nat → Option Nat} (hmem : ∀ m ∈ a.memObjArgs, mem m.index = some m.mem) :
    ∃ a', setKernelLocalArg asserts a index size = .ok a' ∧
      Inv adapter a' ⟨update h.arg index (some (.localMem size)), mem⟩ ∧
      a'.workGroupMemory = a.workGroupMemory := by
  obtain ⟨b, hb⟩ : ∃ b, b = { a with
      originalLocalMemSize := update a.originalLocalMemSize index size } := ⟨_, rfl⟩
  have hcalc := Arguments.calcAlignedLocalArgument_spec hsize (hinv.sumsTo_before (Nat.le_refl index))
    (Nat.lt_of_le_of_lt (layoutEnd_mono (Nat.le_max_right a.numArgs (index + 1))) hend)
  dsimp only at hcalc
  rw [← hb] at hcalc
  -- the argument is put in, and then those behind it move
  obtain ⟨a₁, hadd, hput, hlayable, hlaid⟩ := @Inv.addArg_local _ asserts _ _ _ _ hinv hsize hfits _ hb
  have hmemory : a₁.workGroupMemory = a.workGroupMemory := by
    rw [hput.memory, hb]
  have horiginal : a₁.originalLocalMemSize =
      update a.originalLocalMemSize index size := by
    rw [hput.original, hb]
  have hnum : a₁.numArgs = max a.numArgs (index + 1) := by
    rw [hput.numArgs, hb]
  obtain ⟨a', hloop, hsame, hlaid'⟩ := Arguments.updateLocalArgOffset_spec hlayable hlaid
    (by rw [hnum]; exact Nat.le_max_right _ _) (by rw [hmemory, horiginal, hnum]; exact hend)
  refine ⟨a', ?_, ?_, hsame.memory.trans hmemory⟩
  · unfold Kernels.setKernelLocalArg
    rw [if_neg (by omega)]
    unfold Arguments.addLocalArg
    dsimp only
    have hbefore : layoutEnd alignment b.workGroupMemory b.originalLocalMemSize index =
        layoutEnd alignment a.workGroupMemory
          (update a.originalLocalMemSize index size) index := by rw [hb]
    rw [hcalc]
    rw [← hbefore, hadd]
    exact hloop
  · have hnum' := hsame.numArgs.trans hnum
    have horiginal' := hsame.original.trans horiginal
    have hmemory' := hsame.memory.trans hmemory
    constructor
    · exact hsame.layable hlayable
    · rw [hsame.numArgs]
      exact hlaid'
    · intro i hi
      rw [hnum'] at hi
      rw [horiginal', update_of_ne (by omega)]
      exact hinv.beyond i (Nat.le_trans (Nat.le_max_left _ _) hi)
    · rw [hmemory', horiginal', hnum']
      exact hend
    · intro i s
      rw [horiginal']
      dsimp only
      by_cases heq : i = index
      · rw [heq, update_self, update_self]
        refine ⟨fun hsome => ?_, fun hs => by rw [hs.2]⟩
        obtain rfl := Arg.localMem.inj (Option.some.inj hsome)
        exact ⟨hsize, rfl⟩
      · rw [update_of_ne heq, update_of_ne heq]
        exact hinv.original i s
    · intro i value hvalue
      dsimp only at hvalue
      have heq : i ≠ index := by
        intro heq
        rw [heq, update_self] at hvalue
        cases hvalue
      rw [update_of_ne heq] at hvalue
      obtain ⟨hle, hholds⟩ := hinv.values i value hvalue
      have hzero : a.originalLocalMemSize i = 0 :=
        hinv.original_zero fun s hs => by rw [hvalue] at hs; cases hs
      obtain ⟨hsizes, hkept⟩ := hput.others i heq
      have hplain : a₁.originalLocalMemSize i = 0 := by
        rw [horiginal, update_of_ne heq]
        exact hzero
      have hroom : value.length ≤ b.paramSizes i := by
        rw [hb]
        exact hle
      have hroom' : value.length ≤ a₁.paramSizes i := by
        rw [hsizes]
        exact hroom
      refine ⟨by rw [hsame.sizes]; exact hroom', ?_⟩
      refine (hsame.others i hplain).2 value hroom' (hkept value hroom ?_)
      rw [hb]
      exact hholds.congr rfl fun _ _ _ _ => rfl
    · rw [hsame.memObjArgs, hput.memObjArgs, hb]
      exact hmem
    · rw [hsame.memObjArgs, hput.memObjArgs, hb]
      exact hinv.distinct
    · intro hhip
      exact hmemory'.trans (hinv.hip hhip)

/-! ## Memory objects -/

namespace Arguments

theorem mem_putMemObjArg {m new : MemObjArg} {l : List MemObjArg} (hl : (l.map (·.index)).Nodup)
    (hm : m ∈ putMemObjArg new l) : m = new ∨ m ∈ l ∧ m.index ≠ new.index := by
  induction l with
  | nil => exact .inl (List.mem_singleton.mp hm)
  | cons x rest ih =>
    rw [List.map_cons, List.nodup_cons] at hl
    unfold putMemObjArg at hm
    split at hm
    next heq =>
      rcases List.mem_cons.mp hm with hm | hm
      · exact .inl hm
      · refine .inr ⟨List.mem_cons_of_mem _ hm, fun hindex => hl.1 ?_⟩
        rw [heq, ← hindex]
        exact List.mem_map_of_mem hm
    next hne =>
      rcases List.mem_cons.mp hm with rfl | hm
      · exact .inr ⟨List.mem_cons_self, hne⟩
      · rcases ih hl.2 hm with hm | ⟨hm, hindex⟩
        · exact .inl hm
        · exact .inr ⟨List.mem_cons_of_mem _ hm, hindex⟩

theorem nodup_putMemObjArg {new : MemObjArg} {l : List MemObjArg}
    (hl : (l.map (·.index)).Nodup) : ((putMemObjArg new l).map (·.index)).Nodup := by
  induction l with
  | nil => exact List.nodup_singleton _
  | cons x rest ih =>
    rw [List.map_cons, List.nodup_cons] at hl
    unfold putMemObjArg
    split
    next heq =>
      rw [List.map_cons, List.nodup_cons, ← heq]
      exact hl
    next hne =>
      rw [List.map_cons, List.nodup_cons]
      refine ⟨fun hx => ?_, ih hl.2⟩
      obtain ⟨m, hm, hindex⟩ := List.mem_map.mp hx
      rcases mem_putMemObjArg hl.2 hm with rfl | ⟨hm, _⟩
      · exact hne hindex.symm
      · exact hl.1 (List.mem_map.mpr ⟨m, hm, hindex⟩)

end Arguments

/-- **A memory object** is recorded in place of the one before. -/
theorem Inv.addMemObjArg (hinv : Inv adapter a h) (mem : Nat) (flags : UInt32) :
    Inv adapter (a.addMemObjArg index mem flags)
      ⟨h.arg, update h.mem index (some mem)⟩ where
  layable := ⟨hinv.layable.slots.congr rfl rfl rfl, hinv.layable.eight, hinv.layable.plain⟩
  laid := ⟨hinv.laid.sums, fun j hj hne => (hinv.laid.held j hj hne).congr rfl fun _ _ _ _ => rfl⟩
  beyond := hinv.beyond
  fits := hinv.fits
  original := hinv.original
  values := fun i value hvalue => by
    obtain ⟨hle, hholds⟩ := hinv.values i value hvalue
    exact ⟨hle, hholds.congr rfl fun _ _ _ _ => rfl⟩
  mem := fun m hm => by
    dsimp only
    rcases Arguments.mem_putMemObjArg hinv.distinct hm with rfl | ⟨hm, hindex⟩
    · exact update_self ..
    · rw [update_of_ne hindex]
      exact hinv.mem m hm
  distinct := Arguments.nodup_putMemObjArg hinv.distinct
  hip := hinv.hip

/-! ## Launches -/

/-- **Another work-group memory** moves all local arguments. -/
theorem Inv.setWorkGroupMemory {memSize : Nat} (hinv : Inv adapter a h) (hcuda : adapter = .cuda)
    (hfits : layoutEnd alignment memSize a.originalLocalMemSize a.numArgs < 2 ^ 64) :
    ∃ a', a.setWorkGroupMemory memSize = .ok a' ∧ Inv adapter a' h ∧
      a'.workGroupMemory = memSize ∧ a'.originalLocalMemSize = a.originalLocalMemSize ∧
      a'.numArgs = a.numArgs := by
  unfold Arguments.setWorkGroupMemory
  by_cases hsame : a.workGroupMemory = memSize
  · rw [if_pos hsame]
    exact ⟨a, rfl, hinv, hsame, rfl, rfl⟩
  · rw [if_neg hsame]
    have hlayable : ({ a with workGroupMemory := memSize } : Arguments).Layable :=
      ⟨hinv.layable.slots.congr rfl rfl rfl, hinv.layable.eight, hinv.layable.plain⟩
    have hlaid : ({ a with workGroupMemory := memSize } : Arguments).LaidOut 0 := by
      refine ⟨fun k hk => ?_, fun j hj => absurd hj (Nat.not_lt_zero j)⟩
      rw [Nat.le_zero.mp hk]
      rfl
    obtain ⟨a', hloop, hshape, hlaid'⟩ := Arguments.updateLocalArgOffset_spec hlayable hlaid
      (Nat.zero_le _) hfits
    refine ⟨a', hloop, ?_, hshape.memory, hshape.original, hshape.numArgs⟩
    constructor
    · exact hshape.layable hlayable
    · rw [hshape.numArgs]
      exact hlaid'
    · rw [hshape.numArgs, hshape.original]
      exact hinv.beyond
    · rw [hshape.memory, hshape.original, hshape.numArgs]
      exact hfits
    · rw [hshape.original]
      exact hinv.original
    · intro i value hvalue
      obtain ⟨hle, hholds⟩ := hinv.values i value hvalue
      have hzero := hinv.original_zero (i := i) fun s hs => by rw [hvalue] at hs; cases hs
      rw [hshape.sizes]
      exact ⟨hle, (hshape.others i hzero).2 value hle (hholds.congr rfl fun _ _ _ _ => rfl)⟩
    · rw [hshape.memObjArgs]
      exact hinv.mem
    · rw [hshape.memObjArgs]
      exact hinv.distinct
    · intro hhip
      exact absurd (hcuda.symm.trans hhip) (by decide)

/-- The local memory ends where the layout does. -/
theorem Inv.getLocalSize (hinv : Inv adapter a h) : a.getLocalSize =
    layoutEnd alignment a.workGroupMemory a.originalLocalMemSize a.numArgs % 2 ^ 32 := by
  have hsum := hinv.laid.sums a.numArgs (Nat.le_refl _)
  unfold Arguments.getLocalSize
  rw [Nat.add_comm, hsum]

/-- **What a launch reads** is right. -/
theorem Inv.launchRight (hinv : Inv adapter a h) {workGroupMemory : Nat}
    (hmemory : workGroupMemory ≤ a.workGroupMemory)
    (hend : layoutEnd alignment a.workGroupMemory a.originalLocalMemSize a.numArgs < 2 ^ 32)
    {memObjArgs : List MemObjArg} (hsub : ∀ m ∈ memObjArgs, m ∈ a.memObjArgs)
    (writes : MemObjArg → Bool) :
    LaunchRight h workGroupMemory
      ⟨a, a.getLocalSize, memObjArgs.map (·.mem), (memObjArgs.filter writes).map (·.mem)⟩ := by
  have hlocal : a.getLocalSize =
      layoutEnd alignment a.workGroupMemory a.originalLocalMemSize a.numArgs :=
    hinv.getLocalSize.trans (Nat.mod_eq_of_lt hend)
  constructor
  · exact fun index value hvalue => (hinv.values index value hvalue).2
  · refine ⟨a.localOffset, fun index size hsize => ?_⟩
    obtain ⟨hne, hown⟩ := (hinv.original index size).mp hsize
    have hne' : a.originalLocalMemSize index ≠ 0 := by rw [hown]; exact hne
    have hindex : index < a.numArgs := by
      by_contra hge
      exact hne' (hinv.beyond index (Nat.le_of_not_lt hge))
    refine ⟨hinv.laid.held index hindex hne', ?_, ?_, ?_, fun index' size' hother hsize' => ?_⟩
    · have hdvd := @offsetAt_dvd alignment a.workGroupMemory a.originalLocalMemSize index
        (alignment_pos hne')
      rw [hown] at hdvd
      exact hdvd
    · exact Nat.le_trans hmemory (Nat.le_trans start_le_layoutEnd layoutEnd_le_offsetAt)
    · have hle := @offsetAt_add_le alignment a.workGroupMemory a.originalLocalMemSize _ _ hindex hne'
      rw [hown] at hle
      rw [hlocal]
      exact hle
    · obtain ⟨hne₂, hown₂⟩ := (hinv.original index' size').mp hsize'
      have hne₂' : a.originalLocalMemSize index' ≠ 0 := by rw [hown₂]; exact hne₂
      rcases Nat.lt_or_gt_of_ne hother with hlt | hgt
      · have := @pieces_disjoint alignment a.workGroupMemory a.originalLocalMemSize _ _ hlt hne₂'
        rw [hown₂] at this
        exact .inr this
      · have := @pieces_disjoint alignment a.workGroupMemory a.originalLocalMemSize _ _ hgt hne'
        rw [hown] at this
        exact .inl this
  · intro mem hmem
    obtain ⟨m, hm, rfl⟩ := List.mem_map.mp hmem
    exact ⟨m.index, hinv.mem m (hsub m hm)⟩
  · intro mem hmem
    obtain ⟨m, hm, rfl⟩ := List.mem_map.mp hmem
    exact ⟨m.index, hinv.mem m (hsub m (List.mem_of_mem_filter hm))⟩

/-- **A careful launch is right** and keeps the invariant. -/
theorem Inv.launch (hinv : Inv adapter a h) (manyDevices : Bool) {workGroupMemory : Nat}
    (hend : layoutEnd alignment (a.launchMemory adapter workGroupMemory) a.originalLocalMemSize
      a.numArgs < 2 ^ 32) :
    ∃ l, enqueueKernelLaunch adapter a manyDevices workGroupMemory = .ok l ∧ Inv adapter l.args h ∧
      LaunchRight h (match adapter with | .cuda => workGroupMemory | .hip => 0) l := by
  have hsub : ∀ {a : Arguments}, ∀ m ∈ (if manyDevices then a.memObjArgs else []),
      m ∈ a.memObjArgs := by
    intro a m hm
    split at hm
    · exact hm
    · exact (List.not_mem_nil hm).elim
  cases adapter with
  | hip =>
    refine ⟨_, rfl, hinv, hinv.launchRight (Nat.zero_le _) ?_ hsub _⟩
    exact hend
  | cuda =>
    by_cases hzero : workGroupMemory = 0
    · subst hzero
      refine ⟨_, rfl, hinv, hinv.launchRight (Nat.zero_le _) ?_ hsub _⟩
      exact hend
    · unfold Arguments.launchMemory at hend
      rw [if_pos ⟨rfl, hzero⟩] at hend
      obtain ⟨a', hset, hinv', hmemory, horiginal, hnum⟩ :=
        hinv.setWorkGroupMemory rfl (Nat.lt_trans hend (by omega))
      unfold enqueueKernelLaunch
      dsimp only
      rw [if_pos hzero, hset]
      refine ⟨_, rfl, hinv', hinv'.launchRight (Nat.le_of_eq hmemory.symm) ?_ hsub _⟩
      rw [hmemory, horiginal, hnum]
      exact hend

/-! ## Runs -/

/-- An index without a memory object keeps none. -/
theorem Inv.mem_set (hinv : Inv adapter a h) (hfree : a.NoMemObj index) (arg : Arg) :
    ∀ m ∈ a.memObjArgs, (h.set index arg).mem m.index = some m.mem := by
  intro m hm
  unfold History.set
  dsimp only
  rw [update_of_ne (hfree m hm)]
  exact hinv.mem m hm

/-- A value that is no memory object. -/
theorem Inv.setPlain (hinv : Inv adapter a h) (hset : a.Settable asserts index arg.length)
    (hfree : a.NoMemObj index) :
    ∃ a', Kernels.setKernelArg asserts a index arg = .ok a' ∧
      Inv adapter a' (h.set index (.bytes arg)) := by
  obtain ⟨a', hcall, hinv', _⟩ := hinv.setKernelArg hset (hinv.mem_set hfree (.bytes arg))
  exact ⟨a', hcall, hinv'⟩

/-- **A careful call** is defined and keeps the invariant. -/
theorem Inv.call (hinv : Inv adapter a h) {call : Call} (hcall : a.Careful adapter asserts call) :
    ∃ a', callArguments adapter asserts a call = .ok a' ∧ Inv adapter a' (h.call adapter call) := by
  cases call with
  | setArgValue index value =>
    unfold callArguments History.call
    dsimp only
    by_cases hempty : adapter = .cuda ∧ value.length = 0
    · rw [if_pos hempty, if_pos hempty]
      exact ⟨a, rfl, hinv⟩
    · rw [if_neg hempty, if_neg hempty]
      obtain ⟨hset, hfree⟩ := hcall.resolve_left hempty
      exact hinv.setPlain hset hfree
  | setArgPointer index ptr =>
    obtain ⟨hset, hfree⟩ := hcall
    exact hinv.setPlain hset hfree
  | setArgMemObj index mem properties =>
    cases mem with
    | none => exact hcall.elim
    | some mem =>
      obtain ⟨mem, ptr⟩ := mem
      have hrecorded := @Inv.addMemObjArg _ _ _ index hinv mem (memAccess adapter properties)
      cases ptr with
      | none => exact ⟨_, rfl, hrecorded⟩
      | some ptr =>
        have hset := hcall.resolve_left (fun hnone => by cases hnone)
        have hset' : (a.addMemObjArg index mem (memAccess adapter properties)).Settable asserts
            index (sizeBytes ptr.toNat).length := by
          exact hset
        obtain ⟨a', hcalled, hinv', _⟩ := hrecorded.setKernelArg hset' hrecorded.mem
        exact ⟨a', hcalled, hinv'⟩
  | setArgSampler index props =>
    obtain ⟨hset, hfree⟩ := hcall
    exact hinv.setPlain hset hfree
  | setArgLocal index size =>
    unfold callArguments History.call
    dsimp only
    by_cases hzero : size = 0
    · rw [if_pos hzero, if_pos hzero]
      exact ⟨a, rfl, hinv⟩
    · rw [if_neg hzero, if_neg hzero]
      obtain ⟨hindex, hfits, hfree, hend⟩ := hcall.resolve_left hzero
      obtain ⟨a', hcalled, hinv', _⟩ := hinv.setKernelLocalArg hzero hindex hfits hend
        (hinv.mem_set hfree (.localMem size))
      exact ⟨a', hcalled, hinv'⟩
  | launch manyDevices workGroupMemory =>
    obtain ⟨l, hl, hinv', _⟩ := hinv.launch manyDevices hcall
    refine ⟨l.args, ?_, hinv'⟩
    unfold callArguments
    dsimp only
    rw [hl]
    rfl

theorem Inv.run (hinv : Inv adapter a h) {calls : List Call}
    (hcareful : a.CarefulRun adapter asserts calls) : RunRight adapter asserts a h calls := by
  induction calls generalizing a h with
  | nil => exact trivial
  | cons call calls ih =>
    obtain ⟨hcall, hrest⟩ := hcareful
    refine ⟨fun manyDevices workGroupMemory hlaunch => ?_, ?_⟩
    · subst hlaunch
      obtain ⟨l, hl, _, hright⟩ := hinv.launch manyDevices hcall
      exact ⟨l, hl, hright⟩
    · obtain ⟨a', hcalled, hinv'⟩ := hinv.call hcall
      exact ⟨a', hcalled, ih hinv' (hrest a' hcalled)⟩

/-- **Runs of careful calls are right**, on a kernel that begins without arguments. -/
theorem kernelArguments_right (adapter : Adapter) (asserts : Bool) (storage : Nat → UInt8)
    (calls : List Call) (hcareful : (Arguments.init storage).CarefulRun adapter asserts calls) :
    RunRight adapter asserts (.init storage) .init calls :=
  (inv_init adapter storage).run hcareful

theorem kernelArguments_two :
    RunRight .cuda true (.init fun _ => 0) .init [.setArgLocal 1 100, .setArgLocal 0 24,
      .setArgValue 2 [1, 2, 3, 4], .setArgMemObj 3 (some (7, some 4096)) none,
      .launch true 16, .launch false 0] :=
  kernelArguments_right .cuda true (fun _ => 0) _ (by decide +kernel)

/-- What comes before a launch that ends a run. -/
theorem RunRight.last {calls : List Call}
    (hrun : RunRight adapter asserts a h (calls ++ [.launch false 0])) :
    ∃ a', calls.foldlM (callArguments adapter asserts) a = .ok a' ∧
      ∀ index value, (calls.foldl (History.call adapter) h).arg index = some (.bytes value) →
        a'.Holds index value := by
  induction calls generalizing a h with
  | nil =>
    obtain ⟨l, hl, hright⟩ := hrun.1 false 0 rfl
    refine ⟨a, rfl, fun index value hvalue => ?_⟩
    have hargs : l.args = a := by
      cases adapter <;> exact (congrArg Launch.args (Except.ok.inj hl)).symm
    rw [← hargs]
    exact hright.values index value hvalue
  | cons call calls ih =>
    obtain ⟨_, a₁, hcall, hrest⟩ := hrun
    obtain ⟨a', hcalls, hvalues⟩ := ih hrest
    refine ⟨a', ?_, hvalues⟩
    rw [List.foldlM_cons, hcall]
    exact hcalls

/-- The value of argument 1 takes the place of local memory, and argument 0 is set last: the layout
of the local arguments behind it writes an offset over the value. -/
def overwrittenCalls : List Call :=
  [.setArgLocal 1 64, .setArgValue 1 (sizeBytes 5), .setArgLocal 0 32]

/-- **Both adapters overwrite the value.** -/
theorem kernelArguments_overwritten :
    ¬ RunRight .cuda true (.init fun _ => 0) .init (overwrittenCalls ++ [.launch false 0]) ∧
    ¬ RunRight .hip true (.init fun _ => 0) .init (overwrittenCalls ++ [.launch false 0]) := by
  have hbytes : ∀ adapter a', overwrittenCalls.foldlM (callArguments adapter true)
      (.init fun _ => 0) = .ok a' → a'.argPointers 1 = .storage 0 ∧ a'.storage 0 = 64 := by
    intro adapter a' ha
    have hfinal : ∀ adapter, (match overwrittenCalls.foldlM (callArguments adapter true)
        (.init fun _ => 0) with
      | .ok a => decide (a.argPointers 1 = .storage 0 ∧ a.storage 0 = 64)
      | .error _ => true) = true := by
      intro adapter
      cases adapter <;> decide +kernel
    have := hfinal adapter
    rw [ha] at this
    exact of_decide_eq_true this
  have hwrong : ∀ adapter, ¬ RunRight adapter true (.init fun _ => 0) .init
      (overwrittenCalls ++ [.launch false 0]) := by
    intro adapter hrun
    obtain ⟨a', ha, hvalues⟩ := hrun.last
    obtain ⟨hpointer, hzero⟩ := hbytes adapter a' ha
    have hset : (overwrittenCalls.foldl (History.call adapter) .init).arg 1 =
        some (.bytes (sizeBytes 5)) := by
      cases adapter <;> decide
    obtain ⟨pos, hpos, _, hholds⟩ := hvalues 1 _ hset
    obtain rfl := ArgPointer.storage.inj (hpointer.symm.trans hpos)
    have hfirst := hholds 0 (by decide)
    rw [hzero] at hfirst
    exact absurd hfirst (by decide)
  exact ⟨hwrong .cuda, hwrong .hip⟩

end UnifiedRuntime.Kernels
