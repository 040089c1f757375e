import UnifiedRuntime.Lib.PatternFill

/-!
# USM allocations of the Native CPU adapter

An allocation has a header, `usm_alloc_info`, right before the pointer that the user gets, and
padding before the header, so that the pointer is aligned. The context has the set of its
pointers. `urUSMFree` finds what to free in the header.

The host's allocator is outside: a call that allocates has the allocator's answer with it, and
what the allocator guarantees of it is `Malloc`.
-/

namespace UnifiedRuntime.NativeCpu.Usm

open PatternFill

/-! ## The header -/

inductive UsmType where
  | unknown
  | host
  | device
  | shared
deriving DecidableEq

def UsmType.code : UsmType → UInt32
  | .unknown => 0
  | .host => 1
  | .device => 2
  | .shared => 3

/-- `usm_alloc_info`. -/
structure Info where
  type : UInt32
  base_ptr : UInt64
  size : UInt64
  device : UInt64
  pool : UInt64
  base_alloc_ptr : UInt64

/-- `sizeof(usm_alloc_info)`: six words. -/
def allocHeaderSize : UInt64 := 48

/-- `alignof(usm_alloc_info)`. -/
def infoAlign : UInt32 := 8

/-- The `k`-th byte of a word. -/
def byteOf (w : UInt64) (k : Nat) : UInt8 := UInt8.ofNat (w.toNat / 256 ^ k)

/-- The word of eight bytes. -/
def wordOf (b : Nat → UInt8) : UInt64 :=
  UInt64.ofNat ((b 0).toNat + 256 * ((b 1).toNat + 256 * ((b 2).toNat + 256 * ((b 3).toNat +
    256 * ((b 4).toNat + 256 * ((b 5).toNat + 256 * ((b 6).toNat + 256 * (b 7).toNat)))))))

namespace Info

/-- The words of a header; the type is followed by four bytes that are not used. -/
def words (info : Info) : List UInt64 :=
  [info.type.toUInt64, info.base_ptr, info.size, info.device, info.pool, info.base_alloc_ptr]

def bytes (info : Info) : Bytes := fun o =>
  byteOf (info.words.getD (o.toNat / 8) 0) (o.toNat % 8)

/-- The `i`-th word from `addr` on. -/
def wordAt (mem : Bytes) (addr : UInt64) (i : Nat) : UInt64 :=
  wordOf fun k => mem (addr + UInt64.ofNat (8 * i + k))

/-- What a header at `addr` says. -/
def load (mem : Bytes) (addr : UInt64) : Info where
  type := (wordAt mem addr 0).toUInt32
  base_ptr := wordAt mem addr 1
  size := wordAt mem addr 2
  device := wordAt mem addr 3
  pool := wordAt mem addr 4
  base_alloc_ptr := wordAt mem addr 5

end Info

/-! ## The context -/

/-- What the allocator has handed out. -/
structure Block where
  base : UInt64
  size : UInt64
deriving DecidableEq

/-- `ur_context_handle_t_`, with the memory and the blocks it has from the allocator. -/
structure Context where
  device : UInt64
  allocations : List UInt64
  mem : Bytes
  heap : List Block

/-- A context without allocations. -/
def Context.init (device : UInt64) (mem : Bytes) : Context := ⟨device, [], mem, []⟩

/-- `get_padding`. -/
def getPadding (alignment : UInt32) : UInt64 :=
  if alignment = 0 ∨ allocHeaderSize % alignment.toUInt64 = 0 then 0
  else if alignment.toUInt64 ≤ allocHeaderSize then
    alignment.toUInt64 - allocHeaderSize % alignment.toUInt64
  else alignment.toUInt64 - allocHeaderSize

/-- The size that `malloc_impl` asks for. -/
def mallocSize (alignment : UInt32) (size : UInt64) : UInt64 :=
  allocHeaderSize + getPadding alignment + size

/-- The alignment that `add_alloc` asks for. -/
def allocAlignment (alignment : UInt32) : UInt32 := max alignment infoAlign

/-- `get_alloc_info_addr`. -/
def getAllocInfoAddr (ptr : UInt64) : UInt64 := ptr - allocHeaderSize

namespace Context

/-- `add_alloc`, where the allocator answers `alloc`: the pointer, or none. -/
def addAlloc (ctx : Context) (alignment : UInt32) (type : UsmType) (size alloc : UInt64) :
    Context × Option UInt64 :=
  let alignment := allocAlignment alignment
  if alloc = 0 then (ctx, none)
  else
    let heap := ⟨alloc, mallocSize alignment size⟩ :: ctx.heap
    let ptr := allocHeaderSize + getPadding alignment + alloc
    let infoAddr := getAllocInfoAddr ptr
    if infoAddr = 0 then ({ ctx with heap }, none)
    else
      let info : Info := ⟨type.code, ptr, size, ctx.device, 0, alloc⟩
      ({ ctx with
          heap
          mem := put info.bytes infoAddr allocHeaderSize ctx.mem
          allocations := ctx.allocations.insert ptr }, some ptr)

/-- The allocator takes back the block at `base`. -/
def alignedFree (ctx : Context) (base : UInt64) : Context :=
  { ctx with heap := ctx.heap.eraseP (·.base == base) }

end Context

/-! ## The entry points -/

inductive UrResult where
  | success
  | unsupportedAlignment
  | invalidNullPointer
  | invalidUsmSize
  | outOfResources
  | invalidMemObject

def isPowerOf2 (value : UInt32) : Bool := value != 0 && value &&& (value - 1) == 0

/-- The alignment of the descriptor, if there is one and it has one. -/
def descAlignment (desc : Option UInt32) : UInt32 :=
  if desc.getD 0 ≠ 0 then desc.getD 0 else 1

/-- `alloc_helper`; `desc` is the alignment of the descriptor, and `ppMem` says whether there is
a place for the pointer. -/
def allocHelper (ctx : Context) (desc : Option UInt32) (size : UInt64) (ppMem : Bool)
    (type : UsmType) (alloc : UInt64) : Context × Except UrResult UInt64 :=
  let alignment := descAlignment desc
  if !isPowerOf2 alignment then (ctx, .error .unsupportedAlignment)
  else if !ppMem then (ctx, .error .invalidNullPointer)
  else if ¬ 0 < size then (ctx, .error .invalidUsmSize)
  else
    match ctx.addAlloc alignment type size alloc with
    | (ctx', none) => (ctx', .error .outOfResources)
    | (ctx', some ptr) => (ctx', .ok ptr)

/-- What a free has done: its result, whether it has read a header, and what it gave to
`aligned_free`. -/
structure Freed where
  result : UrResult
  read : Bool
  freed : Option UInt64

/-- `remove_alloc`. -/
def removeAlloc (ctx : Context) (ptr : UInt64) : Context × Freed :=
  let info := Info.load ctx.mem (getAllocInfoAddr ptr)
  if ¬ info.type ≠ UsmType.unknown.code then (ctx, ⟨.invalidMemObject, true, none⟩)
  else
    let ctx' := ctx.alignedFree info.base_alloc_ptr
    ({ ctx' with allocations := ctx'.allocations.erase ptr },
      ⟨.success, true, some info.base_alloc_ptr⟩)

def urUSMFree (ctx : Context) (pMem : UInt64) : Context × Freed :=
  if pMem = 0 then (ctx, ⟨.invalidNullPointer, false, none⟩)
  else removeAlloc ctx pMem

/-! ## Runs -/

/-- The entry points, and writes to memory by anybody else. -/
inductive Call where
  | alloc (desc : Option UInt32) (type : UsmType) (size : UInt64) (ppMem : Bool) (answer : UInt64)
  | free (pMem : UInt64)
  | write (dst size : UInt64) (data : Bytes)

def step (ctx : Context) : Call → Context
  | .alloc desc type size ppMem answer => (allocHelper ctx desc size ppMem type answer).1
  | .free pMem => (urUSMFree ctx pMem).1
  | .write dst size data => { ctx with mem := put data dst size ctx.mem }

/-- Two ranges of addresses have none in common. -/
def Apart (a n b m : Nat) : Prop := a + n ≤ b ∨ b + m ≤ a

def Block.Apart (x y : Block) : Prop :=
  Usm.Apart x.base.toNat x.size.toNat y.base.toNat y.size.toNat

/-- **What the allocator guarantees**: it answers with null, or with a block of the size asked
for, aligned as asked for, that ends in the address space and is apart from what it has handed
out before. -/
def Malloc (heap : List Block) (alignment : UInt32) (size answer : UInt64) : Prop :=
  answer = 0 ∨
    answer.toNat % alignment.toNat = 0 ∧ answer.toNat + size.toNat < 2 ^ 64 ∧
      ∀ block ∈ heap, Block.Apart ⟨answer, size⟩ block

/-- Who writes memory stays out of the blocks, or writes to what a pointer of the context gives
the user. -/
def WriteAllowed (ctx : Context) (dst size : UInt64) : Prop :=
  dst.toNat + size.toNat ≤ 2 ^ 64 ∧ ∀ block ∈ ctx.heap,
    Apart dst.toNat size.toNat block.base.toNat block.size.toNat ∨
      ∃ ptr ∈ ctx.allocations, block.base.toNat + 48 ≤ ptr.toNat ∧ ptr.toNat ≤ dst.toNat ∧
        dst.toNat + size.toNat ≤ block.base.toNat + block.size.toNat

/-- The entry points pass a type of their own. -/
def Allowed (ctx : Context) : Call → Prop
  | .alloc desc type size _ answer => type ≠ .unknown ∧
    Malloc ctx.heap (allocAlignment (descAlignment desc))
      (mallocSize (allocAlignment (descAlignment desc)) size) answer
  | .free _ => True
  | .write dst size _ => WriteAllowed ctx dst size

/-! ## Memory that is given out -/

/-- The pointer is aligned, and so is its header; the header and the user's bytes are inside the
block. -/
structure Placed (alignment : UInt32) (size ptr : UInt64) (block : Block) : Prop where
  aligned : ptr.toNat % alignment.toNat = 0
  header : block.base.toNat + 48 ≤ ptr.toNat
  user : ptr.toNat + size.toNat ≤ block.base.toNat + block.size.toNat
  headerAligned : (ptr.toNat - 48) % 8 = 0

/-- **An allocation that succeeds is placed in a new block.** -/
def AddAllocRight (ctx : Context) (alignment : UInt32) (type : UsmType)
    (size answer : UInt64) : Prop :=
  ∀ ptr, (ctx.addAlloc alignment type size answer).2 = some ptr →
    ∃ block, (ctx.addAlloc alignment type size answer).1.heap = block :: ctx.heap ∧
      Placed alignment size ptr block

/-- A pointer of the context is freed: the block it was placed in goes back, and the pointer is
no longer one of the context. -/
structure FreesBlock (ctx : Context) (ptr : UInt64) (out : Context × Freed) : Prop where
  result : out.2.result = .success
  block : ∃ block ∈ ctx.heap, block.base.toNat + 48 ≤ ptr.toNat ∧
    ptr.toNat ≤ block.base.toNat + block.size.toNat ∧ out.2.freed = some block.base ∧
    out.1.heap = ctx.heap.erase block ∧ block ∉ out.1.heap
  gone : ptr ∉ out.1.allocations

/-- **Only the pointers of the context are freed**, and others are rejected unread. -/
def FreeRight (ctx : Context) (ptr : UInt64) : Prop :=
  if ptr ∈ ctx.allocations then FreesBlock ctx ptr (urUSMFree ctx ptr)
  else (urUSMFree ctx ptr).1 = ctx ∧ (urUSMFree ctx ptr).2.result ≠ .success ∧
    (urUSMFree ctx ptr).2.read = false ∧ (urUSMFree ctx ptr).2.freed = none

def Right (ctx : Context) : Call → Prop
  | .alloc desc type size ppMem answer =>
    ∀ ptr, (allocHelper ctx desc size ppMem type answer).2 = .ok ptr →
      ∃ block, (allocHelper ctx desc size ppMem type answer).1.heap = block :: ctx.heap ∧
        Placed (descAlignment desc) size ptr block
  | .free pMem => FreeRight ctx pMem
  | .write _ _ _ => True

/-- The size with the header and the padding fits. -/
def SizeFits (alignment : UInt32) (size : UInt64) : Prop :=
  48 + (getPadding (allocAlignment alignment)).toNat + size.toNat < 2 ^ 64

/-- **When a call is right**: an allocation that gets to the allocator and gets a block has a
size that fits, and what is freed is null or a pointer of the context. -/
def Fine (ctx : Context) : Call → Prop
  | .alloc desc _ size ppMem answer =>
    isPowerOf2 (descAlignment desc) = true → ppMem = true → 0 < size → answer ≠ 0 →
      SizeFits (descAlignment desc) size
  | .free pMem => pMem = 0 ∨ pMem ∈ ctx.allocations
  | .write _ _ _ => True

end UnifiedRuntime.NativeCpu.Usm
