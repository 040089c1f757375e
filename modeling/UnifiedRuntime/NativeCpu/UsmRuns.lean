import Mathlib
import UnifiedRuntime.Lib.GuardedRuns
import UnifiedRuntime.NativeCpu.Usm

/-!
# What the USM allocations guarantee

Every pointer of a context has an entry: the block that it was placed in, with a header that
still says so. The entries of a context are apart, and what the user writes stays behind the
headers.

- `getPadding_aligns`: the padding.
- `addAlloc_right_iff`, `free_right_iff`: when an allocation and a free are right.
- `Inv.step`: the entries are kept by the calls that meet the condition.
- `usm_right_iff`: all of it for a run.
-/

namespace UnifiedRuntime.NativeCpu.Usm

open PatternFill

/-! ## Headers in memory -/

theorem wordOf_byteOf (w : UInt64) : wordOf (byteOf w) = w := by
  have hw := w.toNat_lt
  have hbyte : ∀ k, (byteOf w k).toNat = w.toNat / 256 ^ k % 256 := fun k => UInt8.toNat_ofNat'
  apply UInt64.toNat.inj
  unfold wordOf
  rw [UInt64.toNat_ofNat', hbyte, hbyte, hbyte, hbyte, hbyte, hbyte, hbyte, hbyte]
  omega

theorem wordOf_congr {b b' : Nat → UInt8} (h : ∀ k < 8, b k = b' k) : wordOf b = wordOf b' := by
  unfold wordOf
  rw [h 0 (by decide), h 1 (by decide), h 2 (by decide), h 3 (by decide), h 4 (by decide),
    h 5 (by decide), h 6 (by decide), h 7 (by decide)]

/-- A header is read from its 48 bytes. -/
theorem Info.load_congr {mem mem' : Bytes} {addr : UInt64}
    (h : ∀ j < 48, mem' (addr + UInt64.ofNat j) = mem (addr + UInt64.ofNat j)) :
    Info.load mem' addr = Info.load mem addr := by
  have hword : ∀ i < 6, wordAt mem' addr i = wordAt mem addr i := by
    intro i hi
    exact wordOf_congr fun k hk => h _ (by omega)
  unfold load
  rw [hword 0 (by decide), hword 1 (by decide), hword 2 (by decide), hword 3 (by decide),
    hword 4 (by decide), hword 5 (by decide)]

/-- A header that was written is read back. -/
theorem Info.load_put (info : Info) (addr : UInt64) (mem : Bytes) :
    Info.load (put info.bytes addr allocHeaderSize mem) addr = info := by
  have hword : ∀ i < 6, wordAt (put info.bytes addr allocHeaderSize mem) addr i =
      info.words.getD i 0 := by
    intro i hi
    have hbyte : ∀ k < 8, put info.bytes addr allocHeaderSize mem
        (addr + UInt64.ofNat (8 * i + k)) = byteOf (info.words.getD i 0) k := by
      intro k hk
      have hoff : addr + UInt64.ofNat (8 * i + k) - addr = UInt64.ofNat (8 * i + k) := by
        rw [UInt64.add_comm, UInt64.add_sub_cancel]
      have hnat : (UInt64.ofNat (8 * i + k)).toNat = 8 * i + k :=
        UInt64.toNat_ofNat_of_lt' (by
          show _ < 2 ^ 64
          omega)
      have hlt : UInt64.ofNat (8 * i + k) < allocHeaderSize := by
        rw [UInt64.lt_iff_toNat_lt]
        show _ < 48
        omega
      unfold put bytes
      rw [hoff, if_pos hlt]
      congr 1
      · congr 1
        omega
      · omega
    exact (wordOf_congr hbyte).trans (wordOf_byteOf _)
  have htype : info.type.toUInt64.toUInt32 = info.type := by
    apply UInt32.toNat_inj.mp
    exact Nat.mod_eq_of_lt info.type.toNat_lt
  unfold load
  rw [hword 0 (by decide), hword 1 (by decide), hword 2 (by decide), hword 3 (by decide),
    hword 4 (by decide), hword 5 (by decide)]
  show Info.mk info.type.toUInt64.toUInt32 _ _ _ _ _ = info
  rw [htype]
  rfl

/-! ## The padding -/

variable {ctx : Context} {alignment : UInt32} {type : UsmType} {size answer : UInt64}

/-- A power of two, as a number. -/
theorem isPowerOf2_pow {value : UInt32} (h : isPowerOf2 value = true) :
    ∃ k, value.toNat = 2 ^ k := by
  unfold isPowerOf2 at h
  simp only [Bool.and_eq_true, bne_iff_ne, ne_eq, beq_iff_eq] at h
  have hne : value.toNat ≠ 0 := fun h0 => h.1 (UInt32.toNat_inj.mp h0)
  have hand := congrArg UInt32.toNat h.2
  rw [UInt32.toNat_and, UInt32.toNat_sub] at hand
  have hone : (1 : UInt32).toNat = 1 := rfl
  have hlt := value.toNat_lt
  have hpred : (2 ^ 32 - (1 : UInt32).toNat + value.toNat) % 2 ^ 32 = value.toNat - 1 := by
    omega
  rw [hpred] at hand
  exact Nat.ne_zero_and_sub_one_eq_zero_iff_isPowerOfTwo.mp ⟨hne, hand⟩

theorem allocAlignment_toNat (alignment : UInt32) :
    (allocAlignment alignment).toNat = max alignment.toNat 8 := by
  show (if alignment ≤ 8 then 8 else alignment).toNat = _
  have h8 : (8 : UInt32).toNat = 8 := rfl
  split
  next hle =>
    rw [UInt32.le_iff_toNat_le] at hle
    omega
  next hgt =>
    rw [UInt32.le_iff_toNat_le] at hgt
    omega

/-- The alignment that is asked for is a power of two, of eight at least. -/
theorem allocAlignment_pow (h : isPowerOf2 alignment = true) :
    ∃ k, 3 ≤ k ∧ (allocAlignment alignment).toNat = 2 ^ k ∧ alignment.toNat ∣ 2 ^ k := by
  obtain ⟨k, hk⟩ := isPowerOf2_pow h
  rw [allocAlignment_toNat, hk]
  rcases Nat.le_total k 3 with hle | hge
  · have hpow : 2 ^ k ≤ 2 ^ 3 := Nat.pow_le_pow_right (by decide) hle
    exact ⟨3, Nat.le_refl 3, Nat.max_eq_right hpow, Nat.pow_dvd_pow 2 hle⟩
  · have hpow : 2 ^ 3 ≤ 2 ^ k := Nat.pow_le_pow_right (by decide) hge
    exact ⟨k, hge, Nat.max_eq_left hpow, Nat.dvd_refl _⟩

/-- **The header and the padding are a multiple of the alignment.** -/
theorem getPadding_aligns (hne : alignment ≠ 0) :
    alignment.toNat ∣ 48 + (getPadding alignment).toNat ∧
      (getPadding alignment).toNat < 2 ^ 32 := by
  have hpos : 0 < alignment.toNat := Nat.pos_of_ne_zero fun h => hne (UInt32.toNat_inj.mp h)
  have hlt := alignment.toNat_lt
  have hwide : alignment.toUInt64.toNat = alignment.toNat := UInt32.toNat_toUInt64 alignment
  have hheader : allocHeaderSize.toNat = 48 := rfl
  have hrest : (allocHeaderSize % alignment.toUInt64).toNat = 48 % alignment.toNat := by
    rw [UInt64.toNat_mod, hwide, hheader]
  unfold getPadding
  split
  next hzero =>
    have hmod : 48 % alignment.toNat = 0 := by
      rw [← hrest, hzero.resolve_left hne]
      rfl
    exact ⟨Nat.dvd_of_mod_eq_zero hmod, by decide⟩
  next hzero =>
    split
    next hle =>
      have hmod := Nat.mod_lt 48 hpos
      have hdiv := Nat.div_add_mod 48 alignment.toNat
      rw [UInt64.toNat_sub_of_le _ _ (UInt64.le_iff_toNat_le.mpr (by omega))]
      have hsum : 48 + (alignment.toNat - 48 % alignment.toNat) =
          alignment.toNat * (48 / alignment.toNat + 1) := by
        rw [Nat.mul_succ]
        omega
      exact ⟨⟨_, hsum⟩, by omega⟩
    next hgt =>
      have hge : 48 < alignment.toNat := by
        rw [UInt64.le_iff_toNat_le] at hgt
        omega
      rw [UInt64.toNat_sub_of_le _ _ (UInt64.le_iff_toNat_le.mpr (by omega))]
      exact ⟨⟨1, by omega⟩, by omega⟩

/-! ## One allocation -/

/-- The pointer that is handed out for a block. -/
def userPtr (alignment : UInt32) (base : UInt64) : UInt64 :=
  allocHeaderSize + getPadding (allocAlignment alignment) + base

/-- The context after an allocation in a block at `answer`. -/
def Context.placed (ctx : Context) (alignment : UInt32) (type : UsmType)
    (size answer : UInt64) : Context :=
  { ctx with
    heap := ⟨answer, mallocSize (allocAlignment alignment) size⟩ :: ctx.heap
    mem := put (Info.bytes ⟨type.code, userPtr alignment answer, size, ctx.device, 0, answer⟩)
      (getAllocInfoAddr (userPtr alignment answer)) allocHeaderSize ctx.mem
    allocations := ctx.allocations.insert (userPtr alignment answer) }

theorem allocAlignment_ne_zero (alignment : UInt32) : allocAlignment alignment ≠ 0 := by
  intro h
  have hmax := allocAlignment_toNat alignment
  rw [h] at hmax
  have hzero : (0 : UInt32).toNat = 0 := rfl
  omega

/-- The padding of an alignment, as a number. -/
def pad (alignment : UInt32) : Nat := (getPadding (allocAlignment alignment)).toNat

theorem pad_lt (alignment : UInt32) : pad alignment < 2 ^ 32 :=
  (getPadding_aligns (allocAlignment_ne_zero alignment)).2

theorem mallocSize_toNat (alignment : UInt32) (size : UInt64) :
    (mallocSize (allocAlignment alignment) size).toNat =
      (48 + pad alignment + size.toNat) % 2 ^ 64 := by
  have hheader : allocHeaderSize.toNat = 48 := rfl
  unfold mallocSize pad
  rw [UInt64.toNat_add, UInt64.toNat_add]
  omega

theorem userPtr_toNat (alignment : UInt32) (base : UInt64) :
    (userPtr alignment base).toNat = (48 + pad alignment + base.toNat) % 2 ^ 64 := by
  have hheader : allocHeaderSize.toNat = 48 := rfl
  unfold userPtr pad
  rw [UInt64.toNat_add, UInt64.toNat_add]
  omega

/-- The header is at the block, behind the padding. -/
theorem infoAddr_eq (alignment : UInt32) (base : UInt64) :
    (getAllocInfoAddr (userPtr alignment base)).toNat = (pad alignment + base.toNat) % 2 ^ 64 := by
  have hheader : allocHeaderSize.toNat = 48 := rfl
  unfold getAllocInfoAddr
  rw [UInt64.toNat_sub, userPtr_toNat]
  omega

/-- An alignment that divides the header needs no padding. -/
theorem pad_eq_zero (h : (allocAlignment alignment).toNat ∣ 48) : pad alignment = 0 := by
  have hmod : allocHeaderSize % (allocAlignment alignment).toUInt64 = 0 := by
    apply UInt64.toNat.inj
    exact Nat.mod_eq_zero_of_dvd h
  unfold pad getPadding
  rw [if_pos (Or.inr hmod)]
  rfl

/-- The header is never at null: it is aligned like the block, up to the padding. -/
theorem infoAddr_ne_zero (hpow : isPowerOf2 alignment = true) (hne : answer ≠ 0)
    (halign : answer.toNat % (allocAlignment alignment).toNat = 0) :
    getAllocInfoAddr (userPtr alignment answer) ≠ 0 := by
  intro hzero
  have hsum := infoAddr_eq alignment answer
  rw [hzero] at hsum
  have hanswer : answer.toNat ≠ 0 := fun h => hne (UInt64.toNat.inj h)
  have hlt := answer.toNat_lt
  have hpad := pad_lt alignment
  have hfull : pad alignment + answer.toNat = 2 ^ 64 := by
    have h0 : (0 : UInt64).toNat = 0 := rfl
    omega
  obtain ⟨k, -, hk, -⟩ := allocAlignment_pow hpow
  have hk64 : k ≤ 64 := by
    have halignlt := (allocAlignment alignment).toNat_lt
    rw [hk] at halignlt
    exact Nat.le_of_lt (Nat.lt_of_lt_of_le ((Nat.pow_lt_pow_iff_right (by decide)).mp halignlt)
      (by decide))
  have hpadded := (getPadding_aligns (allocAlignment_ne_zero alignment)).1
  have hblock := Nat.dvd_of_mod_eq_zero halign
  -- the alignment divides the whole address space, so it divides the padding and the header
  have hspace : (allocAlignment alignment).toNat ∣ pad alignment + answer.toNat := by
    rw [hfull, hk]
    exact Nat.pow_dvd_pow 2 hk64
  have hpaddvd := (Nat.dvd_add_left hblock).mp hspace
  have hheader := (Nat.dvd_add_left hpaddvd).mp hpadded
  have hnone := pad_eq_zero hheader
  omega

/-- **An allocation** with a block that the allocator may answer with. -/
theorem addAlloc_eq (hpow : isPowerOf2 alignment = true) (hne : answer ≠ 0)
    (halign : answer.toNat % (allocAlignment alignment).toNat = 0) :
    ctx.addAlloc alignment type size answer =
      (ctx.placed alignment type size answer, some (userPtr alignment answer)) := by
  have hinfo := infoAddr_ne_zero hpow hne halign
  unfold Context.addAlloc
  rw [if_neg hne]
  exact if_neg hinfo

/-- **When a pointer is placed in its block**: the size with the header and the padding fits. -/
theorem placed_iff (hpow : isPowerOf2 alignment = true)
    (halign : answer.toNat % (allocAlignment alignment).toNat = 0)
    (hspace : answer.toNat + (mallocSize (allocAlignment alignment) size).toNat < 2 ^ 64) :
    Placed alignment size (userPtr alignment answer)
        ⟨answer, mallocSize (allocAlignment alignment) size⟩ ↔ SizeFits alignment size := by
  have hptr := userPtr_toNat alignment answer
  have htotal := mallocSize_toNat alignment size
  have hpad := pad_lt alignment
  constructor
  · intro h
    have hheader : answer.toNat + 48 ≤ (userPtr alignment answer).toNat := h.header
    have huser : (userPtr alignment answer).toNat + size.toNat ≤
      answer.toNat + (mallocSize (allocAlignment alignment) size).toNat := h.user
    show 48 + pad alignment + size.toNat < 2 ^ 64
    omega
  · intro hfits
    have hfits : 48 + pad alignment + size.toNat < 2 ^ 64 := hfits
    rw [Nat.mod_eq_of_lt (by omega)] at hptr
    obtain ⟨k, hk3, hk, hdvd⟩ := allocAlignment_pow hpow
    have hpadded : (allocAlignment alignment).toNat ∣ 48 + pad alignment :=
      (getPadding_aligns (allocAlignment_ne_zero alignment)).1
    have hall := Nat.dvd_add hpadded (Nat.dvd_of_mod_eq_zero halign)
    rw [hk] at hall
    refine ⟨?_, ?_, ?_, ?_⟩
    · rw [hptr]
      exact Nat.mod_eq_zero_of_dvd (Nat.dvd_trans hdvd hall)
    · show answer.toNat + 48 ≤ _
      omega
    · show _ ≤ answer.toNat + (mallocSize (allocAlignment alignment) size).toNat
      omega
    · have h8 : 8 ∣ 48 + pad alignment + answer.toNat :=
        Nat.dvd_trans (Nat.pow_dvd_pow 2 hk3) hall
      omega

/-- **When `add_alloc` is right**, for any size. -/
theorem addAlloc_right_iff (hpow : isPowerOf2 alignment = true)
    (hmalloc : Malloc ctx.heap (allocAlignment alignment)
      (mallocSize (allocAlignment alignment) size) answer) :
    AddAllocRight ctx alignment type size answer ↔ (answer ≠ 0 → SizeFits alignment size) := by
  unfold AddAllocRight
  rcases hmalloc with hnull | ⟨halign, hspace, -⟩
  · have hnone : (ctx.addAlloc alignment type size answer).2 = none := by
      unfold Context.addAlloc
      rw [if_pos hnull]
    refine ⟨fun _ hne => absurd hnull hne, fun _ ptr hptr => ?_⟩
    rw [hnone] at hptr
    cases hptr
  · by_cases hne : answer = 0
    · have hnone : (ctx.addAlloc alignment type size answer).2 = none := by
        unfold Context.addAlloc
        rw [if_pos hne]
      refine ⟨fun _ h => absurd hne h, fun _ ptr hptr => ?_⟩
      rw [hnone] at hptr
      cases hptr
    · have hadd := @addAlloc_eq ctx alignment type size answer hpow hne halign
      rw [hadd, ← placed_iff hpow halign hspace]
      constructor
      · intro h _
        obtain ⟨block, hblock, hplaced⟩ := h _ rfl
        rw [← (List.cons.inj hblock).1] at hplaced
        exact hplaced
      · intro h ptr hptr
        obtain rfl := Option.some.inj hptr
        exact ⟨_, rfl, h hne⟩

/-! ## The entry point -/

variable {desc : Option UInt32} {ppMem : Bool}

/-- What `alloc_helper` checks. -/
def Checked (desc : Option UInt32) (size : UInt64) (ppMem : Bool) : Prop :=
  isPowerOf2 (descAlignment desc) = true ∧ ppMem = true ∧ 0 < size

theorem allocHelper_rejected (h : ¬ Checked desc size ppMem) :
    (allocHelper ctx desc size ppMem type answer).1 = ctx ∧
      ∀ ptr, (allocHelper ctx desc size ppMem type answer).2 ≠ .ok ptr := by
  unfold allocHelper
  dsimp only
  by_cases hpow : isPowerOf2 (descAlignment desc) = true
  · rw [hpow, if_neg (by decide)]
    by_cases hmem : ppMem = true
    · rw [hmem, if_pos fun hpos => h ⟨hpow, hmem, hpos⟩]
      exact ⟨rfl, nofun⟩
    · rw [Bool.eq_false_of_not_eq_true hmem]
      exact ⟨rfl, nofun⟩
  · rw [Bool.eq_false_of_not_eq_true hpow]
    exact ⟨rfl, nofun⟩

theorem allocHelper_checked (h : Checked desc size ppMem) :
    (allocHelper ctx desc size ppMem type answer).1 =
        (ctx.addAlloc (descAlignment desc) type size answer).1 ∧
      ∀ ptr, (allocHelper ctx desc size ppMem type answer).2 = .ok ptr ↔
        (ctx.addAlloc (descAlignment desc) type size answer).2 = some ptr := by
  obtain ⟨hpow, hmem, hpos⟩ := h
  unfold allocHelper
  dsimp only
  rw [hpow, hmem, if_neg (not_not_intro hpos)]
  generalize ctx.addAlloc _ type size answer = out
  obtain ⟨ctx', result⟩ := out
  cases result with
  | none => exact ⟨rfl, fun ptr => ⟨nofun, nofun⟩⟩
  | some p => exact ⟨rfl, fun ptr => ⟨fun h => congrArg some (Except.ok.inj h),
      fun h => congrArg Except.ok (Option.some.inj h)⟩⟩

theorem alloc_right_iff (hmalloc : Malloc ctx.heap (allocAlignment (descAlignment desc))
      (mallocSize (allocAlignment (descAlignment desc)) size) answer) :
    Right ctx (.alloc desc type size ppMem answer) ↔
      Fine ctx (.alloc desc type size ppMem answer) := by
  by_cases hchecked : Checked desc size ppMem
  · have hadd := @addAlloc_right_iff ctx _ type size answer hchecked.1 hmalloc
    obtain ⟨hctx, hptr⟩ := @allocHelper_checked ctx type size answer desc ppMem hchecked
    have hright : Right ctx (.alloc desc type size ppMem answer) ↔
        AddAllocRight ctx (descAlignment desc) type size answer := by
      show (∀ ptr, _ → _) ↔ _
      rw [hctx]
      exact forall_congr' fun ptr => imp_congr (hptr ptr) Iff.rfl
    rw [hright, hadd]
    exact ⟨fun h _ _ _ => h, fun h => h hchecked.1 hchecked.2.1 hchecked.2.2⟩
  · have hrejected := (@allocHelper_rejected ctx type size answer desc ppMem hchecked).2
    constructor
    · intro _ hpow hmem hpos
      exact absurd ⟨hpow, hmem, hpos⟩ hchecked
    · intro _ ptr hptr
      exact absurd hptr (hrejected ptr)

/-! ## Entries -/

/-- An allocation of a context, in a block that it fits. -/
structure Entry where
  alignment : UInt32
  size : UInt64
  base : UInt64
  fits : base.toNat + (48 + pad alignment + size.toNat) < 2 ^ 64

namespace Entry

variable {e e' : Entry}

def ptr (e : Entry) : UInt64 := userPtr e.alignment e.base

def block (e : Entry) : Block := ⟨e.base, mallocSize (allocAlignment e.alignment) e.size⟩

/-- The header still says where the block is. -/
def Intact (e : Entry) (mem : Bytes) : Prop :=
  (Info.load mem (getAllocInfoAddr e.ptr)).type ≠ UsmType.unknown.code ∧
    (Info.load mem (getAllocInfoAddr e.ptr)).base_alloc_ptr = e.base

theorem ptr_toNat (e : Entry) : e.ptr.toNat = 48 + pad e.alignment + e.base.toNat := by
  have hfits := e.fits
  unfold ptr
  rw [userPtr_toNat, Nat.mod_eq_of_lt (by omega)]

theorem infoAddr_toNat (e : Entry) :
    (getAllocInfoAddr e.ptr).toNat = pad e.alignment + e.base.toNat := by
  have hfits := e.fits
  unfold ptr
  rw [infoAddr_eq, Nat.mod_eq_of_lt (by omega)]

theorem block_size (e : Entry) :
    e.block.size.toNat = 48 + pad e.alignment + e.size.toNat := by
  have hfits := e.fits
  show (mallocSize _ _).toNat = _
  rw [mallocSize_toNat, Nat.mod_eq_of_lt (by omega)]

theorem apart_iff (e e' : Entry) : e.block.Apart e'.block ↔
    e.base.toNat + (48 + pad e.alignment + e.size.toNat) ≤ e'.base.toNat ∨
      e'.base.toNat + (48 + pad e'.alignment + e'.size.toNat) ≤ e.base.toNat := by
  unfold Block.Apart
  rw [block_size, block_size]
  exact Iff.rfl

instance : Std.Symm fun e e' : Entry => e.block.Apart e'.block :=
  ⟨fun _ _ h => Or.symm h⟩

/-- Entries that are apart have different pointers and blocks. -/
theorem ptr_ne (h : e.block.Apart e'.block) : e.ptr ≠ e'.ptr := by
  intro heq
  have hp := congrArg UInt64.toNat heq
  rw [ptr_toNat, ptr_toNat] at hp
  rw [apart_iff] at h
  omega

theorem base_ne (h : e.block.Apart e'.block) : e.base ≠ e'.base := by
  intro heq
  have hb := congrArg UInt64.toNat heq
  rw [apart_iff] at h
  omega

/-- **A header is kept** by what is written elsewhere. -/
theorem Intact.put {mem data : Bytes} {dst : UInt64} (h : e.Intact mem)
    (hrange : dst.toNat + size.toNat ≤ 2 ^ 64)
    (happart : dst.toNat + size.toNat ≤ e.base.toNat + pad e.alignment ∨
      e.base.toNat + pad e.alignment + 48 ≤ dst.toNat) :
    e.Intact (put data dst size mem) := by
  have hload : Info.load (PatternFill.put data dst size mem) (getAllocInfoAddr e.ptr) =
      Info.load mem (getAllocInfoAddr e.ptr) := by
    refine Info.load_congr fun j hj => put_other hrange ?_
    have hfits := e.fits
    have hj64 : (UInt64.ofNat j).toNat = j := UInt64.toNat_ofNat_of_lt' (by
      show _ < 2 ^ 64
      omega)
    rw [UInt64.toNat_add, infoAddr_toNat]
    omega
  unfold Intact
  rw [hload]
  exact h

end Entry

/-- **The pointers of the context are its blocks**, each with its header, and the blocks are
apart. -/
structure Holds (ctx : Context) (entries : List Entry) : Prop where
  allocations : ctx.allocations = entries.map Entry.ptr
  heap : ctx.heap = entries.map Entry.block
  intact : ∀ e ∈ entries, e.Intact ctx.mem
  apart : entries.Pairwise fun e e' => e.block.Apart e'.block

def Inv (ctx : Context) : Prop := ∃ entries, Holds ctx entries

theorem Inv.init (device : UInt64) (mem : Bytes) : Inv (.init device mem) :=
  ⟨[], rfl, rfl, nofun, List.Pairwise.nil⟩

variable {entries : List Entry}

theorem code_unknown (h : type.code = UsmType.unknown.code) : type = .unknown := by
  cases type with
  | unknown => rfl
  | host => exact absurd h (by decide)
  | device => exact absurd h (by decide)
  | shared => exact absurd h (by decide)

/-- A block in which the allocator has placed something. -/
theorem Holds.placed (h : Holds ctx entries) (htype : type ≠ .unknown)
    (hspace : answer.toNat + (mallocSize (allocAlignment alignment) size).toNat < 2 ^ 64)
    (happart : ∀ block ∈ ctx.heap,
      Block.Apart ⟨answer, mallocSize (allocAlignment alignment) size⟩ block)
    (hfits : SizeFits alignment size) : Inv (ctx.placed alignment type size answer) := by
  have hfits : 48 + pad alignment + size.toNat < 2 ^ 64 := hfits
  rw [mallocSize_toNat, Nat.mod_eq_of_lt hfits] at hspace
  let e : Entry := ⟨alignment, size, answer, hspace⟩
  have happart : ∀ e' ∈ entries, e.block.Apart e'.block := by
    intro e' he'
    exact happart _ (h.heap ▸ List.mem_map_of_mem he')
  have hnew : userPtr alignment answer ∉ ctx.allocations := by
    intro hmem
    rw [h.allocations] at hmem
    obtain ⟨e', he', hptr⟩ := List.mem_map.mp hmem
    exact Entry.ptr_ne (happart e' he') hptr.symm
  refine ⟨e :: entries, ?_, ?_, ?_, List.pairwise_cons.mpr ⟨happart, h.apart⟩⟩
  · show ctx.allocations.insert (userPtr alignment answer) = _
    rw [List.insert_of_not_mem hnew, h.allocations]
    rfl
  · show _ :: ctx.heap = _
    rw [h.heap]
    rfl
  · intro e' he'
    rcases List.mem_cons.mp he' with rfl | hold
    · have hload := Info.load_put ⟨type.code, userPtr alignment answer, size, ctx.device, 0,
        answer⟩ (getAllocInfoAddr (userPtr alignment answer)) ctx.mem
      show (Info.load _ _).type ≠ _ ∧ (Info.load _ _).base_alloc_ptr = _
      refine ⟨?_, ?_⟩
      · refine fun hunknown => htype ?_
        exact code_unknown ((congrArg Info.type hload).symm.trans hunknown)
      · exact congrArg Info.base_alloc_ptr hload
    · have hdisjoint := (Entry.apart_iff _ _).mp (happart e' hold)
      have haddr : (getAllocInfoAddr (userPtr alignment answer)).toNat =
          pad alignment + answer.toNat := e.infoAddr_toNat
      have hheader : allocHeaderSize.toNat = 48 := rfl
      have hbase : e.base = answer := rfl
      have hpad : e.alignment = alignment := rfl
      rw [hbase, hpad] at hdisjoint
      refine (h.intact e' hold).put ?_ ?_
      · omega
      · omega

/-- **A pointer of the context is freed** with its block. -/
theorem Holds.free (h : Holds ctx entries) {ptr : UInt64} (hptr : ptr ∈ ctx.allocations) :
    FreesBlock ctx ptr (urUSMFree ctx ptr) ∧ Inv (urUSMFree ctx ptr).1 := by
  rw [h.allocations] at hptr
  obtain ⟨e, he, rfl⟩ := List.mem_map.mp hptr
  obtain ⟨before, after, rfl⟩ := List.append_of_mem he
  obtain ⟨-, hafter, hbefore⟩ := List.pairwise_append.mp h.apart
  obtain ⟨htype, hbase⟩ := h.intact e he
  -- the block is found by its base, which no other entry has
  have hearlier : ∀ e' ∈ before, e'.block.Apart e.block := fun e' he' =>
    hbefore e' he' e List.mem_cons_self
  have hne : e.ptr ≠ 0 := by
    intro h0
    have hnat := e.ptr_toNat
    rw [h0] at hnat
    have hzero : (0 : UInt64).toNat = 0 := rfl
    omega
  have hblock : e.block ∉ before.map Entry.block := by
    intro hmem
    obtain ⟨e', he', heq⟩ := List.mem_map.mp hmem
    exact Entry.base_ne (hearlier e' he') (congrArg Block.base heq)
  have hheap : ctx.heap.eraseP (·.base == e.base) = (before ++ after).map Entry.block := by
    rw [h.heap, List.map_append, List.map_cons, List.eraseP_append_right]
    · rw [List.eraseP_cons_of_pos (by exact beq_self_eq_true e.base), List.map_append]
    · intro b hb
      obtain ⟨e', he', rfl⟩ := List.mem_map.mp hb
      exact fun heq => Entry.base_ne (hearlier e' he') (beq_iff_eq.mp heq)
  have herase : ctx.heap.erase e.block = (before ++ after).map Entry.block := by
    rw [h.heap, List.map_append, List.map_cons, List.erase_append_right _ hblock,
      List.erase_cons_head, List.map_append]
  have hallocations : ctx.allocations.erase e.ptr = (before ++ after).map Entry.ptr := by
    have hptr : e.ptr ∉ before.map Entry.ptr := by
      intro hmem
      obtain ⟨e', he', heq⟩ := List.mem_map.mp hmem
      exact Entry.ptr_ne (hearlier e' he') heq
    rw [h.allocations, List.map_append, List.map_cons, List.erase_append_right _ hptr,
      List.erase_cons_head, List.map_append]
  have hfree : urUSMFree ctx e.ptr =
      ({ ctx with
          heap := (before ++ after).map Entry.block
          allocations := (before ++ after).map Entry.ptr },
        ⟨.success, true, some e.base⟩) := by
    unfold urUSMFree removeAlloc Context.alignedFree
    dsimp only
    rw [if_neg hne, if_neg (not_not_intro htype), hbase, hheap, hallocations]
  rw [hfree]
  have hothers : ∀ e' ∈ before ++ after, e'.ptr ≠ e.ptr ∧ e'.base ≠ e.base := by
    intro e' he'
    rcases List.mem_append.mp he' with hin | hin
    · exact ⟨Entry.ptr_ne (hearlier e' hin), Entry.base_ne (hearlier e' hin)⟩
    · have hlater := List.rel_of_pairwise_cons hafter hin
      exact ⟨(Entry.ptr_ne hlater).symm, (Entry.base_ne hlater).symm⟩
  refine ⟨⟨rfl, ⟨e.block, ?_, ?_, ?_, rfl, herase.symm, ?_⟩, ?_⟩, before ++ after, rfl, rfl, ?_, ?_⟩
  · rw [h.heap]
    exact List.mem_map_of_mem he
  · have hnat := e.ptr_toNat
    show e.base.toNat + 48 ≤ _
    omega
  · have hnat := e.ptr_toNat
    have hsize := e.block_size
    show _ ≤ e.base.toNat + e.block.size.toNat
    omega
  · intro hmem
    obtain ⟨e', he', heq⟩ := List.mem_map.mp hmem
    exact (hothers e' he').2 (congrArg Block.base heq)
  · intro hmem
    obtain ⟨e', he', heq⟩ := List.mem_map.mp hmem
    exact (hothers e' he').1 heq
  · intro e' he'
    refine h.intact e' ?_
    rcases List.mem_append.mp he' with hin | hin
    · exact List.mem_append_left _ hin
    · exact List.mem_append_right _ (List.mem_cons_of_mem _ hin)
  · exact h.apart.sublist ((List.Sublist.refl before).append (List.sublist_cons_self e after))

/-- **When a free is right**: the pointer is null or one of the context's. -/
theorem free_right_iff (hinv : Inv ctx) (ptr : UInt64) :
    FreeRight ctx ptr ↔ ptr = 0 ∨ ptr ∈ ctx.allocations := by
  obtain ⟨entries, h⟩ := hinv
  unfold FreeRight
  split
  next hmem => exact ⟨fun _ => Or.inr hmem, fun _ => (h.free hmem).1⟩
  next hmem =>
    constructor
    · rintro ⟨-, -, hread, -⟩
      by_contra hne
      -- a pointer that is not null is read
      unfold urUSMFree removeAlloc at hread
      dsimp only at hread
      rw [if_neg fun h0 => hne (Or.inl h0)] at hread
      split at hread
      · cases hread
      · cases hread
    · rintro (rfl | hin)
      · exact ⟨rfl, nofun, rfl, rfl⟩
      · exact absurd hin hmem

/-! ## Runs -/

/-- What the user writes leaves the headers. -/
theorem Holds.write (h : Holds ctx entries) {dst : UInt64} {data : Bytes}
    (hallowed : WriteAllowed ctx dst size) :
    Inv { ctx with mem := put data dst size ctx.mem } := by
  obtain ⟨hrange, hblocks⟩ := hallowed
  refine ⟨entries, h.allocations, h.heap, fun e he => ?_, h.apart⟩
  refine (h.intact e he).put hrange ?_
  have hsize := e.block_size
  have hbase : e.block.base = e.base := rfl
  rcases hblocks e.block (h.heap ▸ List.mem_map_of_mem he) with hout | ⟨ptr, hptr, hlo, hdst, hhi⟩
  · unfold Apart at hout
    rw [hbase] at hout
    omega
  · -- the pointer whose bytes are written is the one of this block
    rw [h.allocations] at hptr
    obtain ⟨e', he', rfl⟩ := List.mem_map.mp hptr
    have hnat := e'.ptr_toNat
    rw [hbase] at hlo
    by_cases heq : e' = e
    · subst heq
      omega
    · have hapart := h.apart.forall he he' (Ne.symm heq)
      rw [Entry.apart_iff] at hapart
      omega

/-- **One call** keeps the entries if it meets the condition. -/
theorem Inv.step (hinv : Inv ctx) : ∀ (call : Call), Allowed ctx call → Fine ctx call →
    Inv (step ctx call)
  | .alloc desc type size ppMem answer, ⟨htype, hmalloc⟩, hfine => by
    show Inv (allocHelper ctx desc size ppMem type answer).1
    by_cases hchecked : Checked desc size ppMem
    · rw [(allocHelper_checked hchecked).1]
      by_cases hne : answer = 0
      · unfold Context.addAlloc
        rw [if_pos hne]
        exact hinv
      · obtain ⟨halign, hspace, happart⟩ := hmalloc.resolve_left hne
        rw [addAlloc_eq hchecked.1 hne halign]
        obtain ⟨entries, h⟩ := hinv
        exact h.placed htype hspace happart
          (hfine hchecked.1 hchecked.2.1 hchecked.2.2 hne)
    · rw [(allocHelper_rejected hchecked).1]
      exact hinv
  | .free ptr, _, hfine => by
    show Inv (urUSMFree ctx ptr).1
    rcases hfine with rfl | hmem
    · exact hinv
    · obtain ⟨entries, h⟩ := hinv
      exact (h.free hmem).2
  | .write dst size data, hallowed, _ => by
    obtain ⟨entries, h⟩ := hinv
    exact h.write hallowed

theorem right_iff_fine (hinv : Inv ctx) : ∀ (call : Call), Allowed ctx call →
    (Right ctx call ↔ Fine ctx call)
  | .alloc _ _ _ _ _, hallowed => alloc_right_iff hallowed.2
  | .free ptr, _ => free_right_iff hinv ptr
  | .write _ _ _, _ => Iff.rfl

/-- **USM allocations**: what `add_alloc` hands out is placed in its block exactly if the size
fits, and a run of allocations, frees and writes is right exactly if the sizes fit and only
null and pointers of the context are freed. -/
theorem usm_right_iff (device : UInt64) (mem : Bytes) (calls : List Call)
    (hallowed : Along step Allowed (.init device mem) calls) :
    (∀ (ctx : Context) (alignment : UInt32) (type : UsmType) (size answer : UInt64),
      isPowerOf2 alignment = true →
      Malloc ctx.heap (allocAlignment alignment) (mallocSize (allocAlignment alignment) size)
        answer →
      (AddAllocRight ctx alignment type size answer ↔
        (answer ≠ 0 → SizeFits alignment size))) ∧
    (Along step Right (.init device mem) calls ↔ Along step Fine (.init device mem) calls) := by
  refine ⟨fun ctx alignment type size answer => addAlloc_right_iff, ?_⟩
  exact along_iff (fun ctx call hinv => right_iff_fine hinv call)
    (fun ctx call hinv => hinv.step call) (Inv.init device mem) hallowed

/-- An allocation that is freed, and a null pointer. -/
theorem usm_right_iff_free : Along step Right (.init 1 fun _ => 0)
    [.alloc (some 64) .host 16 true 0x10000, .free 0x10040, .free 0] := by
  refine (usm_right_iff 1 _ _ ?_).2.mpr ?_
  · exact ⟨⟨by decide, Or.inr ⟨by decide, by decide, nofun⟩⟩, trivial, trivial, trivial⟩
  · exact ⟨fun _ _ _ _ => by unfold SizeFits; decide, Or.inr (by decide), Or.inl rfl, trivial⟩

/-- The size with the header starts over at the end of the address space, and the block is
smaller than what the user may write; a pointer that is nobody's is read before it is freed. -/
theorem usm_wrong :
    (Along step Allowed (.init 1 fun _ => 0)
        [.alloc none .host 0xffffffffffffffd8 true 0x10000] ∧
      ¬ Along step Right (.init 1 fun _ => 0)
        [.alloc none .host 0xffffffffffffffd8 true 0x10000]) ∧
    ¬ Along step Right (.init 1 fun _ => 0) [.free 0x10040] := by
  have hallowed : Along step Allowed (.init 1 fun _ => 0)
      [.alloc none .host 0xffffffffffffffd8 true 0x10000] :=
    ⟨⟨by decide, Or.inr ⟨by decide, by decide, nofun⟩⟩, trivial⟩
  refine ⟨⟨hallowed, fun h => ?_⟩, fun h => ?_⟩
  · have hfine := (right_iff_fine (Inv.init 1 _) _ hallowed.1).mp h.1 (by decide) rfl (by decide)
      (by decide)
    unfold SizeFits at hfine
    exact absurd hfine (by decide)
  · have hfine : (0x10040 : UInt64) = 0 ∨ 0x10040 ∈ (Context.init 1 fun _ => 0).allocations :=
      (right_iff_fine (Inv.init 1 _) (.free 0x10040) trivial).mp h.1
    exact absurd hfine (by decide)

end UnifiedRuntime.NativeCpu.Usm
