import UnifiedRuntime.Lib.NarrowLoop
import UnifiedRuntime.Lib.PatternFill

/-!
# Fills of the Native CPU adapter

`urEnqueueMemBufferFill` copies the pattern step by step. `urEnqueueUSMFill` has a way of its
own for patterns of 1, 2, 4 and 8 bytes and a loop for the others. The counters of both loops
are `unsigned`.

- `memBufferFill_iff`, `usmFill_iff`: when each of them fills the range.
- `fills_iff`: when both do.
-/

namespace UnifiedRuntime.NativeCpu.Fill

open PatternFill

/-! ## The functions -/

inductive UrResult where
  | success
  | invalidNullPointer
  | invalidSize

/-- The calls that write; `memcpy` is from the pattern. -/
inductive Write where
  | memcpy (dst size : UInt64)
  | memset (dst : UInt64) (value : UInt8) (size : UInt64)

def Write.run (pattern : Bytes) : Write → Bytes → Bytes
  | .memcpy dst size => put pattern dst size
  | .memset dst value size => put (fun _ => value) dst size

/-- The memory after the writes. -/
def run (pattern : Bytes) (writes : List Write) (mem : Bytes) : Bytes :=
  writes.foldl (fun mem write => write.run pattern mem) mem

/-- `urEnqueueMemBufferFill`; a pattern of no bytes is divided by. -/
def urEnqueueMemBufferFill (bufferMem offset patternSize size : UInt64) (fuel : Nat) :
    Except Stop (UrResult × List Write) :=
  let startingPtr := bufferMem + offset
  if patternSize = 0 then .error .fault
  else
    let steps := (size / patternSize).toUInt32
    (narrowFor (fun i => .ok [.memcpy (startingPtr + i.toUInt64 * patternSize) patternSize])
      steps.toUInt64 fuel).map fun writes => (.success, writes)

/-- `std::fill` with the words of `width` bytes that the pattern begins with, from `start` up to
`stop`. -/
def stdFill (width start stop : UInt64) : List Write :=
  (List.range ((stop - start).toNat / width.toNat)).map fun k =>
    .memcpy (start + UInt64.ofNat (k * width.toNat)) width

/-- The `switch` on the size of the pattern. -/
def fillBySize (pattern : Bytes) (ptr patternSize size : UInt64) (fuel : Nat) :
    Except Stop (List Write) :=
  if patternSize = 1 then .ok [.memset ptr (pattern 0) (size * patternSize)]
  else if patternSize = 2 then .ok (stdFill 2 ptr (ptr + size))
  else if patternSize = 4 then .ok (stdFill 4 ptr (ptr + size))
  else if patternSize = 8 then .ok (stdFill 8 ptr (ptr + size))
  else narrowLoop (fun step => .ok [.memcpy (ptr + step.toUInt64) patternSize]) patternSize size
    fuel 0

def urEnqueueUSMFill (ptr patternSize : UInt64) (pPattern : Option Bytes) (size : UInt64)
    (fuel : Nat) : Except Stop (UrResult × List Write) :=
  if ptr = 0 then .ok (.invalidNullPointer, [])
  else match pPattern with
    | none => .ok (.invalidNullPointer, [])
    | some pattern =>
      if patternSize = 0 then .ok (.invalidSize, [])
      else if size = 0 then .ok (.invalidSize, [])
      else if ¬ patternSize < size then .ok (.invalidSize, [])
      else if ¬ size % patternSize = 0 then .ok (.invalidSize, [])
      else (fillBySize pattern ptr patternSize size fuel).map fun writes => (.success, writes)

/-! ## Fills with the pattern -/

/-- A fill ends, and it writes the pattern over the range and nothing else. -/
structure Fills (pattern : Bytes) (dst patternSize size : UInt64)
    (fill : Nat → Except Stop (UrResult × List Write)) : Prop where
  ends : ∃ fuel writes, fill fuel = .ok (.success, writes)
  writes : ∀ fuel result writes, fill fuel = .ok (result, writes) →
    Repeats pattern dst patternSize size (run pattern writes)

/-- **Both functions fill**, a buffer at an offset and memory at a pointer. -/
def BothFill (pattern : Bytes) (bufferMem offset ptr patternSize size : UInt64) : Prop :=
  Fills pattern (bufferMem + offset) patternSize size
      (urEnqueueMemBufferFill bufferMem offset patternSize size) ∧
    Fills pattern ptr patternSize size (urEnqueueUSMFill ptr patternSize (some pattern) size)

/-! ## Steps -/

variable {pattern : Bytes} {dst patternSize size : UInt64}

/-- Copies from one place to the next are tiles. -/
theorem run_copies (place : Nat → UInt64) (n : Nat)
    (hplace : ∀ k < n, place k = dst + UInt64.ofNat (k * patternSize.toNat)) (mem : Bytes) :
    run pattern ((List.range n).map fun k => .memcpy (place k) patternSize) mem =
      putTiles pattern dst patternSize n mem := by
  unfold run
  rw [List.foldl_map]
  refine List.foldl_ext _ _ _ fun mem k hk => ?_
  show put pattern (place k) patternSize mem = _
  rw [hplace k (List.mem_range.mp hk)]

/-- A fill whose writes are `n` tiles once it has fuel for them fills exactly if they are
enough. -/
theorem fills_of_tiles {n : Nat} {fill : Nat → Except Stop (UrResult × List Write)}
    {writes : List Write} (hle : n * patternSize.toNat ≤ size.toNat)
    (hends : ∃ fuel, fill fuel = .ok (.success, writes))
    (honly : ∀ fuel result out, fill fuel = .ok (result, out) → out = writes)
    (hrun : run pattern writes = putTiles pattern dst patternSize n) :
    Fills pattern dst patternSize size fill ↔ n * patternSize.toNat = size.toNat := by
  rw [← putTiles_repeats_iff pattern dst hle, ← hrun]
  constructor
  · intro h
    obtain ⟨fuel, hfill⟩ := hends
    exact h.writes fuel _ _ hfill
  · intro h
    obtain ⟨fuel, hfill⟩ := hends
    refine ⟨⟨fuel, writes, hfill⟩, fun fuel result out hout => ?_⟩
    rw [honly fuel result out hout]
    exact h

/-- Fewer steps than there are patterns in the range do not reach its end. -/
theorem steps_iff (hpos : 0 < patternSize.toNat) (hmul : size.toNat % patternSize.toNat = 0) :
    size.toNat / patternSize.toNat % 2 ^ 32 * patternSize.toNat = size.toNat ↔
      size.toNat / patternSize.toNat < 2 ^ 32 := by
  have hall := Nat.div_mul_cancel (Nat.dvd_of_mod_eq_zero hmul)
  constructor
  · intro h
    have hsame := Nat.eq_of_mul_eq_mul_right hpos (h.trans hall.symm)
    omega
  · intro h
    rw [Nat.mod_eq_of_lt h]
    exact hall

/-! ## Buffers -/

/-- **When a buffer is filled**: the number of steps fits its counter. -/
theorem memBufferFill_iff (bufferMem offset : UInt64) (hpos : 0 < patternSize.toNat)
    (hmul : size.toNat % patternSize.toNat = 0) :
    Fills pattern (bufferMem + offset) patternSize size
        (urEnqueueMemBufferFill bufferMem offset patternSize size) ↔
      size.toNat / patternSize.toNat < 2 ^ 32 := by
  have hne : patternSize ≠ 0 := by
    intro h
    rw [h] at hpos
    exact absurd hpos (Nat.lt_irrefl 0)
  have hsteps : (size / patternSize).toUInt32.toUInt64.toNat =
      size.toNat / patternSize.toNat % 2 ^ 32 := by
    rw [UInt32.toNat_toUInt64, UInt64.toNat_toUInt32, UInt64.toNat_div]
  have hlt := Nat.mod_lt (size.toNat / patternSize.toNat) (show 0 < 2 ^ 32 by omega)
  have hle : size.toNat / patternSize.toNat % 2 ^ 32 * patternSize.toNat ≤ size.toNat :=
    Nat.le_trans (Nat.mul_le_mul_right _ (Nat.mod_le _ _)) (Nat.div_mul_le_self _ _)
  have hfill : ∀ fuel, urEnqueueMemBufferFill bufferMem offset patternSize size fuel =
      (narrowFor (fun i => .ok [.memcpy (bufferMem + offset + i.toUInt64 * patternSize)
        patternSize]) (size / patternSize).toUInt32.toUInt64 fuel).map fun ws => (.success, ws) := by
    intro fuel
    unfold urEnqueueMemBufferFill
    rw [if_neg hne]
  rw [← steps_iff hpos hmul]
  refine fills_of_tiles hle ⟨2 ^ 32, ?_⟩ (fun fuel result out hout => ?_) (funext fun mem =>
    run_copies (fun k => bufferMem + offset + (UInt32.ofNat k).toUInt64 * patternSize) _ ?_ mem)
  · rw [hfill, narrowFor_pure.mpr ⟨by omega, by omega, rfl⟩]
    rw [← List.map_eq_flatMap]
    rfl
  · rw [hfill] at hout
    obtain ⟨writes, hwrites, hout⟩ := except_map_ok hout
    obtain ⟨-, -, rfl⟩ := narrowFor_pure.mp hwrites
    rw [← List.map_eq_flatMap] at hout
    exact (Prod.mk.inj hout).2.symm
  · intro k hk
    congr 1
    apply UInt64.toNat.inj
    rw [UInt64.toNat_mul, UInt32.toNat_toUInt64, UInt32.toNat_ofNat', UInt64.toNat_ofNat',
      Nat.mod_eq_of_lt (Nat.lt_trans hk hlt)]

/-! ## USM -/

/-- **A fill word by word** has room for all words. -/
theorem stdFill_repeats {width : UInt64} (ptr : UInt64)
    (hmul : size.toNat % width.toNat = 0) :
    Repeats pattern ptr width size (run pattern (stdFill width ptr (ptr + size))) := by
  have hall := Nat.div_mul_cancel (Nat.dvd_of_mod_eq_zero hmul)
  have hsub : ptr + size - ptr = size := by
    rw [UInt64.add_comm, UInt64.add_sub_cancel]
  have hrun : run pattern (stdFill width ptr (ptr + size)) =
      putTiles pattern ptr width (size.toNat / width.toNat) := by
    unfold stdFill
    rw [hsub]
    exact funext fun mem => run_copies _ _ (fun _ _ => rfl) mem
  rw [hrun, putTiles_repeats_iff _ _ (Nat.le_of_eq hall)]
  exact hall

/-- One byte again and again. -/
theorem memset_repeats (ptr : UInt64) :
    Repeats pattern ptr 1 size (run pattern [.memset ptr (pattern 0) (size * 1)]) := by
  intro mem a
  show (if a - ptr < size * 1 then pattern 0 else mem a) = _
  have hmod : (a - ptr) % 1 = 0 := by
    apply UInt64.toNat.inj
    exact Nat.mod_one _
  rw [UInt64.mul_one, hmod]

/-- Fuel or not, the ways for short patterns are one list of writes. -/
theorem fillBySize_short (pattern : Bytes) (ptr : UInt64)
    (hshort : patternSize = 1 ∨ patternSize = 2 ∨ patternSize = 4 ∨ patternSize = 8)
    (hmul : size.toNat % patternSize.toNat = 0) :
    ∃ writes, (∀ fuel, fillBySize pattern ptr patternSize size fuel = .ok writes) ∧
      Repeats pattern ptr patternSize size (run pattern writes) := by
  rcases hshort with rfl | rfl | rfl | rfl
  · exact ⟨_, fun _ => rfl, memset_repeats ptr⟩
  · exact ⟨_, fun _ => rfl, stdFill_repeats ptr hmul⟩
  · exact ⟨_, fun _ => rfl, stdFill_repeats ptr hmul⟩
  · exact ⟨_, fun _ => rfl, stdFill_repeats ptr hmul⟩

/-- **The loop for the other patterns** ends exactly if the range is below 4 GiB, and has filled
it then. -/
theorem fillBySize_long (pattern : Bytes) (ptr : UInt64) (hpos : 0 < patternSize.toNat)
    (hlong : ¬ (patternSize = 1 ∨ patternSize = 2 ∨ patternSize = 4 ∨ patternSize = 8))
    (hmul : size.toNat % patternSize.toNat = 0) (fuel : Nat) (writes : List Write) :
    fillBySize pattern ptr patternSize size fuel = .ok writes ↔
      size.toNat < 2 ^ 32 ∧ size.toNat / patternSize.toNat < fuel ∧
        writes = (List.range (size.toNat / patternSize.toNat)).map fun k =>
          .memcpy (ptr + (UInt32.ofNat (k * patternSize.toNat)).toUInt64) patternSize := by
  simp only [not_or] at hlong
  have hall := Nat.div_mul_cancel (Nat.dvd_of_mod_eq_zero hmul)
  have hzero : (0 : UInt32).toNat = 0 := rfl
  unfold fillBySize
  rw [if_neg hlong.1, if_neg hlong.2.1, if_neg hlong.2.2.1, if_neg hlong.2.2.2,
    narrowLoop_hits (m := size.toNat / patternSize.toNat) hpos (by omega)]
  simp only [hzero, Nat.zero_add]
  refine and_congr_right fun _ => and_congr_right fun _ => ?_
  constructor
  · rintro ⟨f, hf, rfl⟩
    rw [List.map_eq_flatMap]
    exact List.flatMap_congr fun k hk => (Except.ok.inj (hf k (List.mem_range.mp hk))).symm
  · rintro rfl
    refine ⟨_, fun _ _ => rfl, ?_⟩
    rw [List.map_eq_flatMap]

/-- **When memory at a pointer is filled**: it takes more than one pattern, and the loop, if it
comes to it, ends. -/
theorem usmFill_iff {ptr : UInt64} (hptr : ptr ≠ 0) (hsize : size ≠ 0)
    (hpos : 0 < patternSize.toNat) (hmul : size.toNat % patternSize.toNat = 0) :
    Fills pattern ptr patternSize size (urEnqueueUSMFill ptr patternSize (some pattern) size) ↔
      patternSize < size ∧
        ((patternSize = 1 ∨ patternSize = 2 ∨ patternSize = 4 ∨ patternSize = 8) ∨
          size.toNat < 2 ^ 32) := by
  have hne : patternSize ≠ 0 := by
    intro h
    rw [h] at hpos
    exact absurd hpos (Nat.lt_irrefl 0)
  have hmod : size % patternSize = 0 := by
    apply UInt64.toNat.inj
    exact hmul
  by_cases hlt : patternSize < size
  · have hfill : ∀ fuel, urEnqueueUSMFill ptr patternSize (some pattern) size fuel =
        (fillBySize pattern ptr patternSize size fuel).map fun ws => (.success, ws) := by
      intro fuel
      unfold urEnqueueUSMFill
      dsimp only
      rw [if_neg hptr, if_neg hne, if_neg hsize, if_neg (not_not_intro hlt),
        if_neg (not_not_intro hmod)]
    by_cases hshort : patternSize = 1 ∨ patternSize = 2 ∨ patternSize = 4 ∨ patternSize = 8
    · obtain ⟨writes, hwrites, hrep⟩ := fillBySize_short pattern ptr hshort hmul
      refine ⟨fun _ => ⟨hlt, Or.inl hshort⟩, fun _ => ⟨⟨0, writes, ?_⟩, ?_⟩⟩
      · rw [hfill, hwrites]
        rfl
      · intro fuel result out hout
        rw [hfill, hwrites] at hout
        obtain rfl := (Prod.mk.inj (Except.ok.inj hout)).2
        exact hrep
    · have hlong := fillBySize_long pattern ptr hpos hshort hmul
      constructor
      · intro h
        obtain ⟨fuel, writes, hout⟩ := h.ends
        rw [hfill] at hout
        obtain ⟨out, hout, -⟩ := except_map_ok hout
        exact ⟨hlt, Or.inr ((hlong fuel out).mp hout).1⟩
      · rintro ⟨-, hfits⟩
        have hfits := hfits.resolve_left hshort
        have hall := Nat.div_mul_cancel (Nat.dvd_of_mod_eq_zero hmul)
        refine (fills_of_tiles (Nat.le_of_eq hall) ⟨size.toNat / patternSize.toNat + 1, ?_⟩
          (fun fuel result out hout => ?_) (funext fun mem => run_copies
            (fun k => ptr + (UInt32.ofNat (k * patternSize.toNat)).toUInt64) _ ?_ mem)).mpr hall
        · rw [hfill, (hlong _ _).mpr ⟨hfits, Nat.lt_succ_self _, rfl⟩]
          rfl
        · rw [hfill] at hout
          obtain ⟨writes, hwrites, hout⟩ := except_map_ok hout
          obtain ⟨-, -, rfl⟩ := (hlong fuel writes).mp hwrites
          exact (Prod.mk.inj hout).2.symm
        · intro k hk
          have hle := (Nat.mul_lt_mul_right hpos).mpr hk
          congr 1
          apply UInt64.toNat.inj
          rw [UInt32.toNat_toUInt64, UInt32.toNat_ofNat', UInt64.toNat_ofNat',
            Nat.mod_eq_of_lt (by omega), Nat.mod_eq_of_lt (by omega)]
  · refine ⟨fun h => ?_, fun h => absurd h.1 hlt⟩
    -- the check refuses a range of one pattern
    obtain ⟨fuel, writes, hout⟩ := h.ends
    unfold urEnqueueUSMFill at hout
    dsimp only at hout
    rw [if_neg hptr, if_neg hne, if_neg hsize, if_pos hlt] at hout
    cases hout

/-! ## Both -/

/-- **When both functions fill a range** that is a positive multiple of the pattern. -/
theorem fills_iff (pattern : Bytes) (bufferMem offset ptr patternSize size : UInt64)
    (hptr : ptr ≠ 0) (hsize : size ≠ 0) (hmul : size.toNat % patternSize.toNat = 0) :
    BothFill pattern bufferMem offset ptr patternSize size ↔
      size.toNat / patternSize.toNat < 2 ^ 32 ∧ patternSize < size ∧
        ((patternSize = 1 ∨ patternSize = 2 ∨ patternSize = 4 ∨ patternSize = 8) ∨
          size.toNat < 2 ^ 32) := by
  have hpos : 0 < patternSize.toNat := by
    refine Nat.pos_of_ne_zero fun h => hsize (UInt64.toNat.inj ?_)
    rw [h, Nat.mod_zero] at hmul
    exact hmul
  exact and_congr (memBufferFill_iff bufferMem offset hpos hmul) (usmFill_iff hptr hsize hpos hmul)

/-- Two copies of three bytes. -/
theorem fills_iff_two : BothFill (fun i => i.toUInt8) 64 16 128 3 6 :=
  (fills_iff _ 64 16 128 3 6 (by decide) (by decide) (by decide)).mpr (by decide)

/-- One pattern is refused, and 2 ^ 32 bytes are filled by no way for a pattern of one byte and
by a loop that does not end for one of 16. -/
theorem fills_wrong :
    ¬ BothFill (fun _ => 0) 64 0 128 4 4 ∧
      ¬ BothFill (fun _ => 0) 64 0 128 1 0x100000000 ∧
      ¬ BothFill (fun _ => 0) 64 0 128 16 0x100000000 := by
  refine ⟨fun h => ?_, fun h => ?_, fun h => ?_⟩
  · exact absurd ((usmFill_iff (by decide) (by decide) (by decide) (by decide)).mp h.2) (by decide)
  · exact absurd ((memBufferFill_iff 64 0 (by decide) (by decide)).mp h.1) (by decide)
  · exact absurd ((usmFill_iff (by decide) (by decide) (by decide) (by decide)).mp h.2) (by decide)

end UnifiedRuntime.NativeCpu.Fill
