import UnifiedRuntime.Lib.NarrowLoop
import UnifiedRuntime.Lib.StridedFill

/-!
# Fills of the CUDA adapter

The driver sets words of 1, 2 or 4 bytes only. `commonMemSetLargePattern` takes the largest word
that divides the pattern, sets the whole range to the first word and then, with a pitch of one
pattern, each of the others.

A driver call that fails throws; the calls here are those of a driver that takes all.

- `largePattern_filled`: whole patterns are written as far as they fit, and words behind them.
- `fillBySize_filled`: so it is with the direct calls for patterns of one word.
-/

namespace UnifiedRuntime.Cuda

open PatternFill

/-! ## The driver -/

/-- `cuMemsetD8Async`, `cuMemsetD16Async`, `cuMemsetD32Async` and their `D2D` forms, by the size of
the words. -/
inductive Memset where
  | d (wordSize : UInt32) (dst : UInt64) (value : Nat) (n : UInt64)
  | d2D (wordSize : UInt32) (dst pitch : UInt64) (value : Nat) (width height : UInt64)

def Memset.run : Memset → Bytes → Bytes
  | .d wordSize dst value n =>
    set (fun o => byteOf value (o % wordSize.toNat)) dst (n.toNat * wordSize.toNat)
  | .d2D wordSize dst pitch value width height =>
    setRows (fun o => byteOf value (o % wordSize.toNat)) dst pitch.toNat
      (width.toNat * wordSize.toNat) height.toNat

/-- The memory after the calls. -/
def runAll (calls : List Memset) (mem : Bytes) : Bytes :=
  calls.foldl (fun mem call => call.run mem) mem

/-! ## The functions -/

/-- The largest supported word size into which the pattern can be divided. -/
def backendWordSize (patternSize : UInt32) : UInt32 :=
  if patternSize % 4 = 0 then 4 else if patternSize % 2 = 0 then 2 else 1

/-- `*(pPatternWords + Step)`. -/
def patternWord (pattern : Nat → UInt8) (wordSize : UInt32) (step : Nat) : Nat :=
  word pattern (step * wordSize.toNat) wordSize.toNat

/-- Is the first word repeated throughout? -/
def useOnlyFirstValue (pattern : Nat → UInt8) (wordSize numberOfSteps : UInt32) : Bool :=
  (List.range' 1 (numberOfSteps.toNat - 1)).all fun step =>
    patternWord pattern wordSize step == patternWord pattern wordSize 0

/-- `commonMemSetLargePattern`; a pattern of no bytes is divided by. -/
def commonMemSetLargePattern (patternSize : UInt32) (size : UInt64) (pPattern : Nat → UInt8)
    (ptr : UInt64) : Except Stop (List Memset) :=
  if patternSize = 0 then .error .fault
  else
    let wordSize := backendWordSize patternSize
    let numberOfSteps := patternSize / wordSize
    let pitch := numberOfSteps * wordSize
    let height := size / patternSize.toUInt64
    let optimizedNumberOfSteps :=
      if useOnlyFirstValue pPattern wordSize numberOfSteps then 1 else numberOfSteps
    .ok ((List.range optimizedNumberOfSteps.toNat).map fun step =>
      if step = 0 then
        .d wordSize ptr (patternWord pPattern wordSize 0) (size / wordSize.toUInt64)
      else
        .d2D wordSize (ptr + (UInt32.ofNat step * wordSize).toUInt64) pitch.toUInt64
          (patternWord pPattern wordSize step) 1 height)

/-- The `switch` on the size of the pattern in `urEnqueueMemBufferFill` and `urEnqueueUSMFill`. A
larger pattern size is cut to 32 bits. -/
def fillBySize (patternSize size : UInt64) (pPattern : Nat → UInt8) (ptr : UInt64) :
    Except Stop (List Memset) :=
  if patternSize = 0 then .error .fault
  else
    let n := size / patternSize
    if patternSize = 1 then .ok [.d 1 ptr (word pPattern 0 1) n]
    else if patternSize = 2 then .ok [.d 2 ptr (word pPattern 0 2) n]
    else if patternSize = 4 then .ok [.d 4 ptr (word pPattern 0 4) n]
    else commonMemSetLargePattern patternSize.toUInt32 size pPattern ptr

/-! ## Steps -/

variable {pattern : Nat → UInt8} {ptr a : UInt64} {patternSize : UInt32} {size : UInt64}
  {mem : Bytes}

/-- The word size divides the pattern. -/
theorem backendWordSize_spec (patternSize : UInt32) :
    0 < (backendWordSize patternSize).toNat ∧ (backendWordSize patternSize).toNat ≤ 4 ∧
      (backendWordSize patternSize).toNat ∣ patternSize.toNat := by
  unfold backendWordSize
  have hmod : ∀ w : UInt32, patternSize % w = 0 → w.toNat ∣ patternSize.toNat := by
    intro w h
    have := congrArg UInt32.toNat h
    exact Nat.dvd_of_mod_eq_zero this
  split
  next h => exact ⟨by decide, by decide, hmod 4 h⟩
  next =>
    split
    next h => exact ⟨by decide, by decide, hmod 2 h⟩
    next => exact ⟨by decide, by decide, one_dvd _⟩

/-- The first word again and again. -/
theorem run_continuous {wordSize : UInt32} (hpos : 0 < wordSize.toNat) (ptr : UInt64) (n : UInt64) :
    (Memset.d wordSize ptr (patternWord pattern wordSize 0) n).run mem =
      set (fun o => pattern (o % wordSize.toNat)) ptr (n.toNat * wordSize.toNat) mem := by
  unfold Memset.run
  refine set_congr fun o _ => ?_
  unfold patternWord
  rw [byteOf_word (Nat.mod_lt o hpos), Nat.zero_mul, Nat.zero_add]

/-- When all words are the first, a byte is that of the first word. -/
theorem useOnlyFirstValue_iff {wordSize numberOfSteps : UInt32} (hpos : 0 < wordSize.toNat) :
    useOnlyFirstValue pattern wordSize numberOfSteps = true ↔
      ∀ r < numberOfSteps.toNat * wordSize.toNat, pattern r = pattern (r % wordSize.toNat) := by
  unfold useOnlyFirstValue
  rw [List.all_eq_true]
  constructor
  · intro h r hr
    have hstep : r / wordSize.toNat < numberOfSteps.toNat := (Nat.div_lt_iff_lt_mul hpos).mpr hr
    have hsplit := Nat.div_add_mod' r wordSize.toNat
    generalize r / wordSize.toNat = q at hstep hsplit
    by_cases hzero : q = 0
    · rw [hzero, Nat.zero_mul, Nat.zero_add] at hsplit
      rw [hsplit]
    · have hword := beq_iff_eq.mp (h q (List.mem_range'_1.mpr ⟨by omega, by omega⟩))
      have hbyte := word_eq_iff.mp hword (r % wordSize.toNat) (Nat.mod_lt r hpos)
      rwa [hsplit, Nat.zero_mul, Nat.zero_add] at hbyte
  · intro h step hstep
    obtain ⟨hone, hstep⟩ := List.mem_range'_1.mp hstep
    refine beq_iff_eq.mpr (word_eq_iff.mpr fun i hi => ?_)
    have hlt : step * wordSize.toNat + i < numberOfSteps.toNat * wordSize.toNat := by
      have hmul : (step + 1) * wordSize.toNat ≤ numberOfSteps.toNat * wordSize.toNat :=
        Nat.mul_le_mul_right _ (by omega)
      rw [Nat.succ_mul] at hmul
      omega
    rw [h _ hlt, Nat.mul_add_mod_self_right, Nat.mod_eq_of_lt hi, Nat.zero_mul, Nat.zero_add]

/-- One of the other words, in each row. -/
theorem run_strided {wordSize numberOfSteps : UInt32} {step : Nat} {pitch height : UInt64}
    (hstep : step < numberOfSteps.toNat)
    (hfit : numberOfSteps.toNat * wordSize.toNat < 2 ^ 32) :
    (Memset.d2D wordSize (ptr + (UInt32.ofNat step * wordSize).toUInt64) pitch
        (patternWord pattern wordSize step) 1 height).run mem =
      setRows (fun i => pattern (step * wordSize.toNat + i))
        (ptr + UInt64.ofNat (step * wordSize.toNat)) pitch.toNat wordSize.toNat height.toNat mem := by
  have hmul : (step + 1) * wordSize.toNat ≤ numberOfSteps.toNat * wordSize.toNat :=
    Nat.mul_le_mul_right _ hstep
  rw [Nat.succ_mul] at hmul
  have hlt := numberOfSteps.toNat_lt
  have hstep' : (UInt32.ofNat step).toNat = step := UInt32.toNat_ofNat_of_lt' (by
    show _ < 2 ^ 32
    omega)
  have hplace : (UInt32.ofNat step * wordSize).toUInt64 = UInt64.ofNat (step * wordSize.toNat) := by
    apply UInt64.toNat.inj
    rw [UInt32.toNat_toUInt64, UInt32.toNat_mul, hstep', UInt64.toNat_ofNat', Nat.mod_eq_of_lt (by omega), Nat.mod_eq_of_lt (by omega)]
  have hone : (1 : UInt64).toNat * wordSize.toNat = wordSize.toNat := Nat.one_mul _
  unfold Memset.run
  dsimp only
  rw [hplace, hone]
  refine setRows_congr fun i hi => ?_
  unfold patternWord
  rw [Nat.mod_eq_of_lt hi, byteOf_word hi]

/-- The first word over the range, and a column for each of the others. -/
theorem run_steps {wordSize numberOfSteps : UInt32} {n pitch height : UInt64}
    (hword : 0 < wordSize.toNat) (hsteps : 0 < numberOfSteps.toNat)
    (hfit : numberOfSteps.toNat * wordSize.toNat < 2 ^ 32) :
    runAll ((List.range numberOfSteps.toNat).map fun step =>
        if step = 0 then .d wordSize ptr (patternWord pattern wordSize 0) n
        else .d2D wordSize (ptr + (UInt32.ofNat step * wordSize).toUInt64) pitch
          (patternWord pattern wordSize step) 1 height) mem =
      setColumns pattern ptr pitch.toNat height.toNat
        (evenColumns wordSize.toNat wordSize.toNat (numberOfSteps.toNat - 1))
        (set (fun o => pattern (o % wordSize.toNat)) ptr (n.toNat * wordSize.toNat) mem) := by
  obtain ⟨m, hm⟩ : ∃ m, numberOfSteps.toNat = m + 1 := ⟨_, (Nat.succ_pred_eq_of_pos hsteps).symm⟩
  unfold runAll setColumns evenColumns
  rw [hm, List.range_succ_eq_map, List.map_cons, List.foldl_cons, if_pos rfl, run_continuous hword,
    List.map_map, List.foldl_map, List.foldl_map]
  refine List.foldl_ext _ _ _ fun mem s hs => ?_
  have hs' : s + 1 < numberOfSteps.toNat := by
    have := List.mem_range.mp hs
    omega
  have hplace : wordSize.toNat + s * wordSize.toNat = (s + 1) * wordSize.toNat := by
    rw [Nat.succ_mul, Nat.add_comm]
  rw [hplace]
  exact run_strided hs' hfit

/-- **The calls write whole patterns**: all words are the same, or the others have their columns.
Behind the last pattern words go on. -/
theorem largePattern_filled (size : UInt64) (pattern : Nat → UInt8) (ptr : UInt64)
    (hpos : patternSize ≠ 0) :
    ∃ calls, commonMemSetLargePattern patternSize size pattern ptr = .ok calls ∧
      Filled pattern ptr patternSize.toNat (backendWordSize patternSize).toNat size.toNat
        (runAll calls) := by
  obtain ⟨hword, -, hdvd⟩ := backendWordSize_spec patternSize
  have hsteps : (patternSize / backendWordSize patternSize).toNat *
      (backendWordSize patternSize).toNat = patternSize.toNat := by
    exact Nat.div_mul_cancel hdvd
  have hP : 0 < patternSize.toNat := Nat.pos_of_ne_zero fun h => hpos (UInt32.toNat_inj.mp h)
  unfold commonMemSetLargePattern
  rw [if_neg hpos]
  refine ⟨_, rfl, ?_⟩
  generalize backendWordSize patternSize = wordSize at *
  generalize patternSize / wordSize = numberOfSteps at *
  have hlt := patternSize.toNat_lt
  have hn : 0 < numberOfSteps.toNat := Nat.pos_of_ne_zero fun h => by
    rw [h] at hsteps
    omega
  split
  next hfirst =>
    -- the shortcut
    have hsame := (useOnlyFirstValue_iff hword).mp hfirst
    rw [hsteps] at hsame
    intro mem a
    show (Memset.d wordSize ptr (patternWord pattern wordSize 0)
      (size / wordSize.toUInt64)).run mem a = _
    rw [run_continuous hword]
    exact set_filled hdvd hP hsame mem a
  next =>
    have hpitch : (numberOfSteps * wordSize).toUInt64.toNat = patternSize.toNat := by
      rw [UInt32.toNat_toUInt64, UInt32.toNat_mul, hsteps, Nat.mod_eq_of_lt hlt]
    have hcolumns : patternSize.toNat =
        wordSize.toNat + (numberOfSteps.toNat - 1) * wordSize.toNat := by
      rw [← hsteps, Nat.sub_mul, Nat.one_mul, Nat.add_sub_cancel']
      exact Nat.le_mul_of_pos_left _ hn
    intro mem a
    rw [run_steps hword hn (by omega), hpitch]
    exact columns_filled hword hcolumns hdvd hP (Nat.le_of_lt size.toNat_lt) mem a

/-- **A direct call writes a pattern of one word.** -/
theorem direct_filled (pattern : Nat → UInt8) (ptr : UInt64) {wordSize : UInt32} {n : UInt64}
    (hword : 0 < wordSize.toNat) (hn : n.toNat = size.toNat / wordSize.toNat) :
    Filled pattern ptr wordSize.toNat wordSize.toNat size.toNat
      (runAll [.d wordSize ptr (word pattern 0 wordSize.toNat) n]) := by
  intro mem a
  have hword' : word pattern 0 wordSize.toNat = patternWord pattern wordSize 0 := by
    unfold patternWord
    rw [Nat.zero_mul]
  show (Memset.d wordSize ptr (word pattern 0 wordSize.toNat) n).run mem a = _
  rw [hword', run_continuous hword, hn]
  exact set_filled dvd_rfl hword (fun r hr => by rw [Nat.mod_eq_of_lt hr]) mem a

/-- **Patterns of any size that fits 32 bits.** -/
theorem fillBySize_filled {patternSize : UInt64} (size : UInt64) (pattern : Nat → UInt8)
    (ptr : UInt64) (hpos : patternSize ≠ 0) (hlt : patternSize.toNat < 2 ^ 32) :
    ∃ calls, fillBySize patternSize size pattern ptr = .ok calls ∧
      Filled pattern ptr patternSize.toNat (backendWordSize patternSize.toUInt32).toNat size.toNat
        (runAll calls) := by
  have hdirect : ∀ wordSize : UInt32, 0 < wordSize.toNat → patternSize.toNat = wordSize.toNat →
      backendWordSize patternSize.toUInt32 = wordSize →
      Filled pattern ptr patternSize.toNat (backendWordSize patternSize.toUInt32).toNat size.toNat
        (runAll [.d wordSize ptr (word pattern 0 wordSize.toNat) (size / patternSize)]) := by
    intro wordSize hword heq hbackend
    rw [hbackend, heq]
    refine direct_filled pattern ptr hword ?_
    rw [UInt64.toNat_div, heq]
  unfold fillBySize
  rw [if_neg hpos]
  split
  next h =>
    exact ⟨_, rfl, hdirect 1 (by decide) (by rw [h]; rfl) (by rw [h]; decide)⟩
  next =>
    split
    next h =>
      exact ⟨_, rfl, hdirect 2 (by decide) (by rw [h]; rfl) (by rw [h]; decide)⟩
    next =>
      split
      next h =>
        exact ⟨_, rfl, hdirect 4 (by decide) (by rw [h]; rfl) (by rw [h]; decide)⟩
      next =>
        have hcut : patternSize.toUInt32.toNat = patternSize.toNat := by
          rw [UInt64.toNat_toUInt32, Nat.mod_eq_of_lt hlt]
        have hpos' : patternSize.toUInt32 ≠ 0 := by
          intro h
          have hzero := congrArg UInt32.toNat h
          rw [hcut] at hzero
          exact hpos (UInt64.toNat_inj.mp hzero)
        obtain ⟨calls, hcalls, hfilled⟩ := largePattern_filled size pattern ptr hpos'
        rw [hcut] at hfilled
        exact ⟨calls, hcalls, hfilled⟩

end UnifiedRuntime.Cuda
