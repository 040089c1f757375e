import UnifiedRuntime.Cuda.LargePattern

/-!
# Fills of the HIP adapter

The word size and the check for a repeated first word are those of the CUDA adapter. The rest of
the pattern is set byte by byte, with a pitch of one pattern. Before ROCm 6 strided sets are not
right on pinned host memory, where the rest of the pattern is copied once for each repetition; the
counter of these copies and the offset that comes from it have 32 bits.

- `remain_run`: byte by byte the pattern is repeated.
- `copies_iff`: copy by copy it is if the last copy starts below 4 GiB.
- `largePatternFills_iff`: both adapters.
-/

namespace UnifiedRuntime.Hip

open PatternFill
open Cuda (backendWordSize patternWord useOnlyFirstValue)

/-! ## The driver -/

/-- `hipMemsetD8Async`, `hipMemsetD16Async` and `hipMemsetD32Async` by the size of the words,
`hipMemset2DAsync`, and `hipMemcpyAsync` from the pattern. -/
inductive Call where
  | d (wordSize : UInt32) (dst : UInt64) (value : Nat) (n : UInt64)
  | memset2D (dst pitch : UInt64) (value : UInt8) (width height : UInt64)
  | memcpy (dst : UInt64) (offset sizeBytes : UInt32)

def Call.run (pattern : Nat → UInt8) : Call → Bytes → Bytes
  | .d wordSize dst value n =>
    set (fun o => byteOf value (o % wordSize.toNat)) dst (n.toNat * wordSize.toNat)
  | .memset2D dst pitch value width height =>
    setRows (fun _ => value) dst pitch.toNat width.toNat height.toNat
  | .memcpy dst offset sizeBytes => set (fun o => pattern (offset.toNat + o)) dst sizeBytes.toNat

theorem Call.memcpy_run (pattern : Nat → UInt8) (dst : UInt64) (offset sizeBytes : UInt32)
    (mem : Bytes) : (Call.memcpy dst offset sizeBytes).run pattern mem =
      set (fun o => pattern (offset.toNat + o)) dst sizeBytes.toNat mem := rfl

/-- The memory after the calls. -/
def runAll (pattern : Nat → UInt8) (calls : List Call) (mem : Bytes) : Bytes :=
  calls.foldl (fun mem call => call.run pattern mem) mem

/-! ## The functions -/

def memsetRemainPattern (patternSize : UInt32) (size : UInt64) (pPattern : Nat → UInt8)
    (ptr : UInt64) (startOffset : UInt32) : List Call :=
  let height := size / patternSize.toUInt64
  (List.range' startOffset.toNat (patternSize.toNat - startOffset.toNat)).map fun step =>
    .memset2D (ptr + (UInt32.ofNat step).toUInt64) patternSize.toUInt64 (pPattern step) 1 height

/-- `commonMemSetLargePattern`. `copies` says that ROCm is before 6 and the memory is pinned host
memory. -/
def commonMemSetLargePattern (copies : Bool) (patternSize : UInt32) (size : UInt64)
    (pPattern : Nat → UInt8) (ptr : UInt64) (fuel : Nat) : Except Stop (List Call) :=
  if patternSize = 0 then .error .fault
  else
    let wordSize := backendWordSize patternSize
    let numberOfSteps := patternSize / wordSize
    let first := Call.d wordSize ptr (patternWord pPattern wordSize 0) (size / wordSize.toUInt64)
    if useOnlyFirstValue pPattern wordSize numberOfSteps then .ok [first]
    else if copies then
      let numOfCopySteps := size / patternSize.toUInt64
      let leftPatternSize := patternSize - wordSize
      (narrowFor (fun i => .ok [.memcpy (ptr + wordSize.toUInt64 + (i * patternSize).toUInt64)
        wordSize leftPatternSize]) numOfCopySteps fuel).map fun rest => first :: rest
    else .ok (first :: memsetRemainPattern patternSize size pPattern ptr wordSize)

/-- The `switch` on the size of the pattern in `urEnqueueMemBufferFill` and `urEnqueueUSMFill`. A
larger pattern size is cut to 32 bits. -/
def fillBySize (copies : Bool) (patternSize size : UInt64) (pPattern : Nat → UInt8) (ptr : UInt64)
    (fuel : Nat) : Except Stop (List Call) :=
  if patternSize = 0 then .error .fault
  else
    let n := size / patternSize
    if patternSize = 1 then .ok [.d 1 ptr (word pPattern 0 1) n]
    else if patternSize = 2 then .ok [.d 2 ptr (word pPattern 0 2) n]
    else if patternSize = 4 then .ok [.d 4 ptr (word pPattern 0 4) n]
    else commonMemSetLargePattern copies patternSize.toUInt32 size pPattern ptr fuel

/-! ## Fills with the pattern -/

/-- A fill ends, and it writes what is right. -/
structure Fills (pattern : Nat → UInt8) (right : (Bytes → Bytes) → Prop)
    (fill : Nat → Except Stop (List Call)) : Prop where
  ends : ∃ fuel calls, fill fuel = .ok calls
  writes : ∀ fuel calls, fill fuel = .ok calls → right (runAll pattern calls)

/-! ## Steps -/

variable {pattern : Nat → UInt8} {ptr a : UInt64} {patternSize wordSize : UInt32} {size : UInt64}
  {mem : Bytes}

/-- A fill that ends with certain calls. -/
theorem fills_of_calls {right : (Bytes → Bytes) → Prop} {fill : Nat → Except Stop (List Call)}
    {calls : List Call} (hends : ∃ fuel, fill fuel = .ok calls)
    (honly : ∀ fuel out, fill fuel = .ok out → out = calls) :
    Fills pattern right fill ↔ right (runAll pattern calls) := by
  constructor
  · intro h
    obtain ⟨fuel, hfill⟩ := hends
    exact h.writes fuel calls hfill
  · intro h
    obtain ⟨fuel, hfill⟩ := hends
    refine ⟨⟨fuel, calls, hfill⟩, fun fuel out hout => ?_⟩
    rw [honly fuel out hout]
    exact h

/-- The first word over the range, as the CUDA adapter has it. -/
theorem run_first (hword : 0 < wordSize.toNat) (n : UInt64) :
    (Call.d wordSize ptr (patternWord pattern wordSize 0) n).run pattern mem =
      set (fun o => pattern (o % wordSize.toNat)) ptr (n.toNat * wordSize.toNat) mem :=
  Cuda.run_continuous hword ptr n

/-- **The rest byte by byte** is a column for each byte. -/
theorem remain_run (hle : wordSize.toNat ≤ patternSize.toNat) :
    runAll pattern (memsetRemainPattern patternSize size pattern ptr wordSize) mem =
      setColumns pattern ptr patternSize.toNat (size.toNat / patternSize.toNat)
        (evenColumns wordSize.toNat 1 (patternSize.toNat - wordSize.toNat)) mem := by
  have hlt := patternSize.toNat_lt
  unfold runAll memsetRemainPattern setColumns evenColumns
  rw [List.foldl_map, List.foldl_map, List.range'_eq_map_range, List.foldl_map]
  refine List.foldl_ext _ _ _ fun mem s hs => ?_
  have hs' : s < patternSize.toNat - wordSize.toNat := List.mem_range.mp hs
  have hplace : (UInt32.ofNat (wordSize.toNat + s)).toUInt64 =
      UInt64.ofNat (wordSize.toNat + s) := by
    apply UInt64.toNat.inj
    rw [UInt32.toNat_toUInt64, UInt32.toNat_ofNat', UInt64.toNat_ofNat',
      Nat.mod_eq_of_lt (by omega), Nat.mod_eq_of_lt (by omega)]
  rw [hplace, Nat.mul_one]
  refine setRows_congr fun i hi => ?_
  have hi' : i < 1 := hi
  rw [Nat.lt_one_iff.mp hi', Nat.add_zero]

/-! ## Copies -/

/-- The copies, with the counter as it is. -/
def restCopies (ptr : UInt64) (patternSize wordSize : UInt32) (n : Nat) : List Call :=
  (List.range n).map fun k =>
    .memcpy (ptr + wordSize.toUInt64 + (UInt32.ofNat k * patternSize).toUInt64) wordSize
      (patternSize - wordSize)

/-- A copy is at the offset that the counter gives. -/
theorem copy_place (k : Nat) :
    ptr + wordSize.toUInt64 + (UInt32.ofNat k * patternSize).toUInt64 =
      ptr + UInt64.ofNat (wordSize.toNat + k * patternSize.toNat % 2 ^ 32) := by
  rw [UInt64.add_assoc]
  congr 1
  apply UInt64.toNat.inj
  rw [UInt64.toNat_add, UInt32.toNat_toUInt64, UInt32.toNat_toUInt64, UInt32.toNat_mul,
    UInt32.toNat_ofNat', UInt64.toNat_ofNat', Nat.mod_mul_mod]

/-- **Copies whose offsets do not wrap** are one column. -/
theorem copies_run {n : Nat} (hle : wordSize.toNat ≤ patternSize.toNat)
    (hfit : ∀ k < n, k * patternSize.toNat < 2 ^ 32) :
    runAll pattern (restCopies ptr patternSize wordSize n) mem =
      setColumns pattern ptr patternSize.toNat n
        (evenColumns wordSize.toNat (patternSize.toNat - wordSize.toNat) 1) mem := by
  have hleft : (patternSize - wordSize).toNat = patternSize.toNat - wordSize.toNat :=
    UInt32.toNat_sub_of_le _ _ (UInt32.le_iff_toNat_le.mpr hle)
  unfold runAll restCopies evenColumns
  rw [List.foldl_map]
  show _ = (List.range n).foldl _ mem
  refine List.foldl_ext _ _ _ fun mem k hk => ?_
  have hk' := hfit k (List.mem_range.mp hk)
  unfold Call.run
  dsimp only
  rw [copy_place, Nat.mod_eq_of_lt hk', hleft, Nat.zero_mul, Nat.add_zero, UInt64.ofNat_add,
    UInt64.add_assoc]

/-- A place that no copy reaches. -/
theorem copies_other {n : Nat} (hle : wordSize.toNat ≤ patternSize.toNat)
    (hout : ∀ k < n, (a - ptr).toNat < wordSize.toNat + k * patternSize.toNat % 2 ^ 32 ∨
      k * patternSize.toNat % 2 ^ 32 + patternSize.toNat ≤ (a - ptr).toNat) :
    runAll pattern (restCopies ptr patternSize wordSize n) mem a = mem a := by
  have hleft : (patternSize - wordSize).toNat = patternSize.toNat - wordSize.toNat :=
    UInt32.toNat_sub_of_le _ _ (UInt32.le_iff_toNat_le.mpr hle)
  induction n with
  | zero => rfl
  | succ n ih =>
    have hsplit : restCopies ptr patternSize wordSize (n + 1) = restCopies ptr patternSize wordSize n ++
        [.memcpy (ptr + wordSize.toUInt64 + (UInt32.ofNat n * patternSize).toUInt64) wordSize
          (patternSize - wordSize)] := by
      unfold restCopies
      rw [List.range_succ, List.map_append]
      rfl
    have hlast := hout n (Nat.lt_succ_self n)
    have hlt := patternSize.toNat_lt
    unfold runAll at ih ⊢
    rw [hsplit, List.foldl_append, List.foldl_cons, List.foldl_nil, Call.memcpy_run, copy_place,
      set_offset (by omega), if_neg (by omega)]
    exact ih fun k hk => hout k (Nat.lt_succ_of_lt hk)

/-- In the last repetition nothing is copied if its offset wraps. -/
theorem last_not_copied {p w n j k : Nat} (hp : p < 2 ^ 32) (hjp : j < p)
    (hn : 2 ^ 32 ≤ (n - 1) * p) (hk : k < n) :
    (n - 1) * p + j < w + k * p % 2 ^ 32 ∨ k * p % 2 ^ 32 + p ≤ (n - 1) * p + j := by
  have hkn : k * p ≤ (n - 1) * p := Nat.mul_le_mul_right p (by omega)
  by_cases hwrap : k * p < 2 ^ 32
  · -- an earlier repetition
    have hbefore : (k + 1) * p ≤ (n - 1) * p := by
      refine Nat.mul_le_mul_right p (Nat.succ_le_of_lt (Nat.lt_of_not_le fun hle => ?_))
      have := Nat.mul_le_mul_right p hle
      omega
    rw [Nat.succ_mul] at hbefore
    omega
  · omega

/-- **When the copies are right**: the offset of the last one does not wrap. -/
theorem copies_iff (hdvd : wordSize.toNat ∣ patternSize.toNat)
    (hother : ∃ j < patternSize.toNat, pattern j ≠ pattern (j % wordSize.toNat))
    {first : Call} (hfirst : ∀ mem, first.run pattern mem =
      set (fun o => pattern (o % wordSize.toNat)) ptr (size.toNat / wordSize.toNat * wordSize.toNat)
        mem) :
    Filled pattern ptr patternSize.toNat wordSize.toNat size.toNat (runAll pattern
        (first :: restCopies ptr patternSize wordSize (size.toNat / patternSize.toNat))) ↔
      size.toNat / patternSize.toNat * patternSize.toNat < 2 ^ 32 + patternSize.toNat := by
  obtain ⟨j, hj, hne⟩ := hother
  have hlt := patternSize.toNat_lt
  have hsize := size.toNat_lt
  have hP : 0 < patternSize.toNat := by omega
  have hle := Nat.le_of_dvd hP hdvd
  have hwords := @patterns_le_words size.toNat _ _ hdvd
  have hfloor := Nat.div_mul_le_self size.toNat wordSize.toNat
  have hwj : wordSize.toNat ≤ j := Nat.le_of_not_lt fun h => hne (by rw [Nat.mod_eq_of_lt h])
  have hrun : ∀ mem, runAll pattern
      (first :: restCopies ptr patternSize wordSize (size.toNat / patternSize.toNat)) mem =
        runAll pattern (restCopies ptr patternSize wordSize (size.toNat / patternSize.toNat))
          (set (fun o => pattern (o % wordSize.toNat)) ptr
            (size.toNat / wordSize.toNat * wordSize.toNat) mem) := by
    intro mem
    rw [← hfirst]
    rfl
  constructor
  · intro hfilled
    by_contra hge
    -- the byte of the last repetition that differs from the first word's
    have hsplit : (size.toNat / patternSize.toNat - 1) * patternSize.toNat + patternSize.toNat =
        size.toNat / patternSize.toNat * patternSize.toNat := by
      rw [← Nat.succ_mul, Nat.succ_eq_add_one, Nat.sub_add_cancel]
      exact Nat.pos_of_ne_zero fun h => by
        rw [h] at hge
        omega
    have hbytes := fun a => hfilled (fun _ => 0) a
    generalize size.toNat / patternSize.toNat = n at *
    obtain ⟨a, ha⟩ : ∃ a : UInt64, (a - ptr).toNat = (n - 1) * patternSize.toNat + j := by
      refine ⟨UInt64.ofNat ((n - 1) * patternSize.toNat + j) + ptr, ?_⟩
      rw [UInt64.add_sub_cancel, UInt64.toNat_ofNat', Nat.mod_eq_of_lt (by omega)]
    have hbyte := hbytes a
    rw [hrun, copies_other hle fun k hk => by
      rw [ha]
      exact last_not_copied hlt hj (by omega) hk] at hbyte
    unfold PatternFill.set at hbyte
    rw [ha, if_pos (by omega), if_pos (by omega), Nat.mul_add_mod_self_right,
      Nat.mod_eq_of_lt hj] at hbyte
    refine hne (hbyte.symm.trans ?_)
    dsimp only
    obtain ⟨m, hm⟩ := hdvd
    rw [hm, Nat.mul_left_comm, Nat.mul_add_mod]
  · intro hfit mem a
    have hbelow : ∀ k < size.toNat / patternSize.toNat, k * patternSize.toNat < 2 ^ 32 := by
      intro k hk
      have := Nat.mul_le_mul_right patternSize.toNat (Nat.succ_le_of_lt hk)
      rw [Nat.succ_mul] at this
      omega
    rw [hrun, copies_run hle hbelow]
    exact columns_filled (by omega) (by omega) hdvd hP (Nat.le_of_lt hsize) mem a

/-- **When the HIP adapter fills**: where copies are made, the offset of the last one fits. -/
theorem hipFills_iff {copies : Bool} (size : UInt64) (pattern : Nat → UInt8) (ptr : UInt64)
    (hpos : patternSize ≠ 0) :
    Fills pattern (Filled pattern ptr patternSize.toNat (backendWordSize patternSize).toNat
        size.toNat) (commonMemSetLargePattern copies patternSize size pattern ptr) ↔
      (copies = true → useOnlyFirstValue pattern (backendWordSize patternSize)
          (patternSize / backendWordSize patternSize) = false →
        size.toNat / patternSize.toNat * patternSize.toNat < 2 ^ 32 + patternSize.toNat) := by
  obtain ⟨hword, -, hdvd⟩ := Cuda.backendWordSize_spec patternSize
  have hsteps : (patternSize / backendWordSize patternSize).toNat *
      (backendWordSize patternSize).toNat = patternSize.toNat := by
    exact Nat.div_mul_cancel hdvd
  have hP : 0 < patternSize.toNat := Nat.pos_of_ne_zero fun h => hpos (UInt32.toNat_inj.mp h)
  have hsize := size.toNat_lt
  have hle := Nat.le_of_dvd hP hdvd
  have hrepeats := @Cuda.useOnlyFirstValue_iff pattern (backendWordSize patternSize)
    (patternSize / backendWordSize patternSize) hword
  rw [hsteps] at hrepeats
  have hn : (size / patternSize.toUInt64).toNat = size.toNat / patternSize.toNat := by
    rw [UInt64.toNat_div, UInt32.toNat_toUInt64]
  unfold commonMemSetLargePattern
  simp only [if_neg hpos]
  generalize backendWordSize patternSize = wordSize at *
  have hfirst : ∀ mem, (Call.d wordSize ptr (patternWord pattern wordSize 0)
      (size / wordSize.toUInt64)).run pattern mem =
        PatternFill.set (fun o => pattern (o % wordSize.toNat)) ptr
          (size.toNat / wordSize.toNat * wordSize.toNat) mem := by
    intro mem
    rw [run_first hword, UInt64.toNat_div, UInt32.toNat_toUInt64]
  cases hsame : useOnlyFirstValue pattern wordSize (patternSize / wordSize) with
  | true =>
    refine ⟨fun _ _ h => absurd h.symm Bool.false_ne_true, fun _ => ?_⟩
    refine (fills_of_calls ⟨0, rfl⟩ fun _ out h => (Except.ok.inj h).symm).mpr fun mem a => ?_
    show (Call.d _ _ _ _).run pattern mem a = _
    rw [hfirst]
    exact set_filled hdvd hP (hrepeats.mp hsame) mem a
  | false =>
    have hother : ∃ j < patternSize.toNat, pattern j ≠ pattern (j % wordSize.toNat) := by
      by_contra hall
      rw [hrepeats.mpr fun r hr => by_contra fun hne => hall ⟨r, hr, hne⟩] at hsame
      cases hsame
    cases copies with
    | true =>
      have hcopies := copies_iff hdvd hother hfirst
      have hcalls : ((List.range (size.toNat / patternSize.toNat)).flatMap fun k =>
          [Call.memcpy (ptr + wordSize.toUInt64 + (UInt32.ofNat k * patternSize).toUInt64) wordSize
            (patternSize - wordSize)]) =
          restCopies ptr patternSize wordSize (size.toNat / patternSize.toNat) :=
        List.map_eq_flatMap.symm
      simp only [if_true, true_implies]
      constructor
      · intro h
        obtain ⟨fuel, out, hout⟩ := h.ends
        have hfilled := h.writes fuel out hout
        obtain ⟨rest, hrest, rfl⟩ := except_map_ok hout
        obtain ⟨-, -, rfl⟩ := narrowFor_pure.mp hrest
        rw [hn, hcalls] at hfilled
        exact hcopies.mp hfilled
      · intro hfit
        -- the counter can count the copies
        have hcount : size.toNat / patternSize.toNat < 2 ^ 32 := by
          obtain ⟨j, hj, hne⟩ := hother
          have hlt := patternSize.toNat_lt
          have htwo : 2 ≤ patternSize.toNat := by
            by_contra hsmall
            refine hne ?_
            rw [show j = 0 by omega, Nat.zero_mod]
          have := Nat.mul_le_mul_left (size.toNat / patternSize.toNat) htwo
          omega
        refine (fills_of_calls ⟨size.toNat / patternSize.toNat + 1, ?_⟩ fun fuel out h => ?_).mpr
          (hcopies.mpr hfit)
        · rw [narrowFor_pure.mpr ⟨by rw [hn]; exact hcount, by omega, rfl⟩, hn, hcalls]
          rfl
        · obtain ⟨rest, hrest, rfl⟩ := except_map_ok h
          obtain ⟨-, -, rfl⟩ := narrowFor_pure.mp hrest
          rw [hn, hcalls]
    | false =>
      refine ⟨fun _ h => absurd h Bool.false_ne_true, fun _ => ?_⟩
      refine (fills_of_calls ⟨0, rfl⟩ fun _ out h => (Except.ok.inj h).symm).mpr fun mem a => ?_
      show runAll pattern (memsetRemainPattern patternSize size pattern ptr wordSize)
        ((Call.d _ _ _ _).run pattern mem) a = _
      rw [hfirst, remain_run hle]
      exact columns_filled Nat.one_pos (by omega) hdvd hP (Nat.le_of_lt hsize) mem a

/-- A size that is a multiple of the pattern's. -/
theorem fills_tiles_iff {copies : Bool} (pattern : Nat → UInt8) (ptr : UInt64)
    (hpos : patternSize ≠ 0) (hmul : size.toNat % patternSize.toNat = 0) :
    Fills pattern (Tiles pattern ptr patternSize.toNat size.toNat)
        (commonMemSetLargePattern copies patternSize size pattern ptr) ↔
      (copies = true → useOnlyFirstValue pattern (backendWordSize patternSize)
          (patternSize / backendWordSize patternSize) = false →
        size.toNat < 2 ^ 32 + patternSize.toNat) := by
  have hright : Filled pattern ptr patternSize.toNat (backendWordSize patternSize).toNat
      size.toNat = Tiles pattern ptr patternSize.toNat size.toNat :=
    funext fun write => propext (filled_iff_tiles hmul)
  have hiff := @hipFills_iff patternSize copies size pattern ptr hpos
  rw [hright, Nat.div_mul_cancel (Nat.dvd_of_mod_eq_zero hmul)] at hiff
  exact hiff

/-- A pattern of one word. -/
theorem direct_filled (pattern : Nat → UInt8) (ptr : UInt64) {n : UInt64}
    (hword : 0 < wordSize.toNat) (hn : n.toNat = size.toNat / wordSize.toNat) :
    Filled pattern ptr wordSize.toNat wordSize.toNat size.toNat
      (runAll pattern [.d wordSize ptr (word pattern 0 wordSize.toNat) n]) :=
  Cuda.direct_filled pattern ptr hword hn

/-- The words of a pattern of one word are all the first. -/
theorem oneWord_repeats {p : UInt64} (hp : p = 1 ∨ p = 2 ∨ p = 4) :
    backendWordSize p.toUInt32 = p.toUInt32 ∧ p.toUInt32.toNat = p.toNat ∧
      useOnlyFirstValue pattern p.toUInt32 (p.toUInt32 / p.toUInt32) = true := by
  rcases hp with rfl | rfl | rfl
  · exact ⟨by decide, by decide, rfl⟩
  · exact ⟨by decide, by decide, rfl⟩
  · exact ⟨by decide, by decide, rfl⟩

/-- **The queue's fill for patterns of any size that fits 32 bits.** -/
theorem fillBySize_iff {copies : Bool} {p : UInt64} (size : UInt64) (pattern : Nat → UInt8)
    (ptr : UInt64) (hpos : p ≠ 0) (hlt : p.toNat < 2 ^ 32) :
    Fills pattern (Filled pattern ptr p.toNat (backendWordSize p.toUInt32).toNat size.toNat)
        (fillBySize copies p size pattern ptr) ↔
      (copies = true → useOnlyFirstValue pattern (backendWordSize p.toUInt32)
          (p.toUInt32 / backendWordSize p.toUInt32) = false →
        size.toNat / p.toNat * p.toNat < 2 ^ 32 + p.toNat) := by
  have hcut : p.toUInt32.toNat = p.toNat := by
    rw [UInt64.toNat_toUInt32, Nat.mod_eq_of_lt hlt]
  have hdirect : ∀ wordSize : UInt32, (p = 1 ∨ p = 2 ∨ p = 4) → p.toUInt32 = wordSize →
      (∀ fuel, fillBySize copies p size pattern ptr fuel =
        .ok [.d wordSize ptr (word pattern 0 wordSize.toNat) (size / p)]) →
      (Fills pattern (Filled pattern ptr p.toNat (backendWordSize p.toUInt32).toNat size.toNat)
          (fillBySize copies p size pattern ptr) ↔
        (copies = true → useOnlyFirstValue pattern (backendWordSize p.toUInt32)
            (p.toUInt32 / backendWordSize p.toUInt32) = false →
          size.toNat / p.toNat * p.toNat < 2 ^ 32 + p.toNat)) := by
    intro wordSize hp hword hfill
    obtain ⟨hbackend, hsame, hrepeats⟩ := @oneWord_repeats pattern p hp
    have hpos' : 0 < wordSize.toNat := by
      rw [← hword, hcut]
      exact Nat.pos_of_ne_zero fun h => hpos (UInt64.toNat_inj.mp h)
    rw [hbackend, hrepeats, fills_of_calls ⟨0, hfill 0⟩ fun fuel out h =>
      (Except.ok.inj ((hfill fuel).symm.trans h)).symm, ← hcut, hword]
    refine ⟨fun _ _ h => absurd h.symm Bool.false_ne_true, fun _ => ?_⟩
    refine direct_filled pattern ptr hpos' ?_
    rw [UInt64.toNat_div, ← hcut, hword]
  by_cases hone : p = 1
  · exact hdirect 1 (.inl hone) (by rw [hone]; rfl) fun fuel => by rw [hone]; rfl
  by_cases htwo : p = 2
  · exact hdirect 2 (.inr (.inl htwo)) (by rw [htwo]; rfl) fun fuel => by rw [htwo]; rfl
  by_cases hfour : p = 4
  · exact hdirect 4 (.inr (.inr hfour)) (by rw [hfour]; rfl) fun fuel => by rw [hfour]; rfl
  have hpos' : p.toUInt32 ≠ 0 := by
    intro h
    have hzero := congrArg UInt32.toNat h
    rw [hcut] at hzero
    exact hpos (UInt64.toNat_inj.mp hzero)
  have hfill : fillBySize copies p size pattern ptr =
      commonMemSetLargePattern copies p.toUInt32 size pattern ptr := by
    funext fuel
    unfold fillBySize
    rw [if_neg hpos]
    rw [if_neg hone, if_neg htwo, if_neg hfour]
  have hiff := @hipFills_iff p.toUInt32 copies size pattern ptr hpos'
  rw [hcut] at hiff
  rw [hfill]
  exact hiff

/-! ## Both adapters -/

/-- **Queues of both adapters fill alike**, sizes that cut a pattern included. -/
theorem queueFills_same_iff (copies : Bool) {p : UInt64} (size : UInt64) (pattern : Nat → UInt8)
    (ptr : UInt64) (hpos : p ≠ 0) (hlt : p.toNat < 2 ^ 32) :
    (∃ calls, Cuda.fillBySize p size pattern ptr = .ok calls ∧
      Fills pattern (· = Cuda.runAll calls) (fillBySize copies p size pattern ptr)) ↔
      (copies = true → useOnlyFirstValue pattern (backendWordSize p.toUInt32)
          (p.toUInt32 / backendWordSize p.toUInt32) = false →
        size.toNat / p.toNat * p.toNat < 2 ^ 32 + p.toNat) := by
  obtain ⟨calls, hcalls, hcuda⟩ := Cuda.fillBySize_filled size pattern ptr hpos hlt
  rw [← fillBySize_iff size pattern ptr hpos hlt, hcalls]
  constructor
  · intro ⟨_, h, hsame⟩
    obtain rfl := Except.ok.inj h
    exact ⟨hsame.ends, fun fuel out hout => by rw [hsame.writes fuel out hout]; exact hcuda⟩
  · intro h
    refine ⟨calls, rfl, h.ends, fun fuel out hout => funext₂ fun mem a => ?_⟩
    rw [h.writes fuel out hout mem a, hcuda mem a]

theorem queueFills_same_five : ∃ calls, Cuda.fillBySize 3 5 UInt8.ofNat 0 = .ok calls ∧
    Fills UInt8.ofNat (· = Cuda.runAll calls) (fillBySize true 3 5 UInt8.ofNat 0) :=
  (queueFills_same_iff true 5 _ 0 (by decide) (by decide)).mpr fun _ _ => by decide

/-- **Large-pattern fills repeat the pattern**, on CUDA as direct calls do, and on HIP. -/
structure LargePatternFills (copies : Bool) (patternSize : UInt32) (size : UInt64)
    (pattern : Nat → UInt8) (ptr : UInt64) : Prop where
  cuda : ∃ calls, Cuda.commonMemSetLargePattern patternSize size pattern ptr = .ok calls ∧
    Tiles pattern ptr patternSize.toNat size.toNat (Cuda.runAll calls)
  /-- A pattern of one word that has the same bytes over the range. -/
  direct : ∀ wordSize : UInt64, wordSize = 1 ∨ wordSize = 2 ∨ wordSize = 4 →
    size.toNat % wordSize.toNat = 0 → ∀ word : Nat → UInt8,
      (∀ i < size.toNat, pattern (i % patternSize.toNat) = word (i % wordSize.toNat)) →
      ∃ calls directCalls, Cuda.commonMemSetLargePattern patternSize size pattern ptr = .ok calls ∧
        Cuda.fillBySize wordSize size word ptr = .ok directCalls ∧
        Cuda.runAll calls = Cuda.runAll directCalls
  hip : Fills pattern (Tiles pattern ptr patternSize.toNat size.toNat)
    (commonMemSetLargePattern copies patternSize size pattern ptr)

/-- **When large-pattern fills are right.** -/
theorem largePatternFills_iff (copies : Bool) (patternSize : UInt32) (size : UInt64)
    (pattern : Nat → UInt8) (ptr : UInt64) (hpos : patternSize ≠ 0)
    (hmul : size.toNat % patternSize.toNat = 0) :
    LargePatternFills copies patternSize size pattern ptr ↔
      (copies = true → useOnlyFirstValue pattern (backendWordSize patternSize)
          (patternSize / backendWordSize patternSize) = false →
        size.toNat < 2 ^ 32 + patternSize.toNat) := by
  rw [← fills_tiles_iff pattern ptr hpos hmul]
  refine ⟨fun h => h.hip, fun h => ?_⟩
  obtain ⟨calls, hcalls, hfilled⟩ := Cuda.largePattern_filled size pattern ptr hpos
  have htiles := (filled_iff_tiles hmul).mp hfilled
  refine ⟨⟨calls, hcalls, htiles⟩, fun wordSize hword hmul' word hsame => ?_, h⟩
  have hsmall : wordSize ≠ 0 ∧ wordSize.toNat < 2 ^ 32 := by
    rcases hword with rfl | rfl | rfl
    · exact ⟨by decide, by decide⟩
    · exact ⟨by decide, by decide⟩
    · exact ⟨by decide, by decide⟩
  obtain ⟨directCalls, hdirect, hfilled'⟩ :=
    Cuda.fillBySize_filled size word ptr hsmall.1 hsmall.2
  exact ⟨calls, directCalls, hcalls, hdirect,
    htiles.unique ((filled_iff_tiles hmul').mp hfilled') hsame⟩

theorem largePatternFills_three :
    LargePatternFills true 3 6 UInt8.ofNat 0 :=
  (largePatternFills_iff true 3 6 UInt8.ofNat 0 (by decide) (by decide)).mpr fun _ _ => by decide

/-- Four bytes of 0 and four of 1: the last copy goes to the start of the range. -/
theorem largePatternFills_wrong :
    ¬ LargePatternFills true 8 4294967304 (fun i => if i < 4 then 0 else 1) 0 := by
  intro h
  have hfit := (fills_tiles_iff _ 0 (by decide) (by decide)).mp h.hip rfl (by decide)
  exact absurd hfit (by decide)

end UnifiedRuntime.Hip
