import UnifiedRuntime.Lib.Str

/-!
# Kernel metadata (CUDA, HIP and native CPU)

A program comes with a list of named entries, some of which limit the work-group size of a kernel.
Three adapters decode them, each with its own checks: CUDA and HIP take any four to twelve bytes,
native CPU whole values only; HIP does not look at the maximum at all; and what is not given of a
maximum is 1 for CUDA and no limit for native CPU.

- `cuda_eq`, `hip_eq`, `native_eq`: what each decoder does with a list.
- `metadata_iff`: when they agree.
-/

namespace UnifiedRuntime.KernelMetadata

open Str

/-! ## Entries -/

/-- `splitMetadataName`: the name is cut at its last `@`. -/
def splitMetadataName (metadataName : Str) : Str × Str :=
  match metadataName.reverse.findIdx? (· == '@') with
  | none => (metadataName, [])
  | some fromEnd =>
    let splitPos := metadataName.length - 1 - fromEnd
    (substr metadataName 0 (some splitPos), substr metadataName splitPos none)

/-- `ur_program_metadata_t`: a value, or a pointer to `size` bytes. -/
structure Entry where
  name : Str
  size : UInt64
  data32 : UInt32
  data64 : UInt64
  pData : Nat → UInt8

def tagReqdWorkGroupSize : Str := "@reqd_work_group_size".toList

def tagGlobalIdMapping : Str := "@global_id_mapping".toList

def tagMaxWorkGroupSize : Str := "@max_work_group_size".toList

def tagMaxLinearWorkGroupSize : Str := "@max_linear_work_group_size".toList

def tagNeedFinalization : Str := "Requires finalization".toList

def Entry.kernel (e : Entry) : Str := (splitMetadataName e.name).1

def Entry.tag (e : Entry) : Str := (splitMetadataName e.name).2

/-- Why a list is rejected; `outOfRange` is a read outside an entry. -/
inductive Failure where
  | invalidWorkGroupSize
  | lengthError
  | outOfRange

/-! ## Values -/

/-- The size behind the eight bytes at the start, in unsigned arithmetic. -/
def Entry.elemsSize (e : Entry) : UInt64 := e.size - 8

/-- Some bytes behind the size prefix. -/
def Entry.read (e : Entry) (count : Nat) : Except Failure (List UInt8) :=
  if 8 + count ≤ e.size.toNat then .ok ((List.range count).map fun i => e.pData (8 + i))
  else .error .outOfRange

abbrev WGSize := Fin 3 → UInt32

def bytesOf (value : UInt32) : List UInt8 :=
  [value.toUInt8, (value >>> 8).toUInt8, (value >>> 16).toUInt8, (value >>> 24).toUInt8]

def valueOf (bytes : List UInt8) (index : Nat) : UInt32 :=
  let byte := fun i => (bytes.getD (4 * index + i) 0).toUInt32
  byte 0 ||| byte 1 <<< 8 ||| byte 2 <<< 16 ||| byte 3 <<< 24

/-- `std::memcpy` into three values that are `pad` before. -/
def copied (pad : UInt32) (bytes : List UInt8) : WGSize :=
  let before := bytesOf pad ++ bytesOf pad ++ bytesOf pad
  fun d => valueOf (bytes ++ before.drop bytes.length) d

/-! ## Decoders -/

def record {α : Type} (map : Str → Option α) (kernel : Str) (value : α) : Str → Option α :=
  Function.update map kernel (some value)

/-- What a program knows of its kernels. -/
structure Limits where
  reqd : Str → Option WGSize
  max : Str → Option WGSize
  maxLinear : Str → Option UInt64
  globalId : Str → Option (List UInt8)
  isRelocatable : Bool

def Limits.init : Limits :=
  { reqd := fun _ => none, max := fun _ => none, maxLinear := fun _ => none,
    globalId := fun _ => none, isRelocatable := false }

/-- `UR_ASSERT` of CUDA and HIP: between one and three values. -/
def Entry.between (e : Entry) : Bool := 4 ≤ e.elemsSize && e.elemsSize ≤ 4 * 3

/-- `UR_ASSERT` of native CPU. -/
def Entry.whole (e : Entry) : Bool :=
  e.elemsSize == 4 || e.elemsSize == 4 * 2 || e.elemsSize == 4 * 3

/-- `std::string{MetadataValPtr, MetadataValPtrEnd}`, which throws if the end is before the start. -/
def Entry.globalIdMapping (e : Entry) : Except Failure (List UInt8) :=
  if e.size < 8 then .error .lengthError else e.read e.elemsSize.toNat

/-- The values of an entry that passes a check, padded. -/
def Entry.decode (e : Entry) (valid : Bool) (pad : UInt32) : Except Failure WGSize :=
  if valid then (e.read e.elemsSize.toNat).map (copied pad) else .error .invalidWorkGroupSize

/-- One round of `setMetadata` of CUDA. -/
def cudaEntry (l : Limits) (e : Entry) : Except Failure Limits :=
  if e.tag = tagReqdWorkGroupSize ∨ e.tag = tagMaxWorkGroupSize then
    (e.decode e.between 1).map fun elements =>
      if e.tag = tagReqdWorkGroupSize then { l with reqd := record l.reqd e.kernel elements }
      else { l with max := record l.max e.kernel elements }
  else if e.tag = tagGlobalIdMapping then
    e.globalIdMapping.map fun mapping =>
      { l with globalId := record l.globalId e.kernel mapping }
  else if e.tag = tagMaxLinearWorkGroupSize then
    .ok { l with maxLinear := record l.maxLinear e.kernel e.data64 }
  else .ok l

/-- One round of `setMetadata` of HIP. -/
def hipEntry (l : Limits) (e : Entry) : Except Failure Limits :=
  if e.name = tagNeedFinalization then .ok { l with isRelocatable := e.data32 != 0 }
  else if e.tag = tagGlobalIdMapping then
    e.globalIdMapping.map fun mapping =>
      { l with globalId := record l.globalId e.kernel mapping }
  else if e.tag = tagReqdWorkGroupSize then
    (e.decode e.between 1).map fun elements =>
      { l with reqd := record l.reqd e.kernel elements }
  else .ok l

/-- `deserializeWGMetadata`. -/
def deserializeWGMetadata (e : Entry) (defaultVal : UInt32) : Except Failure WGSize :=
  e.decode e.whole defaultVal

/-- One round of the loop in `urProgramCreateWithBinary` of native CPU. -/
def nativeEntry (l : Limits) (e : Entry) : Except Failure Limits :=
  if e.tag = tagReqdWorkGroupSize ∨ e.tag = tagMaxWorkGroupSize then
    let isReqd : Bool := e.tag = tagReqdWorkGroupSize
    (deserializeWGMetadata e (if isReqd then 1 else 0xffffffff)).map fun wgSizeProp =>
      if isReqd then { l with reqd := record l.reqd e.kernel wgSizeProp }
      else { l with max := record l.max e.kernel wgSizeProp }
  else if e.tag = tagMaxLinearWorkGroupSize then
    .ok { l with maxLinear := record l.maxLinear e.kernel e.data64 }
  else .ok l

def cudaDecode (entries : List Entry) : Except Failure Limits := entries.foldlM cudaEntry .init

def hipDecode (entries : List Entry) : Except Failure Limits := entries.foldlM hipEntry .init

def nativeDecode (entries : List Entry) : Except Failure Limits := entries.foldlM nativeEntry .init

/-! ## Launches -/

/-- The product of a local size, in 64 bits. -/
def total (workDim : Nat) (localSize : Fin 3 → UInt64) : UInt64 :=
  (List.finRange 3).foldl (fun n d => if d.val < workDim then n * localSize d else n) 1

/-- What `setKernelParams` of CUDA checks a local size against; a kernel without metadata has 0. -/
def cudaAccepts (l : Limits) (kernel : Str) (workDim : Nat) (localSize : Fin 3 → UInt64) : Prop :=
  let reqd := (l.reqd kernel).getD fun _ => 0
  let max := (l.max kernel).getD fun _ => 0
  let maxLinear := (l.maxLinear kernel).getD 0
  (∀ d : Fin 3, d.val < workDim →
    ¬ (reqd d ≠ 0 ∧ localSize d ≠ (reqd d).toUInt64) ∧
      ¬ (max d ≠ 0 ∧ (max d).toUInt64 < localSize d)) ∧
    ¬ (maxLinear ≠ 0 ∧ maxLinear < total workDim localSize)

/-- What `urEnqueueKernelLaunch` of native CPU checks it against. -/
def nativeAccepts (l : Limits) (kernel : Str) (workDim : Nat) (localSize : Fin 3 → UInt64) : Prop :=
  (∀ d : Fin 3, d.val < workDim →
    (∀ reqd, l.reqd kernel = some reqd → ¬ localSize d ≠ (reqd d).toUInt64) ∧
      ∀ max, l.max kernel = some max → ¬ (max d).toUInt64 < localSize d) ∧
    ∀ maxLinear, l.maxLinear kernel = some maxLinear → ¬ maxLinear < total workDim localSize

/-! ## Metadata and limits -/

/-- The last entry for a kernel with a tag. -/
def lastEntry (entries : List Entry) (tag kernel : Str) : Option Entry :=
  (entries.filter fun e => e.tag = tag ∧ e.kernel = kernel).getLast?

/-- The values of an entry, as many as there are whole ones. -/
def Entry.values (e : Entry) : List UInt32 :=
  let bytes := (List.range e.elemsSize.toNat).map fun i => e.pData (8 + i)
  (List.range (e.elemsSize.toNat / 4)).map (valueOf bytes)

/-- The given values, and 1 for what is not given. -/
def Entry.padded (e : Entry) : WGSize := fun d => e.values.getD d 1

/-- **The decoders agree** on a list: they all reject it, or they have the same limits, which make
the same launches fail; and none reads outside an entry. -/
structure Agree (entries : List Entry) : Prop where
  inside : cudaDecode entries ≠ .error .outOfRange ∧ hipDecode entries ≠ .error .outOfRange ∧
    nativeDecode entries ≠ .error .outOfRange
  decoded : ((∃ e, cudaDecode entries = .error e) ∧ (∃ e, hipDecode entries = .error e) ∧
      ∃ e, nativeDecode entries = .error e) ∨
    ∃ cuda hip native, cudaDecode entries = .ok cuda ∧ hipDecode entries = .ok hip ∧
      nativeDecode entries = .ok native ∧
      (∀ kernel,
        cuda.reqd kernel = (lastEntry entries tagReqdWorkGroupSize kernel).map Entry.padded ∧
        hip.reqd kernel = cuda.reqd kernel ∧ native.reqd kernel = cuda.reqd kernel ∧
        native.max kernel = cuda.max kernel ∧ native.maxLinear kernel = cuda.maxLinear kernel) ∧
      ∀ kernel workDim localSize, 0 < workDim ∧ workDim ≤ 3 →
        (cudaAccepts cuda kernel workDim localSize ↔ nativeAccepts native kernel workDim localSize)

/-- CUDA rejects the list for an entry. -/
def Entry.cudaBad (e : Entry) : Bool :=
  (e.tag = tagReqdWorkGroupSize ∨ e.tag = tagMaxWorkGroupSize) ∧ e.between = false ∨
    e.tag = tagGlobalIdMapping ∧ e.size < 8

/-- HIP rejects the list for an entry. -/
def Entry.hipBad (e : Entry) : Bool :=
  e.tag = tagReqdWorkGroupSize ∧ e.between = false ∨ e.tag = tagGlobalIdMapping ∧ e.size < 8

/-- Native CPU rejects the list for an entry. -/
def Entry.nativeBad (e : Entry) : Bool :=
  (e.tag = tagReqdWorkGroupSize ∨ e.tag = tagMaxWorkGroupSize) ∧ e.whole = false

/-- A local size keeps those limits of a kernel that count. -/
def Within (counts : UInt64 → Prop) (reqd max : Option WGSize) (maxLinear : Option UInt64)
    (workDim : Nat) (localSize : Fin 3 → UInt64) : Prop :=
  (∀ d : Fin 3, d.val < workDim →
    (∀ r, reqd = some r → counts (r d).toUInt64 → localSize d = (r d).toUInt64) ∧
      ∀ m, max = some m → counts (m d).toUInt64 → localSize d ≤ (m d).toUInt64) ∧
    ∀ n, maxLinear = some n → counts n → total workDim localSize ≤ n

/-- A limit of 0 makes no difference: what keeps the other limits keeps those as well. -/
def ZeroFree (entries : List Entry) (kernel : Str) : Prop :=
  let reqd := (lastEntry entries tagReqdWorkGroupSize kernel).map Entry.padded
  let max := (lastEntry entries tagMaxWorkGroupSize kernel).map Entry.padded
  let maxLinear := (lastEntry entries tagMaxLinearWorkGroupSize kernel).map Entry.data64
  ∀ workDim localSize, 0 < workDim ∧ workDim ≤ 3 →
    Within (· ≠ 0) reqd max maxLinear workDim localSize →
      Within (fun _ => True) reqd max maxLinear workDim localSize

/-- All reject the list, each for some entry; or none does, all maxima that stay in force are given
in three dimensions, and no limit is 0 where that would matter. -/
def Careful (entries : List Entry) : Prop :=
  ((∃ e ∈ entries, e.hipBad = true) ∧ ∃ e ∈ entries, e.nativeBad = true) ∨
    (∀ e ∈ entries, e.cudaBad = false ∧ e.nativeBad = false) ∧
      (∀ kernel e, lastEntry entries tagMaxWorkGroupSize kernel = some e → e.size = 20) ∧
      ∀ kernel, ZeroFree entries kernel

/-! ## Sizes and reads -/

variable {e : Entry} {l : Limits} {entries : List Entry} {kernel : Str}

def Entry.bytes (e : Entry) : List UInt8 :=
  (List.range e.elemsSize.toNat).map fun i => e.pData (8 + i)

theorem elemsSize_toNat (h : 8 ≤ e.size.toNat) : e.elemsSize.toNat = e.size.toNat - 8 := by
  have h8 : (8 : UInt64).toNat = 8 := rfl
  rw [Entry.elemsSize, UInt64.toNat_sub_of_le _ _ (UInt64.le_iff_toNat_le.2 (by omega)), h8]

/-- A size below the prefix wraps around to a large one. -/
theorem size_of_elemsSize (h : e.elemsSize.toNat ≤ 12) : 8 ≤ e.size.toNat := by
  by_contra hlt
  have h8 : (8 : UInt64).toNat = 8 := rfl
  rw [Entry.elemsSize, UInt64.toNat_sub] at h
  omega

theorem between_iff : e.between = true ↔ 4 ≤ e.elemsSize.toNat ∧ e.elemsSize.toNat ≤ 12 := by
  simp [Entry.between, UInt64.le_iff_toNat_le]

theorem whole_iff : e.whole = true ↔
    e.elemsSize.toNat = 4 ∨ e.elemsSize.toNat = 8 ∨ e.elemsSize.toNat = 12 := by
  simp [Entry.whole, ← UInt64.toNat_inj, or_assoc]

theorem read_bytes (h : 8 ≤ e.size.toNat) : e.read e.elemsSize.toNat = .ok e.bytes := by
  have hsize := elemsSize_toNat h
  exact if_pos (by omega)

theorem read_between (h : e.between = true) : e.read e.elemsSize.toNat = .ok e.bytes :=
  read_bytes (size_of_elemsSize (between_iff.1 h).2)

theorem between_of_whole (h : e.whole = true) : e.between = true := by
  have hwhole := whole_iff.1 h
  exact between_iff.2 (by omega)

theorem globalIdMapping_eq : e.globalIdMapping =
    if e.size < 8 then .error .lengthError else .ok e.bytes := by
  unfold Entry.globalIdMapping
  split
  · rfl
  · next h => exact read_bytes (UInt64.le_iff_toNat_le.1 (UInt64.not_lt.1 h))

/-! ## One entry -/

theorem tags_ne : tagReqdWorkGroupSize ≠ tagGlobalIdMapping ∧
    tagMaxWorkGroupSize ≠ tagGlobalIdMapping ∧ tagReqdWorkGroupSize ≠ tagMaxWorkGroupSize ∧
    tagMaxLinearWorkGroupSize ≠ tagReqdWorkGroupSize ∧
    tagMaxLinearWorkGroupSize ≠ tagMaxWorkGroupSize ∧
    tagMaxLinearWorkGroupSize ≠ tagGlobalIdMapping := by
  decide

theorem tag_needFinalization (h : e.name = tagNeedFinalization) : e.tag = [] := by
  rw [Entry.tag, h]
  decide

theorem decode_eq {valid : Bool} (pad : UInt32) (hvalid : valid = true → e.between = true) :
    e.decode valid pad =
      if valid then .ok (copied pad e.bytes) else .error .invalidWorkGroupSize := by
  unfold Entry.decode
  split
  · next h =>
    rw [read_between (hvalid h)]
    rfl
  · rfl

/-- What CUDA has after an entry that it takes. -/
def cudaNext (l : Limits) (e : Entry) : Limits :=
  if e.tag = tagReqdWorkGroupSize then
    { l with reqd := record l.reqd e.kernel (copied 1 e.bytes) }
  else if e.tag = tagMaxWorkGroupSize then
    { l with max := record l.max e.kernel (copied 1 e.bytes) }
  else if e.tag = tagGlobalIdMapping then
    { l with globalId := record l.globalId e.kernel e.bytes }
  else if e.tag = tagMaxLinearWorkGroupSize then
    { l with maxLinear := record l.maxLinear e.kernel e.data64 }
  else l

/-- What HIP has after an entry that it takes. -/
def hipNext (l : Limits) (e : Entry) : Limits :=
  if e.name = tagNeedFinalization then { l with isRelocatable := e.data32 != 0 }
  else if e.tag = tagGlobalIdMapping then
    { l with globalId := record l.globalId e.kernel e.bytes }
  else if e.tag = tagReqdWorkGroupSize then
    { l with reqd := record l.reqd e.kernel (copied 1 e.bytes) }
  else l

/-- What native CPU has after an entry that it takes. -/
def nativeNext (l : Limits) (e : Entry) : Limits :=
  if e.tag = tagReqdWorkGroupSize then
    { l with reqd := record l.reqd e.kernel (copied 1 e.bytes) }
  else if e.tag = tagMaxWorkGroupSize then
    { l with max := record l.max e.kernel (copied 0xffffffff e.bytes) }
  else if e.tag = tagMaxLinearWorkGroupSize then
    { l with maxLinear := record l.maxLinear e.kernel e.data64 }
  else l

/-- An entry with a bad mapping throws, one with a bad size has an error. -/
def Entry.failure (e : Entry) : Failure :=
  if e.tag = tagGlobalIdMapping then .lengthError else .invalidWorkGroupSize

theorem cudaEntry_eq (l : Limits) (e : Entry) :
    cudaEntry l e = if e.cudaBad then .error e.failure else .ok (cudaNext l e) := by
  obtain ⟨hreqd, hmax, hne, hlinear, hlinear', hlinear''⟩ := tags_ne
  unfold cudaEntry Entry.cudaBad Entry.failure cudaNext
  rw [decode_eq 1 id, globalIdMapping_eq]
  by_cases htag : e.tag = tagReqdWorkGroupSize
  · cases hbetween : e.between <;> simp [htag, hreqd, Except.map]
  · by_cases htag' : e.tag = tagMaxWorkGroupSize
    · cases hbetween : e.between <;> simp [htag', hmax, hne.symm, Except.map]
    · by_cases hgid : e.tag = tagGlobalIdMapping
      · by_cases hshort : e.size < 8 <;>
          simp [hgid, hreqd.symm, hmax.symm, hshort, Except.map]
      · simp [htag, htag', hgid]
        split <;> rfl

theorem hipEntry_eq (l : Limits) (e : Entry) :
    hipEntry l e = if e.hipBad then .error e.failure else .ok (hipNext l e) := by
  obtain ⟨hreqd, -⟩ := tags_ne
  unfold hipEntry Entry.hipBad Entry.failure hipNext
  rw [decode_eq 1 id, globalIdMapping_eq]
  by_cases hname : e.name = tagNeedFinalization
  · have htag := tag_needFinalization hname
    have hnil : ([] : Str) ≠ tagReqdWorkGroupSize ∧ ([] : Str) ≠ tagGlobalIdMapping := by decide
    simp [hname, htag, hnil]
  · by_cases hgid : e.tag = tagGlobalIdMapping
    · by_cases hshort : e.size < 8 <;> simp [hname, hgid, hreqd.symm, hshort, Except.map]
    · by_cases htag : e.tag = tagReqdWorkGroupSize
      · cases hbetween : e.between <;> simp [hname, htag, hreqd, Except.map]
      · simp [hname, hgid, htag]

theorem nativeEntry_eq (l : Limits) (e : Entry) :
    nativeEntry l e = if e.nativeBad then .error e.failure else .ok (nativeNext l e) := by
  obtain ⟨hreqd, hmax, hne, -⟩ := tags_ne
  unfold nativeEntry Entry.nativeBad Entry.failure nativeNext deserializeWGMetadata
  simp only [decode_eq _ (between_of_whole (e := e))]
  by_cases htag : e.tag = tagReqdWorkGroupSize
  · cases hwhole : e.whole <;> simp [htag, hreqd, Except.map]
  · by_cases htag' : e.tag = tagMaxWorkGroupSize
    · cases hwhole : e.whole <;> simp [htag', hmax, hne.symm, Except.map]
    · simp [htag, htag']
      split <;> rfl

/-! ## Lists -/

/-- A loop whose rounds fail for some elements fails for the first of them. -/
theorem foldlM_checked {β α ε : Type} {step : β → α → Except ε β} {bad : α → Bool}
    {failure : α → ε} {next : β → α → β}
    (hstep : ∀ b a, step b a = if bad a then .error (failure a) else .ok (next b a))
    (l : List α) (b : β) :
    l.foldlM step b =
      match l.find? bad with
      | some a => .error (failure a)
      | none => .ok (l.foldl next b) := by
  induction l generalizing b with
  | nil => rfl
  | cons a l ih =>
    rw [List.foldlM_cons, hstep]
    cases hbad : bad a with
    | true =>
      rw [List.find?_cons_of_pos hbad]
      rfl
    | false =>
      rw [List.find?_cons_of_neg (by simp [hbad])]
      exact ih (next b a)

section Decoder

variable {step : Limits → Entry → Except Failure Limits} {bad : Entry → Bool}
  {failure : Entry → Failure} {next : Limits → Entry → Limits}
  (hstep : ∀ l e, step l e = if bad e then .error (failure e) else .ok (next l e))

include hstep

/-- A decoder takes a list that has no bad entry. -/
theorem decode_ok (hgood : ∀ e ∈ entries, bad e = false) :
    entries.foldlM step .init = .ok (entries.foldl next .init) := by
  have hfind : entries.find? bad = none := by simpa using hgood
  rw [foldlM_checked hstep, hfind]

/-- It rejects any other. -/
theorem decode_error_iff (entries : List Entry) :
    (∃ failure, entries.foldlM step .init = .error failure) ↔ ∃ e ∈ entries, bad e = true := by
  rw [foldlM_checked hstep]
  cases hfind : entries.find? bad with
  | some e =>
    exact iff_of_true ⟨_, rfl⟩ ⟨e, List.mem_of_find?_eq_some hfind, List.find?_some hfind⟩
  | none =>
    have hgood : ∀ e ∈ entries, bad e = false := by simpa using hfind
    refine iff_of_false (by simp) ?_
    rintro ⟨e, hmem, hbad⟩
    cases hbad.symm.trans (hgood e hmem)

theorem good_of_ok {limits : Limits} (hok : entries.foldlM step .init = .ok limits) :
    ∀ e ∈ entries, bad e = false := by
  intro e hmem
  by_contra hbad
  obtain ⟨failure, herr⟩ := (decode_error_iff hstep entries).2 ⟨e, hmem, by simpa using hbad⟩
  cases herr.symm.trans hok

theorem decode_inside (hfailure : ∀ e, failure e ≠ .outOfRange) (entries : List Entry) :
    entries.foldlM step .init ≠ .error .outOfRange := by
  rw [foldlM_checked hstep]
  cases entries.find? bad with
  | some e => simpa using hfailure e
  | none => simp

end Decoder

/-- **The last entry for a kernel counts.** -/
theorem foldl_record {α : Type} (field : Limits → Str → Option α)
    {next : Limits → Entry → Limits} {tag : Str} {value : Entry → α}
    (hnext : ∀ l e, field (next l e) =
      if e.tag = tag then record (field l) e.kernel (value e) else field l)
    (hinit : ∀ kernel, field .init kernel = none) (entries : List Entry) (kernel : Str) :
    field (entries.foldl next .init) kernel = (lastEntry entries tag kernel).map value := by
  induction entries using List.reverseRecOn with
  | nil => exact hinit kernel
  | append_singleton entries e ih =>
    rw [List.foldl_append, List.foldl_cons, List.foldl_nil, hnext]
    unfold lastEntry at ih ⊢
    by_cases htag : e.tag = tag
    · by_cases hkernel : e.kernel = kernel
      · simp [htag, hkernel, record]
      · simp [htag, hkernel, record, ih, Function.update_of_ne (Ne.symm hkernel)]
    · simp [htag, ih]

theorem cuda_fields (entries : List Entry) (kernel : Str) :
    ((entries.foldl cudaNext .init).reqd kernel =
      (lastEntry entries tagReqdWorkGroupSize kernel).map fun e => copied 1 e.bytes) ∧
    ((entries.foldl cudaNext .init).max kernel =
      (lastEntry entries tagMaxWorkGroupSize kernel).map fun e => copied 1 e.bytes) ∧
    (entries.foldl cudaNext .init).maxLinear kernel =
      (lastEntry entries tagMaxLinearWorkGroupSize kernel).map Entry.data64 := by
  have hne := tags_ne
  refine ⟨foldl_record Limits.reqd ?_ (fun _ => rfl) entries kernel,
    foldl_record Limits.max ?_ (fun _ => rfl) entries kernel,
    foldl_record Limits.maxLinear ?_ (fun _ => rfl) entries kernel⟩
  all_goals
    intro l e
    unfold cudaNext
    split_ifs <;> grind

theorem hip_reqd (entries : List Entry) (kernel : Str) :
    (entries.foldl hipNext .init).reqd kernel =
      (lastEntry entries tagReqdWorkGroupSize kernel).map fun e => copied 1 e.bytes := by
  have hne := tags_ne
  refine foldl_record Limits.reqd ?_ (fun _ => rfl) entries kernel
  intro l e
  unfold hipNext
  by_cases hname : e.name = tagNeedFinalization
  · have hnil : ([] : Str) ≠ tagReqdWorkGroupSize := by decide
    rw [if_pos hname, tag_needFinalization hname, if_neg hnil]
  · split_ifs <;> grind

theorem native_fields (entries : List Entry) (kernel : Str) :
    ((entries.foldl nativeNext .init).reqd kernel =
      (lastEntry entries tagReqdWorkGroupSize kernel).map fun e => copied 1 e.bytes) ∧
    ((entries.foldl nativeNext .init).max kernel =
      (lastEntry entries tagMaxWorkGroupSize kernel).map fun e => copied 0xffffffff e.bytes) ∧
    (entries.foldl nativeNext .init).maxLinear kernel =
      (lastEntry entries tagMaxLinearWorkGroupSize kernel).map Entry.data64 := by
  have hne := tags_ne
  refine ⟨foldl_record Limits.reqd ?_ (fun _ => rfl) entries kernel,
    foldl_record Limits.max ?_ (fun _ => rfl) entries kernel,
    foldl_record Limits.maxLinear ?_ (fun _ => rfl) entries kernel⟩
  all_goals
    intro l e
    unfold nativeNext
    split_ifs <;> grind

theorem lastEntry_mem {tag : Str} (h : lastEntry entries tag kernel = some e) :
    e ∈ entries ∧ e.tag = tag := by
  have hmem := List.mem_of_getLast? h
  rw [List.mem_filter] at hmem
  simp only [decide_eq_true_eq] at hmem
  exact ⟨hmem.1, hmem.2.1⟩

/-! ## Padding -/

theorem valueOf_congr {a b : List UInt8} {m n : Nat}
    (h : ∀ i < 4, a.getD (4 * m + i) 0 = b.getD (4 * n + i) 0) : valueOf a m = valueOf b n := by
  unfold valueOf
  simp only [h 0 (by decide), h 1 (by decide), h 2 (by decide), h 3 (by decide)]

/-- A value is one of the given ones, or the padding. -/
theorem valueOf_copied {pad : UInt32} {bytes : List UInt8} {k : Nat} (d : Fin 3)
    (hlength : bytes.length = 4 * k) (hpad : valueOf (bytesOf pad) 0 = pad) :
    copied pad bytes d = if d.val < k then valueOf bytes d else pad := by
  split
  · next hlt =>
    apply valueOf_congr
    intro i hi
    rw [List.getD_append _ _ _ _ (by omega)]
  · next hlt =>
    refine Eq.trans (valueOf_congr ?_) hpad
    intro i hi
    rw [List.getD_append_right _ _ _ _ (by omega), List.getD_eq_getElem?_getD, List.getElem?_drop,
      Nat.add_sub_cancel' (by omega)]
    fin_cases d <;> interval_cases i <;> rfl

theorem bytes_length : e.bytes.length = e.elemsSize.toNat := by
  simp [Entry.bytes]

/-- **The required size** is padded with 1. -/
theorem copied_padded (h : e.whole = true) : copied 1 e.bytes = e.padded := by
  funext d
  have hwhole := whole_iff.1 h
  have hlength : e.bytes.length = 4 * (e.elemsSize.toNat / 4) := by
    rw [bytes_length]
    omega
  rw [valueOf_copied d hlength (by decide), Entry.padded, Entry.values, List.getD_eq_getElem?_getD,
    List.getElem?_map]
  split
  · next hlt =>
    rw [List.getElem?_range hlt]
    rfl
  · next hlt =>
    rw [List.getElem?_eq_none (by simpa using hlt)]
    rfl

/-- **A maximum** is the same with both paddings if there is nothing to pad. -/
theorem copied_eq_iff (h : e.whole = true) :
    copied 0xffffffff e.bytes = copied 1 e.bytes ↔ e.size = 20 := by
  have hwhole := whole_iff.1 h
  have hsize := elemsSize_toNat (size_of_elemsSize (e := e) (by omega))
  have hlength : e.bytes.length = 4 * (e.elemsSize.toNat / 4) := by
    rw [bytes_length]
    omega
  have h20 : e.size = 20 ↔ e.elemsSize.toNat / 4 = 3 := by
    rw [← UInt64.toNat_inj]
    change e.size.toNat = 20 ↔ _
    omega
  rw [h20]
  constructor
  · intro heq
    -- a value that is not given is 1 or no limit, which differ
    have hlast := congrFun heq 2
    rw [valueOf_copied 2 hlength (by decide), valueOf_copied 2 hlength (by decide)] at hlast
    by_contra hne
    have hpadded : ¬ (2 : Fin 3).val < e.elemsSize.toNat / 4 := by
      change ¬ 2 < _
      omega
    rw [if_neg hpadded, if_neg hpadded] at hlast
    cases hlast
  · intro h3
    funext d
    have hlt : d.val < e.elemsSize.toNat / 4 := by omega
    rw [valueOf_copied d hlength (by decide), valueOf_copied d hlength (by decide), if_pos hlt,
      if_pos hlt]

/-! ## Launches -/

variable {workDim : Nat} {localSize : Fin 3 → UInt64}

theorem toUInt64_ne_zero (value : UInt32) : value.toUInt64 ≠ 0 ↔ value ≠ 0 := by
  rw [ne_eq, ne_eq, ← UInt64.toNat_inj, ← UInt32.toNat_inj]
  simp

theorem cudaAccepts_iff : cudaAccepts l kernel workDim localSize ↔
    Within (· ≠ 0) (l.reqd kernel) (l.max kernel) (l.maxLinear kernel) workDim localSize := by
  refine and_congr (forall₂_congr fun d hd => and_congr ?_ ?_) ?_
  · cases l.reqd kernel with
    | none => simp
    | some reqd => simp [toUInt64_ne_zero]
  · cases l.max kernel with
    | none => simp
    | some max => simp [toUInt64_ne_zero]
  · cases l.maxLinear kernel with
    | none => simp
    | some maxLinear => simp

theorem nativeAccepts_iff : nativeAccepts l kernel workDim localSize ↔
    Within (fun _ => True) (l.reqd kernel) (l.max kernel) (l.maxLinear kernel) workDim localSize := by
  unfold nativeAccepts Within
  simp

/-- What keeps all limits keeps those that are not 0. -/
theorem Within.weaken {reqd max : Option WGSize} {maxLinear : Option UInt64}
    (h : Within (fun _ => True) reqd max maxLinear workDim localSize) :
    Within (· ≠ 0) reqd max maxLinear workDim localSize := by
  refine ⟨?_, ?_⟩
  · intro d hd
    exact ⟨fun r hr _ => (h.1 d hd).1 r hr trivial, fun m hm _ => (h.1 d hd).2 m hm trivial⟩
  · intro n hn _
    exact h.2 n hn trivial

/-! ## Agreement -/

section
variable (hwhole : ∀ e ∈ entries, e.cudaBad = false ∧ e.nativeBad = false)

include hwhole

theorem whole_of_last {tag : Str} (htag : tag = tagReqdWorkGroupSize ∨ tag = tagMaxWorkGroupSize)
    (hlast : lastEntry entries tag kernel = some e) : e.whole = true := by
  obtain ⟨hmem, rfl⟩ := lastEntry_mem hlast
  have hnative := (hwhole e hmem).2
  simpa [Entry.nativeBad, htag] using hnative

/-- What the decoders have of a list that they all take. -/
theorem taken_fields (kernel : Str) :
    (entries.foldl cudaNext .init).reqd kernel =
        (lastEntry entries tagReqdWorkGroupSize kernel).map Entry.padded ∧
      (entries.foldl cudaNext .init).max kernel =
        (lastEntry entries tagMaxWorkGroupSize kernel).map Entry.padded ∧
      (entries.foldl cudaNext .init).maxLinear kernel =
        (lastEntry entries tagMaxLinearWorkGroupSize kernel).map Entry.data64 ∧
      (entries.foldl hipNext .init).reqd kernel = (entries.foldl cudaNext .init).reqd kernel ∧
      (entries.foldl nativeNext .init).reqd kernel = (entries.foldl cudaNext .init).reqd kernel ∧
      (entries.foldl nativeNext .init).maxLinear kernel =
        (entries.foldl cudaNext .init).maxLinear kernel := by
  have hpadded : ∀ tag, tag = tagReqdWorkGroupSize ∨ tag = tagMaxWorkGroupSize →
      ((lastEntry entries tag kernel).map fun e => copied 1 e.bytes) =
        (lastEntry entries tag kernel).map Entry.padded := by
    intro tag htag
    cases hlast : lastEntry entries tag kernel with
    | none => rfl
    | some e => exact congrArg some (copied_padded (whole_of_last hwhole htag hlast))
  obtain ⟨hreqd, hmax, hlinear⟩ := cuda_fields entries kernel
  obtain ⟨hreqd', -, hlinear'⟩ := native_fields entries kernel
  exact ⟨hreqd.trans (hpadded _ (.inl rfl)), hmax.trans (hpadded _ (.inr rfl)), hlinear,
    by rw [hip_reqd, hreqd], by rw [hreqd', hreqd], by rw [hlinear', hlinear]⟩

/-- The maxima are alike if the one in force is given in three dimensions. -/
theorem taken_max_iff (kernel : Str) :
    (entries.foldl nativeNext .init).max kernel = (entries.foldl cudaNext .init).max kernel ↔
      ∀ e, lastEntry entries tagMaxWorkGroupSize kernel = some e → e.size = 20 := by
  rw [(cuda_fields entries kernel).2.1, (native_fields entries kernel).2.1]
  cases hlast : lastEntry entries tagMaxWorkGroupSize kernel with
  | none => simp
  | some e => simp [copied_eq_iff (whole_of_last hwhole (.inr rfl) hlast)]

/-- The launches are alike if no limit of 0 makes a difference. -/
theorem taken_launches_iff (kernel : Str)
    (hmax : (entries.foldl nativeNext .init).max kernel =
      (entries.foldl cudaNext .init).max kernel) :
    (∀ workDim localSize, 0 < workDim ∧ workDim ≤ 3 →
      (cudaAccepts (entries.foldl cudaNext .init) kernel workDim localSize ↔
        nativeAccepts (entries.foldl nativeNext .init) kernel workDim localSize)) ↔
      ZeroFree entries kernel := by
  obtain ⟨hreqd, hmax', hlinear, -, hreqd', hlinear'⟩ := taken_fields hwhole kernel
  refine forall₃_congr fun workDim localSize _ => ?_
  rw [cudaAccepts_iff, nativeAccepts_iff, hreqd', hmax, hlinear', hreqd, hmax', hlinear]
  exact ⟨fun h => h.1, fun h => ⟨h, Within.weaken⟩⟩

end

theorem failure_ne (e : Entry) : e.failure ≠ .outOfRange := by
  unfold Entry.failure
  split <;> simp

theorem hipBad_cudaBad (h : e.hipBad = true) : e.cudaBad = true := by
  simp only [Entry.hipBad, Entry.cudaBad, decide_eq_true_eq] at h ⊢
  tauto

theorem careful_of_agree (h : Agree entries) : Careful entries := by
  rcases h.decoded with ⟨-, herr, herr'⟩ |
    ⟨cuda, hip, native, hok, -, hok', hlimits, hlaunches⟩
  · exact .inl ⟨(decode_error_iff hipEntry_eq entries).1 herr,
      (decode_error_iff nativeEntry_eq entries).1 herr'⟩
  · right
    have hgood := good_of_ok cudaEntry_eq hok
    have hgood' := good_of_ok nativeEntry_eq hok'
    obtain rfl := Except.ok.inj ((decode_ok cudaEntry_eq hgood).symm.trans hok)
    obtain rfl := Except.ok.inj ((decode_ok nativeEntry_eq hgood').symm.trans hok')
    have hwhole := fun e he => And.intro (hgood e he) (hgood' e he)
    have hmax := fun kernel => (hlimits kernel).2.2.2.1
    exact ⟨hwhole, fun kernel => (taken_max_iff hwhole kernel).1 (hmax kernel),
      fun kernel => (taken_launches_iff hwhole kernel (hmax kernel)).1 (hlaunches kernel)⟩

theorem agree_of_careful (h : Careful entries) : Agree entries := by
  refine ⟨⟨decode_inside cudaEntry_eq failure_ne entries,
    decode_inside hipEntry_eq failure_ne entries,
    decode_inside nativeEntry_eq failure_ne entries⟩, ?_⟩
  rcases h with ⟨⟨e, hmem, hbad⟩, hbad'⟩ | ⟨hwhole, hmax, hzero⟩
  · exact .inl ⟨(decode_error_iff cudaEntry_eq entries).2 ⟨e, hmem, hipBad_cudaBad hbad⟩,
      (decode_error_iff hipEntry_eq entries).2 ⟨e, hmem, hbad⟩,
      (decode_error_iff nativeEntry_eq entries).2 hbad'⟩
  · right
    -- what HIP rejects, CUDA rejects as well
    have hhip : ∀ e ∈ entries, e.hipBad = false := by
      intro e hmem
      by_contra hbad
      cases (hipBad_cudaBad (by simpa using hbad)).symm.trans (hwhole e hmem).1
    have hmax' := fun kernel => (taken_max_iff hwhole kernel).2 (hmax kernel)
    refine ⟨_, _, _, decode_ok cudaEntry_eq fun e he => (hwhole e he).1,
      decode_ok hipEntry_eq hhip, decode_ok nativeEntry_eq fun e he => (hwhole e he).2, ?_, ?_⟩
    · intro kernel
      obtain ⟨hreqd, -, -, hreqd', hreqd'', hlinear⟩ := taken_fields hwhole kernel
      exact ⟨hreqd, hreqd', hreqd'', hmax' kernel, hlinear⟩
    · intro kernel
      exact (taken_launches_iff hwhole kernel (hmax' kernel)).2 (hzero kernel)

/-- **The decoders agree** on a list if they all reject it, or if none does and every maximum in
force is given in three dimensions and no limit of 0 makes a difference. -/
theorem metadata_iff (entries : List Entry) : Agree entries ↔ Careful entries :=
  ⟨careful_of_agree, agree_of_careful⟩

/-- A maximum in one dimension, of four, for a kernel `k`. -/
def maxOfFour : Entry :=
  { name := "k@max_work_group_size".toList, size := 12, data32 := 0, data64 := 0,
    pData := fun i => if i = 8 then 4 else 0 }

/-- CUDA takes it for a maximum of one in the other dimensions, native CPU for none there. -/
theorem maxOfFour_disagrees : ¬ Agree [maxOfFour] := by
  intro h
  rcases careful_of_agree h with ⟨⟨e, hmem, hbad⟩, -⟩ | ⟨-, hmax, -⟩
  · obtain rfl := List.mem_singleton.1 hmem
    exact absurd hbad (by decide)
  · have htag : maxOfFour.tag = tagMaxWorkGroupSize := by decide
    have hlast : lastEntry [maxOfFour] tagMaxWorkGroupSize maxOfFour.kernel = some maxOfFour := by
      simp [lastEntry, htag]
    exact absurd (hmax _ _ hlast) (by decide)

end UnifiedRuntime.KernelMetadata
