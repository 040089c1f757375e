import Mathlib.Data.List.Basic

/-!
# Sampler properties (CUDA and HIP)

A sampler keeps its modes in one word, with a place for each. The CUDA adapter puts what the
extension chain says on top of what is there already, so that a mode that is set twice comes out as
both at once. The HIP adapter takes the whole word for the flag when it is asked for it.

- `get_put`: what is read back after one mode is put into the word.
- `samplers_iff`: when a sampler says what it was made with.
-/

namespace UnifiedRuntime.Samplers

/-! ## Descriptors -/

/-- `ur_sampler_filter_mode_t`. -/
inductive FilterMode where
  | nearest
  | linear
deriving DecidableEq

/-- `ur_sampler_addressing_mode_t`. -/
inductive AddressingMode where
  | none
  | clampToEdge
  | clamp
  | repeatMode
  | mirroredRepeat
deriving DecidableEq

/-- `ur_exp_sampler_cubemap_filter_mode_t`. -/
inductive CubemapFilterMode where
  | disjointed
  | seamless

def FilterMode.value : FilterMode → UInt32
  | nearest => 0
  | linear => 1

def AddressingMode.value : AddressingMode → UInt32
  | none => 0
  | clampToEdge => 1
  | clamp => 2
  | repeatMode => 3
  | mirroredRepeat => 4

def CubemapFilterMode.value : CubemapFilterMode → UInt32
  | disjointed => 0
  | seamless => 1

/-- `ur_sampler_desc_t`: whether it has the right type, and its chain. -/
structure SamplerDesc where
  isSamplerDesc : Bool
  normalizedCoords : Bool
  addressingMode : AddressingMode
  filterMode : FilterMode

/-- A node of the chain. -/
inductive Node where
  | mip (mipFilterMode : FilterMode)
  | addrModes (mode0 mode1 mode2 : AddressingMode)
  | cubemap (cubemapFilterMode : CubemapFilterMode)
  | unknown

/-! ## The word -/

/-- The places in the word. -/
inductive Field where
  | normalizedCoords
  | filterMode
  | addressingMode0
  | addressingMode1
  | addressingMode2
  | mipFilterMode
  | cubemapFilterMode
deriving DecidableEq

def Field.shift : Field → UInt32
  | normalizedCoords => 0
  | filterMode => 1
  | addressingMode0 => 2
  | addressingMode1 => 5
  | addressingMode2 => 8
  | mipFilterMode => 11
  | cubemapFilterMode => 12

def Field.mask : Field → UInt32
  | addressingMode0 | addressingMode1 | addressingMode2 => 0b111
  | _ => 0b1

/-- The getters of `ur_sampler_handle_t_`, which are alike. -/
def Field.get (f : Field) (props : UInt32) : UInt32 := (props >>> f.shift) &&& f.mask

/-- `Props |= value << shift`. -/
def put (props : UInt32) (f : Field) (value : UInt32) : UInt32 := props ||| value <<< f.shift

/-- What a descriptor puts into the word, in both adapters. -/
def ofDesc (desc : SamplerDesc) : UInt32 :=
  if desc.isSamplerDesc then
    put (put (put 0 .normalizedCoords (if desc.normalizedCoords then 1 else 0)) .filterMode
      desc.filterMode.value) .addressingMode0 desc.addressingMode.value
  else put (put 0 .normalizedCoords 1) .addressingMode0 AddressingMode.clamp.value

/-- One node of the chain. -/
def next (props : UInt32) : Node → UInt32
  | .mip mode => put props .mipFilterMode mode.value
  | .addrModes mode0 mode1 mode2 =>
    put (put (put props .addressingMode0 mode0.value) .addressingMode1 mode1.value)
      .addressingMode2 mode2.value
  | .cubemap mode => put props .cubemapFilterMode mode.value
  | .unknown => props

/-- `urSamplerCreate` of the CUDA adapter. -/
def cudaSamplerCreate (desc : SamplerDesc) (chain : List Node) : UInt32 :=
  chain.foldl next (ofDesc desc)

/-- `urSamplerCreate` of the HIP adapter. -/
def hipSamplerCreate (desc : SamplerDesc) : UInt32 := ofDesc desc

/-- What `urSamplerGetInfo` of the HIP adapter says: the flag, the filter and the addressing mode. -/
def hipSamplerGetInfo (props : UInt32) : Bool × UInt32 × UInt32 :=
  (props != 0, (props >>> 1) &&& 1, props >>> 2)

/-! ## Samplers and descriptors -/

/-- What a descriptor says of a field; one of another type stands for the defaults. -/
def SamplerDesc.value (desc : SamplerDesc) : Field → UInt32
  | .normalizedCoords => if !desc.isSamplerDesc || desc.normalizedCoords then 1 else 0
  | .filterMode => if desc.isSamplerDesc then desc.filterMode.value else 0
  | .addressingMode0 =>
    if desc.isSamplerDesc then desc.addressingMode.value else AddressingMode.clamp.value
  | _ => 0

/-- What a node says of a field, if it sets it. -/
def Node.value : Node → Field → Option UInt32
  | .mip mode, .mipFilterMode => some mode.value
  | .addrModes mode _ _, .addressingMode0 => some mode.value
  | .addrModes _ mode _, .addressingMode1 => some mode.value
  | .addrModes _ _ mode, .addressingMode2 => some mode.value
  | .cubemap mode, .cubemapFilterMode => some mode.value
  | _, _ => none

/-- **What a sampler was made with**: the last node that sets a field has it. -/
def expected (desc : SamplerDesc) (chain : List Node) (f : Field) : UInt32 :=
  chain.foldl (fun value node => (node.value f).getD value) (desc.value f)

/-- **The words decode to what the samplers were made with.** -/
structure Decodes (desc : SamplerDesc) (chain : List Node) : Prop where
  cuda : ∀ f : Field, f.get (cudaSamplerCreate desc chain) = expected desc chain f
  hip : ∀ f : Field, f.get (hipSamplerCreate desc) = desc.value f
  info : hipSamplerGetInfo (hipSamplerCreate desc) =
    (desc.value .normalizedCoords != 0, desc.value .filterMode, desc.value .addressingMode0)

/-- Nothing that was set before has a bit that the last value of the field has not. -/
def Covered (desc : SamplerDesc) (chain : List Node) : Prop :=
  ∀ f : Field, ∀ value ∈ desc.value f :: chain.filterMap (·.value f),
    value ||| expected desc chain f = expected desc chain f

/-- Nothing is set beside the flag if that is not. -/
def FlagAlone (desc : SamplerDesc) : Prop :=
  desc.isSamplerDesc = true → desc.normalizedCoords = false →
    desc.filterMode = .nearest ∧ desc.addressingMode = .none

/-! ## Fields -/

variable {f f' : Field} {props value : UInt32} {desc : SamplerDesc} {chain : List Node}

/-- What a getter has of two words together. -/
theorem get_or (f : Field) (a b : UInt32) : f.get (a ||| b) = f.get a ||| f.get b := by
  unfold Field.get
  rw [UInt32.shiftRight_or]
  exact UInt32.toBitVec_inj.1 BitVec.and_or_distrib_right

theorem get_zero (f : Field) : f.get 0 = 0 := by
  cases f <;> decide

theorem get_shifted (f f' : Field) (value : Fin 8)
    (hfits : UInt32.ofNat value &&& f.mask = UInt32.ofNat value) :
    f'.get (UInt32.ofNat value <<< f.shift) = if f' = f then UInt32.ofNat value else 0 := by
  revert value
  cases f <;> cases f' <;> decide

/-- **A value that fits** is read back from its place, with what was there, and from no other. -/
theorem get_put (hlt : value.toNat < 8) (hfits : value &&& f.mask = value) :
    f'.get (put props f value) = f'.get props ||| (if f' = f then value else 0) := by
  have h := get_shifted f f' ⟨value.toNat, hlt⟩
  simp only [UInt32.ofNat_toNat] at h
  unfold put
  rw [get_or, h hfits]

theorem FilterMode.fits (mode : FilterMode) (f : Field) :
    mode.value.toNat < 8 ∧ mode.value &&& f.mask = mode.value := by
  cases mode <;> cases f <;> decide

theorem CubemapFilterMode.fits (mode : CubemapFilterMode) (f : Field) :
    mode.value.toNat < 8 ∧ mode.value &&& f.mask = mode.value := by
  cases mode <;> cases f <;> decide

theorem AddressingMode.fits (mode : AddressingMode) (hmask : f.mask = 0b111) :
    mode.value.toNat < 8 ∧ mode.value &&& f.mask = mode.value := by
  rw [hmask]
  cases mode <;> decide

/-! ## Words -/

/-- **A descriptor** decodes to itself. -/
theorem get_ofDesc (desc : SamplerDesc) (f : Field) : f.get (ofDesc desc) = desc.value f := by
  unfold ofDesc
  by_cases hdesc : desc.isSamplerDesc = true
  · have hflag : ∀ b : Bool, (if b = true then 1 else 0 : UInt32).toNat < 8 ∧
        (if b = true then 1 else 0) &&& Field.normalizedCoords.mask =
          (if b = true then 1 else 0 : UInt32) := by
      decide
    have hmode := desc.addressingMode.fits (f := .addressingMode0) rfl
    have hfilter := desc.filterMode.fits .filterMode
    rw [if_pos hdesc, get_put hmode.1 hmode.2, get_put hfilter.1 hfilter.2,
      get_put (hflag _).1 (hflag _).2, get_zero]
    cases f <;> simp [SamplerDesc.value, hdesc]
  · rw [if_neg hdesc, get_put (by decide) (by decide), get_put (by decide) (by decide), get_zero]
    cases f <;> simp [SamplerDesc.value, hdesc]

/-- **A node** is put on top of what is there. -/
theorem get_next (props : UInt32) (node : Node) (f : Field) :
    f.get (next props node) = f.get props ||| (node.value f).getD 0 := by
  cases node with
  | mip mode =>
    have h := mode.fits .mipFilterMode
    rw [next, get_put h.1 h.2]
    cases f <;> rfl
  | addrModes mode0 mode1 mode2 =>
    have h0 := mode0.fits (f := .addressingMode0) rfl
    have h1 := mode1.fits (f := .addressingMode1) rfl
    have h2 := mode2.fits (f := .addressingMode2) rfl
    rw [next, get_put h2.1 h2.2, get_put h1.1 h1.2, get_put h0.1 h0.2]
    cases f <;> simp [Node.value]
  | cubemap mode =>
    have h := mode.fits .cubemapFilterMode
    rw [next, get_put h.1 h.2]
    cases f <;> rfl
  | unknown => simp [next, Node.value]

/-- The values that a chain sets a field to. -/
def settings (chain : List Node) (f : Field) : List UInt32 := chain.filterMap (·.value f)

/-- **All that was ever set** is in the word. -/
theorem get_chain (chain : List Node) (f : Field) (props : UInt32) :
    f.get (chain.foldl next props) = (settings chain f).foldl (· ||| ·) (f.get props) := by
  induction chain generalizing props with
  | nil => rfl
  | cons node chain ih =>
    rw [List.foldl_cons, ih, get_next]
    cases hset : node.value f with
    | none => simp [settings, hset]
    | some value => simp [settings, hset]

/-- What is expected is the last value. -/
theorem last_of_chain (chain : List Node) (f : Field) (value : UInt32) :
    chain.foldl (fun value node => (node.value f).getD value) value =
      (settings chain f).getLastD value := by
  induction chain generalizing value with
  | nil => rfl
  | cons node chain ih =>
    rw [List.foldl_cons, ih]
    cases hset : node.value f with
    | none => simp [settings, hset]
    | some value =>
      have hcons : settings (node :: chain) f = value :: settings chain f := by
        simp [settings, hset]
      rw [hcons, List.getLastD_cons]
      rfl

/-! ## Values on top of each other -/

theorem or_absorbs (a b : UInt32) : a ||| (a ||| b) = a ||| b := by
  rw [← UInt32.or_assoc, UInt32.or_self]

theorem absorbed_start (values : List UInt32) (a : UInt32) :
    a ||| values.foldl (· ||| ·) a = values.foldl (· ||| ·) a := by
  induction values generalizing a with
  | nil => exact UInt32.or_self
  | cons value values ih =>
    have h := ih (a ||| value)
    rw [List.foldl_cons, ← h, UInt32.or_assoc a, or_absorbs]

/-- Every value is covered by all together. -/
theorem absorbed {values : List UInt32} {a v : UInt32} (hv : v ∈ a :: values) :
    v ||| values.foldl (· ||| ·) a = values.foldl (· ||| ·) a := by
  induction values generalizing a with
  | nil =>
    obtain rfl := List.mem_singleton.1 hv
    exact UInt32.or_self
  | cons value values ih =>
    rw [List.foldl_cons]
    have hsum := absorbed_start values (a ||| value)
    rcases List.mem_cons.1 hv with rfl | hv
    · rw [← hsum, ← UInt32.or_assoc, or_absorbs]
    · rcases List.mem_cons.1 hv with rfl | hv
      · rw [← hsum, UInt32.or_comm a, ← UInt32.or_assoc, or_absorbs]
      · exact ih (List.mem_cons_of_mem _ hv)

/-- What covers every value covers all together. -/
theorem foldl_absorbed {values : List UInt32} {a m : UInt32}
    (hall : ∀ v ∈ a :: values, v ||| m = m) : values.foldl (· ||| ·) a ||| m = m := by
  induction values generalizing a with
  | nil => exact hall a List.mem_cons_self
  | cons value values ih =>
    apply ih
    intro v hv
    rcases List.mem_cons.1 hv with rfl | hv
    · rw [UInt32.or_assoc, hall value (by simp), hall a (by simp)]
    · exact hall v (by simp [hv])

/-- **All together is the last value** if that covers the others. -/
theorem foldl_eq_last_iff {values : List UInt32} {a : UInt32} :
    values.foldl (· ||| ·) a = values.getLastD a ↔
      ∀ v ∈ a :: values, v ||| values.getLastD a = values.getLastD a := by
  constructor
  · intro h v hv
    rw [← h]
    exact absorbed hv
  · intro hall
    have hlast := absorbed (List.getLastD_mem_cons (l := values) (a := a))
    rw [← hlast, UInt32.or_comm]
    exact foldl_absorbed hall

/-! ## Samplers -/

theorem cuda_iff (desc : SamplerDesc) (chain : List Node) :
    (∀ f : Field, f.get (cudaSamplerCreate desc chain) = expected desc chain f) ↔
      Covered desc chain := by
  apply forall_congr'
  intro f
  unfold cudaSamplerCreate expected
  rw [get_chain, get_ofDesc, last_of_chain]
  exact foldl_eq_last_iff

/-- What `urSamplerGetInfo` of the HIP adapter has of a descriptor. -/
theorem hipSamplerGetInfo_iff (desc : SamplerDesc) :
    hipSamplerGetInfo (hipSamplerCreate desc) = (desc.value .normalizedCoords != 0,
      desc.value .filterMode, desc.value .addressingMode0) ↔ FlagAlone desc := by
  obtain ⟨isDesc, flag, addressing, filter⟩ := desc
  unfold FlagAlone
  cases isDesc <;> cases flag <;> cases addressing <;> cases filter <;> decide

/-- **Sampler properties survive packing** if no field is set again to a value that leaves out a bit
of an earlier one, and HIP is asked for a set flag or has nothing else in the word. -/
theorem samplers_iff (desc : SamplerDesc) (chain : List Node) :
    Decodes desc chain ↔ Covered desc chain ∧ FlagAlone desc := by
  constructor
  · intro h
    exact ⟨(cuda_iff desc chain).1 h.cuda, (hipSamplerGetInfo_iff desc).1 h.info⟩
  · intro h
    exact ⟨(cuda_iff desc chain).2 h.1, get_ofDesc desc, (hipSamplerGetInfo_iff desc).2 h.2⟩

/-- A sampler that clamps to the edge, with a node that says to clamp in every dimension. -/
def clampedAgain : SamplerDesc :=
  { isSamplerDesc := true, normalizedCoords := true, addressingMode := .clampToEdge,
    filterMode := .linear }

/-- The two modes together are another mode. -/
theorem clamped_twice_repeats :
    Field.addressingMode0.get (cudaSamplerCreate clampedAgain [.addrModes .clamp .clamp .clamp]) =
        AddressingMode.repeatMode.value ∧
      ¬ Decodes clampedAgain [.addrModes .clamp .clamp .clamp] := by
  refine ⟨by decide, ?_⟩
  intro h
  exact absurd (h.cuda .addressingMode0) (by decide)

end UnifiedRuntime.Samplers
