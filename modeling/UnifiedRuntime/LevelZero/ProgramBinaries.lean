import Mathlib.Data.List.Forall2
import Mathlib.Data.List.GetD
import UnifiedRuntime.LevelZero.Program

/-!
# Binaries of a program

`UR_PROGRAM_INFO_BINARY_SIZES` and `UR_PROGRAM_INFO_BINARIES` have a loop each over the devices of
a program. The caller of the second hands over an array of pointers, which is looked at whatever
its size, and only if the first of them is not null.

Pointers are addresses, and 0 is null. The entries behind the end of an array are what is in memory
there.

- `getBinarySizes_ok`: the sizes, device by device.
- `binaries_iff`: when every device gets its own binary.
-/

namespace UnifiedRuntime.LevelZero.ProgramBinaries

/-- A failure of the driver has its code. -/
inductive QueryResult where
  | success
  | invalidProgram
  | driver (code : Nat)

/-- `zeModuleGetNativeBinary`. -/
abbrev NativeBinary := ZeModule → Except Nat (List UInt8)

/-- Bytes are written from an address on. -/
def memcpy (mem : Nat → UInt8) (dst : Nat) (bytes : List UInt8) : Nat → UInt8 := fun a =>
  if dst ≤ a then bytes.getD (a - dst) (mem a) else mem a

/-! ## Sizes -/

/-- The size for one device. -/
def binarySize (native : NativeBinary) (p : Program) (d : ZeDevice) : Except QueryResult Nat :=
  match (p.getState d).1 with
  | .Native => .ok ((p.getState d).2.getCodeSize d)
  | .IL | .Object => .ok 0
  | .Exe =>
    match (p.getState d).2.getZeModuleHandle d with
    | none => .error .invalidProgram
    | some m =>
      match native m with
      | .error code => .error (.driver code)
      | .ok bytes => .ok bytes.length
  | .Invalid => .error .invalidProgram

/-- `UR_PROGRAM_INFO_BINARY_SIZES`: the array for `ReturnValue`. -/
def getBinarySizes (native : NativeBinary) : Program → List ZeDevice → Except QueryResult (List Nat)
  | _, [] => .ok []
  | p, d :: devices => do
    let size ← binarySize native p d
    let sizes ← getBinarySizes native (p.getState d).2 devices
    return size :: sizes

/-! ## Binaries -/

/-- What the call has done: the memory, what is at `PropSizeRet` unless that is null, and
`SzBinary`. -/
structure Fetched where
  memory : Nat → UInt8
  propSizeRet : Option Nat
  szBinary : Nat

/-- The loop for one device; `pBinary` is the entry of the array if there is one. -/
def fetchBinary (native : NativeBinary) (p : Program) (d : ZeDevice) (pBinary : Option Nat)
    (f : Fetched) : QueryResult × Fetched :=
  match (p.getState d).1 with
  | .Native =>
    (.success, { f with
      memory := match pBinary with
        | none => f.memory
        | some dst => memcpy f.memory dst (((p.getState d).2.getCode d).getD [])
      szBinary := f.szBinary + (p.getState d).2.getCodeSize d })
  | .IL | .Object => (.success, { f with propSizeRet := f.propSizeRet.map fun _ => 0 })
  | .Exe =>
    match (p.getState d).2.getZeModuleHandle d with
    | none => (.invalidProgram, f)
    | some m =>
      match native m with
      | .error code => (.driver code, f)
      | .ok bytes =>
        -- without a pointer the driver has the size only
        (.success, { f with
          memory := if pBinary.getD 0 = 0 then f.memory else memcpy f.memory (pBinary.getD 0) bytes
          szBinary := f.szBinary + bytes.length })
  | .Invalid => (.invalidProgram, f)

def fetchBinaries (native : NativeBinary) (array : Option (Nat → Nat)) :
    Program → Nat → List ZeDevice → Fetched → QueryResult × Fetched
  | _, _, [], f => (.success, { f with propSizeRet := f.propSizeRet.map fun _ => f.szBinary })
  | p, i, d :: devices, f =>
    match fetchBinary native p d (array.map (· i)) f with
    | (.success, f') => fetchBinaries native array (p.getState d).2 (i + 1) devices f'
    | stop => stop

/-- `UR_PROGRAM_INFO_BINARIES`. The size of the array is not asked for. -/
def getBinaries (native : NativeBinary) (p : Program) (_propSize : Nat)
    (array : Option (Nat → Nat)) (memory : Nat → UInt8) (propSizeRet : Option Nat) :
    QueryResult × Fetched :=
  if array.map (· 0) = some 0 then (.success, ⟨memory, propSizeRet, 0⟩)
  else fetchBinaries native array p 0 p.associatedDevices ⟨memory, propSizeRet, 0⟩

/-! ## Binaries and their devices -/

/-- The binary of a device, where it can be had. -/
def binary (native : NativeBinary) (p : Program) (d : ZeDevice) : Option (List UInt8) :=
  match p.find d with
  | none =>
    match p.interopZeModule with
    | none => some []
    | some m => (native m).toOption
  | some data =>
    match data.state with
    | .Native => some (data.binary.getD [])
    | .IL | .Object => some []
    | .Exe => data.zeModule.bind fun m => (native m).toOption
    | .Invalid => none

/-- A block of memory has an address and as many bytes as are to be written there. -/
abbrev Block := Nat × List UInt8

def Block.Has (b : Block) (a : Nat) : Prop := b.1 ≤ a ∧ a < b.1 + b.2.length

/-- The blocks of the caller: each binary has one of its size, and one without bytes is null. -/
structure Allocated (blocks : List Block) : Prop where
  null : ∀ b ∈ blocks, b.1 = 0 ↔ b.2 = []
  apart : blocks.Pairwise fun b c => ∀ a, ¬ (b.Has a ∧ c.Has a)

/-- Each block has its bytes, and all else is as it was. -/
structure Received (blocks : List Block) (memory memory' : Nat → UInt8) : Prop where
  inside : ∀ b ∈ blocks, ∀ i (h : i < b.2.length), memory' (b.1 + i) = b.2[i]
  outside : ∀ a, (∀ b ∈ blocks, ¬ b.Has a) → memory' a = memory a

/-- The blocks for the devices, where the binaries can be had. -/
def blocks (native : NativeBinary) (p : Program) (array : Nat → Nat) : Nat → List ZeDevice →
    List Block
  | _, [] => []
  | i, d :: devices =>
    (array i, (binary native p d).getD []) :: blocks native p array (i + 1) devices

/-- **A call is right.** The sizes are those of the binaries, an array with fewer pointers than
devices is rejected, and through one that fits each binary is received, and nothing else. -/
structure BinariesRight (native : NativeBinary) (p : Program) (propSize : Nat)
    (array : Nat → Nat) : Prop where
  sizes : ∀ sizes, getBinarySizes native p p.associatedDevices = .ok sizes →
    List.Forall₂ (fun d size => ∃ bytes, binary native p d = some bytes ∧ bytes.length = size)
      p.associatedDevices sizes
  rejected : propSize < 8 * p.associatedDevices.length → ∀ memory propSizeRet,
    (getBinaries native p propSize (some array) memory propSizeRet).1 ≠ .success
  received : ∀ sizes, getBinarySizes native p p.associatedDevices = .ok sizes →
    propSize = 8 * p.associatedDevices.length →
    Allocated (blocks native p array 0 p.associatedDevices) → ∀ memory propSizeRet,
    (getBinaries native p propSize (some array) memory propSizeRet).1 = .success ∧
      Received (blocks native p array 0 p.associatedDevices) memory
        (getBinaries native p propSize (some array) memory propSizeRet).2.memory

/-- The first binary is not empty, unless all are. -/
def FirstTells (native : NativeBinary) (p : Program) : Prop :=
  (p.associatedDevices.head?.bind (binary native p) = some []) →
    ∀ d ∈ p.associatedDevices, binary native p d = some []

/-- A short array is only turned down for a device without a binary, and then only if it does not
start with null; in one that fits the first binary tells. -/
structure BinariesFine (native : NativeBinary) (p : Program) (propSize : Nat) (array : Nat → Nat) :
    Prop where
  short : propSize < 8 * p.associatedDevices.length →
    array 0 ≠ 0 ∧ ∃ d ∈ p.associatedDevices, binary native p d = none
  first : (∀ d ∈ p.associatedDevices, binary native p d ≠ none) →
    propSize = 8 * p.associatedDevices.length →
    Allocated (blocks native p array 0 p.associatedDevices) → FirstTells native p

/-! ## One device -/

variable {native : NativeBinary} {p : Program} {d d' : ZeDevice} {devices : List ZeDevice}
  {array : Nat → Nat} {memory : Nat → UInt8} {f : Fetched} {pBinary : Option Nat}
  {bytes : List UInt8}

/-- A question after the state does not change what the binaries are. -/
theorem binary_getState : binary native (p.getState d).2 d' = binary native p d' := by
  have hinterop : (p.getState d).2.interopZeModule = p.interopZeModule := by
    unfold Program.getState
    split
    next => rfl
    next => rfl
  unfold binary
  rw [Program.find_getState, hinterop]
  by_cases hd : d' = d ∧ p.interopZeModule = none
  · rw [if_pos hd, hd.1, hd.2]
    cases p.find d with
    | none => rfl
    | some data => rfl
  · rw [if_neg hd]

/-- What the state is asked for. -/
theorem binary_eq : binary native p d =
    match (p.getState d).1 with
    | .Native => some (((p.getState d).2.getCode d).getD [])
    | .IL | .Object => some []
    | .Exe => ((p.getState d).2.getZeModuleHandle d).bind fun m => (native m).toOption
    | .Invalid => none := by
  unfold binary Program.getCode Program.getZeModuleHandle
  rw [Program.find_getState]
  unfold Program.getState
  cases hfind : p.find d with
  | none =>
    cases hinterop : p.interopZeModule with
    | none => simp
    | some m => simp [hinterop]
  | some data => cases hstate : data.state <;> simp [hstate]

/-- The first loop, for one device. -/
theorem binarySize_eq (native : NativeBinary) (p : Program) (d : ZeDevice) :
    (binarySize native p d).toOption = (binary native p d).map List.length := by
  rw [binary_eq]
  unfold binarySize
  cases (p.getState d).1 with
  | Exe =>
    cases (p.getState d).2.getZeModuleHandle d with
    | none => rfl
    | some m =>
      dsimp only [Option.bind_some]
      cases native m with
      | error code => rfl
      | ok bytes => rfl
  | _ => rfl

/-- **The second loop, for one device**: where there is a binary it is written to the pointer, if
that is null just for no bytes. -/
theorem fetchBinary_of_binary (h : binary native p d = some bytes) :
    ∃ f', fetchBinary native p d pBinary f = (.success, f') ∧
      ∀ dst, pBinary = some dst → (dst = 0 ↔ bytes = []) →
        f'.memory = memcpy f.memory dst bytes := by
  have hnil : ∀ (mem : Nat → UInt8) (dst : Nat), memcpy mem dst [] = mem := by
    intro mem dst
    funext a
    unfold memcpy
    rw [List.getD_nil, ite_self]
  rw [binary_eq] at h
  unfold fetchBinary
  cases hstate : (p.getState d).1 with
  | Native =>
    rw [hstate] at h
    obtain rfl := Option.some.inj h
    exact ⟨_, rfl, fun dst hdst _ => by rw [hdst]⟩
  | IL =>
    rw [hstate] at h
    obtain rfl := Option.some.inj h
    exact ⟨_, rfl, fun dst _ _ => (hnil f.memory dst).symm⟩
  | Object =>
    rw [hstate] at h
    obtain rfl := Option.some.inj h
    exact ⟨_, rfl, fun dst _ _ => (hnil f.memory dst).symm⟩
  | Exe =>
    rw [hstate] at h
    cases hmodule : (p.getState d).2.getZeModuleHandle d with
    | none => rw [hmodule] at h; cases h
    | some m =>
      rw [hmodule] at h
      dsimp only [Option.bind_some] at h ⊢
      cases hnative : native m with
      | error code => rw [hnative] at h; cases h
      | ok out =>
        rw [hnative] at h
        obtain rfl := Option.some.inj h
        refine ⟨_, rfl, fun dst hdst hnull => ?_⟩
        rw [hdst, Option.getD_some]
        by_cases hzero : dst = 0
        · rw [if_pos hzero, hnull.mp hzero, hnil]
        · exact if_neg hzero
  | Invalid => rw [hstate] at h; cases h

/-- Where there is none the loop ends. -/
theorem fetchBinary_none (pBinary : Option Nat) (f : Fetched) (h : binary native p d = none) :
    (fetchBinary native p d pBinary f).1 ≠ .success := by
  rw [binary_eq] at h
  unfold fetchBinary
  cases hstate : (p.getState d).1 with
  | Exe =>
    rw [hstate] at h
    cases hmodule : (p.getState d).2.getZeModuleHandle d with
    | none => exact nofun
    | some m =>
      rw [hmodule] at h
      dsimp only [Option.bind_some] at h ⊢
      cases hnative : native m with
      | error code => exact nofun
      | ok out => rw [hnative] at h; cases h
  | Invalid => exact nofun
  | Native => rw [hstate] at h; cases h
  | IL => rw [hstate] at h; cases h
  | Object => rw [hstate] at h; cases h

/-! ## All devices -/

/-- **The sizes are those of the binaries**, in order. -/
theorem getBinarySizes_ok {sizes : List Nat} : getBinarySizes native p devices = .ok sizes ↔
    List.Forall₂ (fun d size => ∃ bytes, binary native p d = some bytes ∧ bytes.length = size)
      devices sizes := by
  induction devices generalizing p sizes with
  | nil =>
    rw [List.forall₂_nil_left_iff]
    exact ⟨fun h => (Except.ok.inj h).symm, fun h => congrArg Except.ok h.symm⟩
  | cons d devices ih =>
    have hone := binarySize_eq native p d
    rw [getBinarySizes, List.forall₂_cons_left_iff]
    cases hsize : binarySize native p d with
    | error e =>
      rw [hsize] at hone
      refine iff_of_false nofun ?_
      intro ⟨size, _, ⟨bytes, hbytes, _⟩, _⟩
      rw [hbytes] at hone
      cases hone
    | ok size =>
      rw [hsize] at hone
      obtain ⟨bytes, hbytes, hlength⟩ := Option.map_eq_some_iff.mp hone.symm
      have hrest : ∀ rest, getBinarySizes native (p.getState d).2 devices = .ok rest ↔
          List.Forall₂ (fun d size => ∃ bytes, binary native p d = some bytes ∧
            bytes.length = size) devices rest := by
        intro rest
        rw [ih]
        simp [binary_getState]
      constructor
      · intro h
        cases hsizes : getBinarySizes native (p.getState d).2 devices with
        | error e => rw [hsizes] at h; cases h
        | ok rest =>
          rw [hsizes] at h
          exact ⟨size, rest, ⟨bytes, hbytes, hlength⟩, (hrest rest).mp hsizes,
            (Except.ok.inj h).symm⟩
      · intro ⟨size', rest, ⟨bytes', hbytes', hlength'⟩, hall, heq⟩
        rw [hbytes] at hbytes'
        obtain rfl := Option.some.inj hbytes'
        rw [(hrest rest).mpr hall, heq, ← hlength', hlength]
        rfl

theorem getBinarySizes_some : (∃ sizes, getBinarySizes native p devices = .ok sizes) ↔
    ∀ d ∈ devices, binary native p d ≠ none := by
  simp only [getBinarySizes_ok]
  constructor
  · intro ⟨sizes, hall⟩ d hd hnone
    obtain ⟨i, hi, rfl⟩ := List.getElem_of_mem hd
    obtain ⟨bytes, hbytes, _⟩ := List.forall₂_iff_get.mp hall |>.2 i hi
      ((List.forall₂_iff_get.mp hall).1 ▸ hi)
    exact absurd (hbytes.symm.trans hnone) nofun
  · intro hall
    refine ⟨devices.map fun d => ((binary native p d).getD []).length, ?_⟩
    rw [List.forall₂_map_right_iff, List.forall₂_same]
    intro d hd
    obtain ⟨bytes, hbytes⟩ := Option.ne_none_iff_exists'.mp (hall d hd)
    exact ⟨bytes, hbytes, by rw [hbytes, Option.getD_some]⟩

/-- **The second loop comes to its end** if there are binaries for all. -/
theorem fetchBinaries_success {array : Option (Nat → Nat)} {i : Nat} :
    (fetchBinaries native array p i devices f).1 = .success ↔
      ∀ d ∈ devices, binary native p d ≠ none := by
  induction devices generalizing p i f with
  | nil => exact iff_of_true rfl (List.forall_mem_nil _)
  | cons d devices ih =>
    rw [fetchBinaries, List.forall_mem_cons]
    cases hbinary : binary native p d with
    | none =>
      refine iff_of_false (fun h => ?_) fun h => h.1 rfl
      have hstop := fetchBinary_none (array.map (· i)) f hbinary
      cases hfetch : fetchBinary native p d (array.map (· i)) f with
      | mk result f' =>
        rw [hfetch] at h hstop
        cases result with
        | success => exact hstop rfl
        | invalidProgram => cases h
        | driver code => cases h
    | some bytes =>
      obtain ⟨f', heq, _⟩ := fetchBinary_of_binary (f := f) hbinary
      rw [heq]
      simp [ih, binary_getState]

/-- **Each binary is written to its block.** -/
theorem fetchBinaries_memory {i : Nat} (hall : ∀ d ∈ devices, binary native p d ≠ none)
    (hnull : ∀ b ∈ blocks native p array i devices, b.1 = 0 ↔ b.2 = []) :
    (fetchBinaries native (some array) p i devices f).2.memory =
      (blocks native p array i devices).foldl (fun mem b => memcpy mem b.1 b.2) f.memory := by
  induction devices generalizing p i f with
  | nil => rfl
  | cons d devices ih =>
    have hblocks : ∀ i, blocks native (p.getState d).2 array i devices =
        blocks native p array i devices := by
      clear ih hall hnull
      intro i
      induction devices generalizing i with
      | nil => rfl
      | cons d' devices ih => rw [blocks, blocks, binary_getState, ih]
    obtain ⟨bytes, hbytes⟩ := Option.ne_none_iff_exists'.mp (hall d List.mem_cons_self)
    obtain ⟨f', heq, hmemory⟩ := fetchBinary_of_binary (f := f) hbytes
    rw [blocks, List.forall_mem_cons, hbytes] at hnull
    rw [fetchBinaries, heq, blocks, List.foldl_cons, hbytes, Option.getD_some,
      ← hmemory (array i) rfl hnull.1, ← hblocks]
    refine ih ?_ ?_
    · intro d' hd'
      rw [binary_getState]
      exact hall d' (List.mem_cons_of_mem _ hd')
    · rw [hblocks]
      exact hnull.2

/-! ## Blocks -/

theorem memcpy_inside {dst i : Nat} (h : i < bytes.length) :
    memcpy memory dst bytes (dst + i) = bytes[i] := by
  unfold memcpy
  rw [if_pos (Nat.le_add_right _ _), Nat.add_sub_cancel_left, List.getD_eq_getElem _ _ h]

theorem memcpy_outside {b : Block} {a : Nat} (h : ¬ b.Has a) :
    memcpy memory b.1 b.2 a = memory a := by
  unfold memcpy
  split
  next hle =>
    rw [List.getD_eq_default]
    by_contra hlt
    exact h ⟨hle, by omega⟩
  next => rfl

/-- **Blocks that are apart keep what is written to them.** -/
theorem received_foldl {bs : List Block}
    (h : bs.Pairwise fun b c => ∀ a, ¬ (b.Has a ∧ c.Has a)) :
    Received bs memory (bs.foldl (fun mem b => memcpy mem b.1 b.2) memory) := by
  induction bs generalizing memory with
  | nil => exact ⟨fun _ hb => absurd hb List.not_mem_nil, fun _ _ => rfl⟩
  | cons b bs ih =>
    obtain ⟨hb, hbs⟩ := List.pairwise_cons.mp h
    obtain ⟨hinside, houtside⟩ := ih hbs
    constructor
    · intro c hc i hi
      rcases List.mem_cons.mp hc with rfl | hc
      · rw [List.foldl_cons, houtside _ fun c' hc' hhas => ?_, memcpy_inside hi]
        exact hb c' hc' _ ⟨⟨by omega, by omega⟩, hhas⟩
      · exact hinside c hc i hi
    · intro a ha
      rw [List.forall_mem_cons] at ha
      rw [List.foldl_cons, houtside a ha.2, memcpy_outside ha.1]

/-! ## The call -/

theorem getBinaries_success {propSize : Nat} {propSizeRet : Option Nat} :
    (getBinaries native p propSize (some array) memory propSizeRet).1 = .success ↔
      (array 0 ≠ 0 → ∀ d ∈ p.associatedDevices, binary native p d ≠ none) := by
  unfold getBinaries
  by_cases hzero : array 0 = 0
  · rw [Option.map_some, if_pos (congrArg some hzero)]
    exact iff_of_true rfl fun h => absurd hzero h
  · rw [Option.map_some, if_neg fun hsome => hzero (Option.some.inj hsome), fetchBinaries_success]
    exact ⟨fun h _ => h, fun h => h hzero⟩

theorem mem_blocks {i : Nat} {b : Block} (h : b ∈ blocks native p array i devices) :
    ∃ d ∈ devices, b.2 = (binary native p d).getD [] := by
  induction devices generalizing i with
  | nil => exact absurd h List.not_mem_nil
  | cons d devices ih =>
    rcases List.mem_cons.mp h with rfl | h
    · exact ⟨d, List.mem_cons_self, rfl⟩
    · obtain ⟨d', hd', heq⟩ := ih h
      exact ⟨d', List.mem_cons_of_mem _ hd', heq⟩

theorem exists_block {i : Nat} (h : d ∈ devices) :
    ∃ b ∈ blocks native p array i devices, b.2 = (binary native p d).getD [] := by
  induction devices generalizing i with
  | nil => exact absurd h List.not_mem_nil
  | cons d' devices ih =>
    rcases List.mem_cons.mp h with rfl | h
    · exact ⟨_, List.mem_cons_self, rfl⟩
    · obtain ⟨b, hb, heq⟩ := ih (i := i + 1) h
      exact ⟨b, List.mem_cons_of_mem _ hb, heq⟩

/-- The first pointer is null for a first binary without bytes. -/
theorem head_null (hallocated : Allocated (blocks native p array 0 p.associatedDevices))
    (hne : p.associatedDevices ≠ []) (hall : ∀ d ∈ p.associatedDevices, binary native p d ≠ none) :
    array 0 = 0 ↔ p.associatedDevices.head?.bind (binary native p) = some [] := by
  cases hdevices : p.associatedDevices with
  | nil => exact absurd hdevices hne
  | cons d devices =>
    have hfirst := hallocated.null (array 0, (binary native p d).getD [])
      (by rw [hdevices]; exact List.mem_cons_self)
    obtain ⟨bytes, hbytes⟩ :=
      Option.ne_none_iff_exists'.mp (hall d (by rw [hdevices]; exact List.mem_cons_self))
    rw [List.head?_cons, Option.bind_some, hbytes, Option.some.injEq]
    rw [hbytes] at hfirst
    exact hfirst

/-- **When every device gets its own binary**, with its size. -/
theorem binaries_iff (native : NativeBinary) (p : Program) (propSize : Nat) (array : Nat → Nat) :
    BinariesRight native p propSize array ↔ BinariesFine native p propSize array := by
  constructor
  · intro h
    constructor
    · intro hshort
      have hreject := h.rejected hshort (fun _ => 0) none
      rw [ne_eq, getBinaries_success] at hreject
      push Not at hreject
      exact hreject
    · intro hall hfits hallocated hhead d hd
      obtain ⟨sizes, hsizes⟩ := getBinarySizes_some.mpr hall
      obtain ⟨bytes, hbytes⟩ := Option.ne_none_iff_exists'.mp (hall d hd)
      have hnull := (head_null hallocated (List.ne_nil_of_mem hd) hall).mpr hhead
      by_contra hne
      have hpos : 0 < bytes.length := by
        rw [hbytes, Option.some.injEq] at hne
        exact List.length_pos_iff.mpr hne
      obtain ⟨b, hb, hb2⟩ := exists_block (p := p) (i := 0) hd
      rw [hbytes] at hb2
      -- memory that has another byte where the binary should begin
      have hreceived := (h.received sizes hsizes hfits hallocated (fun _ => bytes[0] + 1) none).2
      have hbyte := hreceived.inside b hb 0 (by rw [hb2]; exact hpos)
      unfold getBinaries at hbyte
      rw [Option.map_some, if_pos (congrArg some hnull)] at hbyte
      simp only [hb2] at hbyte
      exact absurd hbyte (by simp)
  · intro h
    constructor
    · exact fun sizes hsizes => getBinarySizes_ok.mp hsizes
    · intro hshort memory propSizeRet hsuccess
      obtain ⟨hzero, d, hd, hnone⟩ := h.short hshort
      exact getBinaries_success.mp hsuccess hzero d hd hnone
    · intro sizes hsizes hfits hallocated memory propSizeRet
      have hall := getBinarySizes_some.mp ⟨sizes, hsizes⟩
      refine ⟨getBinaries_success.mpr fun _ => hall, ?_⟩
      unfold getBinaries
      by_cases hzero : array 0 = 0
      · rw [Option.map_some, if_pos (congrArg some hzero)]
        refine ⟨fun b hb i hi => ?_, fun a _ => rfl⟩
        obtain ⟨d, hd, hb2⟩ := mem_blocks hb
        have hempty := h.first hall hfits hallocated
          ((head_null hallocated (List.ne_nil_of_mem hd) hall).mp hzero) d hd
        rw [hb2, hempty] at hi
        exact absurd hi (Nat.not_lt_zero i)
      · rw [Option.map_some, if_neg fun hsome => hzero (Option.some.inj hsome),
          fetchBinaries_memory hall hallocated.null]
        exact received_foldl hallocated.apart

/-- A program that is built for the second of its devices only. -/
theorem first_empty_hides : ¬ ∀ (native : NativeBinary) (p : Program) (propSize : Nat)
    (array : Nat → Nat), BinariesRight native p propSize array := by
  intro h
  let p : Program :=
    { associatedDevices := [1, 2]
      deviceDataMap := [(1, {}), (2, { state := .Exe, zeModule := some 7 })] }
  have hright := h (fun _ => .ok [42]) p 16 (fun i => if i = 1 then 64 else 0)
  have hreceived := (hright.received [0, 1] rfl rfl ⟨by decide, ?_⟩ (fun _ => 0) none).2
  · exact absurd (hreceived.inside (64, [42]) (by decide) 0 (by decide)) (by decide)
  · exact List.pairwise_pair.mpr fun a ha => absurd ha.1.2 (Nat.not_lt_zero a)

end UnifiedRuntime.LevelZero.ProgramBinaries
