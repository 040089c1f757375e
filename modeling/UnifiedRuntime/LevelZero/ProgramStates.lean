import UnifiedRuntime.Lib.GuardedRuns
import UnifiedRuntime.LevelZero.Programs

/-!
# The states of programs

Runs of programs from IL and from native code, and of what is linked from them. A build stops at a
device that cannot be built, and leaves those before it built; so does a compile. A link returns
the result of its last device. A question after the state of a device that is not known makes a
record of it, as in IL.

- `buildDevices_spec`, `compile_spec`, `linkDevices_spec`: what the loops leave.
- `callRight_of_fine`: one call.
- `programs_sound`: runs whose calls avoid all this.
-/

namespace UnifiedRuntime.LevelZero.Programs

/-! ## Programs and their states -/

def World.record (w : World) (i : Nat) (d : ZeDevice) : Option DeviceData :=
  (w.programs[i]?).bind (·.find d)

def World.state (w : World) (i : Nat) (d : ZeDevice) : Option ProgramState :=
  (w.record i d).map (·.state)

/-- A module that can be used. -/
def Driver.Live (driver : Driver) (d : ZeDevice) (m : ZeModule) : Prop :=
  ∃ info, driver.modules[m]? = some info ∧ info.device = d ∧ info.failed = false ∧
    info.destroyed = 0

/-- What a call asks a module to be created from. -/
def World.requested (w : World) (i : Nat) (d : ZeDevice) : Call → List Input
  | .build _ _ options =>
    [((w.programs[i]?).bind (·.getCode d), buildOptions w.relaxed options)]
  | .link _ inputs _ _ => linkInputs w.programs inputs d
  | _ => []

/-- The flags that a compile asks for. -/
def compileFlags (relaxed : Bool) (options : Option String) (data : DeviceData) : String :=
  match options with
  | none => data.buildFlags
  | some options => if relaxed then options ++ relaxedOption else options

/-- A call has succeeded for every device. -/
def Succeeded (w w' : World) : Call → Prop
  | .build i devices _ => ∀ e ∈ devices, w'.state i e.1 = some .Exe
  | .compile i devices options => ∀ d ∈ devices, ∃ data data', w.record i d = some data ∧
      w'.record i d = some data' ∧ data'.state = .Object ∧
        data'.buildFlags = compileFlags w.relaxed options data
  | .link devices _ _ _ => ∀ e ∈ devices, w'.state w.programs.length e.1 = some .Exe
  | _ => True

/-- **A call is right**: it succeeds only for all its devices, a rejection changes nothing, no
record is made for a device that was not known, and a device is in Exe state just if it has a
live module, which is the one it had, or was created in this call as it was asked for. -/
structure CallRight (w : World) (c : Call) : Prop where
  success : (w.call c).1 = .success → Succeeded w (w.call c).2 c
  rejected : (w.call c).1 = .invalidOperation → ∀ i d, (w.call c).2.record i d = w.record i d
  unknown : ∀ i < w.programs.length, ∀ d, w.record i d = none → (w.call c).2.record i d = none
  module : ∀ i d data, (w.call c).2.record i d = some data →
    (data.state = .Exe ↔ ∃ m, data.zeModule = some m ∧ (w.call c).2.driver.Live d m)
  created : ∀ i d data' m, (w.call c).2.record i d = some data' → data'.state = .Exe →
    data'.zeModule = some m →
      (∃ data, w.record i d = some data ∧ data.state = .Exe ∧ data.zeModule = some m ∧
        (w.call c).2.driver.modules[m]? = w.driver.modules[m]?) ∨
      ∃ info, (w.call c).2.driver.modules[m]? = some info ∧ info.inputs = w.requested i d c

/-- The calls of these runs: the programs are there, and none is handed in, retained or released. -/
def Allowed (w : World) : Call → Prop
  | .createWithNativeHandle _ | .retain _ | .release _ => False
  | .build i _ _ | .compile i _ _ | .getState i _ => i < w.programs.length
  | .link _ inputs _ _ => ∀ i ∈ inputs, i < w.programs.length
  | _ => True

/-- Neither call of the driver fails. -/
def Answer.Ok (a : Answer) : Prop := a.create = none ∧ a.symbols = none

/-- The first device that is not built yet cannot be built, or all can; one that fails does not come
again. -/
def BuildFine (w : World) (i : Nat) (devices : List (ZeDevice × Answer)) : Prop :=
  (∃ pre e post, devices = pre ++ e :: post ∧ (∀ x ∈ pre, w.state i x.1 = some .Exe) ∧
    (w.state i e.1 = some .Object ∨ w.state i e.1 = some .Invalid)) ∨
  (∀ e ∈ devices, w.state i e.1 = some .Exe ∨ w.state i e.1 = some .IL ∨
    w.state i e.1 = some .Native) ∧
  devices.Pairwise fun e e' => e.1 = e'.1 → w.state i e.1 = some .Exe ∨ e.2.Ok

/-- The first device cannot be compiled, or each can. -/
def CompileFine (w : World) (i : Nat) (devices : List ZeDevice) : Prop :=
  (∃ d s, devices.head? = some d ∧ w.state i d = some s ∧ s ≠ .IL) ∨
  (∀ d ∈ devices, w.state i d = some .IL) ∧ devices.Nodup

/-- Up to the first that is not in Object state all are known. -/
def KnownFirst : List (Option ProgramState) → Prop
  | [] => True
  | none :: _ => False
  | some s :: rest => s = .Object → KnownFirst rest

/-- A build failure is the last device's, or another error ends the link. -/
def LinkFine (devices : List (ZeDevice × Answer)) : Prop :=
  (∃ e ∈ devices, e.2.create = some .moduleBuildFailure) →
    (devices.getLast?.any fun e => e.2.create = some .moduleBuildFailure) ∨
    ∃ e ∈ devices, e.2.create ≠ some .moduleBuildFailure ∧ ¬ e.2.Ok

/-- **No call meets a defect.** -/
def Fine (w : World) : Call → Prop
  | .build i devices _ => BuildFine w i devices
  | .compile i devices _ => CompileFine w i devices
  | .getState i d => w.record i d ≠ none
  | .link devices inputs options _ => (∀ e ∈ devices, w.isValidDevice e.1 = true) → options = "" →
    KnownFirst (inputs.flatMap fun i => devices.map fun e => w.state i e.1) ∧ LinkFine devices
  | _ => True

/-! ## The invariant -/

/-- The record of a device is as its state says: its module is live just in Exe state, and there is
code where it is to be built. -/
structure RecordOk (spirvCode : Option (List UInt8)) (driver : Driver) (d : ZeDevice)
    (data : DeviceData) : Prop where
  held : ∀ m, data.zeModule = some m → ∃ info, driver.modules[m]? = some info ∧
    info.device = d ∧ info.destroyed = 0 ∧ (info.failed = false ↔ data.state = .Exe)
  exe : data.state = .Exe → data.zeModule ≠ none
  il : data.state = .IL → spirvCode ≠ none
  native : data.state = .Native → data.binary ≠ none

structure ProgramOk (driver : Driver) (p : Program) : Prop where
  interop : p.interopZeModule = none
  record : ∀ d data, p.find d = some data → RecordOk p.spirvCode driver d data

def Inv (w : World) : Prop := ∀ p ∈ w.programs, ProgramOk w.driver p

/-- The modules are as they were, and there may be more. -/
def Driver.Extends (driver driver' : Driver) : Prop :=
  ∀ (m : ZeModule) (info : Module), driver.modules[m]? = some info → driver'.modules[m]? = some info

/-- The record of one device is replaced. -/
structure Replaced (p : Program) (d : ZeDevice) (data' : DeviceData) (p' : Program) : Prop where
  interop : p'.interopZeModule = p.interopZeModule
  spirvCode : p'.spirvCode = p.spirvCode
  find : ∀ d', p'.find d' = if d' = d then some data' else p.find d'

variable {driver driver' : Driver} {p p' : Program} {d d' : ZeDevice} {data data' : DeviceData}
  {a : Answer} {options : String} {inputs : List Input} {m : ZeModule}

theorem RecordOk.live_iff {spirvCode : Option (List UInt8)} (h : RecordOk spirvCode driver d data) :
    data.state = .Exe ↔ ∃ m, data.zeModule = some m ∧ driver.Live d m := by
  constructor
  · intro hexe
    obtain ⟨m, hm⟩ := Option.ne_none_iff_exists'.mp (h.exe hexe)
    obtain ⟨info, hinfo, hdevice, hdestroyed, hfailed⟩ := h.held m hm
    exact ⟨m, hm, info, hinfo, hdevice, hfailed.mpr hexe, hdestroyed⟩
  · intro ⟨m, hm, info, hinfo, _, hnot, _⟩
    obtain ⟨info', hinfo', _, _, hfailed⟩ := h.held m hm
    obtain rfl := Option.some.inj (hinfo.symm.trans hinfo')
    exact hfailed.mp hnot

theorem RecordOk.extends {spirvCode : Option (List UInt8)} (h : RecordOk spirvCode driver d data)
    (hext : driver.Extends driver') : RecordOk spirvCode driver' d data := by
  refine ⟨fun m hm => ?_, h.exe, h.il, h.native⟩
  obtain ⟨info, hinfo, hrest⟩ := h.held m hm
  exact ⟨info, hext m info hinfo, hrest⟩

theorem ProgramOk.extends (h : ProgramOk driver p) (hext : driver.Extends driver') :
    ProgramOk driver' p :=
  ⟨h.interop, fun d data hfind => (h.record d data hfind).extends hext⟩

theorem ProgramOk.replaced (h : ProgramOk driver p) (hext : driver.Extends driver')
    (hreplaced : Replaced p d data' p') (hdata : RecordOk p.spirvCode driver' d data') :
    ProgramOk driver' p' := by
  refine ⟨hreplaced.interop.trans h.interop, fun d' data hfind => ?_⟩
  rw [hreplaced.find] at hfind
  rw [hreplaced.spirvCode]
  by_cases hd : d' = d
  · rw [if_pos hd] at hfind
    rw [hd, ← Option.some.inj hfind]
    exact hdata
  · rw [if_neg hd] at hfind
    exact (h.record d' data hfind).extends hext

/-! ## The driver -/

theorem Driver.Extends.trans {driver'' : Driver} (h : driver.Extends driver')
    (h' : driver'.Extends driver'') : driver.Extends driver'' :=
  fun m info hinfo => h' m info (h m info hinfo)

theorem addLog_modules {owner : Option ZeModule} {gives : Bool} :
    (driver.addLog owner gives).1.modules = driver.modules := by
  unfold Driver.addLog
  split
  next => rfl
  next => rfl

theorem check_modules (driver : Driver) (m : ZeModule) (log : Option ZeBuildLog) (a : Answer) :
    (driver.checkUnresolvedSymbols m log a).1.modules = driver.modules := by
  unfold Driver.checkUnresolvedSymbols
  split
  next => exact addLog_modules
  next => rfl

/-- **What is created**: one more module, unless it fails without one. -/
theorem create_cases (driver : Driver) (d : ZeDevice) (inputs : List Input) (a : Answer) :
    (driver.create d inputs a).2.1 = some driver.modules.length ∧
    (driver.create d inputs a).1.modules = driver.modules ++
      [{ device := d, inputs := inputs, failed := a.create.isSome }] ∨
    a.create ≠ none ∧ (driver.create d inputs a).2.1 = none ∧
      (driver.create d inputs a).1.modules = driver.modules := by
  unfold Driver.create
  split
  next => exact .inl ⟨rfl, addLog_modules⟩
  next h =>
    refine .inr ⟨fun hnone => h (by rw [hnone]; rfl), rfl, addLog_modules⟩

/-- Modules from the driver's next on can come and go. -/
theorem extends_of_modules {added : List Module} (h : driver'.modules = driver.modules ++ added) :
    driver.Extends driver' := by
  intro m info hinfo
  rw [h, List.getElem?_append_left (List.getElem?_eq_some_iff.mp hinfo).1]
  exact hinfo

theorem create_extends (driver : Driver) (d : ZeDevice) (inputs : List Input) (a : Answer) :
    driver.Extends (driver.create d inputs a).1 := by
  rcases create_cases driver d inputs a with ⟨_, hmodules⟩ | ⟨_, _, hmodules⟩
  · exact extends_of_modules hmodules
  · exact extends_of_modules (hmodules.trans (List.append_nil _).symm)

theorem destroy_extends (hext : driver.Extends driver') {m : Option ZeModule}
    (hm : ∀ k, m = some k → driver.modules.length ≤ k) :
    driver.Extends (driver'.destroyModule? m) := by
  intro k info hinfo
  have hlt := (List.getElem?_eq_some_iff.mp hinfo).1
  cases m with
  | none => exact hext k info hinfo
  | some j =>
    show (driver'.modules.modify j _)[k]? = _
    have hle := hm j rfl
    rw [List.getElem?_modify, hext k info hinfo, Option.map_eq_map, Option.map_some,
      if_neg (by omega)]

/-! ## Building -/

/-- What one device of a build is left with. -/
structure DeviceBuilt (options : String) (d : ZeDevice) (a : Answer) (p : Program)
    (driver : Driver) (data' : DeviceData) (verdict : Option ProgramResult) (p' : Program)
    (driver' : Driver) : Prop where
  extends_ : driver.Extends driver'
  replaced : Replaced p d data' p'
  record : RecordOk p.spirvCode driver' d data'
  verdict : a.Ok ∧ verdict = none ∧ data'.state = .Exe ∧ (∃ m info, data'.zeModule = some m ∧
      driver'.modules[m]? = some info ∧ info.inputs = [(p.getCode d, options)]) ∨
    ¬ a.Ok ∧ data'.state = .Invalid ∧
      ∃ r, verdict = some r ∧ r ≠ .success ∧ r ≠ .invalidOperation

theorem ze2urResult_ne (e : ZeFailure) :
    ze2urResult e ≠ .success ∧ ze2urResult e ≠ .invalidOperation := by
  cases e with
  | moduleBuildFailure => exact ⟨nofun, nofun⟩
  | moduleLinkFailure => exact ⟨nofun, nofun⟩
  | other code => exact ⟨nofun, nofun⟩

/-- **A device that can be built** is built or invalid. -/
theorem buildDevice_spec (options : String) (a : Answer) (hok : ProgramOk driver p) (hfind : p.find d = some data)
    (hstate : data.state = .IL ∨ data.state = .Native) :
    ∃ data' verdict p' driver', buildDevice options d a p driver = (.ok verdict, p', driver') ∧
      DeviceBuilt options d a p driver data' verdict p' driver' := by
  have hrecord := hok.record d data hfind
  obtain ⟨code, hcode⟩ : ∃ code, p.getCode d = some code := by
    unfold Program.getCode
    rw [hfind]
    dsimp only
    rcases hstate with hil | hnative
    · rw [if_pos hil]
      exact Option.ne_none_iff_exists'.mp (hrecord.il hil)
    · rw [if_neg (by rw [hnative]; exact nofun)]
      exact Option.ne_none_iff_exists'.mp (hrecord.native hnative)
  have hbuild : buildDevice options d a p driver =
      (.ok (buildModule options d code a p driver).1,
        (buildModule options d code a p driver).2) := by
    unfold buildDevice
    rw [Program.getState_some hfind]
    rcases hstate with h | h
    · simp [h, hcode]
    · simp [h, hcode]
  rw [hbuild]
  unfold buildModule
  have hcreate := create_cases driver d [(some code, options)] a
  have hext := create_extends driver d [(some code, options)] a
  rcases hdriver : driver.create d [(some code, options)] a with ⟨driver', m, log⟩
  rw [hdriver] at hcreate hext
  dsimp only at hcreate
  have hnew : ∀ k, m = some k → driver.modules.length ≤ k := by
    intro k hk
    rcases hcreate with ⟨hm, _⟩ | ⟨_, hm, _⟩
    · rw [hm] at hk
      exact Nat.le_of_eq (Option.some.inj hk)
    · rw [hm] at hk
      cases hk
  have hnotExe : data.state ≠ .Exe := by
    rcases hstate with h | h
    · rw [h]
      exact nofun
    · rw [h]
      exact nofun
  -- a device without a module, or with unresolved symbols, is invalid
  cases hfail : a.create with
  | some e =>
    have hkept : driver.Extends (driver'.destroyModule? m) := destroy_extends hext hnew
    refine ⟨{ data with state := .Invalid, zeBuildLog := log }, _, _, _, rfl, hkept,
      ⟨rfl, rfl, fun d' => ?_⟩, ⟨fun k hk => ?_, nofun, nofun, nofun⟩,
      .inr ⟨fun h => (nomatch h.1.symm.trans hfail), rfl, _, rfl, ze2urResult_ne e⟩⟩
    · unfold Program.setState Program.setBuildLog
      by_cases hd : d' = d <;> simp [hd, hfind]
    · obtain ⟨info, hinfo, hdevice, hdestroyed, hfailed⟩ := hrecord.held k hk
      refine ⟨info, hkept k info hinfo, hdevice, hdestroyed, ?_⟩
      exact iff_of_false (fun h => hnotExe (hfailed.mp h)) nofun
  | none =>
    obtain ⟨hm, hmodules⟩ := hcreate.resolve_right fun h => h.1 hfail
    dsimp only
    rcases hcheck : driver'.checkUnresolvedSymbols (m.getD 0) log a with ⟨driver'', log'⟩
    have hmodules' : driver''.modules = driver'.modules := by
      have := check_modules driver' (m.getD 0) log a
      rwa [hcheck] at this
    have hext' : driver.Extends driver'' := extends_of_modules (hmodules'.trans hmodules)
    cases hsymbols : a.symbols with
    | some e =>
      have hkept : driver.Extends (driver''.destroyModule? m) := destroy_extends hext' hnew
      refine ⟨{ data with state := .Invalid, zeModule := none, zeBuildLog := log' }, _, _, _, rfl,
        hkept, ⟨rfl, rfl, fun d' => ?_⟩, ⟨nofun, nofun, nofun, nofun⟩,
        .inr ⟨fun h => (nomatch h.2.symm.trans hsymbols), rfl, _, rfl, ?_⟩⟩
      · unfold Program.setState Program.setBuildLog Program.setZeModule
        by_cases hd : d' = d <;> simp [hd, hfind]
      · split
        next => exact ⟨nofun, nofun⟩
        next => exact ze2urResult_ne e
    | none =>
      have hinfo : driver''.modules[driver.modules.length]? =
          some { device := d, inputs := [(some code, options)], failed := a.create.isSome } := by
        rw [hmodules', hmodules]
        exact List.getElem?_concat_length
      refine ⟨{ data with state := .Exe, zeModule := m, zeBuildLog := log' }, _, _, _, rfl, hext',
        ⟨rfl, rfl, fun d' => ?_⟩, ⟨fun k hk => ?_, fun _ => by rw [hm]; exact nofun, nofun, nofun⟩,
        .inl ⟨⟨hfail, hsymbols⟩, rfl, rfl, _, _, hm, hinfo, by rw [hcode]⟩⟩
      · unfold Program.setState Program.setBuildLog Program.setZeModule
        by_cases hd : d' = d <;> simp [hd, hfind]
      · obtain rfl := Option.some.inj (hm.symm.trans hk)
        exact ⟨_, hinfo, rfl, rfl, by rw [hfail]; exact iff_of_true rfl rfl⟩

/-- What a loop over devices leaves of a program: the invariant, no new records, those in Exe state
as they were, and modules as they were asked for where others are in that state now. -/
structure LoopLeaves (asked : ZeDevice → List Input) (p : Program) (driver : Driver) (p' : Program)
    (driver' : Driver) : Prop where
  ok : ProgramOk driver' p'
  extends_ : driver.Extends driver'
  unknown : ∀ d, p.find d = none → p'.find d = none
  exe : ∀ d data, p.find d = some data → data.state = .Exe → p'.find d = some data
  created : ∀ d data', p'.find d = some data' → data'.state = .Exe → p'.find d = p.find d ∨
    (∃ data, p.find d = some data ∧ (data.state = .IL ∨ data.state = .Native)) ∧
    ∃ m info, data'.zeModule = some m ∧ driver'.modules[m]? = some info ∧ info.inputs = asked d

variable {devices : List (ZeDevice × Answer)} {result : ProgramResult}

/-- **Devices that can be built.** -/
theorem buildDevices_spec (hok : ProgramOk driver p)
    (hstates : ∀ e ∈ devices, ∃ data, p.find e.1 = some data ∧
      (data.state = .Exe ∨ data.state = .IL ∨ data.state = .Native))
    (hagain : devices.Pairwise fun e e' => e.1 = e'.1 →
      ((p.find e.1).map (·.state) = some .Exe ∨ e.2.Ok))
    (hresult : result ≠ .invalidOperation) :
    ∃ r p' driver', buildDevices options devices result p driver = (r, p', driver') ∧
      r ≠ .invalidOperation ∧
      LoopLeaves (fun d => [(p.getCode d, options)]) p driver p' driver' ∧
      (r = .success → result = .success ∧
        ∀ e ∈ devices, (p'.find e.1).map (·.state) = some .Exe) := by
  induction devices generalizing p driver result with
  | nil =>
    refine ⟨result, p, driver, rfl, hresult, ⟨hok, fun _ _ h => h, fun _ h => h, fun _ _ h _ => h,
      fun d data' _ _ => .inl rfl⟩, fun h => ⟨h, nofun⟩⟩
  | cons e devices ih =>
    obtain ⟨d, a⟩ := e
    obtain ⟨data, hfind, hstate⟩ := hstates _ List.mem_cons_self
    rw [List.pairwise_cons] at hagain
    by_cases hexe : data.state = .Exe
    · -- it is passed over
      have hskip : buildDevice options d a p driver = (.ok none, p, driver) := by
        unfold buildDevice
        rw [Program.getState_some hfind, hexe]
      obtain ⟨r, p', driver', heq, hne, hleaves, hsuccess⟩ := ih hok
        (fun e he => hstates e (List.mem_cons_of_mem _ he)) hagain.2 hresult
      refine ⟨r, p', driver', by rw [buildDevices, hskip]; exact heq, hne, hleaves, fun hr => ?_⟩
      refine ⟨(hsuccess hr).1, List.forall_mem_cons.mpr ⟨?_, (hsuccess hr).2⟩⟩
      rw [hleaves.exe d data hfind hexe, Option.map_some, hexe]
    · have hbuildable := hstate.resolve_left hexe
      obtain ⟨data', verdict, p1, driver1, heq, hbuilt⟩ :=
        buildDevice_spec options a hok hfind hbuildable
      have hok1 := hok.replaced hbuilt.extends_ hbuilt.replaced hbuilt.record
      have hother : ∀ d', d' ≠ d → p1.find d' = p.find d' := fun d' hd => by
        rw [hbuilt.replaced.find, if_neg hd]
      have hown : p1.find d = some data' := by rw [hbuilt.replaced.find, if_pos rfl]
      have hnext : ∀ e ∈ devices, e.1 = d → a.Ok := by
        intro e he hed
        rcases hagain.1 e he hed.symm with h | h
        · rw [hfind] at h
          exact absurd (Option.some.inj h) hexe
        · exact h
      have hstates1 : ∀ e ∈ devices, ∃ data, p1.find e.1 = some data ∧
          (data.state = .Exe ∨ data.state = .IL ∨ data.state = .Native) := by
        intro e he
        by_cases hed : e.1 = d
        · rw [hed]
          refine ⟨data', hown, .inl ?_⟩
          rcases hbuilt.verdict with ⟨_, _, h, _⟩ | ⟨h, _⟩
          · exact h
          · exact absurd (hnext e he hed) h
        · rw [hother _ hed]
          exact hstates e (List.mem_cons_of_mem _ he)
      have hagain1 : devices.Pairwise fun e e' => e.1 = e'.1 →
          ((p1.find e.1).map (·.state) = some .Exe ∨ e.2.Ok) := by
        refine hagain.2.imp_of_mem fun {e e'} he _ h heq => ?_
        by_cases hed : e.1 = d
        · left
          rcases hbuilt.verdict with ⟨_, _, h, _⟩ | ⟨h, _⟩
          · rw [hed, hown, Option.map_some, h]
          · exact absurd (hnext e he hed) h
        · rw [hother _ hed]
          exact h heq
      have hresult1 : verdict.getD result ≠ .invalidOperation := by
        rcases hbuilt.verdict with ⟨_, h, _⟩ | ⟨_, _, r, h, _, hne⟩
        · rw [h]
          exact hresult
        · rw [h]
          exact hne
      obtain ⟨r, p', driver', heq', hne, hleaves, hsuccess⟩ := ih hok1 hstates1 hagain1 hresult1
      refine ⟨r, p', driver', by rw [buildDevices, heq]; exact heq', hne, ?_, fun hr => ?_⟩
      · refine ⟨hleaves.ok, hbuilt.extends_.trans hleaves.extends_, fun d' hd' => ?_,
          fun d' data1 hfind1 hexe1 => ?_, fun d' data1 hfind1 hexe1 => ?_⟩
        · have hne : d' ≠ d := by
            rintro rfl
            rw [hfind] at hd'
            cases hd'
          exact hleaves.unknown d' ((hother d' hne).trans hd')
        · have hne : d' ≠ d := by
            rintro rfl
            rw [hfind] at hfind1
            exact hexe (Option.some.inj hfind1 ▸ hexe1)
          exact hleaves.exe d' data1 ((hother d' hne).trans hfind1) hexe1
        · rcases hleaves.created d' data1 hfind1 hexe1 with hsame | ⟨⟨old, hold, holdState⟩, hnew⟩
          · by_cases hd : d' = d
            · -- the module of this very device
              subst hd
              right
              refine ⟨⟨data, hfind, hbuildable⟩, ?_⟩
              rw [hsame, hown] at hfind1
              obtain rfl := Option.some.inj hfind1
              rcases hbuilt.verdict with ⟨_, _, _, m, info, hm, hinfo, hinputs⟩ | ⟨_, h, _⟩
              · exact ⟨m, info, hm, hleaves.extends_ m info hinfo, hinputs⟩
              · rw [h] at hexe1
                cases hexe1
            · left
              rw [hsame, hother d' hd]
          · have hd : d' ≠ d := by
              rintro rfl
              obtain rfl := Option.some.inj (hown.symm.trans hold)
              rcases hbuilt.verdict with ⟨_, _, h, _⟩ | ⟨_, h, _⟩
              · simp [h] at holdState
              · simp [h] at holdState
            have hcode : p1.getCode d' = p.getCode d' := by
              unfold Program.getCode
              rw [hother d' hd, hbuilt.replaced.spirvCode]
            rw [hother d' hd] at hold
            rw [hcode] at hnew
            exact .inr ⟨⟨old, hold, holdState⟩, hnew⟩
      · obtain ⟨hverdict, hall⟩ := hsuccess hr
        rcases hbuilt.verdict with ⟨_, hnone, h, _⟩ | ⟨_, _, r', hsome, hne, _⟩
        · rw [hnone] at hverdict
          refine ⟨hverdict, List.forall_mem_cons.mpr ⟨?_, hall⟩⟩
          rw [hleaves.exe d data' hown h, Option.map_some, h]
        · rw [hsome] at hverdict
          exact absurd hverdict hne

/-- **A build that is turned down before a device is built.** -/
theorem buildDevices_rejected {pre post : List (ZeDevice × Answer)} {e : ZeDevice × Answer}
    (hpre : ∀ x ∈ pre, (p.find x.1).map (·.state) = some .Exe)
    (he : (p.find e.1).map (·.state) = some .Object ∨ (p.find e.1).map (·.state) = some .Invalid) :
    buildDevices options (pre ++ e :: post) result p driver = (.invalidOperation, p, driver) := by
  induction pre with
  | nil =>
    have hstop : buildDevice options e.1 e.2 p driver = (.error .invalidOperation, p, driver) := by
      unfold buildDevice
      rcases he with h | h
      · obtain ⟨data, hfind, hstate⟩ := Option.map_eq_some_iff.mp h
        rw [Program.getState_some hfind, hstate]
      · obtain ⟨data, hfind, hstate⟩ := Option.map_eq_some_iff.mp h
        rw [Program.getState_some hfind, hstate]
    rw [List.nil_append, buildDevices, hstop]
  | cons x pre ih =>
    obtain ⟨data, hfind, hstate⟩ := Option.map_eq_some_iff.mp (hpre x List.mem_cons_self)
    have hskip : buildDevice options x.1 x.2 p driver = (.ok none, p, driver) := by
      unfold buildDevice
      rw [Program.getState_some hfind, hstate]
    rw [List.cons_append, buildDevices, hskip]
    exact ih fun x hx => hpre x (List.mem_cons_of_mem _ hx)

/-! ## Compiling -/

variable {relaxed : Bool} {options? : Option String} {ds : List ZeDevice}

/-- The record of a device that is compiled. -/
def compiled (relaxed : Bool) (options? : Option String) (data : DeviceData) : DeviceData :=
  { data with state := .Object, buildFlags := compileFlags relaxed options? data }

theorem compile_replaced (relaxed : Bool) (options? : Option String) (hfind : p.find d = some data) :
    Replaced p d (compiled relaxed options? data)
      ((compileOptions relaxed options? d (p.setState d .Object)).setState d .Object) := by
  unfold compileOptions compiled compileFlags
  cases options? with
  | none =>
    refine ⟨rfl, rfl, fun d' => ?_⟩
    unfold Program.setState
    by_cases hd : d' = d <;> simp [hd, hfind]
  | some options =>
    cases relaxed with
    | true =>
      refine ⟨rfl, rfl, fun d' => ?_⟩
      unfold Program.setState Program.appendBuildOptions Program.setBuildOptions
      by_cases hd : d' = d <;> simp [hd, hfind]
    | false =>
      refine ⟨rfl, rfl, fun d' => ?_⟩
      unfold Program.setState Program.setBuildOptions
      by_cases hd : d' = d <;> simp [hd, hfind]

/-- **Devices that can be compiled**, each once. -/
theorem compile_spec (hil : ∀ d ∈ ds, (p.find d).map (·.state) = some .IL) (hnodup : ds.Nodup) :
    ∃ p', urProgramCompileExp relaxed options? ds p = (.success, p') ∧
      p'.interopZeModule = p.interopZeModule ∧ p'.spirvCode = p.spirvCode ∧
      ∀ d, p'.find d = if d ∈ ds then (p.find d).map (compiled relaxed options?) else p.find d := by
  induction ds generalizing p with
  | nil => exact ⟨p, rfl, rfl, rfl, fun d => (if_neg List.not_mem_nil).symm⟩
  | cons d ds ih =>
    obtain ⟨data, hfind, hstate⟩ := Option.map_eq_some_iff.mp (hil d List.mem_cons_self)
    obtain ⟨hnot, hnodup⟩ := List.nodup_cons.mp hnodup
    have hreplaced := compile_replaced relaxed options? hfind
    have hstep : urProgramCompileExp relaxed options? (d :: ds) p =
        urProgramCompileExp relaxed options? ds
          ((compileOptions relaxed options? d (p.setState d .Object)).setState d .Object) := by
      rw [urProgramCompileExp, Program.getState_some hfind, hstate, if_neg (not_not.mpr rfl)]
    rw [hstep]
    revert hreplaced
    generalize (compileOptions relaxed options? d (p.setState d .Object)).setState d .Object = p1
    intro hreplaced
    have hother : ∀ d' ∈ ds, p1.find d' = p.find d' := by
      intro d' hd'
      have hd : d' ≠ d := fun h => hnot (h ▸ hd')
      rw [hreplaced.find, if_neg hd]
    obtain ⟨p', heq, hinterop, hspirv, hfind'⟩ := ih (fun d' hd' => by
      rw [hother d' hd']
      exact hil d' (List.mem_cons_of_mem _ hd')) hnodup
    refine ⟨p', heq, hinterop.trans hreplaced.interop, hspirv.trans hreplaced.spirvCode,
      fun d' => ?_⟩
    rw [hfind' d']
    by_cases hmem : d' ∈ ds
    · rw [if_pos hmem, if_pos (List.mem_cons_of_mem _ hmem), hother d' hmem]
    · rw [if_neg hmem, hreplaced.find]
      by_cases hd : d' = d
      · rw [if_pos hd, hd, if_pos List.mem_cons_self, hfind, Option.map_some]
      · rw [if_neg hd, if_neg fun h => (List.mem_cons.mp h).elim hd hmem]

/-! ## Linking -/

/-- What one device of a link is left with. -/
structure DeviceLinked (asked : ZeDevice → List Input) (d : ZeDevice) (a : Answer) (p : Program)
    (driver : Driver) (data' : DeviceData) (r : ProgramResult) (p' : Program) (driver' : Driver) :
    Prop where
  replaced : Replaced p d data' p'
  record : RecordOk p.spirvCode driver' d data'
  verdict : a.Ok ∧ r = .success ∧ data'.state = .Exe ∧ (∃ m info, data'.zeModule = some m ∧
      driver'.modules[m]? = some info ∧ info.inputs = asked d) ∨
    a.create = some .moduleBuildFailure ∧ r = .buildFailure ∧ data'.state = .Invalid

variable {asked : ZeDevice → List Input}

/-- **One device of a link** ends the loop, is in Exe state, or has a build failure. -/
theorem linkDevice_spec : ∃ v p' driver', linkDevice asked d a p driver = (v, p', driver') ∧
    driver.Extends driver' ∧
    ((∃ r, v = .error r ∧ r ≠ .success ∧ r ≠ .invalidOperation ∧ p' = p ∧
      a.create ≠ some .moduleBuildFailure ∧ ¬ a.Ok) ∨
    ∃ r data', v = .ok r ∧ DeviceLinked asked d a p driver data' r p' driver') := by
  unfold linkDevice
  have hcreate := create_cases driver d (asked d) a
  have hext := create_extends driver d (asked d) a
  rcases hdriver : driver.create d (asked d) a with ⟨driver', m, log⟩
  rw [hdriver] at hcreate hext
  dsimp only at hcreate
  have hreplaced : ∀ (p : Program) log state, Replaced p d
      { (p.find d).getD {} with zeModule := m, zeBuildLog := log, state := state }
      (((p.setZeModule d m).setBuildLog d log).setState d state) := by
    intro p log state
    refine ⟨rfl, rfl, fun d' => ?_⟩
    unfold Program.setState Program.setBuildLog Program.setZeModule
    by_cases hd : d' = d <;> simp [hd]
  cases hfail : a.create with
  | some e =>
    dsimp only
    by_cases he : e = .moduleBuildFailure
    · subst he
      refine ⟨_, _, _, rfl, hext, .inr ⟨_, _, rfl, hreplaced p log .Invalid, ⟨fun k hk => ?_, nofun,
        nofun, nofun⟩, .inr ⟨hfail, rfl, rfl⟩⟩⟩
      rcases hcreate with ⟨hm, hmodules⟩ | ⟨_, hm, _⟩
      · obtain rfl := Option.some.inj (hm.symm.trans hk)
        refine ⟨_, by rw [hmodules]; exact List.getElem?_concat_length, rfl, rfl, ?_⟩
        rw [hfail]
        exact iff_of_false nofun nofun
      · exact absurd (hm.symm.trans hk) nofun
    · rw [if_pos he]
      refine ⟨_, _, _, rfl, hext, .inl ⟨_, rfl, (ze2urResult_ne e).1, (ze2urResult_ne e).2, rfl,
        fun h => he (Option.some.inj h), fun h => ?_⟩⟩
      exact absurd (h.1.symm.trans hfail) nofun
  | none =>
    obtain ⟨hm, hmodules⟩ := hcreate.resolve_right fun h => h.1 hfail
    dsimp only
    rcases hcheck : driver'.checkUnresolvedSymbols (m.getD 0) log a with ⟨driver'', log'⟩
    have hmodules' : driver''.modules = driver.modules ++
        [{ device := d, inputs := asked d, failed := a.create.isSome }] := by
      have := check_modules driver' (m.getD 0) log a
      rw [hcheck] at this
      exact this.trans hmodules
    have hext' : driver.Extends driver'' := extends_of_modules hmodules'
    cases hsymbols : a.symbols with
    | some e =>
      refine ⟨_, _, _, rfl, hext', .inl ⟨_, rfl, (ze2urResult_ne e).1, (ze2urResult_ne e).2, rfl,
        nofun, fun h => (nomatch h.2.symm.trans hsymbols)⟩⟩
    | none =>
      have hinfo : driver''.modules[driver.modules.length]? =
          some { device := d, inputs := asked d, failed := a.create.isSome } := by
        rw [hmodules']
        exact List.getElem?_concat_length
      refine ⟨_, _, _, rfl, hext', .inr ⟨_, _, rfl, hreplaced p log' .Exe, ⟨fun k hk => ?_,
        fun _ => by rw [hm]; exact nofun, nofun, nofun⟩,
        .inl ⟨⟨hfail, hsymbols⟩, rfl, rfl, _, _, hm, hinfo, rfl⟩⟩⟩
      obtain rfl := Option.some.inj (hm.symm.trans hk)
      exact ⟨_, hinfo, rfl, rfl, by rw [hfail]; exact iff_of_true rfl rfl⟩

/-- **The devices of a link**: those in Exe state are as they were or as they were asked for. -/
theorem linkDevices_spec (hok : ProgramOk driver p) (hresult : result ≠ .invalidOperation) :
    ∃ r p' driver', linkDevices asked devices result p driver = (r, p', driver') ∧
      r ≠ .invalidOperation ∧ ProgramOk driver' p' ∧ driver.Extends driver' ∧
      ∀ d data', p'.find d = some data' → data'.state = .Exe → p'.find d = p.find d ∨
        ∃ m info, data'.zeModule = some m ∧ driver'.modules[m]? = some info ∧
          info.inputs = asked d := by
  induction devices generalizing p driver result with
  | nil => exact ⟨result, p, driver, rfl, hresult, hok, fun _ _ h => h, fun _ _ _ _ => .inl rfl⟩
  | cons e devices ih =>
    obtain ⟨v, p1, driver1, heq, hext, hcase⟩ :=
      linkDevice_spec (d := e.1) (a := e.2) (p := p)
    rcases hcase with ⟨r, rfl, _, hne, rfl, _⟩ | ⟨r, data', rfl, hlinked⟩
    · exact ⟨r, p1, driver1, by rw [linkDevices, heq], hne, hok.extends hext, hext,
        fun _ _ _ _ => .inl rfl⟩
    · have hne : r ≠ .invalidOperation := by
        rcases hlinked.verdict with ⟨_, h, _⟩ | ⟨_, h, _⟩
        · rw [h]
          exact nofun
        · rw [h]
          exact nofun
      obtain ⟨r', p', driver', heq', hne', hok', hext', hcreated⟩ :=
        ih (hok.replaced hext hlinked.replaced hlinked.record) hne
      refine ⟨r', p', driver', by rw [linkDevices, heq]; exact heq', hne', hok', hext.trans hext',
        fun d data1 hfind hexe => ?_⟩
      rcases hcreated d data1 hfind hexe with hsame | hnew
      · rw [hlinked.replaced.find] at hsame
        by_cases hd : d = e.1
        · rw [if_pos hd] at hsame
          obtain rfl := Option.some.inj (hsame.symm.trans hfind)
          right
          rcases hlinked.verdict with ⟨_, _, _, m, info, hm, hinfo, hinputs⟩ | ⟨_, _, h⟩
          · exact ⟨m, info, hm, hext' m info hinfo, by rw [hd]; exact hinputs⟩
          · rw [h] at hexe
            cases hexe
        · rw [if_neg hd] at hsame
          exact .inl hsame
      · exact .inr hnew

/-- A link that succeeds has met no error but build failures, and none for its last device. -/
theorem linkDevices_success (h : (linkDevices asked devices result p driver).1 = .success) :
    (∀ e ∈ devices, e.2.Ok ∨ e.2.create = some .moduleBuildFailure) ∧
      (devices.getLast?.any fun e => e.2.create = some .moduleBuildFailure) = false := by
  induction devices generalizing p driver result with
  | nil => exact ⟨nofun, rfl⟩
  | cons e devices ih =>
    obtain ⟨v, p1, driver1, heq, _, hcase⟩ :=
      linkDevice_spec (d := e.1) (a := e.2) (p := p)
    rw [linkDevices, heq] at h
    rcases hcase with ⟨r, rfl, hne, _⟩ | ⟨r, data', rfl, hlinked⟩
    · exact absurd h hne
    · obtain ⟨hall, hlast⟩ := ih h
      have hfirst : e.2.Ok ∨ e.2.create = some .moduleBuildFailure :=
        hlinked.verdict.imp (·.1) (·.1)
      refine ⟨List.forall_mem_cons.mpr ⟨hfirst, hall⟩, ?_⟩
      cases devices with
      | nil =>
        rcases hlinked.verdict with ⟨hok, _⟩ | ⟨_, hr, _⟩
        · show decide (e.2.create = some .moduleBuildFailure) = false
          rw [hok.1]
          rfl
        · rw [hr] at h
          cases h
      | cons e' devices => rwa [List.getLast?_cons_cons]

/-- **Without an error every device is in Exe state.** -/
theorem linkDevices_exe (hall : ∀ e ∈ devices, e.2.Ok)
    (hd : (∃ e ∈ devices, e.1 = d) ∨ (p.find d).map (·.state) = some .Exe) :
    ((linkDevices asked devices result p driver).2.1.find d).map (·.state) = some .Exe := by
  induction devices generalizing p driver result with
  | nil => exact hd.resolve_left nofun
  | cons e devices ih =>
    obtain ⟨v, p1, driver1, heq, _, hcase⟩ :=
      linkDevice_spec (d := e.1) (a := e.2) (p := p)
    have hok := hall e List.mem_cons_self
    rw [linkDevices, heq]
    rcases hcase with ⟨_, _, _, _, _, _, hnot⟩ | ⟨r, data', rfl, hlinked⟩
    · exact absurd hok hnot
    · have hexe : data'.state = .Exe := by
        rcases hlinked.verdict with ⟨_, _, h, _⟩ | ⟨h, _⟩
        · exact h
        · exact absurd (hok.1.symm.trans h) nofun
      refine ih (fun e he => hall e (List.mem_cons_of_mem _ he)) ?_
      rw [hlinked.replaced.find]
      by_cases hde : d = e.1
      · rw [if_pos hde, Option.map_some, hexe]
        exact .inr rfl
      · rw [if_neg hde]
        refine hd.imp_left fun ⟨e', he', h⟩ => ⟨e', ?_, h⟩
        exact (List.mem_cons.mp he').resolve_left fun h' => hde (h' ▸ h.symm)

/-! ## The inputs of a link -/

theorem knownFirst_append {l r : List (Option ProgramState)} (h : KnownFirst (l ++ r)) :
    KnownFirst l ∧ ((∀ s ∈ l, s = some .Object) → KnownFirst r) := by
  induction l with
  | nil => exact ⟨trivial, fun _ => h⟩
  | cons s l ih =>
    cases s with
    | none => exact h.elim
    | some s =>
      refine ⟨fun hs => (ih (h hs)).1, fun hall => ?_⟩
      rw [List.forall_mem_cons] at hall
      exact (ih (h (Option.some.inj hall.1))).2 hall.2

/-- **The states of one input** are looked at and stay as they are. -/
theorem objectStates_known (h : KnownFirst (ds.map fun d => (p.find d).map (·.state))) :
    ∃ object, objectStates ds p = (object, p) ∧
      (object = true → ∀ s ∈ ds.map fun d => (p.find d).map (·.state), s = some .Object) := by
  induction ds with
  | nil => exact ⟨true, rfl, fun _ => nofun⟩
  | cons d ds ih =>
    cases hfind : p.find d with
    | none =>
      rw [List.map_cons, hfind] at h
      exact h.elim
    | some data =>
      rw [List.map_cons, hfind] at h
      rw [objectStates, Program.getState_some hfind]
      by_cases hobject : data.state = .Object
      · rw [List.map_cons, hfind, Option.map_some, hobject]
        obtain ⟨object, heq, hall⟩ := ih (h hobject)
        exact ⟨object, heq, fun ht => List.forall_mem_cons.mpr ⟨rfl, hall ht⟩⟩
      · rw [if_pos hobject]
        exact ⟨false, rfl, nofun⟩

/-- **The inputs of a link stay as they are.** -/
theorem checkInputs_known {programs : List Program} {inputs : List Nat}
    (hinputs : ∀ i ∈ inputs, i < programs.length)
    (h : KnownFirst (inputs.flatMap fun i =>
      ds.map fun d => ((programs[i]?).bind (·.find d)).map (·.state))) :
    (checkInputs ds inputs programs).2 = programs := by
  induction inputs with
  | nil => rfl
  | cons i inputs ih =>
    obtain ⟨hi, hinputs⟩ := List.forall_mem_cons.mp hinputs
    have hp : programs[i]? = some programs[i] := List.getElem?_eq_getElem hi
    rw [List.flatMap_cons, hp] at h
    obtain ⟨hfirst, hrest⟩ := knownFirst_append h
    obtain ⟨object, heq, hall⟩ := objectStates_known hfirst
    rw [checkInputs, hp]
    dsimp only
    rw [heq, List.set_getElem_self]
    cases object with
    | false => rfl
    | true =>
      exact ih hinputs (hrest (hall rfl))

/-! ## New programs -/

/-- The records of a program that was just created. -/
structure Blank (p : Program) : Prop where
  interop : p.interopZeModule = none
  record : ∀ d data, p.find d = some data → data.zeModule = none ∧ data.state ≠ .Exe ∧
    (data.state = .IL → p.spirvCode ≠ none) ∧ (data.state = .Native → data.binary ≠ none)

theorem Blank.programOk (h : Blank p) : ProgramOk driver p := by
  refine ⟨h.interop, fun d data hfind => ?_⟩
  obtain ⟨hmodule, hexe, hil, hnative⟩ := h.record d data hfind
  exact ⟨fun m hm => absurd (hmodule.symm.trans hm) nofun, fun h => absurd h hexe, hil, hnative⟩

theorem Blank.modify {f : DeviceData → DeviceData} (h : Blank p)
    (hf : ∀ data, data.zeModule = none → (f data).zeModule = none ∧ (f data).state ≠ .Exe ∧
      ((f data).state = .IL → p.spirvCode ≠ none) ∧
        ((f data).state = .Native → (f data).binary ≠ none)) : Blank (p.modify d f) := by
  refine ⟨h.interop, fun d' data hfind => ?_⟩
  rw [Program.find_modify] at hfind
  by_cases hd : d' = d
  · rw [if_pos hd] at hfind
    rw [← Option.some.inj hfind]
    refine hf _ ?_
    cases hold : p.find d with
    | none => rfl
    | some old => exact (h.record d old hold).1
  · rw [if_neg hd] at hfind
    exact h.record d' data hfind

theorem newProgram_blank (ds : List ZeDevice) {state : ProgramState} (code : Option (List UInt8))
    (hstate : state = .IL ∧ code ≠ none ∨ state = .Invalid) : Blank (newProgram ds state code) := by
  have hfold : ∀ (ds : List ZeDevice) (p : Program), Blank p → p.spirvCode = code →
      Blank (ds.foldl (fun p d => p.setState d state) p) := by
    intro ds
    induction ds with
    | nil => exact fun _ h _ => h
    | cons d ds ih =>
      intro p h hcode
      refine ih _ (h.modify fun data hmodule => ⟨hmodule, ?_⟩) hcode
      rcases hstate with ⟨hil, hsome⟩ | hinvalid
      · exact ⟨by rw [hil]; exact nofun, fun _ => by rw [hcode]; exact hsome,
          fun h => absurd (hil.symm.trans h) nofun⟩
      · exact ⟨by rw [hinvalid]; exact nofun, fun h => absurd (hinvalid.symm.trans h) nofun,
          fun h => absurd (hinvalid.symm.trans h) nofun⟩
  exact hfold ds _ ⟨rfl, fun d data hfind => nomatch hfind⟩ rfl

theorem newNative_blank (binaries : List (ZeDevice × List UInt8)) : Blank (newNative binaries) := by
  have hfold : ∀ (binaries : List (ZeDevice × List UInt8)) (p : Program), Blank p →
      Blank (binaries.foldl (fun p b => p.modify b.1 fun data =>
        { data with state := .Native, binary := some b.2 }) p) := by
    intro binaries
    induction binaries with
    | nil => exact fun _ h => h
    | cons b binaries ih =>
      intro p h
      exact ih _ (h.modify fun data hmodule => ⟨hmodule, nofun, nofun, fun _ => nofun⟩)
  exact hfold binaries _ ⟨rfl, fun d data hfind => nomatch hfind⟩

/-! ## Calls -/

variable {w : World} {c : Call} {i : Nat} {r : ProgramResult}

theorem record_eq (hi : w.programs[i]? = some p) (d : ZeDevice) : w.record i d = p.find d := by
  unfold World.record
  rw [hi, Option.bind_some]

theorem Inv.record {j : Nat} (h : Inv w) (hrecord : w.record j d = some data) :
    ∃ code, RecordOk code w.driver d data := by
  obtain ⟨q, hq, hfind⟩ := Option.bind_eq_some_iff.mp hrecord
  exact ⟨_, (h q (List.mem_of_getElem? hq)).record d data hfind⟩

/-- The module of a record stays as it is. -/
theorem Inv.held {j : Nat} {m : ZeModule} (h : Inv w) (hext : w.driver.Extends driver')
    (hrecord : w.record j d = some data) (hm : data.zeModule = some m) :
    driver'.modules[m]? = w.driver.modules[m]? := by
  obtain ⟨_, hok⟩ := h.record hrecord
  obtain ⟨info, hinfo, _⟩ := hok.held m hm
  rw [hinfo]
  exact hext m info hinfo

theorem record_put (hi : w.programs[i]? = some p) {j : Nat} : (w.put i p' driver').record j d =
    if j = i then p'.find d else w.record j d := by
  unfold World.record World.put
  rw [List.getElem?_set]
  by_cases hj : i = j
  · rw [if_pos hj, if_pos (List.getElem?_eq_some_iff.mp hi).1, if_pos hj.symm, Option.bind_some]
  · rw [if_neg hj, if_neg (Ne.symm hj)]

/-- **A call that changes one program.** -/
theorem callRight_put (hinv : Inv w) (hi : w.programs[i]? = some p)
    (hcall : w.call c = (r, w.put i p' driver'))
    (hleaves : LoopLeaves (fun d => w.requested i d c) p w.driver p' driver')
    (hsuccess : r = .success → Succeeded w (w.put i p' driver') c)
    (hrejected : r = .invalidOperation → ∀ d, p'.find d = p.find d) :
    CallRight w c ∧ Inv (w.call c).2 := by
  have hp := record_eq hi
  have hinv' : Inv (w.put i p' driver') := by
    intro q hq
    rcases List.mem_or_eq_of_mem_set hq with hq | rfl
    · exact (hinv q hq).extends hleaves.extends_
    · exact hleaves.ok
  constructor
  · constructor <;> rw [hcall]
    · exact hsuccess
    · intro hr j d
      rw [record_put hi]
      split
      next hj => rw [hj, hp, hrejected hr]
      next => rfl
    · intro j _ d hnone
      rw [record_put hi]
      split
      next hj =>
        rw [hj, hp] at hnone
        exact hleaves.unknown d hnone
      next => exact hnone
    · intro j d data h
      obtain ⟨q, hq⟩ := hinv'.record h
      exact hq.live_iff
    · intro j d data' m h hexe hm
      have hold : w.record j d = some data' → ∃ data, w.record j d = some data ∧
          data.state = .Exe ∧ data.zeModule = some m ∧
            driver'.modules[m]? = w.driver.modules[m]? := by
        intro hsame
        exact ⟨data', hsame, hexe, hm, hinv.held hleaves.extends_ hsame hm⟩
      rw [record_put hi] at h
      by_cases hj : j = i
      · rw [if_pos hj] at h
        subst hj
        rcases hleaves.created d data' h hexe with hsame | ⟨_, m', info, hm', hinfo, hinputs⟩
        · exact .inl (hold ((hp d).trans (hsame.symm.trans h)))
        · obtain rfl := Option.some.inj (hm.symm.trans hm')
          exact .inr ⟨info, hinfo, hinputs⟩
      · rw [if_neg hj] at h
        exact .inl (hold h)
  · rw [hcall]
    exact hinv'

/-- A program more, and the driver with what it is made of. -/
def World.append (w : World) (p : Program) (driver : Driver) : World :=
  { w with programs := w.programs ++ [p], driver := driver }

theorem record_append {j : Nat} : (w.append p driver).record j d =
    if j = w.programs.length then p.find d else w.record j d := by
  unfold World.record World.append
  by_cases hj : j < w.programs.length
  · rw [List.getElem?_append_left hj, if_neg (Nat.ne_of_lt hj)]
  · rw [List.getElem?_append_right (Nat.le_of_not_lt hj),
      List.getElem?_eq_none (Nat.le_of_not_lt hj)]
    by_cases heq : j = w.programs.length
    · rw [heq, Nat.sub_self, if_pos rfl]
      rfl
    · rw [if_neg heq, List.getElem?_eq_none (by rw [List.length_singleton]; omega)]

/-- **A call that makes a program.** -/
theorem callRight_append (hinv : Inv w) (hcall : w.call c = (r, w.append p driver'))
    (hext : w.driver.Extends driver') (hok : ProgramOk driver' p)
    (hcreated : ∀ d data, p.find d = some data → data.state = .Exe →
      ∃ m info, data.zeModule = some m ∧ driver'.modules[m]? = some info ∧
        info.inputs = w.requested w.programs.length d c)
    (hsuccess : r = .success → Succeeded w (w.append p driver') c)
    (hrejected : r ≠ .invalidOperation) : CallRight w c ∧ Inv (w.call c).2 := by
  have hinv' : Inv (w.append p driver') := by
    intro q hq
    rcases List.mem_append.mp hq with hq | hq
    · exact (hinv q hq).extends hext
    · rw [List.mem_singleton.mp hq]
      exact hok
  constructor
  · constructor <;> rw [hcall]
    · exact hsuccess
    · exact fun h => absurd h hrejected
    · intro j hj d hnone
      rw [record_append, if_neg (Nat.ne_of_lt hj)]
      exact hnone
    · intro j d data h
      obtain ⟨q, hq⟩ := hinv'.record h
      exact hq.live_iff
    · intro j d data' m h hexe hm
      rw [record_append] at h
      by_cases hj : j = w.programs.length
      · rw [if_pos hj] at h
        obtain ⟨m', info, hm', hinfo, hinputs⟩ := hcreated d data' h hexe
        obtain rfl := Option.some.inj (hm.symm.trans hm')
        exact .inr ⟨info, hinfo, hj ▸ hinputs⟩
      · rw [if_neg hj] at h
        exact .inl ⟨data', h, hexe, hm, hinv.held hext h hm⟩
  · rw [hcall]
    exact hinv'

/-- A call that changes nothing. -/
theorem callRight_same (hinv : Inv w) (hcall : w.call c = (r, w))
    (hsuccess : r = .success → Succeeded w w c) : CallRight w c ∧ Inv (w.call c).2 := by
  constructor
  · constructor <;> rw [hcall]
    · exact hsuccess
    · exact fun _ _ _ => rfl
    · exact fun _ _ _ h => h
    · intro j d data h
      obtain ⟨q, hq⟩ := hinv.record h
      exact hq.live_iff
    · exact fun j d data' m h hexe hm => .inl ⟨data', h, hexe, hm, rfl⟩
  · rw [hcall]
    exact hinv

/-- What is left where nothing was done. -/
theorem LoopLeaves.refl (h : ProgramOk driver p) : LoopLeaves asked p driver p driver :=
  ⟨h, fun _ _ h => h, fun _ h => h, fun _ _ h _ => h, fun _ _ _ _ => .inl rfl⟩

/-- **A compile** that finds all its devices in IL state leaves the others as they were. -/
theorem compile_leaves (hok : ProgramOk driver p) (hinterop : p'.interopZeModule = p.interopZeModule)
    (hspirv : p'.spirvCode = p.spirvCode) (hil : ∀ d ∈ ds, (p.find d).map (·.state) = some .IL)
    (hfind : ∀ d, p'.find d =
      if d ∈ ds then (p.find d).map (compiled relaxed options?) else p.find d) :
    LoopLeaves asked p driver p' driver := by
  refine ⟨⟨hinterop.trans hok.interop, fun d data' h => ?_⟩, fun _ _ h => h, fun d h => ?_,
    fun d data h hexe => ?_, fun d data' h hexe => ?_⟩
  · rw [hfind] at h
    rw [hspirv]
    by_cases hd : d ∈ ds
    · rw [if_pos hd] at h
      obtain ⟨data, hold, rfl⟩ := Option.map_eq_some_iff.mp h
      have hstate := hil d hd
      rw [hold, Option.map_some, Option.some.injEq] at hstate
      refine ⟨fun m hm => ?_, nofun, nofun, nofun⟩
      obtain ⟨info, hinfo, hdevice, hdestroyed, hfailed⟩ := (hok.record d data hold).held m hm
      refine ⟨info, hinfo, hdevice, hdestroyed, hfailed.trans (iff_of_false ?_ nofun)⟩
      rw [hstate]
      exact nofun
    · rw [if_neg hd] at h
      exact hok.record d data' h
  · rw [hfind, h, Option.map_none, ite_self]
  · have hd : d ∉ ds := fun hd => by
      have hstate := hil d hd
      rw [h, Option.map_some, hexe] at hstate
      cases hstate
    rw [hfind, if_neg hd, h]
  · rw [hfind] at h ⊢
    by_cases hd : d ∈ ds
    · rw [if_pos hd] at h
      obtain ⟨data, _, rfl⟩ := Option.map_eq_some_iff.mp h
      cases hexe
    · rw [if_neg hd]
      exact .inl rfl

/-- **One call** that meets no defect is right. -/
theorem callRight_of_fine (hinv : Inv w) (hallowed : Allowed w c) (hfine : Fine w c) :
    CallRight w c ∧ Inv (w.call c).2 := by
  have hstate : ∀ {i p}, w.programs[i]? = some p → ∀ d, w.state i d = (p.find d).map (·.state) := by
    intro i p hi d
    unfold World.state
    rw [record_eq hi]
  cases c with
  | createWithIL code =>
    have hblank := newProgram_blank w.devices (some code)
      (.inl ⟨rfl, nofun⟩)
    exact callRight_append hinv rfl (fun _ _ h => h) hblank.programOk
      (fun d data h hexe => absurd hexe (hblank.record d data h).2.1) (fun _ => trivial) nofun
  | createWithBinary binaries =>
    by_cases hvalid : ∀ b ∈ binaries, w.isValidDevice b.1 = true
    · have hblank := newNative_blank binaries
      have hcall : w.call (.createWithBinary binaries) =
          (.success, w.append (newNative binaries) w.driver) := if_neg (not_not.mpr hvalid)
      exact callRight_append hinv hcall (fun _ _ h => h) hblank.programOk
        (fun d data h hexe => absurd hexe (hblank.record d data h).2.1) (fun _ => trivial) nofun
    · have hcall : w.call (.createWithBinary binaries) = (.invalidDevice, w) := if_pos hvalid
      exact callRight_same hinv hcall (fun h => nomatch h)
  | createWithNativeHandle owned => exact hallowed.elim
  | build i devices options =>
    obtain ⟨p, hi⟩ : ∃ p, w.programs[i]? = some p := ⟨_, List.getElem?_eq_getElem hallowed⟩
    have hok := hinv p (List.mem_of_getElem? hi)
    have hcall : w.call (.build i devices options) =
        ((buildDevices (buildOptions w.relaxed options) devices .success p w.driver).1,
          w.put i (buildDevices (buildOptions w.relaxed options) devices .success p w.driver).2.1
            (buildDevices (buildOptions w.relaxed options) devices .success p w.driver).2.2) := by
      unfold World.call urProgramBuildExp
      dsimp only
      rw [hi]
    have hrequested : (fun d => w.requested i d (.build i devices options)) =
        fun d => [(p.getCode d, buildOptions w.relaxed options)] := by
      unfold World.requested
      rw [hi]
      rfl
    -- the loop stops at a device that is turned down, or goes through all of them
    rcases hfine with ⟨pre, e, post, rfl, hpre, he⟩ | ⟨hstates, hagain⟩
    · simp only [hstate hi] at hpre he
      rw [buildDevices_rejected hpre he] at hcall
      exact callRight_put hinv hi hcall (LoopLeaves.refl hok) nofun fun _ _ => rfl
    · simp only [hstate hi] at hstates hagain
      have hknown : ∀ e ∈ devices, ∃ data, p.find e.1 = some data ∧
          (data.state = .Exe ∨ data.state = .IL ∨ data.state = .Native) := by
        intro e he
        simp only [Option.map_eq_some_iff] at hstates
        rcases hstates e he with ⟨data, hfind, hs⟩ | ⟨data, hfind, hs⟩ | ⟨data, hfind, hs⟩
        · exact ⟨data, hfind, .inl hs⟩
        · exact ⟨data, hfind, .inr (.inl hs)⟩
        · exact ⟨data, hfind, .inr (.inr hs)⟩
      obtain ⟨r, p', driver', heq, hne, hleaves, hsuccess⟩ :=
        buildDevices_spec hok hknown hagain
          (show ProgramResult.success ≠ .invalidOperation from nofun)
      rw [heq] at hcall
      refine callRight_put hinv hi hcall (hrequested ▸ hleaves) (fun hr e he => ?_)
        fun hr => absurd hr hne
      unfold World.state
      rw [record_put hi, if_pos rfl]
      exact (hsuccess hr).2 e he
  | compile i devices options =>
    obtain ⟨p, hi⟩ : ∃ p, w.programs[i]? = some p := ⟨_, List.getElem?_eq_getElem hallowed⟩
    have hok := hinv p (List.mem_of_getElem? hi)
    have hcall : w.call (.compile i devices options) =
        ((urProgramCompileExp w.relaxed options devices p).1,
          w.put i (urProgramCompileExp w.relaxed options devices p).2 w.driver) := by
      unfold World.call
      dsimp only
      rw [hi]
    -- the first device decides whether anything is compiled
    rcases hfine with ⟨d, s, hhead, hs, hne⟩ | ⟨hil, hnodup⟩
    · obtain ⟨rest, rfl⟩ := List.head?_eq_some_iff.mp hhead
      rw [hstate hi] at hs
      obtain ⟨data, hfind, rfl⟩ := Option.map_eq_some_iff.mp hs
      have hstop : urProgramCompileExp w.relaxed options (d :: rest) p = (.invalidOperation, p) := by
        rw [urProgramCompileExp, Program.getState_some hfind, if_pos hne]
      rw [hstop] at hcall
      exact callRight_put hinv hi hcall (LoopLeaves.refl hok) nofun fun _ _ => rfl
    · simp only [hstate hi] at hil
      obtain ⟨p', heq, hinterop, hspirv, hfind⟩ :=
        compile_spec hil hnodup
      rw [heq] at hcall
      refine callRight_put hinv hi hcall (compile_leaves hok hinterop hspirv hil hfind)
        (fun _ d hd => ?_) nofun
      obtain ⟨data, hdata, _⟩ := Option.map_eq_some_iff.mp (hil d hd)
      refine ⟨data, compiled w.relaxed options data, ?_, ?_, rfl, rfl⟩
      · rw [record_eq hi, hdata]
      · rw [record_put hi, if_pos rfl, hfind, if_pos hd, hdata, Option.map_some]
  | link devices inputs options extension =>
    by_cases hvalid : ∀ e ∈ devices, w.isValidDevice e.1 = true
    swap
    · have hcall : w.call (.link devices inputs options extension) = (.invalidDevice, w) :=
        if_pos hvalid
      exact callRight_same hinv hcall (fun h => nomatch h)
    -- options are turned down, but only after a program was made
    by_cases hoptions : options = ""
    swap
    · have hblank := newProgram_blank w.devices none
        (.inr rfl)
      have hcall : w.call (.link devices inputs options extension) =
          (.linkFailure, w.append (newProgram w.devices .Invalid none) w.driver) :=
        (if_neg (not_not.mpr hvalid)).trans (if_pos hoptions)
      exact callRight_append hinv hcall (fun _ _ h => h) hblank.programOk
        (fun d data h hexe => absurd hexe (hblank.record d data h).2.1) (fun h => nomatch h) nofun
    obtain ⟨hknown, hhidden⟩ := hfine hvalid hoptions
    have hinputs : (checkInputs (devices.map (·.1)) inputs w.programs).2 = w.programs := by
      refine checkInputs_known hallowed ?_
      simp only [List.map_map]
      exact hknown
    have hcall : w.call (.link devices inputs options extension) =
        w.link devices inputs options extension := rfl
    unfold World.link at hcall
    rw [if_neg (not_not.mpr hvalid), if_neg (not_not.mpr hoptions)] at hcall
    rcases hcheck : checkInputs (devices.map (·.1)) inputs w.programs with ⟨object, programs⟩
    rw [hcheck] at hcall hinputs
    obtain rfl : programs = w.programs := hinputs
    cases object with
    | false => exact callRight_same hinv hcall (fun h => nomatch h)
    | true =>
      dsimp only at hcall
      by_cases hextension : ¬ extension ∧ inputs.length ≠ 1
      · rw [if_pos hextension] at hcall
        exact callRight_same hinv hcall (fun h => nomatch h)
      rw [if_neg hextension] at hcall
      have hnew : ProgramOk w.driver { associatedDevices := w.devices } :=
        ⟨rfl, fun d data h => nomatch h⟩
      obtain ⟨r, p', driver', heq, hne, hok', hext, hcreated⟩ :=
        linkDevices_spec hnew (show ProgramResult.success ≠ .invalidOperation from nofun)
      rw [heq] at hcall
      refine callRight_append hinv hcall hext hok' (fun d data h hexe => ?_) (fun hr e he => ?_) hne
      · rcases hcreated d data h hexe with hsame | hasked
        · exact absurd (hsame.symm.trans h) nofun
        · exact hasked
      · have hfirst : (linkDevices (linkInputs w.programs inputs) devices .success
            { associatedDevices := w.devices } w.driver).1 = .success := by
          rw [heq]
          exact hr
        obtain ⟨hall, hlast⟩ := linkDevices_success hfirst
        have hexe : ∀ e ∈ devices, e.2.Ok := by
          intro e he
          refine (hall e he).resolve_right fun hfailure => ?_
          rcases hhidden ⟨e, he, hfailure⟩ with h | ⟨e', he', hnot, hnotOk⟩
          · rw [hlast] at h
            cases h
          · exact (hall e' he').elim hnotOk hnot
        have hstate' : ((linkDevices (linkInputs w.programs inputs) devices .success
            { associatedDevices := w.devices } w.driver).2.1.find e.1).map (·.state) =
              some .Exe := linkDevices_exe hexe (.inl ⟨e, he, rfl⟩)
        rw [heq] at hstate'
        unfold World.state
        rw [record_append, if_pos rfl]
        exact hstate'
  | getState i d =>
    obtain ⟨p, hi⟩ : ∃ p, w.programs[i]? = some p := ⟨_, List.getElem?_eq_getElem hallowed⟩
    obtain ⟨data, hdata⟩ := Option.ne_none_iff_exists'.mp hfine
    have hfind : p.find d = some data := (record_eq hi d).symm.trans hdata
    refine callRight_put hinv hi (r := .success) ?_
      (LoopLeaves.refl (hinv p (List.mem_of_getElem? hi))) (fun _ => trivial) nofun
    unfold World.call
    dsimp only
    rw [hi]
    dsimp only
    rw [Program.getState_some hfind]
  | retain i => exact hallowed.elim
  | release i => exact hallowed.elim

/-- A context without programs. -/
def World.new (devices : List ZeDevice) (isValidDevice : ZeDevice → Bool) (relaxed : Bool) :
    World :=
  ⟨devices, isValidDevice, relaxed, [], ⟨[], []⟩⟩

/-- **Programs are sound state machines** in every run whose calls meet no defect. -/
theorem programs_sound (devices : List ZeDevice) (isValidDevice : ZeDevice → Bool) (relaxed : Bool)
    (calls : List Call)
    (h : Along (fun w c => (w.call c).2) (fun w c => Allowed w c ∧ Fine w c)
      (World.new devices isValidDevice relaxed) calls) :
    Along (fun w c => (w.call c).2) CallRight (World.new devices isValidDevice relaxed) calls := by
  have hstep : ∀ w c, Inv w → Allowed w c ∧ Fine w c → Inv (w.call c).2 :=
    fun w c hinv hc => (callRight_of_fine hinv hc.1 hc.2).2
  have hinv := Along.invariant hstep
    (show Inv (World.new devices isValidDevice relaxed) from
      fun p hp => absurd hp List.not_mem_nil) h
  refine Along.mono ?_ (h.and hinv.1)
  intro w c ⟨hc, hinv⟩
  exact (callRight_of_fine hinv hc.1 hc.2).1

/-- A program that is built for its second device, compiled for both, and rejected. -/
theorem programs_sound_build : Along (fun w c => (w.call c).2) CallRight
    (World.new [1, 2] [1, 2].contains false)
    [.createWithIL [7], .build 0 [(2, {})] none, .compile 0 [2, 1] none] :=
  programs_sound [1, 2] [1, 2].contains false
    [.createWithIL [7], .build 0 [(2, {})] none, .compile 0 [2, 1] none]
    ⟨⟨trivial, trivial⟩, ⟨Nat.zero_lt_one, .inr ⟨by decide, List.pairwise_singleton _ _⟩⟩,
      ⟨Nat.zero_lt_one, .inl ⟨2, .Exe, rfl, rfl, nofun⟩⟩, trivial⟩

/-- The same in the other order: the first device is compiled when the call is rejected. -/
theorem compile_half : ¬ ∀ (devices : List ZeDevice) (isValidDevice : ZeDevice → Bool)
    (relaxed : Bool) (calls : List Call),
    Along (fun w c => (w.call c).2) Allowed (World.new devices isValidDevice relaxed) calls →
      Along (fun w c => (w.call c).2) CallRight (World.new devices isValidDevice relaxed) calls := by
  intro h
  have hright := h [1, 2] [1, 2].contains false
    [.createWithIL [7], .build 0 [(2, {})] none, .compile 0 [1, 2] none]
    ⟨trivial, Nat.zero_lt_one, Nat.zero_lt_one, trivial⟩
  have hsame := hright.2.2.1.rejected rfl 0 1
  exact absurd hsame (by decide)

end UnifiedRuntime.LevelZero.Programs
