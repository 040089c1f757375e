import Mathlib.Algebra.GroupWithZero.Nat
import UnifiedRuntime.LevelZero.Programs

/-!
# The modules and build logs of programs

What the driver gives out is counted: a module or a log is destroyed, or recorded by a program that
will destroy it. The log of the check for unresolved symbols replaces the one of the creation,
which is then lost; a build that fails destroys its module before the log; a link that ends early
forgets both.

- `Given`: the module and the log of one device, on their way into its record.
- `buildDevices_carries`, `linkDevices_carries`: what the loops do to the count.
-/

namespace UnifiedRuntime.LevelZero.ProgramResources

open Function (update update_of_ne update_self)
open Programs

/-! ## Handles and their owners -/

/-- One, for the handle that it is. -/
def one (x : Option Nat) (n : Nat) : Nat := if x = some n then 1 else 0

/-- How often a program has recorded a module, the one it was made from included. -/
def heldModule (p : Program) (m : ZeModule) : Nat :=
  p.deviceDataMap.countP (fun e => e.2.zeModule = some m) +
    if p.resourcesReleased then 0 else one p.interopZeModule m

def heldLog (p : Program) (l : ZeBuildLog) : Nat :=
  p.deviceDataMap.countP fun e => e.2.zeBuildLog = some l

/-- Each module that is owned was destroyed, or is recorded, once, and each log likewise; no log
was destroyed after its module, and no module that was handed in without ownership at all. -/
structure Balanced (driver : Driver) (modules : ZeModule → Nat) (logs : ZeBuildLog → Nat) :
    Prop where
  module : ∀ (m : ZeModule) (info : Module), driver.modules[m]? = some info →
    info.handedIn ≠ some false → info.destroyed + modules m = 1
  foreign : ∀ (m : ZeModule) (info : Module), driver.modules[m]? = some info →
    info.handedIn = some false → info.destroyed = 0
  log : ∀ (l : ZeBuildLog) (info : BuildLog), driver.logs[l]? = some info →
    info.destroyed + logs l = 1 ∧ info.late = false
  noModule : ∀ m, driver.modules[m]? = none → modules m = 0
  noLog : ∀ l, driver.logs[l]? = none → logs l = 0

/-- **Every module and log is owned exactly once**: by a program that is still referenced, which
has its module as long as its log. -/
structure Owned (w : World) : Prop where
  balanced : Balanced w.driver (fun m => (w.programs.map fun p => heldModule p m).sum)
    fun l => (w.programs.map fun p => heldLog p l).sum
  early : ∀ (l : ZeBuildLog) (info : BuildLog) (m : ZeModule), w.driver.logs[l]? = some info →
    info.destroyed = 0 → info.owner = some m → w.driver.isDestroyed m = false
  released : ∀ p ∈ w.programs, p.refCount = 0 → ∀ n, heldModule p n = 0 ∧ heldLog p n = 0

/-- The programs of a call are referenced. -/
def Referenced (w : World) (i : Nat) : Prop := ∃ p, w.programs[i]? = some p ∧ p.refCount ≠ 0

def Allowed (w : World) : Call → Prop
  | .build i _ _ | .compile i _ _ | .getState i _ | .retain i | .release i => Referenced w i
  | .link _ inputs _ _ => ∀ i ∈ inputs, Referenced w i
  | _ => True

/-- A failed creation leaves a module or a log, a failed check no log at all, and the check gives
no log where the creation has. -/
def BuildAnswer (a : Answer) : Prop :=
  match a.create, a.symbols with
  | some _, _ => ¬ (a.setsModule ∧ a.givesLog)
  | none, some _ => ¬ a.givesLog ∧ ¬ a.linkLog
  | none, none => ¬ (a.givesLog ∧ a.linkLog)

/-- The state that an answer leaves a device in. -/
def builtState (a : Answer) : ProgramState :=
  if a.create = none ∧ a.symbols = none then .Exe else .Invalid

/-- **The answers that a build comes to**: `state` is what the devices are in by then, and `code`
whether there is code for them. -/
def BuildCareful (code : ZeDevice → Bool) : (ZeDevice → ProgramState) →
    List (ZeDevice × Answer) → Prop
  | _, [] => True
  | state, (d, a) :: rest =>
    match state d with
    | .Exe => BuildCareful code state rest
    | .IL | .Native => code d = true →
        BuildAnswer a ∧ BuildCareful code (update state d (builtState a)) rest
    | .Object | .Invalid => True

/-- **The answers that a link comes to**: `recorded` are the devices with a module or a log. -/
def LinkCareful : List ZeDevice → List (ZeDevice × Answer) → Prop
  | _, [] => True
  | recorded, (d, a) :: rest =>
    match a.create with
    | none => a.symbols = none ∧ ¬ (a.givesLog ∧ a.linkLog) ∧ d ∉ recorded ∧
        LinkCareful (d :: recorded) rest
    | some .moduleBuildFailure => d ∉ recorded ∧
        LinkCareful (if a.setsModule ∨ a.givesLog then d :: recorded else recorded) rest
    | some _ => ¬ a.setsModule ∧ ¬ a.givesLog

/-- **No call meets a defect.** -/
def Careful (w : World) : Call → Prop
  | .build i devices _ => ∀ p, w.programs[i]? = some p →
      BuildCareful (fun d => ((p.getState d).2.getCode d).isSome) (fun d => (p.getState d).1)
        devices
  | .link devices inputs options extension =>
      (∀ e ∈ devices, w.isValidDevice e.1 = true) → options = "" → (extension ∨ inputs.length = 1) →
      (∀ i ∈ inputs, ∀ e ∈ devices, ((w.programs[i]?).bind (·.find e.1)).map (·.state) =
        some .Object) →
      LinkCareful [] devices
  | _ => True

/-! ## What the driver does -/

variable {driver driver' : Driver} {modules : ZeModule → Nat} {logs : ZeBuildLog → Nat}
  {p p' : Program} {d : ZeDevice} {data : DeviceData} {a : Answer} {inputs : List Input}

@[simp] theorem one_none (n : Nat) : one none n = 0 := rfl

theorem one_self (n : Nat) : one (some n) n = 1 := if_pos rfl

theorem one_of_ne {m n : Nat} (h : n ≠ m) : one (some m) n = 0 :=
  if_neg fun heq => h (Option.some.inj heq).symm

theorem Balanced.congr {modules' : ZeModule → Nat} {logs' : ZeBuildLog → Nat}
    (h : Balanced driver modules logs) (hmodules : ∀ m, modules' m = modules m)
    (hlogs : ∀ l, logs' l = logs l) : Balanced driver modules' logs' := by
  obtain rfl : modules' = modules := funext hmodules
  obtain rfl : logs' = logs := funext hlogs
  exact h

/-- What stays of a module and of a log. -/
structure Outlives (driver driver' : Driver) : Prop where
  module : ∀ (m : ZeModule) (info : Module), driver.modules[m]? = some info →
    ∃ info' : Module, driver'.modules[m]? = some info' ∧ info'.handedIn = info.handedIn
  log : ∀ (l : ZeBuildLog) (info : BuildLog), driver.logs[l]? = some info →
    ∃ info' : BuildLog, driver'.logs[l]? = some info' ∧ info'.owner = info.owner

theorem Outlives.refl : Outlives driver driver :=
  ⟨fun _ info h => ⟨info, h, rfl⟩, fun _ info h => ⟨info, h, rfl⟩⟩

theorem Outlives.trans {driver'' : Driver} (h : Outlives driver driver')
    (h' : Outlives driver' driver'') : Outlives driver driver'' := by
  constructor
  · intro m info hm
    obtain ⟨info', hm', hsame⟩ := h.module m info hm
    obtain ⟨info'', hm'', hsame'⟩ := h'.module m info' hm'
    exact ⟨info'', hm'', hsame'.trans hsame⟩
  · intro l info hl
    obtain ⟨info', hl', hsame⟩ := h.log l info hl
    obtain ⟨info'', hl'', hsame'⟩ := h'.log l info' hl'
    exact ⟨info'', hl'', hsame'.trans hsame⟩

/-- The list with an element at its end. -/
theorem getElem?_append_one {α : Type} {xs : List α} {x y : α} {i : Nat}
    (h : (xs ++ [x])[i]? = some y) : xs[i]? = some y ∧ i < xs.length ∨ i = xs.length ∧ y = x := by
  rcases Nat.lt_trichotomy i xs.length with hlt | heq | hgt
  · rw [List.getElem?_append_left hlt] at h
    exact .inl ⟨h, hlt⟩
  · subst heq
    rw [List.getElem?_concat_length] at h
    exact .inr ⟨rfl, (Option.some.inj h).symm⟩
  · rw [List.getElem?_eq_none (by rw [List.length_append]; exact hgt)] at h
    cases h

theorem Balanced.addModule (h : Balanced driver modules logs) {info : Module}
    (hinfo : info.destroyed = 0) :
    Balanced { driver with modules := driver.modules ++ [info] }
      (fun m => modules m + one (some driver.modules.length) m) logs := by
  refine ⟨?_, ?_, h.log, ?_, h.noLog⟩
  · intro m info' hm hown
    rcases getElem?_append_one hm with ⟨hold, hlt⟩ | ⟨rfl, rfl⟩
    · rw [one_of_ne hlt.ne]
      exact h.module m info' hold hown
    · rw [hinfo, h.noModule _ (List.getElem?_eq_none (Nat.le_refl _)), one_self]
  · intro m info' hm hforeign
    rcases getElem?_append_one hm with ⟨hold, -⟩ | ⟨-, rfl⟩
    · exact h.foreign m info' hold hforeign
    · exact hinfo
  · intro m hm
    rw [List.getElem?_eq_none_iff, List.length_append] at hm
    rw [h.noModule m (List.getElem?_eq_none (Nat.le_of_succ_le hm)), one_of_ne (Nat.ne_of_gt hm)]

theorem outlives_addModule {info : Module} :
    Outlives driver { driver with modules := driver.modules ++ [info] } := by
  refine ⟨fun m info' hm => ⟨info', ?_, rfl⟩, fun l info' hl => ⟨info', hl, rfl⟩⟩
  rw [List.getElem?_append_left (List.getElem?_eq_some_iff.mp hm).1]
  exact hm

theorem Balanced.addLog (h : Balanced driver modules logs) (owner : Option ZeModule)
    (gives : Bool) : Balanced (driver.addLog owner gives).1 modules
      (fun l => logs l + one (driver.addLog owner gives).2 l) := by
  cases gives with
  | false => exact h
  | true =>
    refine ⟨h.module, h.foreign, ?_, h.noModule, ?_⟩
    · intro l info hl
      show info.destroyed + (logs l + one (some driver.logs.length) l) = 1 ∧ _
      rcases getElem?_append_one hl with ⟨hold, hlt⟩ | ⟨rfl, rfl⟩
      · rw [one_of_ne hlt.ne]
        exact h.log l info hold
      · rw [h.noLog _ (List.getElem?_eq_none (Nat.le_refl _)), one_self]
        exact ⟨rfl, rfl⟩
    · intro l hl
      have hlength : driver.logs.length + 1 ≤ l :=
        (List.length_append ..).symm.trans_le (List.getElem?_eq_none_iff.mp hl)
      show logs l + one (some driver.logs.length) l = 0
      rw [h.noLog l (List.getElem?_eq_none (Nat.le_of_succ_le hlength)),
        one_of_ne (Nat.ne_of_gt hlength)]

theorem outlives_addLog {owner : Option ZeModule} {gives : Bool} :
    Outlives driver (driver.addLog owner gives).1 := by
  cases gives with
  | false => exact Outlives.refl
  | true =>
    refine ⟨fun m info hm => ⟨info, hm, rfl⟩, fun l info hl => ⟨info, ?_, rfl⟩⟩
    exact (List.getElem?_append_left (List.getElem?_eq_some_iff.mp hl).1).trans hl

/-- A log that is given is the driver's, with its owner. -/
theorem addLog_owner {owner : Option ZeModule} {gives : Bool} {l : ZeBuildLog}
    (h : (driver.addLog owner gives).2 = some l) :
    gives = true ∧ ∃ info : BuildLog, (driver.addLog owner gives).1.logs[l]? = some info ∧
      info.owner = owner := by
  cases gives with
  | false => cases h
  | true =>
    obtain rfl := Option.some.inj h
    exact ⟨rfl, _, List.getElem?_concat_length, rfl⟩

theorem destroyModule_module {m x : ZeModule} :
    (driver.destroyModule m).modules[x]? = (driver.modules[x]?).map fun info =>
      { info with destroyed := info.destroyed + one (some m) x } := by
  unfold Driver.destroyModule
  rw [List.getElem?_modify]
  refine Option.map_congr fun info _ => ?_
  by_cases h : m = x
  · subst h
    rw [if_pos rfl, one_self]
  · rw [if_neg h, one_of_ne (Ne.symm h)]
    rfl

theorem outlives_destroyModule {m : ZeModule} : Outlives driver (driver.destroyModule m) := by
  refine ⟨fun x info hx => ?_, fun l info hl => ⟨info, hl, rfl⟩⟩
  refine ⟨{ info with destroyed := info.destroyed + one (some m) x }, ?_, rfl⟩
  rw [destroyModule_module, hx, Option.map_some]

/-- A module of the driver's own that is recorded is destroyed. -/
theorem Balanced.destroyModule {m : ZeModule} {info : Module}
    (h : Balanced driver (fun x => modules x + one (some m) x) logs)
    (hm : driver.modules[m]? = some info) (hown : info.handedIn ≠ some false) :
    Balanced (driver.destroyModule m) modules logs := by
  refine ⟨?_, ?_, h.log, ?_, h.noLog⟩
  · intro x info' hx howned
    rw [destroyModule_module] at hx
    obtain ⟨old, hold, rfl⟩ := Option.map_eq_some_iff.mp hx
    have hcount := h.module x old hold howned
    show old.destroyed + one (some m) x + modules x = 1
    omega
  · intro x info' hx hforeign
    rw [destroyModule_module] at hx
    obtain ⟨old, hold, rfl⟩ := Option.map_eq_some_iff.mp hx
    have hne : x ≠ m := by
      rintro rfl
      obtain rfl := Option.some.inj (hm.symm.trans hold)
      exact hown hforeign
    show old.destroyed + one (some m) x = 0
    rw [one_of_ne hne]
    exact h.foreign x old hold hforeign
  · intro x hx
    rw [destroyModule_module, Option.map_eq_none_iff] at hx
    exact Nat.eq_zero_of_add_eq_zero_right (h.noModule x hx)

/-- **What one device is given**: a module and a log that nobody has recorded yet. -/
structure Given (driver driver' : Driver) (m : Option ZeModule) (log : Option ZeBuildLog) :
    Prop where
  balanced : ∀ {modules logs}, Balanced driver modules logs →
    Balanced driver' (fun x => modules x + one m x) fun l => logs l + one log l
  outlives : Outlives driver driver'
  module : ∀ x, m = some x → ∃ info : Module, driver'.modules[x]? = some info ∧
    info.handedIn = none
  log : ∀ l, log = some l → ∃ info : BuildLog, driver'.logs[l]? = some info ∧ info.owner = m

variable {m : Option ZeModule} {log : Option ZeBuildLog}

theorem Given.addLog (h : Given driver driver' m none) (gives : Bool) :
    Given driver (driver'.addLog m gives).1 m (driver'.addLog m gives).2 where
  balanced hb := (h.balanced hb).addLog m gives
  outlives := h.outlives.trans outlives_addLog
  module x hx := by
    obtain ⟨info, hinfo, hown⟩ := h.module x hx
    obtain ⟨info', hinfo', hsame⟩ :=
      (outlives_addLog).module x info hinfo
    exact ⟨info', hinfo', hsame.trans hown⟩
  log _ hl := (addLog_owner hl).2

theorem create_given (driver : Driver) (d : ZeDevice) (inputs : List Input) (a : Answer) :
    Given driver (driver.create d inputs a).1 (driver.create d inputs a).2.1
      (driver.create d inputs a).2.2 := by
  unfold Driver.create
  split
  · refine Given.addLog (m := some driver.modules.length) ⟨fun hb => hb.addModule rfl,
      outlives_addModule, ?_, nofun⟩ a.givesLog
    intro x hx
    obtain rfl := Option.some.inj hx
    exact ⟨_, List.getElem?_concat_length, rfl⟩
  · exact Given.addLog (m := none) ⟨id, Outlives.refl, nofun, nofun⟩ a.givesLog

/-- Whether the creation has set the module, and given a log. -/
theorem create_sets (driver : Driver) (d : ZeDevice) (inputs : List Input) (a : Answer) :
    ((driver.create d inputs a).2.1.isSome = (a.create.isNone || a.setsModule)) ∧
      (driver.create d inputs a).2.2.isSome = a.givesLog := by
  unfold Driver.create
  cases hsets : (a.create.isNone || a.setsModule) <;> cases a.givesLog <;> exact ⟨rfl, rfl⟩

/-- The check for unresolved symbols, where the log it gives replaces none. -/
theorem Given.check {x : ZeModule} (h : Given driver driver' (some x) log)
    (hlog : a.linkLog = true → log = none) :
    Given driver (driver'.checkUnresolvedSymbols x log a).1 (some x)
      (driver'.checkUnresolvedSymbols x log a).2 := by
  unfold Driver.checkUnresolvedSymbols
  split
  · rename_i hlink
    obtain rfl := hlog hlink
    exact h.addLog true
  · exact h

/-- A module is destroyed that has no log. -/
theorem Given.destroy (h : Given driver driver' m log) (hlog : m = none ∨ log = none) :
    Given driver (driver'.destroyModule? m) none log := by
  cases m with
  | none => exact h
  | some x =>
    obtain rfl := hlog.resolve_left nofun
    obtain ⟨info, hinfo, hown⟩ := h.module x rfl
    exact ⟨fun hb => (h.balanced hb).destroyModule hinfo (hown ▸ nofun),
      h.outlives.trans outlives_destroyModule, nofun, nofun⟩

/-! ## The records of a program -/

/-- A record has modules and logs of the driver's own, the log with its module, and none before the
device is built. -/
structure RecordOwned (driver : Driver) (data : DeviceData) : Prop where
  module : ∀ m, data.zeModule = some m → ∃ info : Module, driver.modules[m]? = some info ∧
    info.handedIn = none
  log : ∀ l, data.zeBuildLog = some l → ∃ info : BuildLog, driver.logs[l]? = some info ∧
    ∀ m, info.owner = some m → data.zeModule = some m
  unbuilt : data.state ≠ .Exe → data.state ≠ .Invalid →
    data.zeModule = none ∧ data.zeBuildLog = none

/-- The invariant of a program. -/
structure Keeps (driver : Driver) (p : Program) : Prop where
  record : ∀ e ∈ p.deviceDataMap, RecordOwned driver e.2
  interop : ∀ m, p.interopZeModule = some m → ∃ info : Module, driver.modules[m]? = some info ∧
    info.handedIn = some p.ownZeModule
  released : p.resourcesReleased = true → p.deviceDataMap = []
  count : p.refCount = 0 ↔ p.resourcesReleased = true

/-- **What a call may do to a program and the driver**: the counts stay as they should be. -/
structure Carries (p : Program) (driver : Driver) (p' : Program) (driver' : Driver) : Prop where
  balanced : ∀ {modules : ZeModule → Nat} {logs : ZeBuildLog → Nat},
    Balanced driver (fun m => modules m + heldModule p m) (fun l => logs l + heldLog p l) →
      Balanced driver' (fun m => modules m + heldModule p' m) fun l => logs l + heldLog p' l
  keeps : Keeps driver' p'
  outlives : Outlives driver driver'

theorem RecordOwned.outlives (h : RecordOwned driver data) (hout : Outlives driver driver') :
    RecordOwned driver' data := by
  refine ⟨?_, ?_, h.unbuilt⟩
  · intro m hm
    obtain ⟨info, hinfo, hown⟩ := h.module m hm
    obtain ⟨info', hinfo', hsame⟩ := hout.module m info hinfo
    exact ⟨info', hinfo', hsame.trans hown⟩
  · intro l hl
    obtain ⟨info, hinfo, hown⟩ := h.log l hl
    obtain ⟨info', hinfo', hsame⟩ := hout.log l info hinfo
    exact ⟨info', hinfo', fun m hm => hown m (hsame ▸ hm)⟩

theorem Keeps.outlives (h : Keeps driver p) (hout : Outlives driver driver') : Keeps driver' p := by
  refine ⟨fun e he => (h.record e he).outlives hout, ?_, h.released, h.count⟩
  intro m hm
  obtain ⟨info, hinfo, hown⟩ := h.interop m hm
  obtain ⟨info', hinfo', hsame⟩ := hout.module m info hinfo
  exact ⟨info', hinfo', hsame.trans hown⟩

theorem Carries.refl (h : Keeps driver p) : Carries p driver p driver :=
  ⟨id, h, Outlives.refl⟩

theorem Carries.trans {p'' : Program} {driver'' : Driver} (h : Carries p driver p' driver')
    (h' : Carries p' driver' p'' driver'') : Carries p driver p'' driver'' :=
  ⟨fun hb => h'.balanced (h.balanced hb), h'.keeps, h.outlives.trans h'.outlives⟩

/-- Nothing was given, or it is gone. -/
theorem Given.carries (h : Given driver driver' none none) (hkeeps : Keeps driver p) :
    Carries p driver p driver' :=
  ⟨h.balanced, hkeeps.outlives h.outlives, h.outlives⟩

theorem Keeps.find (h : Keeps driver p) (hfind : p.find d = some data) : RecordOwned driver data :=
  h.record _ (Assoc.mem_of_lookup hfind)

/-- The record of a device, or the default, has nothing before the device is built. -/
theorem Keeps.unbuilt (h : Keeps driver p) (hexe : ((p.find d).getD {}).state ≠ .Exe)
    (hinvalid : ((p.find d).getD {}).state ≠ .Invalid) :
    ((p.find d).getD {}).zeModule = none ∧ ((p.find d).getD {}).zeBuildLog = none := by
  cases hfind : p.find d with
  | none => exact ⟨rfl, rfl⟩
  | some data =>
    rw [hfind] at hexe hinvalid
    exact (h.find hfind).unbuilt hexe hinvalid

variable {f : DeviceData → DeviceData}

theorem heldModule_modify (n : ZeModule) :
    heldModule (p.modify d f) n + one ((p.find d).getD {}).zeModule n =
      heldModule p n + one (f ((p.find d).getD {})).zeModule n := by
  have hcount := Assoc.countP_modify (f := f) (q := fun data => data.zeModule = some n)
    p.deviceDataMap d (v := {}) rfl
  simp only [decide_eq_true_eq] at hcount
  unfold heldModule one Program.find Program.modify
  dsimp only
  omega

theorem heldLog_modify (n : ZeBuildLog) :
    heldLog (p.modify d f) n + one ((p.find d).getD {}).zeBuildLog n =
      heldLog p n + one (f ((p.find d).getD {})).zeBuildLog n := by
  have hcount := Assoc.countP_modify (f := f) (q := fun data => data.zeBuildLog = some n)
    p.deviceDataMap d (v := {}) rfl
  simp only [decide_eq_true_eq] at hcount
  exact hcount

/-- **A device's record takes what the device is given.** -/
theorem Given.record (h : Given driver driver' m log) (hkeeps : Keeps driver p)
    (hlive : p.refCount ≠ 0) (hmodule : ((p.find d).getD {}).zeModule = none)
    (hlog : ((p.find d).getD {}).zeBuildLog = none)
    (hf : (f ((p.find d).getD {})).zeModule = m ∧ (f ((p.find d).getD {})).zeBuildLog = log)
    (hstate : (f ((p.find d).getD {})).state ≠ .Exe → (f ((p.find d).getD {})).state ≠ .Invalid →
      m = none ∧ log = none) :
    Carries p driver (p.modify d f) driver' := by
  refine ⟨?_, ⟨?_, (hkeeps.outlives h.outlives).interop, ?_, hkeeps.count⟩, h.outlives⟩
  · intro modules logs hb
    refine (h.balanced hb).congr (fun n => ?_) fun n => ?_
    · have hcount := heldModule_modify (p := p) (d := d) (f := f) n
      rw [hmodule, hf.1, one_none] at hcount
      rw [← Nat.add_zero (heldModule (p.modify d f) n), hcount, Nat.add_assoc]
    · have hcount := heldLog_modify (p := p) (d := d) (f := f) n
      rw [hlog, hf.2, one_none] at hcount
      rw [← Nat.add_zero (heldLog (p.modify d f) n), hcount, Nat.add_assoc]
  · intro e he
    rcases Assoc.mem_modify he with hold | rfl
    · exact (hkeeps.record e hold).outlives h.outlives
    · refine ⟨fun x hx => h.module x (hf.1.symm.trans hx), fun l hl => ?_, fun hexe hinvalid => ?_⟩
      · obtain ⟨info, hinfo, hown⟩ := h.log l (hf.2.symm.trans hl)
        exact ⟨info, hinfo, fun x hx => hf.1.trans (hown.symm.trans hx)⟩
      · exact ⟨hf.1.trans (hstate hexe hinvalid).1, hf.2.trans (hstate hexe hinvalid).2⟩
  · intro hreleased
    exact absurd (hkeeps.count.mpr hreleased) hlive

/-- A record that is made, or changed otherwise. -/
theorem Keeps.modify (h : Keeps driver p) (hlive : p.refCount ≠ 0)
    (hf : ∀ data, (f data).zeModule = data.zeModule ∧ (f data).zeBuildLog = data.zeBuildLog)
    (hstate : (f ((p.find d).getD {})).state ≠ .Exe → (f ((p.find d).getD {})).state ≠ .Invalid →
      ((p.find d).getD {}).zeModule = none ∧ ((p.find d).getD {}).zeBuildLog = none) :
    Carries p driver (p.modify d f) driver := by
  refine ⟨?_, ⟨?_, h.interop, ?_, h.count⟩, Outlives.refl⟩
  · intro modules logs hb
    refine hb.congr (fun n => ?_) fun n => ?_
    · have hcount := heldModule_modify (p := p) (d := d) (f := f) n
      rw [(hf _).1] at hcount
      rw [Nat.add_right_cancel hcount]
    · have hcount := heldLog_modify (p := p) (d := d) (f := f) n
      rw [(hf _).2] at hcount
      rw [Nat.add_right_cancel hcount]
  · intro e he
    rcases Assoc.mem_modify he with hold | rfl
    · exact h.record e hold
    · have hrecord : RecordOwned driver ((p.find d).getD {}) := by
        cases hfind : p.find d with
        | none => exact ⟨nofun, nofun, fun _ _ => ⟨rfl, rfl⟩⟩
        | some data => exact h.find hfind
      refine ⟨fun x hx => hrecord.module x ((hf _).1.symm.trans hx), fun l hl => ?_, ?_⟩
      · obtain ⟨info, hinfo, hown⟩ := hrecord.log l ((hf _).2.symm.trans hl)
        exact ⟨info, hinfo, fun x hx => (hf _).1.trans (hown x hx)⟩
      · intro hexe hinvalid
        exact ⟨(hf _).1.trans (hstate hexe hinvalid).1, (hf _).2.trans (hstate hexe hinvalid).2⟩
  · intro hreleased
    exact absurd (h.count.mpr hreleased) hlive

/-- A question after the state. -/
theorem Keeps.getState (h : Keeps driver p) (hlive : p.refCount ≠ 0) :
    Carries p driver (p.getState d).2 driver := by
  unfold Program.getState
  split
  · exact Carries.refl h
  · exact h.modify hlive (fun _ => ⟨rfl, rfl⟩) h.unbuilt

/-! ## What a question after the state sees -/

theorem modify_modify {f g : DeviceData → DeviceData} :
    (p.modify d f).modify d g = p.modify d fun data => g (f data) := by
  unfold Program.modify
  rw [Assoc.modify_modify]

/-- The record that is there after the question. -/
def view (p : Program) (d : ZeDevice) : Option DeviceData :=
  if p.interopZeModule = none then some ((p.find d).getD {}) else p.find d

variable {d' : ZeDevice}

theorem getState_eq_view : (p.getState d).1 = ((view p d).map (·.state)).getD .Exe := by
  unfold Program.getState view
  cases hinterop : p.interopZeModule with
  | none => rw [Option.isSome_none, Bool.and_false]; rfl
  | some m =>
    cases hfind : p.find d with
    | none => rfl
    | some data => rfl

theorem find_eq_view : (p.getState d).2.find d = view p d := by
  rw [Program.find_getState]
  unfold view
  by_cases hinterop : p.interopZeModule = none
  · rw [if_pos ⟨rfl, hinterop⟩, if_pos hinterop]
  · rw [if_neg fun h => hinterop h.2, if_neg hinterop]

theorem getState_frame : (p.getState d).2.interopZeModule = p.interopZeModule ∧
    (p.getState d).2.spirvCode = p.spirvCode ∧ (p.getState d).2.refCount = p.refCount := by
  unfold Program.getState
  split <;> exact ⟨rfl, rfl, rfl⟩

theorem view_getState : view (p.getState d).2 d' = view p d' := by
  unfold view
  rw [getState_frame.1, Program.find_getState]
  by_cases hinterop : p.interopZeModule = none
  · rw [if_pos hinterop, if_pos hinterop]
    by_cases hd : d' = d
    · rw [if_pos ⟨hd, hinterop⟩, hd]
      rfl
    · rw [if_neg fun h => hd h.1]
  · rw [if_neg hinterop, if_neg hinterop, if_neg fun h => hinterop h.2]

theorem view_modify : view (p.modify d f) d' =
    if d' = d then some (f ((p.find d).getD {})) else view p d' := by
  unfold view
  rw [Program.find_modify]
  show (if p.interopZeModule = none then _ else _) = _
  by_cases hd : d' = d
  · rw [if_pos hd, if_pos hd, Option.getD_some, ite_self]
  · rw [if_neg hd, if_neg hd]

/-- A device that is not in Exe state has a record. -/
theorem getState_record (h : (p.getState d).1 ≠ .Exe) :
    ∃ data, (p.getState d).2.find d = some data ∧ data.state = (p.getState d).1 := by
  rw [find_eq_view]
  rw [getState_eq_view] at h ⊢
  cases hview : view p d with
  | none =>
    rw [hview] at h
    exact absurd rfl h
  | some data => exact ⟨data, rfl, rfl⟩

/-- The code for a device. -/
theorem getCode_eq_view : (p.getState d).2.getCode d =
    (view p d).bind fun data => if data.state = .IL then p.spirvCode else data.binary := by
  unfold Program.getCode
  rw [find_eq_view, getState_frame.2.1]
  cases view p d <;> rfl

/-! ## Building -/

/-- **One device that is built.** -/
theorem buildModule_carries {options : String} {code : List UInt8} (hkeeps : Keeps driver p)
    (hlive : p.refCount ≠ 0) (hmodule : ((p.find d).getD {}).zeModule = none)
    (hlog : ((p.find d).getD {}).zeBuildLog = none) (ha : BuildAnswer a) :
    ∃ failed f driver', buildModule options d code a p driver = (failed, p.modify d f, driver') ∧
      Carries p driver (p.modify d f) driver' ∧
      ∀ data, (f data).state = builtState a := by
  rcases hr : driver.create d [(some code, options)] a with ⟨driver₁, m, log⟩
  have hgiven := create_given driver d [(some code, options)] a
  have hsets := create_sets driver d [(some code, options)] a
  rw [hr] at hgiven hsets
  unfold BuildAnswer at ha
  unfold buildModule builtState
  rw [hr]
  cases hcreate : a.create with
  | some e =>
    rw [hcreate] at ha hsets
    -- the creation leaves a module or a log, so that the module can be destroyed at once
    have hone : m = none ∨ log = none := by
      by_contra hboth
      rw [not_or] at hboth
      refine ha ⟨?_, ?_⟩
      · exact hsets.1.symm.trans (Option.isSome_iff_ne_none.mpr hboth.1)
      · exact hsets.2.symm.trans (Option.isSome_iff_ne_none.mpr hboth.2)
    have hp : (p.setState d .Invalid).setBuildLog d log = p.modify d
        fun data => { data with state := .Invalid, zeBuildLog := log } := modify_modify
    dsimp only
    rw [hp]
    refine ⟨_, _, _, rfl, ?_, fun data => (if_neg nofun).symm⟩
    exact (hgiven.destroy hone).record hkeeps hlive hmodule hlog ⟨hmodule, rfl⟩
      fun _ h => absurd rfl h
  | none =>
    rw [hcreate] at ha hsets
    obtain ⟨x, rfl⟩ := Option.isSome_iff_exists.mp hsets.1
    dsimp only [Option.getD_some]
    rcases hc : driver₁.checkUnresolvedSymbols x log a with ⟨driver₂, log'⟩
    cases hsymbols : a.symbols with
    | some e =>
      rw [hsymbols] at ha
      obtain rfl : log = none :=
        Option.not_isSome_iff_eq_none.mp (hsets.2 ▸ ha.1)
      have hsame : driver₁.checkUnresolvedSymbols x none a = (driver₁, none) := if_neg ha.2
      obtain ⟨rfl, rfl⟩ := Prod.mk.inj (hc.symm.trans hsame)
      dsimp only
      have hp : ((p.setState d .Invalid).setZeModule d none).setBuildLog d none = p.modify d
          fun data => { data with state := .Invalid, zeModule := none, zeBuildLog := none } :=
        (congrArg (·.setBuildLog d none) modify_modify).trans modify_modify
      rw [hp]
      refine ⟨_, _, _, rfl, ?_, fun data => (if_neg nofun).symm⟩
      exact (hgiven.destroy (.inr rfl)).record hkeeps hlive hmodule hlog ⟨rfl, rfl⟩
        fun _ h => absurd rfl h
    | none =>
      rw [hsymbols] at ha
      have hfirst : a.linkLog = true → log = none := by
        intro hlink
        refine Option.not_isSome_iff_eq_none.mp fun hsome => ?_
        exact ha ⟨hsets.2.symm.trans hsome, hlink⟩
      have hchecked := hgiven.check hfirst
      rw [hc] at hchecked
      dsimp only
      have hp : ((p.setState d .Exe).setZeModule d (some x)).setBuildLog d log' = p.modify d
          fun data => { data with state := .Exe, zeModule := some x, zeBuildLog := log' } :=
        (congrArg (·.setBuildLog d log') modify_modify).trans modify_modify
      rw [hp]
      refine ⟨_, _, _, rfl, ?_, fun data => (if_pos ⟨rfl, rfl⟩).symm⟩
      exact hchecked.record hkeeps hlive hmodule hlog ⟨rfl, rfl⟩ fun h => absurd rfl h

/-- **The devices of a build.** -/
theorem buildDevices_carries {options : String} {code : ZeDevice → Bool} :
    ∀ (devices : List (ZeDevice × Answer)) (result : ProgramResult)
      (state : ZeDevice → ProgramState) {p : Program} {driver : Driver}, Keeps driver p → p.refCount ≠ 0 →
      (∀ d, (p.getState d).1 = state d) →
      (∀ d, state d = .IL ∨ state d = .Native → ((p.getState d).2.getCode d).isSome = code d) →
      BuildCareful code state devices →
      ∃ r p' driver', buildDevices options devices result p driver = (r, p', driver') ∧
        Carries p driver p' driver' := by
  intro devices
  induction devices with
  | nil =>
    intro result state p driver hkeeps _ _ _ _
    exact ⟨_, _, _, rfl, Carries.refl hkeeps⟩
  | cons e rest ih =>
    obtain ⟨d, a⟩ := e
    intro result state p driver hkeeps hlive hstate hcode hcareful
    have hasked := hkeeps.getState (d := d) hlive
    have hlive' : (p.getState d).2.refCount ≠ 0 := by rw [getState_frame.2.2]; exact hlive
    have hstate' : ∀ d', ((p.getState d).2.getState d').1 = state d' := by
      intro d'
      rw [getState_eq_view, view_getState, ← getState_eq_view, hstate]
    have hcode' : ∀ d', state d' = .IL ∨ state d' = .Native →
        (((p.getState d).2.getState d').2.getCode d').isSome = code d' := by
      intro d' h
      rw [getCode_eq_view, view_getState, getState_frame.2.1, ← getCode_eq_view, hcode d' h]
    rw [BuildCareful] at hcareful
    rw [buildDevices, buildDevice, hstate]
    cases hd : state d with
    | Exe =>
      rw [hd] at hcareful
      obtain ⟨r, p', driver', heq, hcarries⟩ :=
        ih result state hasked.keeps hlive' hstate' hcode' hcareful
      exact ⟨r, p', driver', heq, hasked.trans hcarries⟩
    | Object | Invalid => exact ⟨_, _, _, rfl, hasked⟩
    | IL | Native =>
      rw [hd] at hcareful
      have hready : state d = .IL ∨ state d = .Native := by simp [hd]
      cases hcoded : (p.getState d).2.getCode d with
      | none => exact ⟨_, _, _, rfl, hasked⟩
      | some text =>
        have hthere : code d = true := by rw [← hcode d hready, hcoded, Option.isSome_some]
        obtain ⟨ha, hrest⟩ := hcareful hthere
        -- there is nothing in the record of a device that is not built
        obtain ⟨data, hfind, hrecord⟩ :=
          getState_record (p := p) (d := d) (by rw [hstate, hd]; nofun)
        rw [hstate, hd] at hrecord
        have hunbuilt := hasked.keeps.unbuilt (d := d)
          (by rw [hfind, Option.getD_some, hrecord]; nofun)
          (by rw [hfind, Option.getD_some, hrecord]; nofun)
        obtain ⟨failed, f, driver', heq, hcarries, hbuilt⟩ := buildModule_carries hasked.keeps hlive' hunbuilt.1 hunbuilt.2 ha
        dsimp only
        rw [heq]
        have hstate'' : ∀ d', (((p.getState d).2.modify d f).getState d').1 =
            update state d (builtState a) d' := by
          intro d'
          rw [getState_eq_view, view_modify]
          by_cases hd' : d' = d
          · rw [if_pos hd', Option.map_some, Option.getD_some, hbuilt, hd', update_self]
          · rw [if_neg hd', update_of_ne hd', ← getState_eq_view, hstate']
        have hcode'' : ∀ d', update state d (builtState a) d' = .IL ∨
              update state d (builtState a) d' = .Native →
            ((((p.getState d).2.modify d f).getState d').2.getCode d').isSome = code d' := by
          intro d' h
          have hne : d' ≠ d := by
            rintro rfl
            rw [update_self, builtState] at h
            split at h <;> exact h.elim nofun nofun
          rw [update_of_ne hne] at h
          rw [getCode_eq_view, view_modify, if_neg hne, ← hcode' d' h, getCode_eq_view]
          rfl
        obtain ⟨r, p'', driver'', heq', hcarries'⟩ :=
          ih (failed.getD result) _ hcarries.keeps hlive' hstate'' hcode'' hrest
        exact ⟨r, p'', driver'', heq', hasked.trans (hcarries.trans hcarries')⟩

/-- The options of a compile are put into the record only. -/
theorem compileOptions_modify {relaxed : Bool} {options : Option String} :
    ∃ f, (compileOptions relaxed options d (p.setState d .Object)).setState d .Object =
      p.modify d f ∧ ∀ data, (f data).zeModule = data.zeModule ∧
        (f data).zeBuildLog = data.zeBuildLog := by
  unfold compileOptions Program.setState Program.setBuildOptions Program.appendBuildOptions
  cases options with
  | none =>
    rw [modify_modify]
    exact ⟨_, rfl, fun data => ⟨rfl, rfl⟩⟩
  | some text =>
    dsimp only
    split
    · rw [modify_modify, modify_modify, modify_modify]
      exact ⟨_, rfl, fun data => ⟨rfl, rfl⟩⟩
    · rw [modify_modify, modify_modify]
      exact ⟨_, rfl, fun data => ⟨rfl, rfl⟩⟩

/-- A compile has nothing from the driver. -/
theorem compile_carries {relaxed : Bool} {options : Option String} : ∀ (devices : List ZeDevice)
    {p : Program}, Keeps driver p → p.refCount ≠ 0 →
      Carries p driver (urProgramCompileExp relaxed options devices p).2 driver
  | [], _, hkeeps, _ => Carries.refl hkeeps
  | d :: devices, p, hkeeps, hlive => by
    have hasked := hkeeps.getState (d := d) hlive
    have hlive' : (p.getState d).2.refCount ≠ 0 := by rw [getState_frame.2.2]; exact hlive
    rw [urProgramCompileExp]
    split
    · exact hasked
    · rename_i hil
      have hil' : (p.getState d).1 = .IL := not_not.mp hil
      obtain ⟨data, hfind, hstate⟩ := getState_record (p := p) (d := d) (by rw [hil']; nofun)
      rw [hil'] at hstate
      have hunbuilt := hasked.keeps.unbuilt (d := d)
        (by rw [hfind, Option.getD_some, hstate]; nofun)
        (by rw [hfind, Option.getD_some, hstate]; nofun)
      obtain ⟨f, heq, hf⟩ := compileOptions_modify (p := (p.getState d).2) (d := d)
      rw [heq]
      have hcarries := hasked.keeps.modify (d := d) hlive' hf fun _ _ => hunbuilt
      exact hasked.trans (hcarries.trans (compile_carries devices hcarries.keeps hlive'))

/-! ## Linking -/

/-- The states of an input are asked for: all are Object just where nothing changes. -/
theorem objectStates_carries : ∀ (devices : List ZeDevice) {p : Program}, Keeps driver p →
    p.refCount ≠ 0 → Carries p driver (objectStates devices p).2 driver ∧
      (objectStates devices p).2.refCount = p.refCount ∧
      ((objectStates devices p).1 = true → (objectStates devices p).2 = p ∧
        ∀ d ∈ devices, (p.find d).map (·.state) = some .Object)
  | [], _, hkeeps, _ => ⟨Carries.refl hkeeps, rfl, fun _ => ⟨rfl, nofun⟩⟩
  | d :: devices, p, hkeeps, hlive => by
    have hasked := hkeeps.getState (d := d) hlive
    have hlive' : (p.getState d).2.refCount ≠ 0 := by rw [getState_frame.2.2]; exact hlive
    rw [objectStates]
    split
    · exact ⟨hasked, getState_frame.2.2, nofun⟩
    · rename_i hobject
      obtain ⟨hcarries, hcount, hall⟩ := objectStates_carries devices hasked.keeps hlive'
      refine ⟨hasked.trans hcarries, hcount.trans getState_frame.2.2, fun h => ?_⟩
      -- a record that was made would be in IL state
      have hthere : (p.find d).map (·.state) = some .Object ∧ (p.getState d).2 = p := by
        have hobject' : (p.getState d).1 = .Object := not_not.mp hobject
        cases hfind : p.find d with
        | some data =>
          rw [Program.getState_some hfind] at hobject' ⊢
          exact ⟨congrArg some hobject', rfl⟩
        | none =>
          rw [getState_eq_view, view, hfind] at hobject'
          split at hobject' <;> cases hobject'
      obtain ⟨hsame, hrest⟩ := hall h
      rw [hthere.2] at hsame hrest ⊢
      refine ⟨hsame, fun d' hd' => ?_⟩
      rcases List.mem_cons.mp hd' with rfl | hmem
      · exact hthere.1
      · exact hrest d' hmem

/-- **The devices of a link**, which has records with a module or a log only for those that it has
come to. -/
theorem linkDevices_carries {asked : ZeDevice → List Input} :
    ∀ (devices : List (ZeDevice × Answer)) (result : ProgramResult) (recorded : List ZeDevice)
      {p : Program} {driver : Driver}, Keeps driver p → p.refCount ≠ 0 →
      (∀ d ∉ recorded, ((p.find d).getD {}).zeModule = none ∧
        ((p.find d).getD {}).zeBuildLog = none) →
      LinkCareful recorded devices →
      ∃ r p' driver', linkDevices asked devices result p driver = (r, p', driver') ∧
        Carries p driver p' driver' := by
  intro devices
  induction devices with
  | nil =>
    intro result recorded p driver hkeeps _ _ _
    exact ⟨_, _, _, rfl, Carries.refl hkeeps⟩
  | cons e rest ih =>
    obtain ⟨d, a⟩ := e
    intro result recorded p driver hkeeps hlive hempty hcareful
    rcases hr : driver.create d (asked d) a with ⟨driver₁, m, log⟩
    have hgiven := create_given driver d (asked d) a
    have hsets := create_sets driver d (asked d) a
    rw [hr] at hgiven hsets
    rw [LinkCareful] at hcareful
    rw [linkDevices, linkDevice, hr]
    have hmodify : ∀ {log : Option ZeBuildLog} {state : ProgramState},
        ((p.setZeModule d m).setBuildLog d log).setState d state = p.modify d fun data =>
          { data with zeModule := m, zeBuildLog := log, state := state } := by
      intro log state
      unfold Program.setState Program.setBuildLog Program.setZeModule
      rw [modify_modify, modify_modify]
    -- what the records of the other devices have stays
    have hothers : ∀ {f : DeviceData → DeviceData} (recorded' : List ZeDevice),
        (∀ d' ∉ recorded', d' ∉ recorded) →
        (d ∉ recorded' → (f ((p.find d).getD {})).zeModule = none ∧
          (f ((p.find d).getD {})).zeBuildLog = none) →
        ∀ d' ∉ recorded', (((p.modify d f).find d').getD {}).zeModule = none ∧
          (((p.modify d f).find d').getD {}).zeBuildLog = none := by
      intro f recorded' hsub hnew d' hd'
      rw [Program.find_modify]
      split
      · rename_i heq
        exact hnew (heq ▸ hd')
      · exact hempty d' (hsub d' hd')
    cases hcreate : a.create with
    | some e =>
      rw [hcreate] at hcareful hsets
      dsimp only
      cases e with
      | moduleBuildFailure =>
        obtain ⟨hfresh, hrest⟩ := hcareful
        rw [hmodify]
        have hcarries := hgiven.record hkeeps hlive (hempty d hfresh).1 (hempty d hfresh).2
          (f := fun data => { data with zeModule := m, zeBuildLog := log, state := .Invalid })
          ⟨rfl, rfl⟩ fun _ h => absurd rfl h
        have hempty' := hothers
          (f := fun data => { data with zeModule := m, zeBuildLog := log, state := .Invalid })
          (if a.setsModule ∨ a.givesLog then d :: recorded else recorded)
          (fun d' hd' => by
            split at hd'
            · exact fun h => hd' (List.mem_cons_of_mem d h)
            · exact hd')
          fun hd' => by
            split at hd'
            · exact absurd List.mem_cons_self hd'
            · rename_i hnone
              rw [not_or] at hnone
              refine ⟨?_, ?_⟩
              · exact Option.not_isSome_iff_eq_none.mp (hsets.1 ▸ hnone.1)
              · exact Option.not_isSome_iff_eq_none.mp (hsets.2 ▸ hnone.2)
        obtain ⟨r, p', driver', heq, hcarries'⟩ :=
          ih .buildFailure _ hcarries.keeps hlive hempty' hrest
        exact ⟨r, p', driver', heq, hcarries.trans hcarries'⟩
      | moduleLinkFailure | other code =>
        obtain rfl : m = none := Option.not_isSome_iff_eq_none.mp (hsets.1 ▸ hcareful.1)
        obtain rfl : log = none := Option.not_isSome_iff_eq_none.mp (hsets.2 ▸ hcareful.2)
        exact ⟨_, _, _, rfl, hgiven.carries hkeeps⟩
    | none =>
      rw [hcreate] at hcareful hsets
      obtain ⟨hsymbols, hone, hfresh, hrest⟩ := hcareful
      obtain ⟨x, rfl⟩ := Option.isSome_iff_exists.mp hsets.1
      have hchecked := hgiven.check (a := a) fun hlink => by
        refine Option.not_isSome_iff_eq_none.mp fun hsome => hone ⟨?_, hlink⟩
        exact hsets.2.symm.trans hsome
      dsimp only [Option.getD_some]
      rcases hc : driver₁.checkUnresolvedSymbols x log a with ⟨driver₂, log'⟩
      rw [hc] at hchecked
      rw [hsymbols]
      dsimp only
      rw [hmodify]
      have hcarries := hchecked.record hkeeps hlive (hempty d hfresh).1 (hempty d hfresh).2
        (f := fun data => { data with zeModule := some x, zeBuildLog := log', state := .Exe })
        ⟨rfl, rfl⟩ fun h => absurd rfl h
      obtain ⟨r, p', driver', heq, hcarries'⟩ := ih .success (d :: recorded) hcarries.keeps hlive
        (hothers _ (fun d' hd' h => hd' (List.mem_cons_of_mem d h))
          fun hd' => absurd List.mem_cons_self hd') hrest
      exact ⟨r, p', driver', heq, hcarries.trans hcarries'⟩

end UnifiedRuntime.LevelZero.ProgramResources
