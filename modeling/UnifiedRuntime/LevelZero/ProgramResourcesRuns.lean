import UnifiedRuntime.Lib.GuardedRuns
import UnifiedRuntime.LevelZero.ProgramResources

/-!
# Runs of programs, and their releases

A release destroys the logs of a program, then the module it was made from, if it is its own, and
then the modules of the devices. The counts of all programs are the invariant of a run.

- `release_carries`: what a release does to the count.
- `sound_of_careful`: one call.
- `programs_owned`: runs whose calls avoid the defects.
-/

namespace UnifiedRuntime.LevelZero.ProgramResources

open Programs

variable {driver driver' : Driver} {modules : ZeModule → Nat} {logs : ZeBuildLog → Nat}
  {p p' : Program} {d : ZeDevice} {m : Option ZeModule} {log : Option ZeBuildLog}

/-! ## Releasing -/

theorem destroyModule?_module {x : ZeModule} : (driver.destroyModule? m).modules[x]? =
    (driver.modules[x]?).map fun info => { info with destroyed := info.destroyed + one m x } := by
  cases m with
  | none => exact Option.map_id'.symm
  | some m => exact destroyModule_module

theorem destroyModule?_logs : (driver.destroyModule? m).logs = driver.logs := by
  cases m <;> rfl

/-- The modules of the records. -/
theorem destroyModules (entries : List (ZeDevice × DeviceData)) (driver : Driver) :
    (entries.foldl (fun driver e => driver.destroyModule? e.2.zeModule) driver).logs = driver.logs ∧
      ∀ x : ZeModule,
        (entries.foldl (fun driver e => driver.destroyModule? e.2.zeModule) driver).modules[x]? =
        (driver.modules[x]?).map fun info => { info with
          destroyed := info.destroyed + entries.countP fun e => e.2.zeModule = some x } := by
  induction entries generalizing driver with
  | nil => exact ⟨rfl, fun x => Option.map_id'.symm⟩
  | cons e entries ih =>
    obtain ⟨hlogs, hmodules⟩ := ih (driver.destroyModule? e.2.zeModule)
    refine ⟨hlogs.trans destroyModule?_logs, fun x => ?_⟩
    rw [List.foldl_cons, hmodules, destroyModule?_module, Option.map_map]
    refine Option.map_congr fun info _ => ?_
    simp only [Function.comp_apply, List.countP_cons, decide_eq_true_eq, one]
    rw [Nat.add_right_comm, Nat.add_assoc]

/-- What a log is when it has been destroyed a number of times, by the driver as it is. -/
def loggedOff (driver : Driver) (n : Nat) (info : BuildLog) : BuildLog :=
  { info with
    destroyed := info.destroyed + n
    late := info.late || (0 < n && info.owner.any driver.isDestroyed) }

theorem loggedOff_zero {info : BuildLog} : loggedOff driver 0 info = info := by
  unfold loggedOff
  rw [decide_eq_false (Nat.lt_irrefl 0), Bool.false_and, Bool.or_false]
  rfl

theorem loggedOff_loggedOff {info : BuildLog} {n k : Nat} (h : driver'.modules = driver.modules) :
    loggedOff driver' k (loggedOff driver n info) = loggedOff driver (n + k) info := by
  have hsame : driver'.isDestroyed = driver.isDestroyed := by
    funext m
    unfold Driver.isDestroyed
    rw [h]
  unfold loggedOff
  rw [hsame]
  refine BuildLog.mk.injEq .. |>.mpr ⟨rfl, Nat.add_assoc .., ?_⟩
  cases info.owner.any driver.isDestroyed with
  | false => simp
  | true =>
    rw [Bool.and_true, Bool.and_true, Bool.and_true, Bool.or_assoc, ← Bool.decide_or]
    exact congrArg (info.late || ·) (decide_eq_decide.mpr Nat.add_pos_iff_pos_or_pos.symm)

theorem destroyLog?_log {l : ZeBuildLog} : (driver.destroyLog? log).logs[l]? =
    (driver.logs[l]?).map (loggedOff driver (one log l)) := by
  cases log with
  | none =>
    rw [one_none, Option.map_congr fun info _ => loggedOff_zero]
    exact Option.map_id'.symm
  | some x =>
    unfold Driver.destroyLog? Driver.destroyLog
    rw [List.getElem?_modify]
    refine Option.map_congr fun info _ => ?_
    by_cases h : x = l
    · subst h
      rw [if_pos rfl, one_self]
      exact congrArg (BuildLog.mk info.owner (info.destroyed + 1)) (by simp)
    · rw [if_neg h, one_of_ne (Ne.symm h), loggedOff_zero]

theorem destroyLog?_modules : (driver.destroyLog? log).modules = driver.modules := by
  cases log <;> rfl

/-- The logs of the records: the modules are there still. -/
theorem destroyLogs (entries : List (ZeDevice × DeviceData)) (driver : Driver) :
    (entries.foldl (fun driver e => driver.destroyLog? e.2.zeBuildLog) driver).modules =
        driver.modules ∧
      ∀ l : ZeBuildLog,
        (entries.foldl (fun driver e => driver.destroyLog? e.2.zeBuildLog) driver).logs[l]? =
        (driver.logs[l]?).map
          (loggedOff driver (entries.countP fun e => e.2.zeBuildLog = some l)) := by
  induction entries generalizing driver with
  | nil =>
    refine ⟨rfl, fun l => ?_⟩
    rw [List.countP_nil, Option.map_congr fun info _ => loggedOff_zero]
    exact Option.map_id'.symm
  | cons e entries ih =>
    obtain ⟨hmodules, hlogs⟩ := ih (driver.destroyLog? e.2.zeBuildLog)
    refine ⟨hmodules.trans destroyLog?_modules, fun l => ?_⟩
    rw [List.foldl_cons, hlogs, destroyLog?_log, Option.map_map]
    refine Option.map_congr fun info _ => ?_
    rw [Function.comp_apply, loggedOff_loggedOff destroyLog?_modules, List.countP_cons,
      Nat.add_comm]
    simp only [decide_eq_true_eq]
    rfl

/-- A record of a program is a module of the driver's that is not destroyed. -/
theorem Balanced.live (h : Balanced driver (fun m => modules m + heldModule p m) logs)
    (hkeeps : Keeps driver p) {e : ZeDevice × DeviceData} (he : e ∈ p.deviceDataMap) {x : ZeModule}
    (hx : e.2.zeModule = some x) : driver.isDestroyed x = false := by
  obtain ⟨info, hinfo, hown⟩ := (hkeeps.record e he).module x hx
  have hcount := h.module x info hinfo (hown ▸ nofun)
  have hheld : 0 < p.deviceDataMap.countP fun e => e.2.zeModule = some x :=
    List.countP_pos_iff.mpr ⟨e, he, decide_eq_true hx⟩
  unfold heldModule at hcount
  have hzero : info.destroyed = 0 := by omega
  unfold Driver.isDestroyed
  rw [hinfo, Option.any_some, hzero]
  rfl

/-- What a release does to the driver, module by module and log by log. -/
theorem release_driver (h : p.resourcesReleased = false) :
    (∀ x : ZeModule, (releaseResources p driver).2.modules[x]? =
      (driver.modules[x]?).map fun info => { info with destroyed := info.destroyed +
        ((if p.ownZeModule then one p.interopZeModule x else 0) +
          p.deviceDataMap.countP fun e => e.2.zeModule = some x) }) ∧
    ∀ l : ZeBuildLog, (releaseResources p driver).2.logs[l]? =
      (driver.logs[l]?).map (loggedOff driver (heldLog p l)) := by
  unfold releaseResources
  rw [h, if_neg Bool.false_ne_true]
  dsimp only
  obtain ⟨hmodules₁, hlogs₁⟩ := destroyLogs p.deviceDataMap driver
  generalize p.deviceDataMap.foldl (fun driver e => driver.destroyLog? e.2.zeBuildLog) driver =
    driver₁ at hmodules₁ hlogs₁ ⊢
  obtain ⟨driver₂, hdriver₂, hmodules₂, hlogs₂⟩ : ∃ driver₂ : Driver,
      (if p.ownZeModule then driver₁.destroyModule? p.interopZeModule else driver₁) = driver₂ ∧
      (∀ x : ZeModule, driver₂.modules[x]? = (driver.modules[x]?).map fun info => { info with
        destroyed := info.destroyed + if p.ownZeModule then one p.interopZeModule x else 0 }) ∧
      driver₂.logs = driver₁.logs := by
    cases p.ownZeModule with
    | true =>
      refine ⟨_, rfl, fun x => ?_, destroyModule?_logs⟩
      rw [if_pos rfl, destroyModule?_module, hmodules₁]
      rfl
    | false =>
      refine ⟨_, rfl, fun x => ?_, rfl⟩
      rw [if_neg Bool.false_ne_true, hmodules₁]
      exact Option.map_id'.symm
  obtain ⟨hlogs₃, hmodules₃⟩ := destroyModules p.deviceDataMap driver₂
  rw [hdriver₂]
  refine ⟨fun x => ?_, fun l => ?_⟩
  · rw [hmodules₃, hmodules₂, Option.map_map]
    refine Option.map_congr fun info _ => ?_
    rw [Function.comp_apply, Nat.add_assoc]
  · rw [hlogs₃, hlogs₂]
    exact hlogs₁ l

/-- **The resources of a program are released.** -/
theorem release_carries (hkeeps : Keeps driver p) (hnot : p.resourcesReleased = false) :
    Carries p driver (releaseResources { p with refCount := 0 } driver).1
      (releaseResources { p with refCount := 0 } driver).2 ∧
    ∀ n, heldModule (releaseResources { p with refCount := 0 } driver).1 n = 0 ∧
      heldLog (releaseResources { p with refCount := 0 } driver).1 n = 0 := by
  have hreleased : (releaseResources { p with refCount := 0 } driver).1 =
      { p with refCount := 0, deviceDataMap := [], resourcesReleased := true } := by
    rw [hnot]
    rfl
  obtain ⟨hmodules, hlogs⟩ := release_driver (p := { p with refCount := 0 }) hnot
  rw [hreleased]
  refine ⟨⟨?_, ⟨nofun, ?_, fun _ => rfl, ⟨fun _ => rfl, fun _ => rfl⟩⟩, ?_, ?_⟩,
    fun n => ⟨rfl, rfl⟩⟩
  · intro modules logs hb
    have hheld : ∀ x, heldModule p x =
        p.deviceDataMap.countP (fun e => e.2.zeModule = some x) + one p.interopZeModule x := by
      intro x
      unfold heldModule
      rw [hnot, if_neg Bool.false_ne_true]
    refine ⟨?_, ?_, ?_, ?_, ?_⟩
    · intro x info hx hown
      rw [hmodules] at hx
      obtain ⟨old, hold, rfl⟩ := Option.map_eq_some_iff.mp hx
      have hcount := hb.module x old hold hown
      rw [hheld] at hcount
      -- the module it was made from is counted, but for one that is not its own
      have hinterop : p.ownZeModule = false → one p.interopZeModule x = 0 := by
        intro hforeign
        refine if_neg fun hx => ?_
        obtain ⟨info', hinfo', hsame⟩ := hkeeps.interop x hx
        obtain rfl := Option.some.inj (hold.symm.trans hinfo')
        exact hown (hsame.trans (congrArg some hforeign))
      show old.destroyed + ((if p.ownZeModule then one p.interopZeModule x else 0) +
        p.deviceDataMap.countP fun e => e.2.zeModule = some x) + (modules x + 0) = 1
      cases hp : p.ownZeModule with
      | true =>
        rw [if_pos rfl]
        omega
      | false =>
        rw [if_neg Bool.false_ne_true]
        have := hinterop hp
        omega
    · intro x info hx hforeign
      rw [hmodules] at hx
      obtain ⟨old, hold, rfl⟩ := Option.map_eq_some_iff.mp hx
      have hrecords : p.deviceDataMap.countP (fun e => e.2.zeModule = some x) = 0 := by
        refine List.countP_eq_zero.mpr fun e he hx => ?_
        obtain ⟨info', hinfo', hnone⟩ := (hkeeps.record e he).module x (of_decide_eq_true hx)
        obtain rfl := Option.some.inj (hold.symm.trans hinfo')
        exact nomatch hnone.symm.trans hforeign
      have hinterop : (if p.ownZeModule then one p.interopZeModule x else 0) = 0 := by
        split
        · rename_i hown
          refine if_neg fun hx => ?_
          obtain ⟨info', hinfo', hsame⟩ := hkeeps.interop x hx
          obtain rfl := Option.some.inj (hold.symm.trans hinfo')
          rw [hown] at hsame
          exact nomatch hsame.symm.trans hforeign
        · rfl
      show old.destroyed + ((if p.ownZeModule then one p.interopZeModule x else 0) +
        p.deviceDataMap.countP fun e => e.2.zeModule = some x) = 0
      rw [hrecords, hinterop]
      exact hb.foreign x old hold hforeign
    · intro l info hl
      rw [hlogs] at hl
      obtain ⟨old, hold, rfl⟩ := Option.map_eq_some_iff.mp hl
      obtain ⟨hcount, hlate⟩ := hb.log l old hold
      refine ⟨?_, ?_⟩
      · show old.destroyed + heldLog p l + (logs l + 0) = 1
        omega
      · show (old.late || (decide (0 < heldLog p l) && old.owner.any driver.isDestroyed)) = false
        rw [hlate, Bool.false_or, Bool.and_eq_false_iff]
        by_cases hheld : 0 < heldLog p l
        · right
          obtain ⟨e, he, hl⟩ := List.countP_pos_iff.mp hheld
          obtain ⟨info', hinfo', howner⟩ := (hkeeps.record e he).log l (of_decide_eq_true hl)
          obtain rfl := Option.some.inj (hold.symm.trans hinfo')
          cases hm : old.owner with
          | none => rfl
          | some x => exact hb.live hkeeps he (howner x hm)
        · exact .inl (decide_eq_false hheld)
    · intro x hx
      rw [hmodules, Option.map_eq_none_iff] at hx
      exact Nat.eq_zero_of_add_eq_zero_right (hb.noModule x hx)
    · intro l hl
      rw [hlogs, Option.map_eq_none_iff] at hl
      exact Nat.eq_zero_of_add_eq_zero_right (hb.noLog l hl)
  · intro x hx
    obtain ⟨info, hinfo, hsame⟩ := hkeeps.interop x hx
    exact ⟨_, (hmodules x).trans (congrArg _ hinfo), hsame⟩
  · intro x info hx
    exact ⟨_, (hmodules x).trans (congrArg _ hx), rfl⟩
  · intro l info hl
    exact ⟨_, (hlogs l).trans (congrArg _ hl), rfl⟩

/-! ## All programs -/

/-- **The invariant**: the counts of all programs are as they should be, and each keeps its own. -/
structure Sound (programs : List Program) (driver : Driver) : Prop where
  balanced : Balanced driver (fun m => (programs.map fun p => heldModule p m).sum)
    fun l => (programs.map fun p => heldLog p l).sum
  keeps : ∀ p ∈ programs, Keeps driver p

variable {programs : List Program} {i : Nat}

/-- A sum, with one term set apart. -/
theorem sum_set {f : Program → Nat} (h : programs[i]? = some p) :
    ((programs.set i p').map f).sum = ((programs.eraseIdx i).map f).sum + f p' := by
  have hi : i < programs.length := (List.getElem?_eq_some_iff.mp h).1
  rw [((List.set_perm_cons_eraseIdx hi p').map f).sum_nat, List.map_cons, List.sum_cons,
    Nat.add_comm]

theorem set_same (h : programs[i]? = some p) : programs.set i p = programs := by
  obtain ⟨hi, rfl⟩ := List.getElem?_eq_some_iff.mp h
  exact List.set_getElem_self hi

/-- **A call on one program.** -/
theorem Sound.set (h : Sound programs driver) (hi : programs[i]? = some p)
    (hcarries : Carries p driver p' driver') : Sound (programs.set i p') driver' := by
  constructor
  · have hbefore := h.balanced
    have hsame := set_same hi
    refine (hcarries.balanced (hbefore.congr (fun m => ?_) fun l => ?_)).congr
      (fun m => sum_set hi) fun l => sum_set hi
    · rw [← sum_set (f := fun q => heldModule q m) hi, hsame]
    · rw [← sum_set (f := fun q => heldLog q l) hi, hsame]
  · intro q hq
    rcases List.mem_or_eq_of_mem_set hq with hold | rfl
    · exact (h.keeps q hold).outlives hcarries.outlives
    · exact hcarries.keeps

/-- **A program that is made.** -/
theorem Sound.append (h : Sound programs driver) (hnothing : ∀ n, heldModule p n = 0 ∧
    heldLog p n = 0) (hcarries : Carries p driver p' driver') :
    Sound (programs ++ [p']) driver' := by
  constructor
  · have hbefore : Balanced driver
        (fun m => (programs.map fun q => heldModule q m).sum + heldModule p m)
        fun l => (programs.map fun q => heldLog q l).sum + heldLog p l := h.balanced.congr
      (fun m => by rw [(hnothing m).1, Nat.add_zero]) fun l => by rw [(hnothing l).2, Nat.add_zero]
    refine (hcarries.balanced hbefore).congr (fun m => ?_) fun l => ?_
    · rw [List.map_append, List.sum_append, List.map_singleton, List.sum_singleton]
    · rw [List.map_append, List.sum_append, List.map_singleton, List.sum_singleton]
  · intro q hq
    rcases List.mem_append.mp hq with hold | hnew
    · exact (h.keeps q hold).outlives hcarries.outlives
    · obtain rfl := List.mem_singleton.mp hnew
      exact hcarries.keeps

/-- A new program without modules and logs. -/
structure Fresh (p : Program) : Prop where
  record : ∀ e ∈ p.deviceDataMap, e.2.zeModule = none ∧ e.2.zeBuildLog = none
  interop : p.interopZeModule = none
  released : p.resourcesReleased = false
  count : p.refCount = 1

theorem Fresh.keeps (h : Fresh p) : Keeps driver p := by
  refine ⟨fun e he => ⟨?_, ?_, fun _ _ => h.record e he⟩, ?_, ?_, ?_⟩
  · intro m hm
    exact nomatch (h.record e he).1.symm.trans hm
  · intro l hl
    exact nomatch (h.record e he).2.symm.trans hl
  · intro m hm
    exact nomatch h.interop.symm.trans hm
  · intro hreleased
    exact nomatch h.released.symm.trans hreleased
  · rw [h.count, h.released]
    exact ⟨nofun, nofun⟩

theorem Fresh.nothing (h : Fresh p) (n : Nat) : heldModule p n = 0 ∧ heldLog p n = 0 := by
  constructor
  · unfold heldModule
    rw [h.released, h.interop]
    refine List.countP_eq_zero.mpr fun e he hx => ?_
    exact nomatch (h.record e he).1.symm.trans (of_decide_eq_true hx)
  · refine List.countP_eq_zero.mpr fun e he hx => ?_
    exact nomatch (h.record e he).2.symm.trans (of_decide_eq_true hx)

theorem Fresh.modify (h : Fresh p) {f : DeviceData → DeviceData}
    (hf : ∀ data, (f data).zeModule = data.zeModule ∧ (f data).zeBuildLog = data.zeBuildLog) :
    Fresh (p.modify d f) := by
  refine ⟨fun e he => ?_, h.interop, h.released, h.count⟩
  rcases Assoc.mem_modify he with hold | rfl
  · exact h.record e hold
  · have hempty : ((p.deviceDataMap.lookup d).getD {}).zeModule = none ∧
        ((p.deviceDataMap.lookup d).getD {}).zeBuildLog = none := by
      cases hfind : p.deviceDataMap.lookup d with
      | none => exact ⟨rfl, rfl⟩
      | some data => exact h.record _ (Assoc.mem_of_lookup hfind)
    exact ⟨(hf _).1.trans hempty.1, (hf _).2.trans hempty.2⟩

theorem newProgram_fresh {devices : List ZeDevice} {state : ProgramState}
    {code : Option (List UInt8)} : Fresh (newProgram devices state code) := by
  suffices h : ∀ {q : Program}, Fresh q →
      Fresh (devices.foldl (fun p d => p.setState d state) q) from
    h ⟨nofun, rfl, rfl, rfl⟩
  induction devices with
  | nil => exact id
  | cons d devices ih => exact fun h => ih (h.modify fun _ => ⟨rfl, rfl⟩)

theorem newNative_fresh {binaries : List (ZeDevice × List UInt8)} : Fresh (newNative binaries) := by
  suffices h : ∀ {q : Program}, Fresh q → Fresh (binaries.foldl (fun p b => p.modify b.1
      fun data => { data with state := .Native, binary := some b.2 }) q) from
    h ⟨nofun, rfl, rfl, rfl⟩
  induction binaries with
  | nil => exact id
  | cons b binaries ih => exact fun h => ih (h.modify fun _ => ⟨rfl, rfl⟩)

/-- **The inputs of a link**: if all are Object nothing has changed. -/
theorem checkInputs_sound {devices : List ZeDevice} : ∀ (inputs : List Nat)
    {programs : List Program}, Sound programs driver →
      (∀ i ∈ inputs, ∃ p, programs[i]? = some p ∧ p.refCount ≠ 0) →
      Sound (checkInputs devices inputs programs).2 driver ∧
        ((checkInputs devices inputs programs).1 = true →
          (checkInputs devices inputs programs).2 = programs ∧
            ∀ i ∈ inputs, ∀ d ∈ devices,
              ((programs[i]?).bind (·.find d)).map (·.state) = some .Object)
  | [], _, hsound, _ => ⟨hsound, fun _ => ⟨rfl, nofun⟩⟩
  | i :: inputs, programs, hsound, hthere => by
    obtain ⟨p, hi, hlive⟩ := hthere i List.mem_cons_self
    obtain ⟨hcarries, -, hall⟩ := objectStates_carries devices
      (hsound.keeps p (List.mem_of_getElem? hi)) hlive
    rw [checkInputs, hi]
    dsimp only
    cases hobject : (objectStates devices p).1 with
    | false =>
      exact ⟨hsound.set hi hcarries, nofun⟩
    | true =>
      obtain ⟨hsame, hstates⟩ := hall hobject
      rw [hsame, set_same hi]
      obtain ⟨hrest, hrest'⟩ := checkInputs_sound inputs hsound fun j hj =>
        hthere j (List.mem_cons_of_mem i hj)
      refine ⟨hrest, fun h => ⟨(hrest' h).1, fun j hj => ?_⟩⟩
      rcases List.mem_cons.mp hj with rfl | hmem
      · intro d hd
        rw [hi]
        exact hstates d hd
      · exact (hrest' h).2 j hmem

/-! ## The calls -/

variable {w : World} {c : Call}

theorem Sound.put (h : Sound w.programs w.driver) (hi : w.programs[i]? = some p)
    (hcarries : Carries p w.driver p' driver') :
    Sound (w.put i p' driver').programs (w.put i p' driver').driver :=
  h.set hi hcarries

/-- A program with another count. -/
theorem Keeps.recount (h : Keeps driver p) (hlive : p.refCount ≠ 0) {n : Nat} (hn : n ≠ 0) :
    Carries p driver { p with refCount := n } driver :=
  ⟨id, ⟨h.record, h.interop, h.released,
    iff_of_false hn fun hreleased => hlive (h.count.mpr hreleased)⟩, Outlives.refl⟩

/-- The link of a world, where its devices and options can be linked. -/
theorem link_sound {devices : List (ZeDevice × Answer)} {inputs : List Nat} {options : String}
    {extension : Bool} (h : Sound w.programs w.driver) (hallowed : ∀ i ∈ inputs, Referenced w i)
    (hcareful : Careful w (.link devices inputs options extension)) :
    Sound (w.link devices inputs options extension).2.programs
      (w.link devices inputs options extension).2.driver := by
  unfold World.link
  split
  · exact h
  rename_i hvalid
  split
  · exact h.append newProgram_fresh.nothing (Carries.refl newProgram_fresh.keeps)
  rename_i hoptions
  obtain ⟨hsound, hobject⟩ := checkInputs_sound inputs h hallowed
  rcases hcheck : checkInputs (devices.map (·.1)) inputs w.programs with ⟨object, programs⟩
  rw [hcheck] at hsound hobject ⊢
  cases object with
  | false => exact hsound
  | true =>
    obtain ⟨hsame, hall⟩ := hobject rfl
    obtain rfl : programs = w.programs := hsame
    dsimp only
    split
    · exact hsound
    rename_i hextension
    have hlink := hcareful (not_not.mp hvalid) (not_not.mp hoptions)
      (by
        by_contra hboth
        rw [not_or] at hboth
        exact hextension ⟨hboth.1, hboth.2⟩)
      fun i hi e he => hall i hi e.1 (List.mem_map_of_mem he)
    have hfresh : Fresh { associatedDevices := w.devices } := ⟨nofun, rfl, rfl, rfl⟩
    have hkeeps : Keeps w.driver { associatedDevices := w.devices } := hfresh.keeps
    obtain ⟨r, p', driver', heq, hcarries⟩ := linkDevices_carries devices .success [] hkeeps
      Nat.one_ne_zero (fun _ _ => ⟨rfl, rfl⟩) hlink
    rw [heq]
    exact h.append hfresh.nothing hcarries

/-- **One call** keeps the counts as they should be. -/
theorem sound_of_careful (h : Sound w.programs w.driver) (hallowed : Allowed w c)
    (hcareful : Careful w c) : Sound (w.call c).2.programs (w.call c).2.driver := by
  cases c with
  | createWithIL code =>
    exact h.append newProgram_fresh.nothing (Carries.refl newProgram_fresh.keeps)
  | createWithBinary binaries =>
    unfold World.call
    dsimp only
    split
    · exact h
    · exact h.append newNative_fresh.nothing (Carries.refl newNative_fresh.keeps)
  | createWithNativeHandle owned =>
    have hfresh : Fresh { associatedDevices := w.devices.take 1 } := ⟨nofun, rfl, rfl, rfl⟩
    refine h.append hfresh.nothing ⟨fun hb => ?_, ⟨nofun, ?_, fun _ => rfl, ⟨nofun, nofun⟩⟩,
      outlives_addModule⟩
    · refine (hb.addModule rfl).congr
        (fun m => ?_) fun l => rfl
      exact congrArg _ (Nat.zero_add _)
    · intro m hm
      obtain rfl := Option.some.inj hm
      exact ⟨_, List.getElem?_concat_length, rfl⟩
  | build i devices options =>
    obtain ⟨p, hi, hlive⟩ := hallowed
    have hkeeps := h.keeps p (List.mem_of_getElem? hi)
    obtain ⟨r, p', driver', heq, hcarries⟩ := buildDevices_carries devices .success _ hkeeps hlive (fun _ => rfl)
      (fun _ _ => rfl) (hcareful p hi)
    unfold World.call urProgramBuildExp
    dsimp only
    rw [hi]
    dsimp only
    rw [heq]
    exact h.put hi hcarries
  | compile i devices options =>
    obtain ⟨p, hi, hlive⟩ := hallowed
    unfold World.call
    dsimp only
    rw [hi]
    exact h.put hi (compile_carries devices (h.keeps p (List.mem_of_getElem? hi)) hlive)
  | link devices inputs options extension => exact link_sound h hallowed hcareful
  | getState i d =>
    obtain ⟨p, hi, hlive⟩ := hallowed
    unfold World.call
    dsimp only
    rw [hi]
    exact h.put hi ((h.keeps p (List.mem_of_getElem? hi)).getState hlive)
  | retain i =>
    obtain ⟨p, hi, hlive⟩ := hallowed
    have hmodify : w.programs.modify i (fun p => { p with refCount := p.refCount + 1 }) =
        w.programs.set i { p with refCount := p.refCount + 1 } := by
      rw [List.modify_eq_set_getElem?, hi]
      rfl
    have hset := h.set hi ((h.keeps p (List.mem_of_getElem? hi)).recount hlive
      (Nat.succ_ne_zero p.refCount))
    rw [← hmodify] at hset
    exact hset
  | release i =>
    obtain ⟨p, hi, hlive⟩ := hallowed
    have hkeeps := h.keeps p (List.mem_of_getElem? hi)
    unfold World.call
    dsimp only
    rw [hi]
    dsimp only
    by_cases hone : p.refCount = 1
    · rw [if_pos hone]
      have hnot : p.resourcesReleased = false :=
        Bool.eq_false_iff.mpr fun hreleased => hlive (hkeeps.count.mpr hreleased)
      exact h.put hi (release_carries hkeeps hnot).1
    · rw [if_neg hone]
      exact h.put hi (hkeeps.recount hlive (by omega))

/-- What is recorded is there, so nothing is early or late. -/
theorem owned_of_sound (h : Sound w.programs w.driver) : Owned w := by
  refine ⟨h.balanced, ?_, ?_⟩
  · intro l info m hl hlive howner
    -- the program that has recorded the log has the module as well
    obtain ⟨hcount, -⟩ := h.balanced.log l info hl
    rw [hlive, Nat.zero_add] at hcount
    obtain ⟨n, hn, hpos⟩ := List.sum_pos_iff_exists_pos_nat.mp (hcount ▸ Nat.one_pos)
    obtain ⟨p, hp, rfl⟩ := List.mem_map.mp hn
    obtain ⟨e, he, hlog⟩ := List.countP_pos_iff.mp hpos
    obtain ⟨info', hinfo', hsame⟩ := ((h.keeps p hp).record e he).log l (of_decide_eq_true hlog)
    obtain rfl := Option.some.inj (hl.symm.trans hinfo')
    obtain ⟨i, hi, hget⟩ := List.getElem_of_mem hp
    have hi' : w.programs[i]? = some p := (List.getElem?_eq_getElem hi).trans (congrArg some hget)
    have hbalanced : Balanced w.driver
        (fun m => ((w.programs.eraseIdx i).map fun q => heldModule q m).sum + heldModule p m) _ :=
      h.balanced.congr (fun m => by rw [← sum_set (f := fun q => heldModule q m) hi', set_same hi']) fun _ => rfl
    exact hbalanced.live (h.keeps p hp) he (hsame m howner)
  · intro p hp hcount n
    have hreleased := (h.keeps p hp).count.mp hcount
    have hempty := (h.keeps p hp).released hreleased
    unfold heldModule heldLog
    rw [hempty, hreleased]
    exact ⟨rfl, rfl⟩

/-! ## Runs -/

/-- A context without programs. -/
def newWorld (devices : List ZeDevice) (isValidDevice : ZeDevice → Bool) (relaxed : Bool) :
    World :=
  ⟨devices, isValidDevice, relaxed, [], ⟨[], []⟩⟩

/-- **What the driver has given out is owned exactly once** after every run whose calls meet no
defect. -/
theorem programs_owned (devices : List ZeDevice) (isValidDevice : ZeDevice → Bool) (relaxed : Bool)
    (calls : List Call)
    (h : Along (fun w c => (w.call c).2) (fun w c => Allowed w c ∧ Careful w c)
      (newWorld devices isValidDevice relaxed) calls) :
    Owned (calls.foldl (fun w c => (w.call c).2) (newWorld devices isValidDevice relaxed)) := by
  have hnew : Sound (newWorld devices isValidDevice relaxed).programs
      (newWorld devices isValidDevice relaxed).driver :=
    ⟨⟨nofun, nofun, nofun, fun _ _ => rfl, fun _ _ => rfl⟩, nofun⟩
  have hstep : ∀ w c, Sound w.programs w.driver → Allowed w c ∧ Careful w c →
      Sound (w.call c).2.programs (w.call c).2.driver :=
    fun w c hs hc => sound_of_careful hs hc.1 hc.2
  have hinv := Along.invariant hstep hnew h
  exact owned_of_sound hinv.2

/-- A program that is built and released. -/
theorem programs_owned_release : Owned
    ([.createWithIL [7], .build 0 [(1, {})] none, .release 0].foldl (fun w c => (World.call w c).2)
      (newWorld [1] [1].contains false)) := by
  refine programs_owned [1] [1].contains false
    [.createWithIL [7], .build 0 [(1, {})] none, .release 0]
    ⟨⟨trivial, trivial⟩, ⟨⟨_, rfl, nofun⟩, fun p hp => ?_⟩, ⟨⟨_, rfl, nofun⟩, trivial⟩, trivial⟩
  obtain rfl := Option.some.inj hp
  exact fun _ => ⟨fun h => (nomatch h.2), trivial⟩

/-- The check for unresolved symbols gives a log of its own: that of the creation is never
destroyed. -/
theorem creation_log_lost : ¬ ∀ (devices : List ZeDevice) (isValidDevice : ZeDevice → Bool)
    (relaxed : Bool) (calls : List Call),
    Along (fun w c => (w.call c).2) Allowed (newWorld devices isValidDevice relaxed) calls →
      Owned (calls.foldl (fun w c => (w.call c).2) (newWorld devices isValidDevice relaxed)) := by
  intro h
  have howned := h [1] [1].contains false
    [.createWithIL [7], .build 0 [(1, { linkLog := true })] none, .release 0]
    ⟨trivial, ⟨_, rfl, nofun⟩, ⟨_, rfl, nofun⟩, trivial⟩
  have hlog := (howned.balanced.log 0 { owner := some 0 } rfl).1
  exact absurd hlog (by decide)

end UnifiedRuntime.LevelZero.ProgramResources
