import Mathlib

/-!
# The generic fill of the in-order queue

`enqueueGenericFillUnlocked` appends one native fill if the size of the pattern is a power of
two, and a copy of the pattern for every step otherwise. The number of steps is a `uint32_t`,
and the wait list and the event go with the first and the last copy.

Memory is a function of 64-bit addresses, and the commands of the list run one after the other.

- `copyLoop_run`, `copyLoop_signal`: what the loop's copies write and signal.
- `genericFill_covers`: when the whole range is filled, behind the wait list and before the event.
-/

namespace UnifiedRuntime.LevelZeroV2.Fill

/-! ## Commands -/

abbrev ZeEvent := Nat

abbrev Bytes := UInt64 → UInt8

inductive UrResult where
  | success
  | error

/-- `zeCommandListAppendMemoryFill` and `zeCommandListAppendMemoryCopy` from the pattern. -/
inductive Transfer where
  | memoryFill (dst patternSize size : UInt64)
  | memoryCopy (dst size : UInt64)

structure Command where
  transfer : Transfer
  signal : Option ZeEvent
  waits : List ZeEvent

/-- The bytes after a transfer; the offset of an address from `dst` wraps as addresses do. -/
def Transfer.run (pattern : Bytes) (mem : Bytes) : Transfer → Bytes
  | .memoryFill dst patternSize size => fun a =>
    if a - dst < size then pattern ((a - dst) % patternSize) else mem a
  | .memoryCopy dst size => fun a => if a - dst < size then pattern (a - dst) else mem a

def run (pattern : Bytes) (cmds : List Command) (mem : Bytes) : Bytes :=
  cmds.foldl (fun mem cmd => cmd.transfer.run pattern mem) mem

/-! ## The function -/

/-- `isPowerOf2`. -/
def isPowerOf2 (value : UInt64) : Bool := value != 0 && value &&& (value - 1) == 0

/-- The loop, with the steps that are left; `append k` says whether the driver takes the `k`-th
command. -/
def copyLoop (pDst patternSize : UInt64) (numOfCopySteps : UInt32) (zeSignalEvent : Option ZeEvent)
    (append : Nat → Bool) : Nat → UInt32 → List ZeEvent → List Command × UrResult
  | 0, _, _ => ([], .success)
  | left + 1, step, waitListView =>
    if append step.toNat then
      let cmd : Command :=
        { transfer := .memoryCopy (pDst + step.toUInt64 * patternSize) patternSize
          signal := if step = numOfCopySteps - 1 then zeSignalEvent else none
          waits := waitListView }
      let r := copyLoop pDst patternSize numOfCopySteps zeSignalEvent append left (step + 1) []
      (cmd :: r.1, r.2)
    else ([], .error)

/-- `enqueueGenericFillUnlocked`: the commands and the result. A pattern of no bytes is divided
by. -/
def enqueueGenericFill (pDst patternSize size : UInt64) (waitListView : List ZeEvent)
    (zeSignalEvent : Option ZeEvent) (append : Nat → Bool) : Option (List Command × UrResult) :=
  if isPowerOf2 patternSize then
    if append 0 then
      some ([⟨.memoryFill pDst patternSize size, zeSignalEvent, waitListView⟩], .success)
    else some ([], .error)
  else if patternSize = 0 then none
  else
    let numOfCopySteps := (size / patternSize).toUInt32
    some (copyLoop pDst patternSize numOfCopySteps zeSignalEvent append numOfCopySteps.toNat 0
      waitListView)

/-! ## Fills with the pattern -/

/-- The bytes from `pDst` on are the pattern again and again, and the others are as before. -/
def Fills (pattern : Bytes) (pDst patternSize size : UInt64) (cmds : List Command) : Prop :=
  ∀ mem a, run pattern cmds mem a =
    if a - pDst < size then pattern ((a - pDst) % patternSize) else mem a

/-- The first command waits for the whole wait list. -/
def FirstWaits (waits : List ZeEvent) (cmds : List Command) : Prop :=
  waits = [] ∨ ∃ cmd rest, cmds = cmd :: rest ∧ cmd.waits = waits

/-- The event is signalled by the last command and no other. -/
def LastSignals : Option ZeEvent → List Command → Prop
  | none, cmds => ∀ cmd ∈ cmds, cmd.signal = none
  | some event, cmds => ∃ init last, cmds = init ++ [last] ∧ last.signal = some event ∧
      ∀ cmd ∈ init, cmd.signal = none

/-- **The whole range is filled**, behind the wait list and before the event. -/
def Covers (pattern : Bytes) (pDst patternSize size : UInt64) (waits : List ZeEvent)
    (event : Option ZeEvent) (out : Option (List Command × UrResult)) : Prop :=
  ∃ cmds, out = some (cmds, .success) ∧ Fills pattern pDst patternSize size cmds ∧
    FirstWaits waits cmds ∧ LastSignals event cmds

/-! ## The loop -/

variable {pattern mem : Bytes} {pDst patternSize size : UInt64} {numOfCopySteps : UInt32}
  {waits : List ZeEvent} {event : Option ZeEvent} {append : Nat → Bool}

/-- What a copy at `k` bytes from the start writes, in offsets that do not wrap. -/
theorem memoryCopy_run {k : UInt64} (hk : k.toNat + patternSize.toNat < 2 ^ 64) (a : UInt64) :
    (Transfer.memoryCopy (pDst + k) patternSize).run pattern mem a =
      if k.toNat ≤ (a - pDst).toNat ∧ (a - pDst).toNat < k.toNat + patternSize.toNat then
        pattern (a - pDst - k)
      else mem a := by
  have hsub : a - (pDst + k) = a - pDst - k := by
    apply UInt64.toNat.inj
    rw [UInt64.toNat_sub, UInt64.toNat_add, UInt64.toNat_sub, UInt64.toNat_sub]
    have hp := pDst.toNat_lt
    omega
  have hnat : (a - pDst - k).toNat = (2 ^ 64 - k.toNat + (a - pDst).toNat) % 2 ^ 64 :=
    UInt64.toNat_sub _ _
  have hd := (a - pDst).toNat_lt
  show (if a - (pDst + k) < patternSize then pattern (a - (pDst + k)) else mem a) = _
  rw [hsub]
  by_cases hin : k.toNat ≤ (a - pDst).toNat ∧ (a - pDst).toNat < k.toNat + patternSize.toNat
  · rw [if_pos hin, if_pos]
    rw [UInt64.lt_iff_toNat_lt]
    omega
  · rw [if_neg hin, if_neg]
    rw [UInt64.lt_iff_toNat_lt]
    omega

theorem copyLoop_succ (hall : ∀ k, append k = true) (left : Nat) (step : UInt32) :
    copyLoop pDst patternSize numOfCopySteps event append (left + 1) step waits =
      (⟨.memoryCopy (pDst + step.toUInt64 * patternSize) patternSize,
          if step = numOfCopySteps - 1 then event else none, waits⟩ ::
        (copyLoop pDst patternSize numOfCopySteps event append left (step + 1) []).1,
        (copyLoop pDst patternSize numOfCopySteps event append left (step + 1) []).2) := by
  rw [copyLoop, if_pos (hall _)]

theorem copyLoop_success (hall : ∀ k, append k = true) : ∀ (left : Nat) (step : UInt32)
    (waits : List ZeEvent),
    (copyLoop pDst patternSize numOfCopySteps event append left step waits).2 = .success
  | 0, _, _ => rfl
  | left + 1, step, waits => by
    rw [copyLoop_succ hall]
    exact copyLoop_success hall left (step + 1) []

/-- A step does not wrap. -/
theorem step_succ {left : Nat} {step : UInt32}
    (hstep : step.toNat + (left + 1) = numOfCopySteps.toNat) :
    (step + 1).toNat = step.toNat + 1 := by
  have hlt := numOfCopySteps.toNat_lt
  show (step.toNat + 1) % 2 ^ 32 = step.toNat + 1
  omega

/-- The last step is the one before `numOfCopySteps`. -/
theorem last_step {left : Nat} {step : UInt32}
    (hstep : step.toNat + (left + 1) = numOfCopySteps.toNat) :
    step = numOfCopySteps - 1 ↔ left = 0 := by
  have hlt := numOfCopySteps.toNat_lt
  have hsub : (numOfCopySteps - 1).toNat = numOfCopySteps.toNat - 1 := by
    show (2 ^ 32 - 1 + numOfCopySteps.toNat) % 2 ^ 32 = _
    omega
  rw [← UInt32.toNat_inj]
  omega

/-- **What the copies from a step on write.** -/
theorem copyLoop_run (hall : ∀ k, append k = true) (hpos : 0 < patternSize.toNat)
    (hsize : numOfCopySteps.toNat * patternSize.toNat < 2 ^ 64) (a : UInt64) :
    ∀ (left : Nat) (step : UInt32) (waits : List ZeEvent) (mem : Bytes),
      step.toNat + left = numOfCopySteps.toNat →
      run pattern (copyLoop pDst patternSize numOfCopySteps event append left step waits).1 mem a =
        if step.toNat * patternSize.toNat ≤ (a - pDst).toNat ∧
            (a - pDst).toNat < numOfCopySteps.toNat * patternSize.toNat then
          pattern ((a - pDst) % patternSize)
        else mem a
  | 0, step, waits, mem, hstep => by
    have hlast : step.toNat = numOfCopySteps.toNat := by omega
    rw [hlast, if_neg (by omega)]
    rfl
  | left + 1, step, waits, mem, hstep => by
    have hnext := step_succ hstep
    have hbound : (step.toNat + 1) * patternSize.toNat ≤
        numOfCopySteps.toNat * patternSize.toNat := Nat.mul_le_mul_right _ (by omega)
    have hsucc : (step.toNat + 1) * patternSize.toNat =
        step.toNat * patternSize.toNat + patternSize.toNat := Nat.succ_mul _ _
    have hk : (step.toUInt64 * patternSize).toNat = step.toNat * patternSize.toNat := by
      show step.toNat * patternSize.toNat % 2 ^ 64 = _
      omega
    have hwrite := @memoryCopy_run pattern mem pDst patternSize (step.toUInt64 * patternSize)
      (by omega) a
    have hrest := copyLoop_run hall hpos hsize a left (step + 1) []
      ((Transfer.memoryCopy (pDst + step.toUInt64 * patternSize) patternSize).run pattern mem)
      (by omega)
    rw [copyLoop_succ hall]
    show run pattern (copyLoop pDst patternSize numOfCopySteps event append left (step + 1) []).1
      _ a = _
    rw [hrest, hwrite, hnext, hk]
    by_cases hlater : (step.toNat + 1) * patternSize.toNat ≤ (a - pDst).toNat ∧
        (a - pDst).toNat < numOfCopySteps.toNat * patternSize.toNat
    · rw [if_pos hlater, if_pos (by omega)]
    · rw [if_neg hlater]
      by_cases hin : step.toNat * patternSize.toNat ≤ (a - pDst).toNat ∧
          (a - pDst).toNat < step.toNat * patternSize.toNat + patternSize.toNat
      · rw [if_pos hin, if_pos (by omega)]
        -- the offset in this copy is the offset modulo the size of the pattern
        congr 1
        apply UInt64.toNat.inj
        rw [UInt64.toNat_sub_of_le _ _ (UInt64.le_iff_toNat_le.mpr (hk ▸ hin.1)), hk,
          UInt64.toNat_mod]
        obtain ⟨r, hr⟩ := Nat.exists_eq_add_of_le hin.1
        rw [hr, Nat.add_sub_cancel_left, Nat.mul_comm, Nat.mul_add_mod, Nat.mod_eq_of_lt (by omega)]
      · rw [if_neg hin, if_neg (by omega)]

theorem LastSignals.cons {cmd : Command} {cmds : List Command} (h : LastSignals event cmds)
    (hcmd : cmd.signal = none) : LastSignals event (cmd :: cmds) := by
  cases event with
  | none =>
    intro c hc
    rcases List.mem_cons.mp hc with rfl | hc
    · exact hcmd
    · exact h c hc
  | some e =>
    obtain ⟨init, last, rfl, hlast, hinit⟩ := h
    refine ⟨cmd :: init, last, rfl, hlast, fun c hc => ?_⟩
    rcases List.mem_cons.mp hc with rfl | hc
    · exact hcmd
    · exact hinit c hc

theorem LastSignals.single {cmd : Command} (hcmd : cmd.signal = event) :
    LastSignals event [cmd] := by
  cases event with
  | none =>
    intro c hc
    obtain rfl := List.mem_singleton.mp hc
    exact hcmd
  | some e => exact ⟨[], cmd, rfl, hcmd, nofun⟩

/-- **What the copies from a step on signal.** -/
theorem copyLoop_signal (hall : ∀ k, append k = true) : ∀ (left : Nat) (step : UInt32)
    (waits : List ZeEvent), step.toNat + (left + 1) = numOfCopySteps.toNat →
    LastSignals event
      (copyLoop pDst patternSize numOfCopySteps event append (left + 1) step waits).1
  | 0, step, waits, hstep => by
    rw [copyLoop_succ hall]
    exact LastSignals.single (if_pos ((last_step hstep).mpr rfl))
  | left + 1, step, waits, hstep => by
    rw [copyLoop_succ hall]
    have hnext := step_succ hstep
    refine LastSignals.cons (copyLoop_signal hall left (step + 1) [] (by omega)) (if_neg ?_)
    rw [last_step hstep]
    omega

/-! ## The whole range -/

theorem numOfCopySteps_toNat (size patternSize : UInt64) :
    (size / patternSize).toUInt32.toNat = size.toNat / patternSize.toNat % 2 ^ 32 := by
  rw [UInt64.toNat_toUInt32, UInt64.toNat_div]

/-- The path with a native fill. -/
theorem covers_of_powerOf2 (hall : ∀ k, append k = true) (hpow : isPowerOf2 patternSize = true) :
    Covers pattern pDst patternSize size waits event
      (enqueueGenericFill pDst patternSize size waits event append) := by
  refine ⟨[⟨.memoryFill pDst patternSize size, event, waits⟩], ?_, fun _ _ => rfl,
    Or.inr ⟨_, _, rfl, rfl⟩, LastSignals.single rfl⟩
  unfold enqueueGenericFill
  rw [if_pos hpow, if_pos (hall 0)]

/-- The path with the loop. -/
theorem enqueueGenericFill_loop (hpow : isPowerOf2 patternSize = false) (hne : patternSize ≠ 0)
    (hall : ∀ k, append k = true) :
    enqueueGenericFill pDst patternSize size waits event append =
      some ((copyLoop pDst patternSize (size / patternSize).toUInt32 event append
        (size / patternSize).toUInt32.toNat 0 waits).1, .success) := by
  unfold enqueueGenericFill
  rw [hpow, if_neg Bool.false_ne_true, if_neg hne, ← copyLoop_success hall]

/-- **When the fill covers the whole range.** -/
theorem genericFill_covers (pattern : Bytes) (pDst patternSize size : UInt64)
    (waits : List ZeEvent) (event : Option ZeEvent) {append : Nat → Bool}
    (hall : ∀ k, append k = true) (hmul : size.toNat % patternSize.toNat = 0) :
    Covers pattern pDst patternSize size waits event
        (enqueueGenericFill pDst patternSize size waits event append) ↔
      isPowerOf2 patternSize = true ∨
        patternSize ≠ 0 ∧ size.toNat / patternSize.toNat < 2 ^ 32 ∧
          (size = 0 → waits = [] ∧ event = none) := by
  cases hpow : isPowerOf2 patternSize with
  | true => exact ⟨fun _ => Or.inl rfl, fun _ => covers_of_powerOf2 hall hpow⟩
  | false =>
    by_cases hne : patternSize = 0
    · have hfault : enqueueGenericFill pDst patternSize size waits event append = none := by
        unfold enqueueGenericFill
        rw [hpow, if_neg Bool.false_ne_true, if_pos hne]
      rw [hfault]
      constructor
      · rintro ⟨cmds, hout, -⟩
        cases hout
      · rintro (h | h)
        · cases h
        · exact absurd hne h.1
    have hpos : 0 < patternSize.toNat := Nat.pos_of_ne_zero fun h0 =>
      hne (UInt64.toNat.inj h0)
    have hsteps := numOfCopySteps_toNat size patternSize
    have hle : (size / patternSize).toUInt32.toNat * patternSize.toNat ≤ size.toNat := by
      have hdiv := Nat.div_mul_le_self size.toNat patternSize.toNat
      have hmod := Nat.mul_le_mul_right patternSize.toNat
        (Nat.mod_le (size.toNat / patternSize.toNat) (2 ^ 32))
      rw [hsteps]
      omega
    have hlt := size.toNat_lt
    have hrun := fun a mem => @copyLoop_run pattern pDst patternSize
      (size / patternSize).toUInt32 event append hall hpos (by omega) a
      (size / patternSize).toUInt32.toNat 0 waits mem (Nat.zero_add _)
    rw [enqueueGenericFill_loop hpow hne hall]
    constructor
    · rintro ⟨cmds, hout, hfills, hfirst, hlast⟩
      obtain rfl := (Prod.mk.inj (Option.some.inj hout)).1
      refine Or.inr ⟨hne, ?_, fun hzero => ?_⟩
      · -- the byte after the last copy has not been written
        by_contra hbig
        have hcut : (size / patternSize).toUInt32.toNat < size.toNat / patternSize.toNat := by
          omega
        have hmissing : (size / patternSize).toUInt32.toNat * patternSize.toNat < size.toNat := by
          have hdiv := Nat.div_mul_le_self size.toNat patternSize.toNat
          have hmono := (Nat.mul_lt_mul_right hpos).mpr hcut
          omega
        let a := pDst + UInt64.ofNat ((size / patternSize).toUInt32.toNat * patternSize.toNat)
        have hoff : (a - pDst).toNat =
            (size / patternSize).toUInt32.toNat * patternSize.toNat := by
          have hk : (UInt64.ofNat ((size / patternSize).toUInt32.toNat *
              patternSize.toNat)).toNat =
              (size / patternSize).toUInt32.toNat * patternSize.toNat :=
            UInt64.toNat_ofNat_of_lt' (by
              show _ < 2 ^ 64
              omega)
          have hp := pDst.toNat_lt
          rw [UInt64.toNat_sub, UInt64.toNat_add]
          omega
        have hwritten := hfills (fun x => pattern ((x - pDst) % patternSize) + 1) a
        rw [hrun, if_neg (by omega), if_pos (UInt64.lt_iff_toNat_lt.mpr (by omega))] at hwritten
        exact absurd hwritten (by
          intro heq
          have hnat := congrArg UInt8.toNat heq
          rw [UInt8.toNat_add] at hnat
          have hone : (1 : UInt8).toNat = 1 := rfl
          omega)
      · subst hzero
        have hnone : (0 / patternSize).toUInt32.toNat = 0 := by
          show 0 / patternSize.toNat % 2 ^ 32 = 0
          rw [Nat.zero_div]
        rw [hnone] at hfirst hlast
        refine ⟨?_, ?_⟩
        · rcases hfirst with hnil | ⟨cmd, rest, hcons, -⟩
          · exact hnil
          · cases hcons
        · cases event with
          | none => rfl
          | some e =>
            obtain ⟨init, last, happ, -⟩ := hlast
            cases init with
            | nil => cases happ
            | cons _ _ => cases happ
    · rintro (h | ⟨-, hfit, hempty⟩)
      · cases h
      have hall' : (size / patternSize).toUInt32.toNat * patternSize.toNat = size.toNat := by
        rw [hsteps, Nat.mod_eq_of_lt hfit]
        exact Nat.div_mul_cancel (Nat.dvd_of_mod_eq_zero hmul)
      refine ⟨_, rfl, fun mem a => ?_, ?_, ?_⟩
      · rw [hrun, hall']
        by_cases hin : a - pDst < size
        · rw [if_pos hin, if_pos ⟨by
            show 0 * patternSize.toNat ≤ _
            omega, UInt64.lt_iff_toNat_lt.mp hin⟩]
        · rw [if_neg hin, if_neg fun h => hin (UInt64.lt_iff_toNat_lt.mpr h.2)]
      · cases hn : (size / patternSize).toUInt32.toNat with
        | zero =>
          refine Or.inl (hempty ?_).1
          rw [hn, Nat.zero_mul] at hall'
          exact UInt64.toNat.inj hall'.symm
        | succ left =>
          rw [copyLoop_succ hall]
          exact Or.inr ⟨_, _, rfl, rfl⟩
      · cases hn : (size / patternSize).toUInt32.toNat with
        | zero =>
          rw [hn, Nat.zero_mul] at hall'
          rw [(hempty (UInt64.toNat.inj hall'.symm)).2]
          exact nofun
        | succ left => exact copyLoop_signal hall left 0 waits (by rw [hn]; exact Nat.zero_add _)

/-- Two copies of three bytes. -/
theorem genericFill_covers_two : Covers (fun i => i.toUInt8) 16 3 6 [1, 2] (some 7)
    (enqueueGenericFill 16 3 6 [1, 2] (some 7) fun _ => true) := by
  refine (genericFill_covers _ 16 3 6 [1, 2] (some 7) (fun _ => rfl) rfl).mpr (Or.inr ⟨?_, ?_, ?_⟩)
  · decide
  · decide
  · intro h
    exact absurd h (by decide)

/-- No command for an empty range, whose wait list and event are dropped; none either for
2 ^ 32 steps. -/
theorem genericFill_uncovered :
    ¬ Covers (fun _ => 0) 16 3 0 [1] (some 7)
      (enqueueGenericFill 16 3 0 [1] (some 7) fun _ => true) ∧
    ¬ Covers (fun _ => 0) 16 3 0x300000000 [] none
      (enqueueGenericFill 16 3 0x300000000 [] none fun _ => true) := by
  refine ⟨?_, ?_⟩
  · rintro ⟨cmds, hout, -, hfirst, -⟩
    obtain rfl := (Prod.mk.inj (Option.some.inj hout)).1
    rcases hfirst with h | ⟨_, _, h, -⟩
    · cases h
    · cases h
  · rintro ⟨cmds, hout, hfills, -⟩
    obtain rfl := (Prod.mk.inj (Option.some.inj hout)).1
    have hbyte := hfills (fun _ => 1) 16
    exact absurd hbyte (by decide)

end UnifiedRuntime.LevelZeroV2.Fill
