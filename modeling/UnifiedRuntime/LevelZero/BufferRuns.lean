import UnifiedRuntime.LevelZero.BufferCoherence

/-!
# Runs of buffer commands

A run creates a buffer and enqueues commands on it. `Command.Safe` says, of the
state a command meets, that none of its accesses runs into one of the two
defects of `getBufferZeHandle` (see `BufferCoherence`). In every run of safe
commands the buffer stays coherent, no call aborts, and every byte a command
reads is the latest write to it.
-/

namespace UnifiedRuntime.LevelZero

open Function (update update_of_ne update_self)
open BufferState

/-- The command overwrites the whole buffer. -/
def BufferState.CoveredBy (s : BufferState) (start length : Nat) : Prop :=
  ∀ i, i < s.size → start ≤ i ∧ i < start + length

/-- An access that keeps the latest writes, unless they are about to be
overwritten all the same. -/
def SafeAccess (ctx : Context) (s : BufferState) (mode : AccessMode) (device : Device)
    (overwritten : Prop) : Prop :=
  KeepsLatest s mode (target ctx s device) ∧
    (KeepsContents s mode (target ctx s device) ∨ overwritten)

/-- Every argument of a launch, in the state the ones before it leave. -/
def SafeArguments (ctx : Context) (drv : Driver) (device : Device) (overwritten : Prop) :
    BufferState → List (Option Nat × AccessMode) → Prop
  | _, [] => True
  | s, (sub, mode) :: args => SafeAccess ctx s mode device overwritten ∧
      ∀ s₁ p, getBufferZeHandle ctx drv s sub mode (some device) = (s₁, .ok p) →
        SafeArguments ctx drv device overwritten s₁ args

/-- The launch writes every byte and reads none. -/
def Kernel.Overwrites (kernel : Kernel) (s : BufferState)
    (args : List (Option Nat × AccessMode)) : Prop :=
  (∀ a ∈ args, a.2 = .writeOnly) ∧ ∀ i, i < s.size → kernel.writes [] i ≠ none

/-- The accesses of a command keep the latest writes. -/
def Command.Safe (ctx : Context) (drv : Driver) (s : BufferState) : Command → Prop
  | .memBufferRead .. => True
  | .memBufferWrite device sub offset data =>
    SafeAccess ctx s .writeOnly device (s.CoveredBy (s.originOf sub + offset) data.length)
  | .memBufferFill device sub _ offset size =>
    SafeAccess ctx s .writeOnly device (s.CoveredBy (s.originOf sub + offset) size)
  | .memBufferCopy _ .other .other _ _ => True
  | .memBufferCopy device .other (.own sub offset) size data =>
    SafeAccess ctx s .writeOnly device
      (s.CoveredBy (s.originOf sub + offset) (data.take size).length)
  | .memBufferCopy _ (.own ..) .other _ _ => True
  | .memBufferCopy device (.own srcSub _) (.own ..) _ _ =>
    ∀ s₁ p, getBufferZeHandle ctx drv s srcSub .readOnly (some device) = (s₁, .ok p) →
      SafeAccess ctx s₁ .writeOnly device False
  | .memBufferMap device _ flags _ _ =>
    flags.accessMode = .writeOnly ∨ SafeAccess ctx s flags.accessMode device False
  | .hostStore _ ptr _ _ =>
    -- memory of the user that copies go through is not valid data while it is mapped
    (s.allocations none).zeHandle = some ptr.1 → (s.allocations none).valid = false
  | .memUnmap device sub ptr =>
    ∀ m, (s.mappingsOf sub).find? (·.ptr == ptr) = some m →
      SafeAccess ctx s .writeOnly device (s.CoveredBy (s.originOf sub + m.offset) m.size)
  | .kernelLaunch device args kernel =>
    SafeArguments ctx drv device (kernel.Overwrites s args) s args

/-- Every byte of the buffer that was read has its latest write. -/
def ReadsLatest (size : Nat) (latest : Latest) (eff : Effect) : Prop :=
  ∀ r ∈ eff.reads, r.1 < size → ∀ v, latest r.1 = some v → r.2 = v

/-- The outcome of a command. -/
structure Performed (s : BufferState) (latest : Latest)
    (res : BufferState × Except Fault Effect) : Prop where
  inv : Inv res.1 (latestAfter latest res.2)
  fails : ∀ e, res.2 = .error e → e = .urResult
  reads : ∀ eff, res.2 = .ok eff → ReadsLatest s.size latest eff

section Commands

variable (ctx : Context) (drv : Driver) {s : BufferState} {latest : Latest}

theorem readsLatest_nil (size : Nat) (latest : Latest) {w : Nat → Option Byte} :
    ReadsLatest size latest ⟨[], w⟩ := by
  intro r hr
  exact absurd hr List.not_mem_nil

theorem readsLatest_load {h : ZeHandle} (hold : Holds s.cells latest (s.memory h))
    (start size : Nat) (w : Nat → Option Byte) :
    ReadsLatest s.size latest ⟨s.load h start size, w⟩ := by
  intro r hr hlt v hv
  obtain ⟨i, -, rfl⟩ := List.mem_map.mp hr
  exact hold _ hlt v hv

variable {device : Device} {sub : Option Nat} {s' : BufferState} {data : List Byte}

theorem Performed.error (h : Inv s' latest) : Performed s latest (s', .error .urResult) :=
  ⟨h, fun _ he => (Except.error.inj he).symm, fun _ he => absurd he (by simp)⟩

theorem Performed.ok {eff : Effect}
    (h : Inv s' (overwrite eff.writes latest)) (hr : ReadsLatest s.size latest eff) :
    Performed s latest (s', .ok eff) :=
  ⟨h, fun _ he => absurd he (by simp), fun _ he => Except.ok.inj he ▸ hr⟩

/-- A store into the memory of an access that is not read-only. `kept` is what
that memory held of the latest writes. -/
theorem Granted.store {kept : Latest} {mode : AccessMode} {h : ZeHandle}
    (hg : Granted kept mode device s h) (hmode : mode ≠ .readOnly) {w : Nat → Option Byte}
    (hw : ∀ i ∈ s.cells, overwrite w kept i = overwrite w latest i) :
    Core (s.store h w) (overwrite w latest) := by
  refine store_core hg.core ?_ fun hl => absurd hl hg.used
  intro k h' hk hh'
  rw [hg.exclusive hmode k hk] at hh'
  rw [← Option.some.inj hh', store_memory_self]
  intro i hi v hv
  rw [← hw i hi] at hv
  exact hg.holds.overlay w i hi v hv

theorem bytesFrom_ne_none {start : Nat} {i : Nat} (hle : start ≤ i)
    (hlt : i < start + data.length) : bytesFrom start data i ≠ none := by
  unfold bytesFrom
  rw [if_pos hle, List.getElem?_eq_getElem (by omega)]
  simp

/-- A buffer that is coherent is so whatever else we forget of its writes. -/
theorem Core.forget (hc : Core s latest) : Core s fun _ => none := by
  refine ⟨⟨hc.lastValid, fun k hk => ?_⟩, hc.notFreed, hc.discrete,
    fun hl => ⟨fun _ => rfl, (hc.unwritten hl).2⟩, hc.handleLt⟩
  obtain ⟨p, hp, -⟩ := hc.holds k hk
  exact ⟨p, hp, holds_unwritten⟩

/-- What an access keeps of the latest writes: all of them, or none when the
command overwrites them. -/
theorem SafeAccess.kept (hc : Core s latest) {mode : AccessMode} {o : Prop}
    (h : SafeAccess ctx s mode device o) :
    ∃ kept, Core s kept ∧ Keeps s kept mode (target ctx s device) ∧ (kept = latest ∨ o) := by
  rcases h.2 with hk | ho
  · exact ⟨latest, hc, .inl hk, .inl rfl⟩
  · exact ⟨fun _ => none, hc.forget, .inr fun _ => rfl, .inr ho⟩

theorem keepsLatest_readOnly (s : BufferState) (t : Device) : KeepsLatest s .readOnly t :=
  fun h => absurd rfl h

theorem keeps_readOnly (s : BufferState) (latest : Latest) (t : Device) :
    Keeps s latest .readOnly t := .inl fun h => absurd h (by simp)

theorem urEnqueueMemBufferRead_performed (hi : Inv s latest) (device : Device) (sub : Option Nat)
    (offset size : Nat) :
    Performed s latest (urEnqueueMemBufferRead ctx drv s device sub offset size) := by
  have hacc := getBufferZeHandle_spec ctx drv hi.toCore sub
    (keepsLatest_readOnly s (target ctx s device)) (keeps_readOnly s latest _)
  unfold urEnqueueMemBufferRead
  split
  · next s₁ e heq =>
    rw [heq] at hacc
    obtain ⟨rfl, hc⟩ := hacc.fails e rfl
    exact .error (hi.of_frame hacc.frame (hc latest hi.toCore))
  · next s₁ h o heq =>
    rw [heq] at hacc
    have hg := hacc.granted h rfl
    refine .ok (hi.of_frame hacc.frame hg.core) ?_
    rw [← hacc.frame.size]
    exact readsLatest_load hg.holds _ _ _

theorem enqueueStore_performed (hi : Inv s latest)
    {offset : Nat} (hsafe : SafeAccess ctx s .writeOnly device
      (s.CoveredBy (s.originOf sub + offset) data.length)) :
    Performed s latest (enqueueStore ctx drv s device sub offset data) := by
  obtain ⟨kept, hc, hkeep, hcov⟩ := hsafe.kept ctx hi.toCore
  have hacc := getBufferZeHandle_spec ctx drv hc sub hsafe.1 hkeep
  unfold enqueueStore
  split
  · next s₁ e heq =>
    rw [heq] at hacc
    obtain ⟨rfl, hc'⟩ := hacc.fails e rfl
    exact .error (hi.of_frame hacc.frame (hc' latest hi.toCore))
  · next s₁ h o heq =>
    have ho := getBufferZeHandle_origin ctx drv hc hsafe.1 hkeep heq
    rw [heq] at hacc
    subst ho
    refine .ok (hi.of_frame (hacc.frame.trans (store_frame ..)) ?_) (readsLatest_nil _ _)
    refine (hacc.granted h rfl).store (by simp) ?_
    rcases hcov with rfl | hcov
    · exact fun _ _ => rfl
    · refine overwrite_of_covers (fun i hi' => ?_) kept latest
      obtain ⟨hle, hlt⟩ := hcov i (by rw [← hacc.frame.size]; exact hi')
      exact bytesFrom_ne_none hle hlt

theorem urEnqueueMemBufferCopy_performed (hi : Inv s latest) {src dst : CopyEnd} {size : Nat}
    (hsafe : (Command.memBufferCopy device src dst size data).Safe ctx drv s) :
    Performed s latest (urEnqueueMemBufferCopy ctx drv s device src dst size data) := by
  unfold urEnqueueMemBufferCopy
  cases src with
  | other =>
    cases dst with
    | other => exact .ok hi (readsLatest_nil _ _)
    | own sub offset => exact enqueueStore_performed ctx drv hi hsafe
  | own srcSub srcOffset =>
    cases dst with
    | other => exact urEnqueueMemBufferRead_performed ctx drv hi ..
    | own dstSub dstOffset =>
      have hsrc := getBufferZeHandle_spec ctx drv hi.toCore srcSub
        (keepsLatest_readOnly s (target ctx s device)) (keeps_readOnly s latest _)
      dsimp only
      split
      · next s₁ e heq =>
        rw [heq] at hsrc
        obtain ⟨rfl, hc⟩ := hsrc.fails e rfl
        exact .error (hi.of_frame hsrc.frame (hc latest hi.toCore))
      · next s₁ h o heq =>
        have hsafe := hsafe s₁ (h, o) heq
        rw [heq] at hsrc
        have hg := hsrc.granted h rfl
        have hi₁ := hi.of_frame hsrc.frame hg.core
        have hdst := getBufferZeHandle_spec ctx drv hg.core dstSub hsafe.1
          (.inl (hsafe.2.resolve_right id))
        split
        · next s₂ e heq₂ =>
          rw [heq₂] at hdst
          obtain ⟨rfl, hc⟩ := hdst.fails e rfl
          exact .error (hi₁.of_frame hdst.frame (hc latest hg.core))
        · next s₂ h' o' heq₂ =>
          rw [heq₂] at hdst
          have hg₂ := hdst.granted h' rfl
          -- both ends are the device's allocation
          have hsame := hdst.same h h' hg.handle rfl
          refine .ok (hi₁.of_frame (hdst.frame.trans (store_frame ..))
            (hg₂.store (by simp) fun _ _ => rfl)) ?_
          rw [← hsrc.frame.size, ← hdst.frame.size, ← hsame]
          exact readsLatest_load hg₂.holds _ _ _

/-- The memory of a map is no device's, and the host's only as a whole. -/
structure MapMemory (s : BufferState) (sub : Option Nat) (offset : Nat) (ptr : Ptr) : Prop where
  lt : ptr.1 < s.nextHandle
  device : ∀ d, (s.allocations (some d)).zeHandle ≠ some ptr.1
  host : (s.allocations none).zeHandle = some ptr.1 → sub = none ∧ ptr.2 = offset

theorem mapMemory_spec (hi : Inv s latest) (sub : Option Nat) (offset : Nat) :
    let res := mapMemory drv s sub offset
    Inv res.1 latest ∧ Frame s res.1 ∧ res.1.allocations = s.allocations ∧
      res.1.last = s.last ∧ (∀ e, res.2 = .error e → e = .urResult) ∧
      ∀ ptr, res.2 = .ok ptr → MapMemory res.1 sub offset ptr := by
  intro res
  unfold res mapMemory
  split
  · next host hhost =>
    refine ⟨hi, Frame.refl s, rfl, rfl, fun _ he => absurd he (by simp), fun ptr hp => ?_⟩
    rw [← Except.ok.inj hp]
    split at hhost
    · next hsub => exact ⟨(hi.mapHost host hhost).1, (hi.mapHost host hhost).2,
        fun _ => ⟨hsub, rfl⟩⟩
    · exact absurd hhost (by simp)
  · split
    · exact ⟨hi, Frame.refl s, rfl, rfl, fun _ he => (Except.error.inj he).symm,
        fun _ hp => absurd hp (by simp)⟩
    · have hf : Frame s { s with nextHandle := s.nextHandle + 1 } :=
        ⟨rfl, rfl, rfl, fun k => by cases k <;> rfl, fun _ => rfl, Nat.le_succ _,
          fun k _ hk => .inr ⟨k, hk, id⟩⟩
      have hnew : ∀ k, (s.allocations k).zeHandle ≠ some s.nextHandle :=
        fun k hk => Nat.lt_irrefl _ (hi.handleLt k _ hk)
      refine ⟨hi.of_frame hf ⟨⟨hi.lastValid, hi.holds⟩, hi.notFreed, hi.discrete, hi.unwritten,
        fun k h hk => (hi.handleLt k h hk).trans (Nat.lt_succ_self _)⟩, hf, rfl, rfl,
        fun _ he => absurd he (by simp), fun ptr hp => ?_⟩
      rw [← Except.ok.inj hp]
      exact ⟨Nat.lt_succ_self _, fun d => hnew _, fun hh => absurd hh (hnew none)⟩

theorem setMappings_inv (hi : Inv s' latest) (sub : Option Nat)
    {ms : List Mapping} (hms : ∀ m ∈ ms, m.ptr.1 < s'.nextHandle ∧
      ∀ d, (s'.allocations (some d)).zeHandle ≠ some m.ptr.1) :
    Inv (s'.setMappings sub ms) latest := by
  have hmap : ∀ k, (s'.setMappings sub ms).mappingsOf k = if k = sub then ms else
      s'.mappingsOf k := by
    intro k
    cases sub with
    | none =>
      cases k with
      | none => rfl
      | some j => rfl
    | some i =>
      cases k with
      | none => rfl
      | some j =>
        by_cases hj : j = i
        · rw [hj, if_pos rfl]
          show (update s'.subs i _ i).mappings = ms
          rw [update_self]
        · rw [if_neg (fun h => hj (Option.some.inj h))]
          show (update s'.subs i _ j).mappings = (s'.subs j).mappings
          rw [update_of_ne hj]
  have hc : Core (s'.setMappings sub ms) latest := by
    obtain ⟨⟨⟨h1, h2⟩, h3, h4, h5, h6⟩, -, -⟩ := hi
    cases sub <;> exact ⟨⟨h1, h2⟩, h3, h4, h5, h6⟩
  have hn : (s'.setMappings sub ms).nextHandle = s'.nextHandle := by cases sub <;> rfl
  have ha : (s'.setMappings sub ms).allocations = s'.allocations := by cases sub <;> rfl
  have hp : (s'.setMappings sub ms).mapHostPtr = s'.mapHostPtr := by cases sub <;> rfl
  refine ⟨hc, ?_, ?_⟩
  · rw [hn, ha, hp]
    exact hi.mapHost
  · intro k m hm
    rw [hmap] at hm
    rw [hn, ha]
    split at hm
    · exact hms m hm
    · exact hi.mapped k m hm

theorem insertMapping_performed (hi : Inv s' latest)
    {m : Mapping} {reads : List (Nat × Byte)} (hm : m.ptr.1 < s'.nextHandle)
    (hd : ∀ d, (s'.allocations (some d)).zeHandle ≠ some m.ptr.1)
    (hr : ReadsLatest s.size latest { reads := reads }) :
    Performed s latest (insertMapping s' sub m { reads := reads }) := by
  unfold insertMapping
  split
  · exact .error hi
  · refine .ok (setMappings_inv hi sub fun m' hm' => ?_) hr
    rcases List.mem_cons.mp hm' with rfl | hm'
    · exact ⟨hm, hd⟩
    · exact hi.mapped sub m' hm'

theorem load_map_snd (s : BufferState) (h : ZeHandle) (start size i : Nat) :
    ((s.load h start size).map Prod.snd)[i]? =
      if i < size then some (s.memory h (start + i)) else none := by
  unfold load
  rw [List.map_map, List.getElem?_map]
  split
  · next hlt => rw [List.getElem?_range hlt]; rfl
  · next hge => rw [List.getElem?_eq_none (by simpa using hge)]; rfl

/-- Copying a region of the buffer onto the same bytes of a host pointer. -/
theorem region_holds {h p : ZeHandle} (hold : Holds s.cells latest (s.memory h))
    (hp : Holds s.cells latest (s.memory p)) (offset size : Nat) :
    Holds s.cells latest
      (overlay (bytesFrom offset ((s.load h offset size).map Prod.snd)) (s.memory p)) := by
  intro i hi v hv
  unfold overlay bytesFrom
  split
  · next hle =>
    rw [load_map_snd]
    split
    · rw [Nat.add_sub_cancel' hle]
      exact hold i hi v hv
    · exact hp i hi v hv
  · exact hp i hi v hv

theorem urEnqueueMemBufferMap_performed (hi : Inv s latest) {flags : MapFlags} {offset size : Nat}
    (hsafe : (Command.memBufferMap device sub flags offset size).Safe ctx drv s) :
    Performed s latest (urEnqueueMemBufferMap ctx drv s device sub flags offset size) := by
  obtain ⟨hi₀, hf₀, ha, hl, hfail, hmap⟩ := mapMemory_spec drv hi sub offset
  unfold urEnqueueMemBufferMap
  dsimp only
  split
  · exact .error hi
  split
  · next honhost => exact absurd honhost.2 (by rw [hi.discrete]; simp)
  split
  · next s₀ e heq =>
    rw [heq] at hi₀ hfail
    rw [hfail e rfl]
    exact .error hi₀
  · next s₀ ptr heq =>
    rw [heq] at hi₀ hf₀ ha hl hmap
    have hm := hmap ptr rfl
    split
    · exact insertMapping_performed hi₀ hm.lt hm.device (readsLatest_nil _ _)
    · next hmode =>
      have hs := hsafe.resolve_left hmode
      have hs₀ : SafeAccess ctx s₀ flags.accessMode device False := by
        unfold SafeAccess KeepsLatest KeepsContents IsSource target at hs ⊢
        rw [ha, hl]
        exact hs
      have hkeep : Keeps s₀ latest flags.accessMode (target ctx s₀ device) :=
        .inl (hs₀.2.resolve_right id)
      have hacc := getBufferZeHandle_spec ctx drv hi₀.toCore sub hs₀.1 hkeep
      split
      · next s₁ e heq₁ =>
        rw [heq₁] at hacc
        obtain ⟨rfl, hc⟩ := hacc.fails e rfl
        exact .error (hi₀.of_frame hacc.frame (hc latest hi₀.toCore))
      · next s₁ h o heq₁ =>
        have ho := getBufferZeHandle_origin ctx drv hi₀.toCore hs₀.1 hkeep heq₁
        rw [heq₁] at hacc
        have hg := hacc.granted h rfl
        have hfr := hacc.frame
        subst ho
        -- device memory is not the map's, before and after the access
        have horigin : ∀ k, (s₁.allocations k).zeHandle = some ptr.1 →
            k = none ∧ (s₀.allocations none).zeHandle = some ptr.1 := by
          intro k hk
          rcases hfr.handles k _ hk with hge | ⟨k', hk', hkk'⟩
          · exact absurd hge (Nat.not_le.mpr hm.lt)
          · cases k' with
            | none => exact ⟨hkk' rfl, hk'⟩
            | some d => exact absurd hk' (hm.device d)
        have hcore : Core (s₁.store ptr.1 (bytesFrom ptr.2 ((s₁.load h (s₀.originOf sub + offset)
            size).map Prod.snd))) latest := by
          refine store_core hg.core ?_ fun hl' => (hg.core.unwritten hl').1
          intro k h' hk hh'
          have hold' := hg.core.holds_of_valid hk hh'
          by_cases hp : h' = ptr.1
          · obtain ⟨-, hhost⟩ := horigin k (hp ▸ hh')
            obtain ⟨hsub, hoff⟩ := hm.host hhost
            rw [hp] at hold'
            rw [hp, store_memory_self, hoff, hsub]
            show Holds _ _ (overlay (bytesFrom offset ((s₁.load h (0 + offset) size).map _)) _)
            rw [Nat.zero_add]
            exact region_holds hg.holds hold' offset size
          · rw [store_memory_ne s₁ _ hp]
            exact hold'
        have hi₁ := hi₀.of_frame (hfr.trans (store_frame ..)) hcore
        refine insertMapping_performed hi₁ (hm.lt.trans_le hfr.next) ?_ ?_
        · intro d hd
          exact absurd (horigin (some d) hd).1 (by simp)
        · rw [← hf₀.size, ← hfr.size]
          exact readsLatest_load hg.holds _ _ _

/-- A store of the application. -/
theorem storeMapped_performed (hi : Inv s latest) {ptr : Ptr} {offset : Nat}
    (hsafe : (s.allocations none).zeHandle = some ptr.1 →
      (s.allocations none).valid = false) :
    Performed s latest (storeMapped s sub ptr offset data) := by
  unfold storeMapped
  split
  · exact .ok hi (readsLatest_nil _ _)
  · next m hm =>
    split
    · have hptr : m.ptr = ptr := by simpa using List.find?_some hm
      obtain ⟨-, hd⟩ := hi.mapped sub m (List.mem_of_find?_eq_some hm)
      rw [hptr] at hd
      refine .ok (hi.of_frame (store_frame ..) ?_) (readsLatest_nil _ _)
      refine store_core hi.toCore ?_ fun hl => (hi.unwritten hl).1
      intro k h' hk hh'
      have hne : h' ≠ ptr.1 := by
        intro he
        rw [he] at hh'
        cases k with
        | none => exact absurd hk (by rw [hsafe hh']; simp)
        | some d => exact hd d hh'
      rw [store_memory_ne s _ hne]
      exact hi.holds_of_valid hk hh'
    · exact .ok hi (readsLatest_nil _ _)

theorem urEnqueueMemUnmap_performed (hi : Inv s latest)
    {ptr : Ptr} (hsafe : (Command.memUnmap device sub ptr).Safe ctx drv s) :
    Performed s latest (urEnqueueMemUnmap ctx drv s device sub ptr) := by
  unfold urEnqueueMemUnmap
  split
  · exact .error hi
  · next m hm =>
    have hsafe := hsafe m hm
    have hi₀ : Inv (s.setMappings sub ((s.mappingsOf sub).filter (·.ptr != ptr))) latest :=
      setMappings_inv hi sub fun m' hm' => hi.mapped sub m' (List.mem_filter.mp hm').1
    generalize hs₀ : s.setMappings sub ((s.mappingsOf sub).filter (·.ptr != ptr)) = s₀ at hi₀ ⊢
    have hsize : s₀.size = s.size := by rw [← hs₀]; cases sub <;> rfl
    have ha : s₀.allocations = s.allocations := by rw [← hs₀]; cases sub <;> rfl
    have hl : s₀.last = s.last := by rw [← hs₀]; cases sub <;> rfl
    have horig : s₀.originOf sub = s.originOf sub := by
      rw [← hs₀]
      cases sub with
      | none => rfl
      | some i =>
        show (update s.subs i _ i).origin = _
        rw [update_self]
        rfl
    have hsafe₀ : SafeAccess ctx s₀ .writeOnly device
        (s₀.CoveredBy (s₀.originOf sub + m.offset) m.size) := by
      unfold SafeAccess KeepsLatest KeepsContents IsSource target CoveredBy at hsafe ⊢
      rw [ha, hl, hsize, horig]
      exact hsafe
    obtain ⟨kept, hc, hkeep, hcov⟩ := hsafe₀.kept ctx hi₀.toCore
    have hacc := getBufferZeHandle_spec ctx drv hc sub hsafe₀.1 hkeep
    dsimp only
    split
    · next s₁ e heq =>
      rw [heq] at hacc
      obtain ⟨rfl, hc'⟩ := hacc.fails e rfl
      exact .error (hi₀.of_frame hacc.frame (hc' latest hi₀.toCore))
    · next s₁ h o heq =>
      have ho := getBufferZeHandle_origin ctx drv hc hsafe₀.1 hkeep heq
      rw [heq] at hacc
      have hg := hacc.granted h rfl
      subst ho
      rw [if_neg (fun hon => absurd hon.2.1 (by rw [hg.core.discrete]; simp))]
      refine .ok (hi₀.of_frame (hacc.frame.trans (store_frame ..)) (hg.store (by simp) ?_))
        (readsLatest_nil _ _)
      rcases hcov with rfl | hcov
      · exact fun _ _ => rfl
      · refine overwrite_of_covers (fun i hi' => ?_) kept latest
        obtain ⟨hle, hlt⟩ := hcov i (by rw [← hacc.frame.size]; exact hi')
        exact bytesFrom_ne_none hle (by simpa [load] using hlt)

/-! ### Kernel launches -/

/-- The state between two arguments: `h?` is the handle the last one got, `w`
whether one of them was not read-only. -/
structure BetweenArguments (kept : Latest) (device : Device) (w : Bool) (s : BufferState)
    (h? : Option ZeHandle) : Prop where
  core : Core s kept
  granted : ∀ h, h? = some h → Granted kept (if w then .readWrite else .readOnly) device s h

theorem BetweenArguments.next {kept : Latest} {w : Bool} {h? : Option ZeHandle}
    {mode : AccessMode} {s₁ : BufferState} {h : ZeHandle} {f : Except Fault ZeHandle}
    (hb : BetweenArguments kept device w s h?) (hw : h? = none → w = false)
    (hacc : Accessed kept s mode device (s₁, f)) (hf : f = .ok h) :
    BetweenArguments kept device (w || mode != .readOnly) s₁ (some h) := by
  have hg := hacc.granted h hf
  refine ⟨hg.core, fun h' hh' => ?_⟩
  rw [← Option.some.inj hh']
  refine ⟨hg.core, hg.holds, hg.handle, hg.used, fun hmode => ?_⟩
  by_cases hro : mode = .readOnly
  · -- an earlier argument left this memory the only valid one
    have hwt : w = true := by
      by_contra hwf
      simp [hro, Bool.not_eq_true _ ▸ hwf] at hmode
    cases h? with
    | none => exact absurd (hw rfl) (by rw [hwt]; simp)
    | some p =>
      have hp := hb.granted p rfl
      rw [hwt] at hp
      rw [hacc.same p h hp.handle hf]
      exact hacc.stays p hp.handle (hp.exclusive (by simp))
  · exact hg.exclusive hro

theorem setPendingArguments_spec {kept : Latest} {o : Prop} (ho : o → ∀ i, kept i = none) :
    ∀ (args : List (Option Nat × AccessMode)) {s : BufferState} {w : Bool}
      {h? : Option ZeHandle}, BetweenArguments kept device w s h? → (h? = none → w = false) →
      SafeArguments ctx drv device o s args →
      let res := setPendingArguments ctx drv device s h? args
      Frame s res.1 ∧ (∀ e, res.2 = .error e → e = .urResult ∧ Core res.1 kept) ∧
        ∀ r, res.2 = .ok r →
          BetweenArguments kept device (w || args.any (·.2 != .readOnly)) res.1 r ∧
          (r = none → args = []) := by
  intro args
  induction args with
  | nil =>
    intro s w h? hb hw _
    refine ⟨Frame.refl s, fun _ he => absurd he (by simp [setPendingArguments]), fun r hr => ?_⟩
    rw [← Except.ok.inj hr, List.any_nil, Bool.or_false]
    exact ⟨hb, fun _ => rfl⟩
  | cons a args ih =>
    obtain ⟨sub, mode⟩ := a
    intro s w h? hb hw hsafe
    obtain ⟨hsafe, hrest⟩ := hsafe
    have hkeep : Keeps s kept mode (target ctx s device) := hsafe.2.imp_right ho
    have hacc := getBufferZeHandle_spec ctx drv hb.core sub hsafe.1 hkeep
    intro res
    unfold res setPendingArguments
    split
    · next s₁ e heq =>
      rw [heq] at hacc
      refine ⟨hacc.frame, fun e' he' => ?_, fun _ he => absurd he (by simp)⟩
      rw [← Except.error.inj he']
      exact ⟨(hacc.fails e rfl).1, (hacc.fails e rfl).2 kept hb.core⟩
    · next s₁ h p heq =>
      rw [heq] at hacc
      have hb₁ := hb.next hw hacc rfl
      obtain ⟨hf, he, hr⟩ := ih hb₁ (fun hn => absurd hn (by simp)) (hrest s₁ (h, p) heq)
      refine ⟨hacc.frame.trans hf, he, fun r hr' => ?_⟩
      obtain ⟨hb₂, hnil⟩ := hr r hr'
      rw [List.any_cons, ← Bool.or_assoc]
      refine ⟨hb₂, fun hn => ?_⟩
      rw [hnil hn] at hr'
      exact absurd (Except.ok.inj hr') (by rw [hn]; simp)

/-- A write-only access of a device that has memory makes no driver call. -/
theorem getBufferZeHandle_writeOnly (hc : Core s latest) {h : ZeHandle}
    (hh : (s.allocations (some device)).zeHandle = some h) (sub : Option Nat) :
    ∃ s₁ p, getBufferZeHandle ctx drv s sub .writeOnly (some device) = (s₁, .ok p) := by
  have hget : ∃ s₁, getZeHandle ctx drv s .writeOnly (some device) = (s₁, .ok h) := by
    unfold getZeHandle getZeHandleDepth getZeHandleBody
    simp only [selectDevice, Option.or, Option.getD, hc.notFreed, hc.discrete, hh,
      Bool.false_eq_true, if_false]
    unfold accessAllocation makeValid
    by_cases hv : (s.allocations (some device)).valid = true
    · rw [if_pos hv]
      exact ⟨_, rfl⟩
    · rw [if_neg hv, if_neg (fun hl => hv (hc.lastValid device hl))]
      exact ⟨_, rfl⟩
  obtain ⟨s₁, hget⟩ := hget
  unfold getBufferZeHandle
  cases sub with
  | none =>
    rw [hget]
    exact ⟨_, _, rfl⟩
  | some i =>
    dsimp only [selectDevice, Option.or, Option.getD]
    rw [hget]
    exact ⟨_, _, rfl⟩

/-- After the first of several write-only arguments none fails. -/
theorem setPendingArguments_writeOnly {kept : Latest} {o : Prop} (ho : o → ∀ i, kept i = none) :
    ∀ (args : List (Option Nat × AccessMode)) {s : BufferState} {h : ZeHandle},
      Core s kept → (s.allocations (some device)).zeHandle = some h →
      (∀ a ∈ args, a.2 = .writeOnly) → SafeArguments ctx drv device o s args →
      ∀ h?, ∃ s₁ r, setPendingArguments ctx drv device s h? args = (s₁, .ok r) := by
  intro args
  induction args with
  | nil =>
    intro s h _ _ _ _ h?
    exact ⟨s, h?, rfl⟩
  | cons a args ih =>
    obtain ⟨sub, mode⟩ := a
    intro s h hc hh hwo hsafe h?
    have hmode : mode = .writeOnly := hwo _ (List.mem_cons_self ..)
    subst hmode
    obtain ⟨s₁, p, heq⟩ := getBufferZeHandle_writeOnly ctx drv hc hh sub
    have hacc := getBufferZeHandle_spec ctx drv hc sub hsafe.1.1 (hsafe.1.2.imp_right ho)
    rw [heq] at hacc
    have hg := hacc.granted p.1 rfl
    unfold setPendingArguments
    rw [heq]
    exact ih hg.core hg.handle (fun a ha => hwo a (List.mem_cons_of_mem _ ha))
      (hsafe.2 s₁ p heq) _

theorem urEnqueueKernelLaunch_performed (hi : Inv s latest)
    {args : List (Option Nat × AccessMode)} {kernel : Kernel}
    (hsafe : SafeArguments ctx drv device (kernel.Overwrites s args) s args) :
    Performed s latest (urEnqueueKernelLaunch ctx drv s device args kernel) := by
  classical
  -- what the arguments keep: everything, or nothing when the kernel overwrites it
  obtain ⟨kept, hk, ho, hcase⟩ : ∃ kept, Core s kept ∧
      (kernel.Overwrites s args → ∀ i, kept i = none) ∧
      (kept = latest ∨ kernel.Overwrites s args) := by
    by_cases ho : kernel.Overwrites s args
    · exact ⟨fun _ => none, hi.toCore.forget, fun _ _ => rfl, .inr ho⟩
    · exact ⟨latest, hi.toCore, fun h => absurd h ho, .inl rfl⟩
  have hstart : BetweenArguments kept device false s none := ⟨hk, fun _ hh => absurd hh (by simp)⟩
  obtain ⟨hf, hfail, hok⟩ := setPendingArguments_spec ctx drv ho args hstart (fun _ => rfl) hsafe
  unfold urEnqueueKernelLaunch
  split
  · next s₁ e heq =>
    rw [heq] at hf hfail
    obtain ⟨rfl, hc₁⟩ := hfail e rfl
    refine .error (hi.of_frame hf ?_)
    rcases hcase with rfl | hov
    · exact hc₁
    · -- only the first argument of an overwriting launch can have failed
      cases args with
      | nil => exact absurd (congrArg Prod.snd heq) (by simp [setPendingArguments])
      | cons a args =>
        obtain ⟨sub, mode⟩ := a
        have hacc := getBufferZeHandle_spec ctx drv hk sub hsafe.1.1 (hsafe.1.2.imp_right ho)
        unfold setPendingArguments at heq
        split at heq
        · next s₂ e₂ heq₂ =>
          rw [heq₂] at hacc
          have hs : s₂ = s₁ := congrArg Prod.fst heq
          exact hs ▸ (hacc.fails e₂ rfl).2 latest hi.toCore
        · next s₂ h₂ p₂ heq₂ =>
          rw [heq₂] at hacc
          have hg := hacc.granted h₂ rfl
          obtain ⟨s₃, r, hr⟩ := setPendingArguments_writeOnly ctx drv ho args hg.core hg.handle
            (fun a ha => hov.1 a (List.mem_cons_of_mem _ ha)) (hsafe.2 s₂ _ heq₂) (some h₂)
          rw [hr] at heq
          exact absurd (congrArg Prod.snd heq) (by simp)
  · next s₁ heq =>
    rw [heq] at hok
    obtain ⟨-, hnil⟩ := hok none rfl
    rw [hnil rfl] at heq
    have hs : s = s₁ := congrArg Prod.fst heq
    exact hs ▸ .ok hi (readsLatest_nil _ _)
  · next s₁ h heq =>
    rw [heq] at hf hok
    obtain ⟨hb, -⟩ := hok (some h) rfl
    have hg := hb.granted h rfl
    have hreads : ReadsLatest s.size latest
        { reads := if args.any (·.2 != .writeOnly) then
            kernel.reads.map fun i => (i, s₁.memory h i) else [] } := by
      split
      · next hany =>
        rcases hcase with rfl | hov
        · intro r hr hlt v hv
          obtain ⟨i, -, rfl⟩ := List.mem_map.mp hr
          exact hg.holds i (by show i < s₁.size; rw [hf.size]; exact hlt) v hv
        · obtain ⟨a, ha, hne⟩ := List.any_eq_true.mp hany
          exact absurd (hov.1 a ha) (by simpa using hne)
      · exact readsLatest_nil _ _
    refine .ok (hi.of_frame (hf.trans (store_frame ..)) ?_) hreads
    split
    · next hany =>
      rw [hany] at hg
      refine hg.store (by simp) ?_
      rcases hcase with rfl | hov
      · exact fun _ _ => rfl
      · refine overwrite_of_covers (fun i hi' => ?_) kept latest
        have hnone : args.any (·.2 != .writeOnly) = false := by
          rw [List.any_eq_false]
          intro a ha
          simp [hov.1 a ha]
        rw [hnone]
        exact hov.2 i (by rw [← hf.size]; exact hi')
    · next hany =>
      have hkl : kept = latest := by
        rcases hcase with hkl | hov
        · exact hkl
        · -- a launch without a writing argument overwrites nothing
          cases args with
          | nil => exact absurd (congrArg Prod.snd heq) (by simp [setPendingArguments])
          | cons a args =>
            exact absurd (List.any_eq_true.mpr ⟨a, List.mem_cons_self ..,
              by simp [hov.1 a (List.mem_cons_self ..)]⟩) hany
      subst hkl
      refine store_core hg.core ?_ fun hl => absurd hl hg.used
      intro k h' hk' hh'
      have hsame : (s₁.store h fun _ => none).memory h' = s₁.memory h' := by
        by_cases he : h' = h
        · rw [he, store_memory_self]
          rfl
        · exact store_memory_ne s₁ _ he
      rw [hsame]
      exact hg.core.holds_of_valid hk' hh'

/-- **One command.** A safe command keeps the invariant, fails only with a
driver error and reads the latest writes. -/
theorem command_performed (hi : Inv s latest) {c : Command} (hsafe : c.Safe ctx drv s) :
    Performed s latest (c.run ctx drv s) := by
  cases c with
  | memBufferRead device sub offset size =>
    exact urEnqueueMemBufferRead_performed ctx drv hi device sub offset size
  | memBufferWrite device sub offset data => exact enqueueStore_performed ctx drv hi hsafe
  | memBufferFill device sub pattern offset size =>
    refine enqueueStore_performed ctx drv hi ?_
    rw [show (fillBytes pattern size).length = size by simp [fillBytes]]
    exact hsafe
  | memBufferCopy device src dst size data =>
    exact urEnqueueMemBufferCopy_performed ctx drv hi hsafe
  | memBufferMap device sub flags offset size =>
    exact urEnqueueMemBufferMap_performed ctx drv hi hsafe
  | hostStore sub ptr offset data => exact storeMapped_performed hi hsafe
  | memUnmap device sub ptr => exact urEnqueueMemUnmap_performed ctx drv hi hsafe
  | kernelLaunch device args kernel => exact urEnqueueKernelLaunch_performed ctx drv hi hsafe

end Commands

/-! ## Runs -/

/-- Buffers a run can be about: no integrated device keeps them in host memory. -/
def Context.Discrete (ctx : Context) : Prop := ctx.onHost = false

/-- The sub-buffers of a new buffer have no mappings. -/
def NewSubBuffers (subs : Nat → SubBuffer) : Prop := ∀ i, (subs i).mappings = []

/-- The states of a buffer, with its latest writes, in the runs whose commands
all meet `ok` where they are issued. -/
inductive Reached (ctx : Context) (ok : Driver → BufferState → Command → Prop) :
    BufferState → Latest → Prop where
  | create (drv : Driver) (subs : Nat → SubBuffer) (hsubs : NewSubBuffers subs)
      (memory : ZeHandle → Nat → Byte) (c : Creation) {s : BufferState} :
      create ctx drv subs memory c = (s, .ok ()) → Reached ctx ok s c.latest
  | command {s : BufferState} {latest : Latest} (drv : Driver) (c : Command) :
      Reached ctx ok s latest → ok drv s c →
      Reached ctx ok (c.run ctx drv s).1 (latestAfter latest (c.run ctx drv s).2)

section Creation

variable {ctx : Context} {subs : Nat → SubBuffer} {memory : ZeHandle → Nat → Byte}

/-- A buffer object whose constructor has at most set up a host allocation. -/
structure NewBuffer (s : BufferState) (data : Nat → Byte) : Prop extends
    Inv s (fun _ => none) where
  last : s.last = none
  content : s.memory 0 = data
  devices : ∀ d, (s.allocations (some d)).zeHandle = none
  next : 0 < s.nextHandle

theorem raw_newBuffer (hsubs : NewSubBuffers subs) (size : Nat) (data : Nat → Byte) :
    NewBuffer (.raw size data false subs memory) data := by
  have hz : ∀ k, ((BufferState.raw size data false subs memory).allocations k) = {} := fun _ => rfl
  refine ⟨⟨⟨⟨fun d hd => absurd hd (by simp [BufferState.raw]), fun k hk => ?_⟩, rfl, rfl, ?_, ?_⟩,
    ?_, ?_⟩, rfl, ?_, fun _ => rfl, Nat.one_pos⟩
  · exact absurd hk (by rw [hz]; simp)
  · exact fun _ => ⟨fun _ => rfl, fun _ => rfl⟩
  · intro k h hk
    exact absurd hk (by rw [hz]; simp)
  · intro p hp
    exact absurd hp (by simp [BufferState.raw])
  · intro sub m hm
    cases sub with
    | none => exact absurd hm List.not_mem_nil
    | some i =>
      rw [show (BufferState.raw size data false subs memory).mappingsOf (some i) = [] from
        hsubs i] at hm
      exact absurd hm List.not_mem_nil
  · show update memory 0 data 0 = data
    rw [update_self]

theorem NewBuffer.setMapHostPtr {s : BufferState} {data : Nat → Byte} (h : NewBuffer s data) :
    NewBuffer { s with mapHostPtr := some 0 } data := by
  obtain ⟨⟨⟨⟨h1, h2⟩, h3, h4, h5, h6⟩, -, h8⟩, h9, h10, h11, h12⟩ := h
  refine ⟨⟨⟨⟨h1, h2⟩, h3, h4, h5, h6⟩, fun p hp => ?_, fun sub => ?_⟩, h9, h10, h11, h12⟩
  · rw [← Option.some.inj hp]
    exact ⟨h12, fun d hd => absurd hd (by rw [h11]; simp)⟩
  · have := h8 sub
    cases sub <;> exact this

theorem NewBuffer.setHost {s : BufferState} {data : Nat → Byte} (h : NewBuffer s data)
    (a : ReleaseAction) : NewBuffer (s.setAllocation none ⟨some 0, true, a⟩) data := by
  have hc : Core (s.setAllocation none ⟨some 0, true, a⟩) fun _ => none := by
    refine ⟨⟨fun d hl => ?_, fun k hk => ?_⟩, h.notFreed, h.discrete,
      fun _ => ⟨fun _ => rfl, fun d => ?_⟩, fun k p hk => ?_⟩
    · exact absurd (h.last.symm.trans hl) (by simp)
    · cases k with
      | none =>
        exact ⟨0, rfl, holds_unwritten⟩
      | some d =>
        exact h.holds _ hk
    · exact (h.unwritten h.last).2 d
    · cases k with
      | none =>
        exact Option.some.inj hk ▸ h.next
      | some d =>
        exact h.handleLt _ p hk
  refine ⟨⟨hc, fun p hp => ⟨(h.mapHost p hp).1, fun d => ?_⟩, fun sub m hm => ?_⟩, h.last,
    h.content, fun d => ?_, h.next⟩
  · exact (h.mapHost p hp).2 d
  · have hm' := h.mapped sub m (by cases sub <;> exact hm)
    exact ⟨hm'.1, fun d => hm'.2 d⟩
  · exact h.devices d

theorem accessAllocation_writeOnly_memory (drv : Driver) (g : GetZeHandle) (s : BufferState)
    (device : Device) (h : ZeHandle) :
    (accessAllocation ctx drv g s .writeOnly device h).1.memory = s.memory := by
  have hmade : (makeValid ctx drv g s .writeOnly device h).1.memory = s.memory := by
    unfold makeValid
    split
    · rfl
    split
    · rfl
    · rfl
  unfold accessAllocation
  split
  · next heq => rw [← hmade, heq]
  · next heq =>
    rw [← hmade, heq]
    rfl

/-- A write-only access copies nothing. -/
theorem getZeHandleDepth_writeOnly_memory (drv : Driver) : ∀ (n : Nat) (s : BufferState)
    (device? : Option Device),
    (getZeHandleDepth ctx drv n s .writeOnly device?).1.memory = s.memory := by
  intro n
  induction n with
  | zero => exact fun _ _ => rfl
  | succ n ih =>
    intro s device?
    unfold getZeHandleDepth getZeHandleBody
    dsimp only
    split
    · rfl
    split
    · unfold getHostHandle
      split
      · rfl
      · split <;> rfl
    split
    · exact accessAllocation_writeOnly_memory ..
    split
    · next root _ =>
      have hroot := ih s (some root)
      split
      · next heq => rw [← hroot, heq]
      · next heq =>
        rw [← hroot, heq]
        rfl
    · split
      · rfl
      · exact accessAllocation_writeOnly_memory ..

/-- Filling the first device's allocation makes the buffer hold the data. -/
theorem NewBuffer.copyInitialData {s s' : BufferState} {data : Nat → Byte} (h : NewBuffer s data)
    (drv : Driver) (device? : Option Device)
    (heq : copyInitialData ctx drv s device? = (s', .ok ())) :
    Inv s' fun i => some (data i) := by
  have hkeep : ∀ t, KeepsLatest s .writeOnly t := by
    intro t _ _ l hl
    exact absurd hl (by rw [h.last]; simp)
  have hacc := getZeHandle_spec ctx drv h.toCore device? rfl (hkeep _) (.inr fun _ => rfl)
  unfold LevelZero.copyInitialData at heq
  split at heq
  · exact absurd (congrArg Prod.snd heq) (by simp)
  · next s₁ p heq₁ =>
    rw [heq₁] at hacc
    have hg := hacc.granted p rfl
    have hmem : s₁.memory = s.memory := by
      rw [← getZeHandleDepth_writeOnly_memory drv 3 s device?]
      exact congrArg (fun r => r.1.memory) heq₁.symm
    rw [← show s₁.copyAll p 0 = s' from congrArg Prod.fst heq]
    refine h.of_frame (hacc.frame.trans (store_frame ..))
      (store_core hg.core ?_ fun hl => absurd hl hg.used)
    intro k h' hk hh'
    rw [hg.exclusive (by simp) k hk] at hh'
    rw [← Option.some.inj hh', store_memory_self]
    intro i hi v hv
    rw [overlay, if_pos (Set.mem_Iio.mp hi), hmem, h.content]
    exact Option.some.inj hv

/-- Device memory of the caller is used as it is. -/
theorem nativeDevice_inv (hsubs : NewSubBuffers subs) (size : Nat) (data : Nat → Byte)
    (device : Device) (own : Bool) {drv : Driver} {s : BufferState}
    (h : create ctx drv subs memory (.nativeDevice size data device own) = (s, .ok ())) :
    Inv s fun i => some (data i) := by
  have hnew : NewBuffer (.raw size data false subs memory) data := raw_newBuffer hsubs size data
  rw [← show { (BufferState.raw size data false subs memory).setAllocation (some device)
      ⟨some 0, true, if own then .freeNative else .keep⟩ with last := some device } = s from
    congrArg Prod.fst h]
  generalize (if own then ReleaseAction.freeNative else .keep) = action
  have hat := setAllocation_at (.raw size data false subs memory) (some device)
    ⟨some 0, true, action⟩
  have hne : ∀ k, k ≠ some device → ((BufferState.raw size data false subs memory).setAllocation
      (some device) ⟨some 0, true, action⟩).allocations k = {} :=
    fun k hk => setAllocation_ne _ _ hk
  refine ⟨⟨⟨fun d hd => ?_, fun k hk => ?_⟩, rfl, rfl, fun hl => absurd hl (by simp),
    fun k p hk => ?_⟩, fun p hp => absurd hp (by simp [BufferState.raw, setAllocation]),
    fun sub m hm => ?_⟩
  · rw [← Option.some.inj (show some device = some d from hd)]
    exact congrArg Allocation.valid hat
  · by_cases he : k = some device
    · rw [he]
      refine ⟨0, congrArg Allocation.zeHandle hat, fun i _ v hv => ?_⟩
      rw [← Option.some.inj hv]
      exact congrFun hnew.content i
    · exact absurd ((congrArg Allocation.valid (hne k he)).symm.trans hk) (by simp)
  · by_cases he : k = some device
    · rw [he] at hk
      have hp : some 0 = some p := (congrArg Allocation.zeHandle hat).symm.trans hk
      exact Option.some.inj hp ▸ Nat.one_pos
    · exact absurd ((congrArg Allocation.zeHandle (hne k he)).symm.trans hk) (by simp)
  · cases sub with
    | none => exact absurd hm List.not_mem_nil
    | some i =>
      have hm' : m ∈ (subs i).mappings := hm
      rw [hsubs i] at hm'
      exact absurd hm' List.not_mem_nil

/-- A new buffer is coherent with the data it was created with. -/
theorem create_inv (hd : ctx.Discrete) (hsubs : NewSubBuffers subs) (drv : Driver) (c : Creation)
    {s : BufferState} (h : create ctx drv subs memory c = (s, .ok ())) : Inv s c.latest := by
  have hraw : ∀ size data, NewBuffer (.raw size data ctx.onHost subs memory) data := by
    intro size data
    rw [show ctx.onHost = false from hd]
    exact raw_newBuffer hsubs size data
  cases c with
  | empty size =>
    rw [← show BufferState.raw size (memory 0) ctx.onHost subs memory = s from congrArg Prod.fst h]
    exact (hraw size (memory 0)).toInv
  | hostData size data useHostPtr imported =>
    cases useHostPtr with
    | false =>
      simp only [create, Bool.false_and, Bool.and_false, Bool.false_eq_true, if_false] at h
      exact (hraw size data).copyInitialData drv _ h
    | true =>
      cases imported with
      | false =>
        simp only [create, Bool.and_false, Bool.false_eq_true, if_false, if_true] at h
        exact (hraw size data).setMapHostPtr.copyInitialData drv _ h
      | true =>
        have hnew := (hraw size data).setMapHostPtr.setHost .unimport
        simp only [create, Bool.and_true, if_true] at h
        rw [if_neg (by rw [hnew.discrete]; simp)] at h
        exact hnew.copyInitialData drv _ h
  | nativeDevice size data device own => exact nativeDevice_inv hsubs size data device own h
  | nativeHost size data own =>
    have hnew := (hraw size data).setHost (if own then .freeNative else .keep)
    simp only [create] at h
    rw [if_neg (by rw [hnew.discrete]; simp)] at h
    exact hnew.copyInitialData drv _ h

end Creation

theorem reached_inv {ctx : Context} (hd : ctx.Discrete) {s : BufferState} {latest : Latest}
    (h : Reached ctx (fun drv s c => c.Safe ctx drv s) s latest) : Inv s latest := by
  induction h with
  | create drv subs hsubs memory c heq => exact create_inv hd hsubs drv c heq
  | command drv c _ hsafe ih => exact (command_performed ctx drv ih hsafe).inv

/-- **Coherence over runs.** In every state that safe commands reach, the buffer
is coherent; the next safe command does not abort, and every byte it reads is
the latest write to it. -/
theorem buffer_coherent {ctx : Context} (hd : ctx.Discrete) {s : BufferState} {latest : Latest}
    (h : Reached ctx (fun drv s c => c.Safe ctx drv s) s latest) :
    Coherent s latest ∧ ∀ (drv : Driver) (c : Command), c.Safe ctx drv s →
      (c.run ctx drv s).2 ≠ .error .die ∧ (c.run ctx drv s).2 ≠ .error .recursion ∧
      ∀ eff, (c.run ctx drv s).2 = .ok eff → ReadsLatest s.size latest eff := by
  have hi := reached_inv hd h
  refine ⟨hi.toCoherent, fun drv c hsafe => ?_⟩
  have hp := command_performed ctx drv hi hsafe
  refine ⟨fun he => ?_, fun he => ?_, hp.reads⟩
  · exact absurd (hp.fails _ he) (by simp)
  · exact absurd (hp.fails _ he) (by simp)

/-- Two discrete devices with default settings. -/
def twoDevices : Context where
  devices := [0, 1]
  devices_ne := by simp
  integrated := fun _ => false
  singleRootDevice := none
  singleRootDeviceBufferMigration := true
  enableBuffers := true

/-- A driver on which every call succeeds and the devices reach each other. -/
def obliging : Driver := ⟨fun _ => true, fun _ _ => true⟩

/-- No sub-buffer is used. -/
def noSubBuffers : Nat → SubBuffer := fun _ => ⟨0, fun _ => none, none, []⟩

/-- A byte is written on device 0 and read on device 1, where it has to be migrated to. -/
theorem buffer_coherent_write :
    ∃ s latest eff, Reached twoDevices (fun drv s c => c.Safe twoDevices drv s) s latest ∧
      ((Command.memBufferRead 1 none 0 1).run twoDevices obliging s).2 = .ok eff ∧
      latest 0 = some 7 ∧ eff.reads = [(0, 7)] ∧ ReadsLatest s.size latest eff ∧
      ((Command.memBufferRead 1 none 0 1).run twoDevices obliging s).1.last = some 1 ∧
      Coherent ((Command.memBufferRead 1 none 0 1).run twoDevices obliging s).1 latest := by
  have hdiscrete : twoDevices.Discrete := rfl
  have hnew : Reached twoDevices (fun drv s c => c.Safe twoDevices drv s) _ _ :=
    .create obliging noSubBuffers (fun _ => rfl) (fun _ _ => 0) (.empty 1) rfl
  have hsafe : (Command.memBufferWrite 0 none 0 [7]).Safe twoDevices obliging
      (.raw 1 (fun _ => 0) false noSubBuffers fun _ _ => 0) :=
    ⟨fun _ hv => absurd hv (by decide), .inl fun _ => .inr (.inl rfl)⟩
  have hwritten := Reached.command obliging (.memBufferWrite 0 none 0 [7]) hnew hsafe
  have hread := Reached.command obliging (.memBufferRead 1 none 0 1) hwritten trivial
  exact ⟨_, _, _, hwritten, rfl, rfl, rfl,
    ((buffer_coherent hdiscrete hwritten).2 obliging (.memBufferRead 1 none 0 1) trivial).2.2 _ rfl,
    rfl, (buffer_coherent hdiscrete hread).1⟩

/-- Commands of any kind. -/
def anyCommand : Driver → BufferState → Command → Prop := fun _ _ _ => True

/-- Not every run is coherent. Device 0 writes, device 1 reads, device 0 writes
again: the second write leaves device 1 the last valid device, with the first
one's byte. And a write of one byte on a device that does not have the data
loses the other byte. -/
theorem buffer_incoherent :
    (∃ s latest eff, Reached twoDevices anyCommand s latest ∧
      ((Command.memBufferRead 1 none 0 1).run twoDevices obliging s).2 = .ok eff ∧
      ¬ ReadsLatest s.size latest eff) ∧
    ∃ s latest eff, Reached twoDevices anyCommand s latest ∧
      ((Command.memBufferRead 1 none 1 1).run twoDevices obliging s).2 = .ok eff ∧
      ¬ ReadsLatest s.size latest eff := by
  have hnew : ∀ size, Reached twoDevices anyCommand _ _ := fun size =>
    .create obliging noSubBuffers (fun _ => rfl) (fun _ _ => 0) (.empty size) rfl
  refine ⟨⟨_, _, _, .command obliging (.memBufferWrite 0 none 0 [2])
    (.command obliging (.memBufferRead 1 none 0 1)
      (.command obliging (.memBufferWrite 0 none 0 [1]) (hnew 1) trivial) trivial) trivial,
    rfl, ?_⟩, ⟨_, _, _, .command obliging (.memBufferWrite 1 none 0 [3])
      (.command obliging (.memBufferWrite 0 none 0 [1, 2]) (hnew 2) trivial) trivial, rfl, ?_⟩⟩
  · intro h
    exact absurd (h (0, 1) (by decide) (by decide) 2 rfl) (by decide)
  · intro h
    exact absurd (h (1, 0) (by decide) (by decide) 2 rfl) (by decide)

end UnifiedRuntime.LevelZero
