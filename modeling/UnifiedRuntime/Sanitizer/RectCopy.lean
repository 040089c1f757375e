import UnifiedRuntime.Lib.Moves
import UnifiedRuntime.Sanitizer.MsanShadow

/-!
# Rectangular copies

Both sanitizers make a rectangular copy of two-dimensional ones, a slice at a time.
That of the memory sanitizer copies the shadow as well, where both sides are device
USM; where only the destination is, it clears the shadow row by row. A final event
waits for all of them.

Addresses are `uptr`s and the pitches and sizes `size_t`s, so all sums wrap.
-/

namespace UnifiedRuntime.Sanitizer

abbrev RectEvent := Nat

structure RectOffset where
  x : UInt64
  y : UInt64
  z : UInt64

structure RectRegion where
  width : UInt64
  height : UInt64
  depth : UInt64

/-- The bytes of a region, row by row and slice by slice. -/
def RectRegion.cells (r : RectRegion) : List (Nat × Nat × Nat) :=
  (List.range r.depth.toNat).flatMap fun z =>
    (List.range r.height.toNat).flatMap fun y =>
      (List.range r.width.toNat).map fun x => (x, y, z)

/-- The pointer, the offset and the pitches of one side. -/
structure RectSide where
  ptr : UInt64
  offset : RectOffset
  rowPitch : UInt64
  slicePitch : UInt64

namespace RectSide

/-- A row pitch of 0 is the region's width. -/
def row (s : RectSide) (r : RectRegion) : UInt64 :=
  if s.rowPitch = 0 then r.width else s.rowPitch

def slice (s : RectSide) (r : RectRegion) : UInt64 :=
  if s.slicePitch = 0 then s.row r * r.height else s.slicePitch

/-- `SrcOrigin` and `DstOrigin`. -/
def origin (s : RectSide) (r : RectRegion) : UInt64 :=
  s.ptr + s.offset.x + s.row r * s.offset.y + s.slice r * s.offset.z

end RectSide

/-- The arguments of `EnqueueMemCopyRectHelper`; the queue is left out. -/
structure RectCopy where
  src : RectSide
  dst : RectSide
  region : RectRegion
  blocking : Bool
  waitList : List RectEvent
  wantsEvent : Bool

/-- `urEnqueueUSMMemcpy2D` and `urEnqueueUSMFill`. -/
inductive RectCall where
  | memcpy2D (blocking : Bool) (dst dstPitch src srcPitch width height : UInt64)
    (waits : List RectEvent)
  | fill (ptr : UInt64) (value : UInt8) (size : UInt64) (waits : List RectEvent)

namespace RectCall

def waits : RectCall → List RectEvent
  | memcpy2D _ _ _ _ _ _ _ waits => waits
  | fill _ _ _ waits => waits

/-- What a call does to the bytes. -/
def moves : RectCall → List (Move UInt64 UInt8)
  | memcpy2D _ dst dstPitch src srcPitch width height _ =>
    (List.range height.toNat).flatMap fun y => (List.range width.toNat).map fun x =>
      .copy (src + .ofNat y * srcPitch + .ofNat x) (dst + .ofNat y * dstPitch + .ofNat x)
  | fill ptr value size _ => (List.range size.toNat).map fun x => .set (ptr + .ofNat x) value

end RectCall

/-- The calls that went through, the events that `urEventWait` was given, and those that the
returned event waits for. The events are the calls', by their number. -/
structure RectResult where
  calls : List RectCall
  success : Bool
  hostWait : Option (List Nat)
  join : Option (List Nat)

namespace RectCopy

/-- Calls in their order; one that fails ends the function. -/
def issue (ok : Nat → Bool) : Nat → List RectCall → List RectCall × Bool
  | _, [] => ([], true)
  | n, c :: cs =>
    if ok n then (c :: (issue ok (n + 1) cs).1, (issue ok (n + 1) cs).2) else ([], false)

/-- The copy of a slice. -/
def copySlice (p : RectCopy) (blocking : Bool) (i : Nat) : RectCall :=
  .memcpy2D blocking (p.dst.origin p.region + .ofNat i * p.dst.slice p.region)
    (p.dst.row p.region) (p.src.origin p.region + .ofNat i * p.src.slice p.region)
    (p.src.row p.region) p.region.width p.region.height p.waitList

/-- The loop over the slices. -/
def slices (p : RectCopy) : List RectCall :=
  (List.range p.region.depth.toNat).map (p.copySlice p.blocking)

/-- `EnqueueMemCopyRectHelper` of the address sanitizer. -/
def enqueueAsan (p : RectCopy) (ok : Nat → Bool) : RectResult :=
  let r := issue ok 0 p.slices
  let events := List.range r.1.length
  if !r.2 then ⟨r.1, false, none, none⟩
  else if !ok r.1.length then ⟨r.1, false, none, none⟩
  else ⟨r.1, true, none, if p.wantsEvent then some events else none⟩

/-- The calls for the shadow of a slice. -/
def shadowSlice (p : RectCopy) (memToShadow : UInt64 → UInt64) (isDstDeviceUSM isSrcDeviceUSM : Bool)
    (i : Nat) : List RectCall :=
  let dstShadow := memToShadow (p.dst.origin p.region + .ofNat i * p.dst.slice p.region)
  let srcShadow := memToShadow (p.src.origin p.region + .ofNat i * p.src.slice p.region)
  if isDstDeviceUSM && isSrcDeviceUSM then
    [.memcpy2D false dstShadow (p.dst.row p.region) srcShadow (p.src.row p.region)
      p.region.width p.region.height p.waitList]
  else if isDstDeviceUSM && !isSrcDeviceUSM then
    (List.range p.region.height.toNat).map fun y =>
      .fill (dstShadow + .ofNat y * p.dst.row p.region) 0 p.region.width p.waitList
  else []

/-- The loop over the slices with the calls for the shadow. -/
def slicesWithShadow (p : RectCopy) (memToShadow : UInt64 → UInt64) (isDst isSrc : Bool) :
    List RectCall :=
  (List.range p.region.depth.toNat).flatMap fun i =>
    p.copySlice false i :: p.shadowSlice memToShadow isDst isSrc i

/-- `EnqueueMemCopyRectHelper` of the memory sanitizer; what is device USM is looked up in
`m_AllocationMap`. -/
def enqueueMsan (p : RectCopy) (memToShadow : UInt64 → UInt64) (isDeviceUSM : UInt64 → Bool)
    (ok : Nat → Bool) : RectResult :=
  let isDst := isDeviceUSM (p.dst.origin p.region)
  let isSrc := isDeviceUSM (p.src.origin p.region)
  let r := issue ok 0 (p.slicesWithShadow memToShadow isDst isSrc)
  let events := List.range r.1.length
  let waited := if p.blocking then some events else none
  let next := if p.blocking then r.1.length + 1 else r.1.length
  if !r.2 then ⟨r.1, false, none, none⟩
  else if p.blocking && !ok r.1.length then ⟨r.1, false, waited, none⟩
  else if p.wantsEvent && !ok next then ⟨r.1, false, waited, none⟩
  else ⟨r.1, true, waited, if p.wantsEvent then some events else none⟩

end RectCopy

/-! ## The reference -/

/-- The byte `(x, y, z)` of the region on one side. -/
def RectSide.address (s : RectSide) (r : RectRegion) (c : Nat × Nat × Nat) : UInt64 :=
  s.ptr + ((s.offset.z + .ofNat c.2.2) * s.slice r + (s.offset.y + .ofNat c.2.1) * s.row r +
    s.offset.x + .ofNat c.1)

namespace RectCopy

/-- What the copy is to do: byte by byte from the source to the destination. -/
def reference (p : RectCopy) : List (Move UInt64 UInt8) :=
  p.region.cells.map fun c => .copy (p.src.address p.region c) (p.dst.address p.region c)

/-- And to the shadow. What comes from elsewhere than device USM is initialised. -/
def shadowReference (p : RectCopy) (memToShadow : UInt64 → UInt64) (isDst isSrc : Bool) :
    List (Move UInt64 UInt8) :=
  if isDst && isSrc then
    p.region.cells.map fun c =>
      .copy (memToShadow (p.src.address p.region c)) (memToShadow (p.dst.address p.region c))
  else if isDst && !isSrc then
    p.region.cells.map fun c => .set (memToShadow (p.dst.address p.region c)) 0
  else []

/-! ## Addresses -/

theorem origin_address (s : RectSide) (r : RectRegion) (x y z : Nat) :
    s.origin r + .ofNat z * s.slice r + .ofNat y * s.row r + .ofNat x
      = s.address r (x, y, z) := by
  unfold RectSide.origin RectSide.address
  grind

/-- The shadow of a slice runs along with it. -/
def Along (memToShadow : UInt64 → UInt64) (s : RectSide) (r : RectRegion) : Prop :=
  ∀ x y z, x < r.width.toNat → y < r.height.toNat → z < r.depth.toNat →
    memToShadow (s.address r (x, y, z))
      = memToShadow (s.origin r + .ofNat z * s.slice r) + .ofNat y * s.row r + .ofNat x

/-- The bytes of the region lie in `[b, b + n)`. -/
def Inside (s : RectSide) (r : RectRegion) (b n : Nat) : Prop :=
  ∀ c ∈ r.cells, b ≤ (s.address r c).toNat ∧ (s.address r c).toNat < b + n

theorem mem_cells {r : RectRegion} {x y z : Nat} :
    (x, y, z) ∈ r.cells ↔ x < r.width.toNat ∧ y < r.height.toNat ∧ z < r.depth.toNat := by
  unfold RectRegion.cells
  simp only [List.mem_flatMap, List.mem_range, List.mem_map, Prod.mk.injEq]
  constructor
  · rintro ⟨z', hz, y', hy, x', hx, rfl, rfl, rfl⟩
    exact ⟨hx, hy, hz⟩
  · rintro ⟨hx, hy, hz⟩
    exact ⟨z, hz, y, hy, x, hx, rfl, rfl, rfl⟩

/-- `MemToShadow` on addresses. -/
def shadowAddr (l : MsanLayout) (a : UInt64) : UInt64 := .ofNat (l.memToShadow a.toNat)

theorem ofNat_toNat_add (a : UInt64) (k : Nat) : UInt64.ofNat (a.toNat + k) = a + .ofNat k := by
  rw [UInt64.ofNat_add, UInt64.ofNat_toNat]

theorem ofNat_mod (n : Nat) : UInt64.ofNat (n % 2 ^ 64) = .ofNat n := by
  rw [← UInt64.toNat_inj, UInt64.toNat_ofNat', UInt64.toNat_ofNat', Nat.mod_mod]

/-- On either side of a GPU's reservation the shadow is a distance away. -/
theorem shadowAddr_gpu (layout : GpuLayout) (begin : Nat) :
    ∃ below above, ∀ a : UInt64, shadowAddr (.gpu layout begin) a
      = if a.toNat < begin then a + below else a + above := by
  refine ⟨.ofNat (sub64 begin (MsanLayout.first layout)),
    .ofNat (2 ^ 64 - sub64 (MsanLayout.last layout) (begin + layout.msanShadowSize)),
    fun a => ?_⟩
  unfold shadowAddr
  rw [MsanLayout.memToShadow_gpu]
  unfold msanMemToShadowGPU
  split
  next =>
    unfold add64
    rw [ofNat_mod, ofNat_toNat_add]
  next =>
    have hlt : sub64 (MsanLayout.last layout) (begin + layout.msanShadowSize) < 2 ^ 64 :=
      Nat.mod_lt _ (by decide)
    have hsum : ∀ d, d < 2 ^ 64 → sub64 a.toNat d = (a.toNat + (2 ^ 64 - d)) % 2 ^ 64 := by
      intro d hd
      unfold sub64
      rw [Nat.add_sub_assoc (by omega)]
    rw [hsum _ hlt, ofNat_mod, ofNat_toNat_add]

/-- In one allocation of the application's the shadow is everywhere the same distance away. -/
theorem shift_of_app {l : MsanLayout} {b n : Nat} (happ : ∀ i, i < n → l.App (b + i))
    {a a' : UInt64} {i j : Nat} (hi : i < n) (hj : j < n) (ha : a.toNat = b + i)
    (ha' : a'.toNat = b + j) :
    ∃ k, shadowAddr l a = a + k ∧ shadowAddr l a' = a' + k := by
  cases l with
  | cpu =>
    have hs := (MsanLayout.cpu_shadows happ).contiguous
    have hshift : ∀ (x : UInt64) (k : Nat), k < n → x.toNat = b + k →
        shadowAddr .cpu x = x + (.ofNat (MsanLayout.memToShadow .cpu b) - .ofNat b) := by
      intro x k hk hx
      have hx' : x = .ofNat b + .ofNat k := by
        rw [← UInt64.ofNat_add, ← hx, UInt64.ofNat_toNat]
      unfold shadowAddr
      rw [hx, hs k hk, UInt64.ofNat_add]
      grind
    exact ⟨_, hshift a i hi ha, hshift a' j hj ha'⟩
  | gpu layout begin =>
    obtain ⟨below, above, hsides⟩ := shadowAddr_gpu layout begin
    have hsize : 0 < layout.msanShadowSize := by
      cases layout <;> decide
    -- the begin of the reservation is not the application's
    have hbegin : ∀ k, k < n → b + k ≠ begin := by
      intro k hk heq
      refine (happ k hk).2 ?_
      rw [heq]
      exact ⟨Nat.le_refl _, Nat.lt_add_of_pos_right hsize⟩
    have hside : a.toNat < begin ↔ a'.toNat < begin := by
      by_contra hc
      have hmid := hbegin (begin - b) (by omega)
      omega
    rw [hsides a, hsides a']
    by_cases hlt : a.toNat < begin
    · exact ⟨below, by rw [if_pos hlt], by rw [if_pos (hside.mp hlt)]⟩
    · exact ⟨above, by rw [if_neg hlt], by rw [if_neg fun h => hlt (hside.mpr h)]⟩

/-- The region lies in an allocation of the application's. -/
def InAllocation (l : MsanLayout) (s : RectSide) (r : RectRegion) : Prop :=
  ∃ b n, (∀ i, i < n → l.App (b + i)) ∧ Inside s r b n

theorem InAllocation.along {l : MsanLayout} {s : RectSide} {r : RectRegion}
    (h : InAllocation l s r) : Along (shadowAddr l) s r := by
  obtain ⟨b, n, happ, hin⟩ := h
  intro x y z hx hy hz
  obtain ⟨hlo, hhi⟩ := hin (x, y, z) (mem_cells.mpr ⟨hx, hy, hz⟩)
  obtain ⟨hlo₀, hhi₀⟩ := hin (0, 0, z) (mem_cells.mpr ⟨by omega, by omega, hz⟩)
  have hbase : s.origin r + .ofNat z * s.slice r = s.address r (0, 0, z) := by
    rw [← origin_address]
    grind
  have hdiff : s.address r (x, y, z) = s.address r (0, 0, z) + .ofNat y * s.row r + .ofNat x := by
    rw [← origin_address, hbase]
  obtain ⟨k, hk, hk₀⟩ := shift_of_app happ (Nat.sub_lt_left_of_lt_add hlo hhi)
    (Nat.sub_lt_left_of_lt_add hlo₀ hhi₀) (Nat.add_sub_cancel' hlo).symm
    (Nat.add_sub_cancel' hlo₀).symm
  grind

/-! ## The calls -/

theorem moves_copySlice (p : RectCopy) (blocking : Bool) (z : Nat) :
    (p.copySlice blocking z).moves
      = (List.range p.region.height.toNat).flatMap fun y =>
        (List.range p.region.width.toNat).map fun x =>
          .copy (p.src.address p.region (x, y, z)) (p.dst.address p.region (x, y, z)) := by
  unfold copySlice RectCall.moves
  simp [origin_address]

theorem flatMap_map_cells {γ : Type} (r : RectRegion) (f : Nat × Nat × Nat → γ) :
    r.cells.map f = (List.range r.depth.toNat).flatMap fun z =>
      (List.range r.height.toNat).flatMap fun y =>
        (List.range r.width.toNat).map fun x => f (x, y, z) := by
  unfold RectRegion.cells
  simp [List.map_flatMap, Function.comp_def]

/-- All slices copy what the reference does. -/
theorem moves_slices (p : RectCopy) (blocking : Bool) :
    ((List.range p.region.depth.toNat).flatMap fun z => (p.copySlice blocking z).moves)
      = p.reference := by
  unfold reference
  rw [flatMap_map_cells]
  simp [moves_copySlice]

theorem moves_shadowSlice (p : RectCopy) {memToShadow : UInt64 → UInt64} {isDst isSrc : Bool}
    (hdst : isDst = true → Along memToShadow p.dst p.region)
    (hsrc : isSrc = true → Along memToShadow p.src p.region) :
    ((List.range p.region.depth.toNat).flatMap fun z =>
      (p.shadowSlice memToShadow isDst isSrc z).flatMap RectCall.moves)
      = p.shadowReference memToShadow isDst isSrc := by
  unfold shadowReference
  cases isDst with
  | false =>
    simp only [shadowSlice, Bool.false_and, Bool.false_eq_true, if_false, List.flatMap_nil,
      List.flatMap_eq_nil_iff]
    exact fun _ _ => trivial
  | true =>
    have hd := hdst rfl
    cases isSrc with
    | false =>
      simp only [shadowSlice, Bool.and_false, Bool.true_and, Bool.not_false, Bool.false_eq_true,
        if_false, if_true]
      rw [flatMap_map_cells]
      refine List.flatMap_congr fun z hz => ?_
      rw [List.flatMap_map]
      refine List.flatMap_congr fun y hy => ?_
      refine List.map_congr_left fun x hx => ?_
      rw [hd x y z (List.mem_range.mp hx) (List.mem_range.mp hy) (List.mem_range.mp hz)]
    | true =>
      have hs := hsrc rfl
      simp only [shadowSlice, Bool.and_true, if_true, List.flatMap_cons, List.flatMap_nil,
        List.append_nil]
      rw [flatMap_map_cells]
      refine List.flatMap_congr fun z hz => ?_
      refine List.flatMap_congr fun y hy => ?_
      refine List.map_congr_left fun x hx => ?_
      rw [hd x y z (List.mem_range.mp hx) (List.mem_range.mp hy) (List.mem_range.mp hz),
        hs x y z (List.mem_range.mp hx) (List.mem_range.mp hy) (List.mem_range.mp hz)]

/-- The calls that go through come first in the plan. Where the driver makes no error they are
all of it. -/
theorem issue_spec (ok : Nat → Bool) (n : Nat) (plan : List RectCall) :
    (issue ok n plan).1 <+: plan ∧ ((issue ok n plan).2 = true → (issue ok n plan).1 = plan) ∧
      ((∀ k, ok k = true) → (issue ok n plan).2 = true) := by
  induction plan generalizing n with
  | nil => exact ⟨List.prefix_refl _, fun _ => rfl, fun _ => rfl⟩
  | cons c cs ih =>
    unfold issue
    split
    next =>
      obtain ⟨hpre, heq, hall⟩ := ih (n + 1)
      exact ⟨List.cons_prefix_cons.mpr ⟨rfl, hpre⟩, fun h => by rw [heq h], hall⟩
    next hfail => exact ⟨List.nil_prefix, (fun h => nomatch h), fun hok => absurd (hok n) hfail⟩

/-- What a copy is for. It succeeds where every driver call does, and has issued the calls of all
slices then. The calls together do what the references say and nothing else, each waits for the
wait list, and the returned event waits for all of them. As no call waits for another the bytes
may be moved in any order, which for references that lie apart does not matter. -/
structure Exact (p : RectCopy) (shadow : List (Move UInt64 UInt8)) (plan : List RectCall)
    (ok : Nat → Bool) (r : RectResult) : Prop where
  succeeds : (∀ n, ok n = true) → r.success = true
  issued : r.success = true → r.calls = plan
  moves : r.success = true → (r.calls.flatMap RectCall.moves).Perm (p.reference ++ shadow)
  nothingElse : ∀ op ∈ r.calls.flatMap RectCall.moves, op ∈ p.reference ++ shadow
  waits : ∀ c ∈ r.calls, c.waits = p.waitList
  join : ∀ events, r.join = some events → events = List.range r.calls.length
  signals : r.success = true → p.wantsEvent = true → r.join.isSome = true
  memory : r.success = true → Move.Separate (p.reference ++ shadow) →
    ∀ m order, order.Perm (r.calls.flatMap RectCall.moves) →
      (∀ c ∈ p.region.cells, Move.perform order m (p.dst.address p.region c)
        = m (p.src.address p.region c)) ∧
      (∀ op ∈ shadow, Move.perform order m op.dst = op.value m) ∧
      ∀ a, a ∉ (p.reference ++ shadow).map Move.dst → Move.perform order m a = m a

/-- From the plan of the calls. -/
theorem exact_of_plan {p : RectCopy} {shadow : List (Move UInt64 UInt8)} {plan : List RectCall}
    {ok : Nat → Bool} {r : RectResult} (hok : (∀ n, ok n = true) → r.success = true)
    (hplan : (plan.flatMap RectCall.moves).Perm (p.reference ++ shadow))
    (hwaits : ∀ c ∈ plan, c.waits = p.waitList) (hpre : r.calls <+: plan)
    (hall : r.success = true → r.calls = plan)
    (hjoin : ∀ events, r.join = some events → events = List.range r.calls.length)
    (hsignals : r.success = true → p.wantsEvent = true → r.join.isSome = true) :
    Exact p shadow plan ok r := by
  have hmoves : r.success = true → (r.calls.flatMap RectCall.moves).Perm (p.reference ++ shadow) :=
    fun h => by rw [hall h]; exact hplan
  refine ⟨hok, hall, hmoves, fun op hop => ?_, fun c hc => hwaits c (hpre.subset hc), hjoin, hsignals,
    fun hs hsep m order ho => ?_⟩
  · obtain ⟨c, hc, hop⟩ := List.mem_flatMap.mp hop
    exact hplan.mem_iff.mp (List.mem_flatMap.mpr ⟨c, hpre.subset hc, hop⟩)
  · have hperm := ho.trans (hmoves hs)
    rw [Move.perform_perm hsep hperm.symm]
    refine ⟨fun c hc => ?_, fun op hop => ?_, fun a ha => ?_⟩
    · exact Move.perform_mem _ m hsep (List.mem_append_left _ (List.mem_map.mpr ⟨c, hc, rfl⟩))
    · exact Move.perform_mem _ m hsep (List.mem_append_right _ hop)
    · exact Move.perform_other _ m ha

theorem asan_exact (p : RectCopy) (ok : Nat → Bool) :
    Exact p [] p.slices ok (p.enqueueAsan ok) := by
  have hplan : (p.slices.flatMap RectCall.moves).Perm (p.reference ++ []) := by
    unfold slices
    rw [List.flatMap_map, List.append_nil]
    exact .of_eq (p.moves_slices p.blocking)
  have hwaits : ∀ c ∈ p.slices, c.waits = p.waitList := by
    intro c hc
    obtain ⟨z, -, rfl⟩ := List.mem_map.mp hc
    rfl
  obtain ⟨hpre, hall, hok⟩ := issue_spec ok 0 p.slices
  unfold enqueueAsan
  generalize issue ok 0 p.slices = r at hpre hall hok ⊢
  obtain ⟨calls, done⟩ := r
  simp only at hpre hall hok ⊢
  have hfailed : (¬ ∀ n, ok n = true) → Exact p [] p.slices ok ⟨calls, false, none, none⟩ :=
    fun hfail => exact_of_plan (fun h => absurd h hfail) hplan hwaits hpre (fun h => nomatch h)
      (fun _ h => nomatch h) (fun h => nomatch h)
  split
  next hdone => exact hfailed fun h => by simp [hok h] at hdone
  next hdone =>
    split
    next hevent => exact hfailed fun h => by simp [h] at hevent
    next =>
      refine exact_of_plan (fun _ => rfl) hplan hwaits hpre (fun _ => hall (by simpa using hdone))
        ?_ ?_
      · intro events he
        simp only [Option.ite_none_right_eq_some, Option.some.injEq] at he
        exact he.2.symm
      · intro _ hw
        simp [hw]

theorem waits_shadowSlice (p : RectCopy) (memToShadow : UInt64 → UInt64) (isDst isSrc : Bool)
    (z : Nat) : ∀ c ∈ p.shadowSlice memToShadow isDst isSrc z, c.waits = p.waitList := by
  intro c hc
  unfold shadowSlice at hc
  split at hc
  next =>
    obtain rfl := List.mem_singleton.mp hc
    rfl
  next =>
    split at hc
    next =>
      obtain ⟨y, -, rfl⟩ := List.mem_map.mp hc
      rfl
    next => cases hc

/-- The shadow is copied along where a side is device memory. -/
theorem msan_exact (p : RectCopy) {memToShadow : UInt64 → UInt64} {isDeviceUSM : UInt64 → Bool}
    (ok : Nat → Bool)
    (hdst : isDeviceUSM (p.dst.origin p.region) = true → Along memToShadow p.dst p.region)
    (hsrc : isDeviceUSM (p.src.origin p.region) = true → Along memToShadow p.src p.region) :
    Exact p (p.shadowReference memToShadow (isDeviceUSM (p.dst.origin p.region))
      (isDeviceUSM (p.src.origin p.region)))
      (p.slicesWithShadow memToShadow (isDeviceUSM (p.dst.origin p.region))
        (isDeviceUSM (p.src.origin p.region))) ok (p.enqueueMsan memToShadow isDeviceUSM ok) := by
  unfold enqueueMsan
  dsimp only
  generalize isDeviceUSM (p.dst.origin p.region) = isDst at hdst ⊢
  generalize isDeviceUSM (p.src.origin p.region) = isSrc at hsrc ⊢
  have hplan : ((p.slicesWithShadow memToShadow isDst isSrc).flatMap RectCall.moves).Perm
      (p.reference ++ p.shadowReference memToShadow isDst isSrc) := by
    unfold slicesWithShadow
    rw [← p.moves_slices false, ← p.moves_shadowSlice hdst hsrc, List.flatMap_assoc]
    exact (List.flatMap_append_perm _ _ _).symm
  have hwaits : ∀ c ∈ p.slicesWithShadow memToShadow isDst isSrc, c.waits = p.waitList := by
    intro c hc
    obtain ⟨z, -, hc⟩ := List.mem_flatMap.mp hc
    rcases List.mem_cons.mp hc with rfl | hc
    · rfl
    · exact p.waits_shadowSlice memToShadow isDst isSrc z c hc
  obtain ⟨hpre, hall, hok⟩ := issue_spec ok 0 (p.slicesWithShadow memToShadow isDst isSrc)
  generalize issue ok 0 (p.slicesWithShadow memToShadow isDst isSrc) = r at hpre hall hok ⊢
  obtain ⟨calls, done⟩ := r
  have hfailed : ∀ waited, (¬ ∀ n, ok n = true) →
      Exact p (p.shadowReference memToShadow isDst isSrc)
        (p.slicesWithShadow memToShadow isDst isSrc) ok ⟨calls, false, waited, none⟩ :=
    fun _ hfail => exact_of_plan (fun h => absurd h hfail) hplan hwaits hpre (fun h => nomatch h)
      (fun _ h => nomatch h) (fun h => nomatch h)
  -- an error of the copies, of the wait on the host, and of the final event
  cases done with
  | false => exact hfailed _ fun h => nomatch hok h
  | true =>
    simp only [Bool.not_true, Bool.false_eq_true, if_false]
    by_cases hwait : (p.blocking && !ok calls.length) = true
    · rw [if_pos hwait]
      exact hfailed _ fun h => by simp [h] at hwait
    · rw [if_neg hwait]
      by_cases hevent : (p.wantsEvent && !ok (if p.blocking = true then calls.length + 1
          else calls.length)) = true
      · rw [if_pos hevent]
        exact hfailed _ fun h => by simp [h] at hevent
      · rw [if_neg hevent]
        refine exact_of_plan (fun _ => rfl) hplan hwaits hpre (fun _ => hall rfl) ?_ ?_
        · intro events he
          simp only [Option.ite_none_right_eq_some, Option.some.injEq] at he
          exact he.2.symm
        · intro _ hw
          simp [hw]

/-- **Rectangular copies.** Both helpers copy byte by byte what the region, the origins and the
pitches say, with a call for each slice, and fail only with a call of the driver; that of the
memory sanitizer does the same to the shadow, where the sides that are device USM lie in an
allocation each. -/
theorem rectCopy_exact (p : RectCopy) (ok : Nat → Bool) (l : MsanLayout)
    (isDeviceUSM : UInt64 → Bool)
    (hdst : isDeviceUSM (p.dst.origin p.region) = true → InAllocation l p.dst p.region)
    (hsrc : isDeviceUSM (p.src.origin p.region) = true → InAllocation l p.src p.region) :
    Exact p [] p.slices ok (p.enqueueAsan ok) ∧
      Exact p (p.shadowReference (shadowAddr l) (isDeviceUSM (p.dst.origin p.region))
        (isDeviceUSM (p.src.origin p.region)))
        (p.slicesWithShadow (shadowAddr l) (isDeviceUSM (p.dst.origin p.region))
          (isDeviceUSM (p.src.origin p.region))) ok
        (p.enqueueMsan (shadowAddr l) isDeviceUSM ok) := by
  exact ⟨p.asan_exact ok, p.msan_exact ok (fun h => (hdst h).along) fun h => (hsrc h).along⟩

/-- Two rows of two slices between two allocations of a CPU. -/
def twoSlices : RectCopy where
  src := ⟨0x740000001000, ⟨1, 0, 0⟩, 0, 0⟩
  dst := ⟨0x740000002000, ⟨0, 1, 0⟩, 4, 16⟩
  region := ⟨2, 2, 2⟩
  blocking := false
  waitList := [7]
  wantsEvent := true

theorem page_app {b : Nat} (hlo : 0x740000000000 ≤ b) (hhi : b + 64 ≤ 0x800000000000) (i : Nat)
    (hi : i < 64) : MsanLayout.App .cpu (b + i) := by
  refine ⟨⟨(0x740000000000, 0x800000000000), ?_, ?_, ?_⟩, ?_⟩
  · simp [MsanLayout.cpuRanges]
  · show 0x740000000000 ≤ b + i
    omega
  · show b + i < 0x800000000000
    omega
  · show ¬ (0x010000000000 ≤ b + i ∧ b + i < 0x510000000000)
    omega

/-- Every call of the driver succeeds, and so do both copies; the final event waits for the four
copies of the data and the shadow. -/
theorem rectCopy_exact_twoSlices :
    (twoSlices.enqueueAsan fun _ => true).success = true ∧
      (twoSlices.enqueueAsan fun _ => true).calls.length = 2 ∧
      ((twoSlices.enqueueAsan fun _ => true).calls.flatMap RectCall.moves).Perm
        twoSlices.reference ∧
      (twoSlices.enqueueMsan (shadowAddr .cpu) (fun _ => true) fun _ => true).success = true ∧
      (twoSlices.enqueueMsan (shadowAddr .cpu) (fun _ => true) fun _ => true).join
        = some [0, 1, 2, 3] := by
  obtain ⟨hasan, hmsan⟩ := rectCopy_exact twoSlices (fun _ => true) .cpu (fun _ => true)
    (fun _ => ⟨0x740000002000, 64, page_app (by omega) (by omega), by
      unfold Inside
      decide⟩)
    (fun _ => ⟨0x740000001000, 64, page_app (by omega) (by omega), by
      unfold Inside
      decide⟩)
  have hcopied := hasan.succeeds fun _ => rfl
  refine ⟨hcopied, ?_, ?_, hmsan.succeeds fun _ => rfl, rfl⟩
  · rfl
  · simpa only [List.append_nil] using hasan.moves hcopied

end RectCopy

end UnifiedRuntime.Sanitizer
