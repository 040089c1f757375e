import UnifiedRuntime.NativeCpu.Launch
import UnifiedRuntime.Lib.Grid

/-!
# Launches run every work-item once

Each way to split up a launch puts out the points of a grid of work-groups, and a work-group
is the grid of its tile of the ND-range (`items_group`). Where the local sizes divide the
global sizes the tiles make up the range, in another order.

Main results:
- `Ends`: when the loops end, for each way to split up a launch.
- `launch_iff`: exactly which launches run every work-item once or are rejected.
-/

namespace UnifiedRuntime.NativeCpu

attribute [local instance] neZero_three

/-! ## Launches that cover the range -/

/-- No local size is zero, and each divides its global size. -/
def NDRDesc.SizesFit (ndr : NDRDesc) : Prop :=
  ∀ d, ndr.LocalSize d ≠ 0 ∧ (ndr.GlobalSize d).toNat % (ndr.LocalSize d).toNat = 0

/-- The launch ends, and what it runs are the work-items of the range, each once. -/
structure Covers (ock : Bool) (ndr : NDRDesc)
    (launch : Nat → Except UrError (Except Stop (List Job))) : Prop where
  ends : ∃ fuel jobs, launch fuel = .ok (.ok jobs)
  once : ∀ fuel jobs, launch fuel = .ok (.ok jobs) → (executed ock jobs).Perm ndr.globalIds

/-- **Launches are rejected or right**: one that passes the checks has local sizes that divide
the global sizes, and it runs every work-item once. -/
def LaunchRight (ock : Bool) (numThreads : UInt64) (k : KernelInfo) (a : LaunchArgs) : Prop :=
  ∀ ndr, a.check k = .ok ndr →
    ndr.SizesFit ∧ Covers ock ndr (urEnqueueKernelLaunch ock numThreads k a)

/-! ## When the loops end -/

/-- The two outer loops end, and `inner` holds if there is a round. -/
def PairsEnd (count : RangeT) (inner : Prop) : Prop :=
  (count 2).toNat < 2 ^ 32 ∧
    (count 2 ≠ 0 → (count 1).toNat < 2 ^ 32 ∧ (count 1 ≠ 0 → inner))

/-- **When a launch ends**, by the way it is split up. -/
def NDRDesc.Ends (ndr : NDRDesc) (ock : Bool) (numThreads : UInt64) (k : KernelInfo) : Prop :=
  if !ock then
    PairsEnd ndr.numWG ((ndr.numWG 0).toNat < 2 ^ 32 ∧ ∀ d, (ndr.LocalSize d).toNat < 2 ^ 32)
  else if ndr.isLocalSizeOne && decide (numThreads < ndr.GlobalSize 0) && !k.hasLocalArgs then
    numThreads ≠ 0 ∧ PairsEnd ndr.numWG ((ndr.numWG 0).toNat < 2 ^ 32)
  else if numThreads ≤ ndr.numWG 1 * ndr.numWG 2 then
    PairsEnd ndr.numWG (numThreads ≠ 0 ∧ (ndr.numWG 0).toNat < 2 ^ 32)
  else PairsEnd ndr.numWG ((ndr.numWG 0).toNat < 2 ^ 32) ∧ numThreads.toNat < 2 ^ 32

/-! ## Loops -/

section Loops

variable {α : Type} {count : RangeT} {fuel : Nat} {out : List α}
  {body : UInt32 → UInt32 → Except Stop (List α)}
  {body₃ : UInt32 → UInt32 → UInt32 → Except Stop (List α)}

/-- What the outer loops have done if they end. -/
theorem forPairs_inv (inner : Prop) (h : forPairs count fuel body = .ok out)
    (hinner : ∀ out, body 0 0 = .ok out → inner) :
    PairsEnd count inner ∧ ∃ f : Nat → Nat → List α,
      (∀ g1 < (count 1).toNat, ∀ g2 < (count 2).toNat,
        body (UInt32.ofNat g1) (UInt32.ofNat g2) = .ok (f g1 g2)) ∧
      out = (List.range (count 2).toNat).flatMap fun g2 =>
        (List.range (count 1).toNat).flatMap fun g1 => f g1 g2 := by
  obtain ⟨h2, -, F, hF, rfl⟩ := narrowFor_iff.mp h
  have hrow : ∀ g2, ∃ f : Nat → List α, g2 < (count 2).toNat →
      (count 1).toNat < 2 ^ 32 ∧
      (∀ g1 < (count 1).toNat, body (UInt32.ofNat g1) (UInt32.ofNat g2) = .ok (f g1)) ∧
      F g2 = (List.range (count 1).toNat).flatMap f := by
    intro g2
    by_cases hg : g2 < (count 2).toNat
    · obtain ⟨h1, -, f, hf, hout⟩ := narrowFor_iff.mp (hF g2 hg)
      exact ⟨f, fun _ => ⟨h1, hf, hout⟩⟩
    · exact ⟨fun _ => [], fun h => absurd h hg⟩
  choose f hf using hrow
  have hpos : ∀ {d}, count d ≠ 0 → 0 < (count d).toNat := fun hne =>
    Nat.pos_of_ne_zero fun h0 => hne (UInt64.toNat_inj.mp h0)
  refine ⟨⟨h2, fun hne2 => ⟨(hf 0 (hpos hne2)).1, fun hne1 => ?_⟩⟩, fun g1 g2 => f g2 g1, ?_, ?_⟩
  · exact hinner _ ((hf 0 (hpos hne2)).2.1 0 (hpos hne1))
  · exact fun g1 h1 g2 h2 => (hf g2 h2).2.1 g1 h1
  · exact List.flatMap_congr fun g2 hg => (hf g2 (List.mem_range.mp hg)).2.2

theorem PairsEnd.lt {inner : Prop} (h : PairsEnd count inner) {g1 g2 : Nat}
    (h1 : g1 < (count 1).toNat) (h2 : g2 < (count 2).toNat) :
    g1 < 2 ^ 32 ∧ g2 < 2 ^ 32 ∧ inner := by
  have hne : ∀ {d n}, n < (count d).toNat → count d ≠ 0 := by
    intro d n hn h0
    rw [h0] at hn
    exact absurd hn (Nat.not_lt_zero n)
  obtain ⟨hlt1, hinner⟩ := h.2 (hne h2)
  exact ⟨by omega, by have := h.1; omega, hinner (hne h1)⟩

theorem PairsEnd.mono {p q : Prop} (h : PairsEnd count p) (hpq : p → q) : PairsEnd count q :=
  ⟨h.1, fun h2 => ⟨(h.2 h2).1, fun h1 => hpq ((h.2 h2).2 h1)⟩⟩

theorem forPairs_ok {inner : Prop} (hend : PairsEnd count inner) (hfuel : 2 ^ 32 ≤ fuel)
    (hbody : inner → ∀ g1 g2, ∃ out, body g1 g2 = .ok out) :
    ∃ out, forPairs count fuel body = .ok out := by
  have hrow : ∀ g2 < (count 2).toNat, ∃ out,
      narrowFor (fun g1 => body g1 (UInt32.ofNat g2)) (count 1) fuel = .ok out := by
    intro g2 hg2
    have hne : count 2 ≠ 0 := fun h0 => by
      rw [h0] at hg2
      exact absurd hg2 (Nat.not_lt_zero g2)
    have hlt1 := (hend.2 hne).1
    have hcell : ∀ g1, ∃ out, g1 < (count 1).toNat →
        body (UInt32.ofNat g1) (UInt32.ofNat g2) = .ok out := by
      intro g1
      by_cases hg1 : g1 < (count 1).toNat
      · obtain ⟨out, hout⟩ :=
          hbody (hend.lt hg1 hg2).2.2 (UInt32.ofNat g1) (UInt32.ofNat g2)
        exact ⟨out, fun _ => hout⟩
      · exact ⟨[], fun h => absurd h hg1⟩
    choose f hf using hcell
    exact ⟨_, narrowFor_iff.mpr ⟨hlt1, by omega, f, hf, rfl⟩⟩
  have hall : ∀ g2, ∃ out, g2 < (count 2).toNat →
      narrowFor (fun g1 => body g1 (UInt32.ofNat g2)) (count 1) fuel = .ok out := by
    intro g2
    by_cases hg2 : g2 < (count 2).toNat
    · obtain ⟨out, hout⟩ := hrow g2 hg2
      exact ⟨out, fun _ => hout⟩
    · exact ⟨[], fun h => absurd h hg2⟩
  choose f hf using hall
  have hlt2 := hend.1
  exact ⟨_, narrowFor_iff.mpr ⟨hlt2, by omega, f, hf, rfl⟩⟩

/-- What all three loops have done if they end. -/
theorem forGroups_inv (inner : Prop) (h : forGroups count fuel body₃ = .ok out)
    (hinner : ∀ out, body₃ 0 0 0 = .ok out → inner) :
    PairsEnd count ((count 0).toNat < 2 ^ 32 ∧ (count 0 ≠ 0 → inner)) ∧
      ∃ f : Nat → Nat → Nat → List α,
        (∀ g0 < (count 0).toNat, ∀ g1 < (count 1).toNat, ∀ g2 < (count 2).toNat,
          body₃ (UInt32.ofNat g0) (UInt32.ofNat g1) (UInt32.ofNat g2) = .ok (f g0 g1 g2)) ∧
        out = grid (List.range (count 0).toNat) (List.range (count 1).toNat)
          (List.range (count 2).toNat) f := by
  obtain ⟨hend, F, hF, rfl⟩ :=
    forPairs_inv ((count 0).toNat < 2 ^ 32 ∧ (count 0 ≠ 0 → inner)) h fun out hout => by
      obtain ⟨h0, -, f, hf, -⟩ := narrowFor_iff.mp hout
      exact ⟨h0, fun hne => hinner _ (hf 0 (Nat.pos_of_ne_zero fun h0 =>
        hne (UInt64.toNat_inj.mp h0)))⟩
  have hrow : ∀ g1 g2, ∃ f : Nat → List α,
      g1 < (count 1).toNat → g2 < (count 2).toNat →
      (∀ g0 < (count 0).toNat,
        body₃ (UInt32.ofNat g0) (UInt32.ofNat g1) (UInt32.ofNat g2) = .ok (f g0)) ∧
      F g1 g2 = (List.range (count 0).toNat).flatMap f := by
    intro g1 g2
    by_cases hg : g1 < (count 1).toNat ∧ g2 < (count 2).toNat
    · obtain ⟨-, -, f, hf, hout⟩ := narrowFor_iff.mp (hF g1 hg.1 g2 hg.2)
      exact ⟨f, fun _ _ => ⟨hf, hout⟩⟩
    · exact ⟨fun _ => [], fun h1 h2 => absurd ⟨h1, h2⟩ hg⟩
  choose f hf using hrow
  refine ⟨hend, fun g0 g1 g2 => f g1 g2 g0, fun g0 h0 g1 h1 g2 h2 => (hf g1 g2 h1 h2).1 g0 h0, ?_⟩
  exact List.flatMap_congr fun g2 hg2 => List.flatMap_congr fun g1 hg1 =>
    (hf g1 g2 (List.mem_range.mp hg1) (List.mem_range.mp hg2)).2

theorem forGroups_pure {f : UInt32 → UInt32 → UInt32 → α}
    (h : forGroups count fuel (fun g0 g1 g2 => .ok [f g0 g1 g2]) = .ok out) :
    PairsEnd count ((count 0).toNat < 2 ^ 32) ∧
      out = grid (List.range (count 0).toNat) (List.range (count 1).toNat)
        (List.range (count 2).toNat)
        fun g0 g1 g2 => [f (UInt32.ofNat g0) (UInt32.ofNat g1) (UInt32.ofNat g2)] := by
  obtain ⟨hend, F, hF, rfl⟩ := forGroups_inv True h fun _ _ => trivial
  refine ⟨hend.mono And.left, ?_⟩
  refine List.flatMap_congr fun g2 h2 => List.flatMap_congr fun g1 h1 =>
    List.flatMap_congr fun g0 h0 => ?_
  exact (Except.ok.inj (hF g0 (List.mem_range.mp h0) g1 (List.mem_range.mp h1) g2
    (List.mem_range.mp h2))).symm

theorem forGroups_ok (inner : Prop)
    (hend : PairsEnd count ((count 0).toNat < 2 ^ 32 ∧ inner)) (hfuel : 2 ^ 32 ≤ fuel)
    (hbody : inner → ∀ g0 g1 g2, ∃ out, body₃ g0 g1 g2 = .ok out) :
    ∃ out, forGroups count fuel body₃ = .ok out := by
  refine forPairs_ok hend hfuel fun hinner g1 g2 => ?_
  choose f hf using fun k => hbody hinner.2 (UInt32.ofNat k) g1 g2
  exact ⟨_, narrowFor_iff.mpr ⟨hinner.1, by omega, f, fun k _ => hf k, rfl⟩⟩

end Loops

/-! ## Work-groups are tiles -/

/-- The point of the range with these indices, as its global id. -/
def pointAt (offset : RangeT) (i0 i1 i2 : Nat) : List RangeT :=
  [fun d => UInt64.ofNat ((![i0, i1, i2] : Fin 3 → Nat) d) + offset d]

/-- The indices of a work-group in one dimension. -/
def tile (size g : Nat) : List Nat := (List.range size).map (size * g + ·)

theorem tile_one (g : Nat) : tile 1 g = [g] := by
  show [1 * g + 0] = [g]
  rw [Nat.one_mul, Nat.add_zero]

theorem globalIds_eq (ndr : NDRDesc) :
    ndr.globalIds = grid (List.range (ndr.GlobalSize 0).toNat)
      (List.range (ndr.GlobalSize 1).toNat) (List.range (ndr.GlobalSize 2).toNat)
      (pointAt ndr.GlobalOffset) := rfl

/-- Counters that were cut off nowhere. -/
theorem counters_apply {g0 g1 g2 : Nat} (h0 : g0 < 2 ^ 32) (h1 : g1 < 2 ^ 32) (h2 : g2 < 2 ^ 32)
    (d : Fin 3) :
    counters (UInt32.ofNat g0) (UInt32.ofNat g1) (UInt32.ofNat g2) d =
      UInt64.ofNat ((![g0, g1, g2] : Fin 3 → Nat) d) := by
  have hwide : ∀ {g : Nat}, g < 2 ^ 32 → (UInt32.ofNat g).toUInt64 = UInt64.ofNat g := by
    intro g hg
    apply UInt64.toNat_inj.mp
    rw [UInt32.toNat_toUInt64, UInt32.toNat_ofNat', UInt64.toNat_ofNat']
    omega
  fin_cases d
  · exact hwide h0
  · exact hwide h1
  · exact hwide h2

/-- An item's global id from the numbers of its group and of itself. -/
theorem point_eq (size g l off : UInt64) (gn ln : Nat) (hg : g = UInt64.ofNat gn)
    (hl : l = UInt64.ofNat ln) :
    size * g + l + off = UInt64.ofNat (size.toNat * gn + ln) + off := by
  subst hg hl
  rw [UInt64.ofNat_add, UInt64.ofNat_mul, UInt64.ofNat_toNat]

/-- The tiled grid that a work-group's items are. -/
theorem grid_tile (size : RangeT) (g0 g1 g2 : Nat) (offset : RangeT) :
    grid (tile (size 0).toNat g0) (tile (size 1).toNat g1) (tile (size 2).toNat g2)
        (pointAt offset) =
      grid (List.range (size 0).toNat) (List.range (size 1).toNat) (List.range (size 2).toNat)
        fun l0 l1 l2 => pointAt offset ((size 0).toNat * g0 + l0) ((size 1).toNat * g1 + l1)
          ((size 2).toNat * g2 + l2) := by
  unfold grid tile
  simp [List.flatMap_map]

variable {g0 g1 g2 : Nat} {state : State}

/-- **A work-group is a tile of the range.** -/
theorem items_group (h0 : g0 < 2 ^ 32) (h1 : g1 < 2 ^ 32) (h2 : g2 < 2 ^ 32) :
    (state.updateGroup (counters (UInt32.ofNat g0) (UInt32.ofNat g1) (UInt32.ofNat g2))).items
        true =
      grid (tile (state.MWorkGroup_size 0).toNat g0) (tile (state.MWorkGroup_size 1).toNat g1)
        (tile (state.MWorkGroup_size 2).toNat g2) (pointAt state.MGlobalOffset) := by
  rw [grid_tile]
  refine List.flatMap_congr fun l2 _ => List.flatMap_congr fun l1 _ =>
    List.flatMap_congr fun l0 _ => ?_
  refine congrArg (fun id => [id]) (funext fun d => ?_)
  have hg := counters_apply h0 h1 h2 d
  have hid := point_eq (state.MWorkGroup_size d) _ _ (state.MGlobalOffset d) _ _ hg
    (rfl : UInt64.ofNat ((![l0, l1, l2] : Fin 3 → Nat) d) = _)
  refine hid.trans ?_
  fin_cases d
  · rfl
  · rfl
  · rfl

/-- The items of a group one by one. -/
theorem items_single (h0 : g0 < 2 ^ 32) (h1 : g1 < 2 ^ 32) (h2 : g2 < 2 ^ 32) {l0 l1 l2 : Nat}
    (k0 : l0 < 2 ^ 32) (k1 : l1 < 2 ^ 32) (k2 : l2 < 2 ^ 32) :
    (state.updateItem (counters (UInt32.ofNat g0) (UInt32.ofNat g1) (UInt32.ofNat g2))
        (counters (UInt32.ofNat l0) (UInt32.ofNat l1) (UInt32.ofNat l2))).items false =
      pointAt state.MGlobalOffset ((state.MWorkGroup_size 0).toNat * g0 + l0)
        ((state.MWorkGroup_size 1).toNat * g1 + l1)
        ((state.MWorkGroup_size 2).toNat * g2 + l2) := by
  refine congrArg (fun id => [id]) (funext fun d => ?_)
  have hg := counters_apply h0 h1 h2 d
  have hl := counters_apply k0 k1 k2 d
  have hid := point_eq (state.MWorkGroup_size d) _ _ (state.MGlobalOffset d) _ _ hg hl
  refine hid.trans ?_
  fin_cases d
  · rfl
  · rfl
  · rfl

/-- The tiles of all work-groups make up the range. -/
theorem tiles_globalIds {ndr : NDRDesc} (hfit : ndr.SizesFit) :
    (grid (List.range (ndr.numWG 0).toNat) (List.range (ndr.numWG 1).toNat)
      (List.range (ndr.numWG 2).toNat) fun g0 g1 g2 =>
        grid (tile (ndr.LocalSize 0).toNat g0) (tile (ndr.LocalSize 1).toNat g1)
          (tile (ndr.LocalSize 2).toNat g2) (pointAt ndr.GlobalOffset)).Perm ndr.globalIds := by
  have hrange : ∀ d, (List.range (ndr.numWG d).toNat).flatMap (tile (ndr.LocalSize d).toNat) =
      List.range (ndr.GlobalSize d).toNat := by
    intro d
    have hdiv : (ndr.numWG d).toNat * (ndr.LocalSize d).toNat = (ndr.GlobalSize d).toNat := by
      show (ndr.GlobalSize d / ndr.LocalSize d).toNat * _ = _
      exact Nat.div_mul_cancel (Nat.dvd_of_mod_eq_zero (hfit d).2)
    rw [← hdiv]
    exact range_tiles _ _
  have htiles := grid_tiles (List.range (ndr.numWG 0).toNat) (List.range (ndr.numWG 1).toNat)
    (List.range (ndr.numWG 2).toNat) (tile (ndr.LocalSize 0).toNat)
    (tile (ndr.LocalSize 1).toNat) (tile (ndr.LocalSize 2).toNat) (pointAt ndr.GlobalOffset)
  rwa [hrange, hrange, hrange] at htiles

/-! ## The four ways -/

theorem executed_flatMap {ι : Type} (ock : Bool) (l : List ι) (f : ι → List Job) :
    executed ock (l.flatMap f) = l.flatMap fun a => executed ock (f a) := by
  unfold executed
  simp [List.flatMap_assoc]

theorem scheduleTask_iff {numThreads : UInt64} {calls : Except Stop (List State)}
    {jobs : List Job} :
    scheduleTask numThreads calls = .ok jobs ↔
      numThreads ≠ 0 ∧ ∃ cs, calls = .ok cs ∧ jobs = [.task cs] := by
  unfold scheduleTask
  split
  next h0 =>
    constructor
    · intro h
      cases h
    · rintro ⟨hne, -⟩
      exact absurd h0 hne
  next hne =>
    cases calls with
    | error stop =>
      constructor
      · intro h
        cases h
      · rintro ⟨-, cs, h, -⟩
        cases h
    | ok cs =>
      constructor
      · intro h
        exact ⟨hne, cs, rfl, (Except.ok.inj h).symm⟩
      · rintro ⟨-, cs', h, rfl⟩
        obtain rfl := Except.ok.inj h
        rfl

/-- The call for a work-group. -/
def groupCall (state : State) (g0 g1 g2 : Nat) : State :=
  state.updateGroup (counters (UInt32.ofNat g0) (UInt32.ofNat g1) (UInt32.ofNat g2))

/-- The grid of the tiles that the work-groups of `state` are. -/
def tiles (state : State) (numWG : RangeT) : List RangeT :=
  grid (List.range (numWG 0).toNat) (List.range (numWG 1).toNat) (List.range (numWG 2).toNat)
    fun g0 g1 g2 => grid (tile (state.MWorkGroup_size 0).toNat g0)
      (tile (state.MWorkGroup_size 1).toNat g1) (tile (state.MWorkGroup_size 2).toNat g2)
      (pointAt state.MGlobalOffset)

section Ways

variable {numWG : RangeT} {numThreads : UInt64} {fuel : Nat} {jobs : List Job} {ndr : NDRDesc}

/-- The calls for all work-groups run their tiles. -/
theorem items_groups (hend : PairsEnd numWG ((numWG 0).toNat < 2 ^ 32)) :
    (grid (List.range (numWG 0).toNat) (List.range (numWG 1).toNat)
      (List.range (numWG 2).toNat) fun g0 g1 g2 => (groupCall state g0 g1 g2).items true) =
      tiles state numWG := by
  refine List.flatMap_congr fun g2 h2 => List.flatMap_congr fun g1 h1 =>
    List.flatMap_congr fun g0 h0 => ?_
  obtain ⟨hlt1, hlt2, hlt0⟩ := hend.lt (List.mem_range.mp h1) (List.mem_range.mp h2)
  have := List.mem_range.mp h0
  exact items_group (by omega) hlt1 hlt2

theorem launchOuter_inv (h : launchOuter state numWG numThreads fuel = .ok jobs) :
    PairsEnd numWG (numThreads ≠ 0 ∧ (numWG 0).toNat < 2 ^ 32) ∧
      executed true jobs = tiles state numWG := by
  obtain ⟨hend, f, hf, rfl⟩ :=
    forPairs_inv (numThreads ≠ 0 ∧ (numWG 0).toNat < 2 ^ 32) h fun out hout => by
      obtain ⟨hne, cs, hcs, -⟩ := scheduleTask_iff.mp hout
      exact ⟨hne, (narrowFor_pure.mp hcs).1⟩
  refine ⟨hend, ?_⟩
  rw [← items_groups (hend.mono And.right), executed_flatMap]
  refine List.flatMap_congr fun g2 h2 => ?_
  rw [executed_flatMap]
  refine List.flatMap_congr fun g1 h1 => ?_
  obtain ⟨-, cs, hcs, hjobs⟩ :=
    scheduleTask_iff.mp (hf g1 (List.mem_range.mp h1) g2 (List.mem_range.mp h2))
  obtain ⟨-, -, rfl⟩ := narrowFor_pure.mp hcs
  rw [hjobs]
  unfold executed Job.calls groupCall
  simp [List.flatMap_assoc]

theorem launchOuter_ok (hend : PairsEnd numWG (numThreads ≠ 0 ∧ (numWG 0).toNat < 2 ^ 32))
    (hfuel : 2 ^ 32 ≤ fuel) : ∃ jobs, launchOuter state numWG numThreads fuel = .ok jobs :=
  forPairs_ok hend hfuel fun hinner _ _ => ⟨_, scheduleTask_iff.mpr
    ⟨hinner.1, _, narrowFor_pure.mpr ⟨hinner.2, by omega, rfl⟩, rfl⟩⟩

/-! ### Groups of work-groups -/

variable {groups : List State}

theorem groupAt_iff {index : UInt64} {out : List State} : groupAt groups index = .ok out ↔
      index.toNat < groups.length ∧ out = groups[index.toNat]?.toList := by
  unfold groupAt
  cases hget : groups[index.toNat]? with
  | none =>
    have hlen := List.getElem?_eq_none_iff.mp hget
    constructor
    · intro h
      cases h
    · rintro ⟨hlt, -⟩
      omega
  | some call =>
    obtain ⟨hlt, -⟩ := List.getElem?_eq_some_iff.mp hget
    constructor
    · intro h
      exact ⟨hlt, (Except.ok.inj h).symm⟩
    · rintro ⟨-, rfl⟩
      rfl

/-- The groups of a task, from `base` on. -/
theorem narrowFor_groupAt {base bound : UInt64} {out : List State}
    (hin : base.toNat + bound.toNat ≤ groups.length) (hlen : groups.length < 2 ^ 64) :
    narrowFor (fun i => groupAt groups (base + i.toUInt64)) bound fuel = .ok out ↔
      bound.toNat < 2 ^ 32 ∧ bound.toNat < fuel ∧
        out = (List.range bound.toNat).flatMap fun i => groups[base.toNat + i]?.toList := by
  have hidx : ∀ {i : Nat}, i < bound.toNat → bound.toNat < 2 ^ 32 →
      (base + (UInt32.ofNat i).toUInt64).toNat = base.toNat + i := by
    intro i hi hb
    rw [UInt64.toNat_add, UInt32.toNat_toUInt64, UInt32.toNat_ofNat']
    omega
  rw [narrowFor_iff]
  constructor
  · rintro ⟨hbound, hfuel, f, hf, rfl⟩
    refine ⟨hbound, hfuel, List.flatMap_congr fun i hi => ?_⟩
    have hlt := List.mem_range.mp hi
    rw [(groupAt_iff.mp (hf i hlt)).2, hidx hlt hbound]
  · rintro ⟨hbound, hfuel, rfl⟩
    refine ⟨hbound, hfuel, _, fun i hi => groupAt_iff.mpr ⟨?_, ?_⟩, rfl⟩
    · rw [hidx hi hbound]
      omega
    · rw [hidx hi hbound]

/-- What is known of the groups before they are dealt out. -/
structure Dealt (groups : List State) (numThreads : UInt64) : Prop where
  len : groups.length < 2 ^ 64
  each : groups.length / numThreads.toNat < 2 ^ 32
  threads : 0 < numThreads.toNat

/-- As many groups for every thread as come out even, and the rest. -/
theorem Dealt.split (h : Dealt groups numThreads) :
    (UInt64.ofNat groups.length / numThreads).toNat = groups.length / numThreads.toNat ∧
      (UInt64.ofNat groups.length % numThreads).toNat = groups.length % numThreads.toNat := by
  have hlen := h.len
  rw [UInt64.toNat_div, UInt64.toNat_mod, UInt64.toNat_ofNat', Nat.mod_eq_of_lt hlen]
  exact ⟨rfl, rfl⟩

/-- The first group of a thread. -/
theorem Dealt.base (h : Dealt groups numThreads) {thread : Nat}
    (ht : thread ≤ numThreads.toNat) (t : UInt64) (htoNat : t.toNat = thread) :
    (t * (UInt64.ofNat groups.length / numThreads)).toNat =
        thread * (groups.length / numThreads.toNat) ∧
      thread * (groups.length / numThreads.toNat) ≤ groups.length := by
  have hdiv := Nat.div_mul_le_self groups.length numThreads.toNat
  have hle : thread * (groups.length / numThreads.toNat) ≤
      numThreads.toNat * (groups.length / numThreads.toNat) := Nat.mul_le_mul_right _ ht
  rw [Nat.mul_comm numThreads.toNat] at hle
  have hlen := h.len
  rw [UInt64.toNat_mul, h.split.1, htoNat]
  exact ⟨Nat.mod_eq_of_lt (by omega), by omega⟩

/-- A thread's groups lie in the list. -/
theorem Dealt.fits (h : Dealt groups numThreads) {thread : Nat}
    (ht : thread < numThreads.toNat) (t : UInt64) (htoNat : t.toNat = thread) :
    (t * (UInt64.ofNat groups.length / numThreads)).toNat +
      (UInt64.ofNat groups.length / numThreads).toNat ≤ groups.length := by
  have hnext := (h.base (Nat.succ_le_of_lt ht) (UInt64.ofNat (thread + 1)) (by
    have := numThreads.toNat_lt
    rw [UInt64.toNat_ofNat']
    omega)).2
  rw [Nat.succ_mul] at hnext
  rw [(h.base (Nat.le_of_lt ht) t htoNat).1, h.split.1]
  exact hnext

/-- The rest lies in the list, and behind it there is nothing. -/
theorem Dealt.rest (h : Dealt groups numThreads) :
    (numThreads * (UInt64.ofNat groups.length / numThreads)).toNat +
      (UInt64.ofNat groups.length % numThreads).toNat = groups.length := by
  rw [(h.base (Nat.le_refl _) numThreads rfl).1, h.split.2]
  exact Nat.div_add_mod _ _

theorem toUInt64_ofNat {i : Nat} (hi : i < 2 ^ 32) : (UInt32.ofNat i).toUInt64.toNat = i := by
  exact Nat.mod_eq_of_lt hi

/-- A thread's task. -/
theorem Dealt.task_iff (h : Dealt groups numThreads) {thread : Nat}
    (ht : thread < numThreads.toNat) (hsmall : numThreads.toNat < 2 ^ 32) :
    scheduleTask numThreads (narrowFor (fun i => groupAt groups
        ((UInt32.ofNat thread).toUInt64 * (UInt64.ofNat groups.length / numThreads) + i.toUInt64))
        (UInt64.ofNat groups.length / numThreads) fuel) = .ok jobs ↔
      groups.length / numThreads.toNat < fuel ∧
        jobs = [.task ((List.range (groups.length / numThreads.toNat)).flatMap fun i =>
          groups[groups.length / numThreads.toNat * thread + i]?.toList)] := by
  have htoNat : (UInt32.ofNat thread).toUInt64.toNat = thread := toUInt64_ofNat (by omega)
  have hbase := (h.base (Nat.le_of_lt ht) _ htoNat).1
  have hne : numThreads ≠ 0 := by
    rintro rfl
    exact absurd ht (Nat.not_lt_zero thread)
  rw [scheduleTask_iff]
  constructor
  · rintro ⟨-, cs, hcs, rfl⟩
    obtain ⟨-, hfuel, rfl⟩ := (narrowFor_groupAt (h.fits ht _ htoNat) h.len).mp hcs
    rw [h.split.1] at hfuel
    refine ⟨hfuel, ?_⟩
    rw [h.split.1, hbase, Nat.mul_comm thread]
  · rintro ⟨hfuel, rfl⟩
    refine ⟨hne, _, (narrowFor_groupAt (h.fits ht _ htoNat) h.len).mpr ⟨?_, ?_, rfl⟩, ?_⟩
    · rw [h.split.1]
      exact h.each
    · rw [h.split.1]
      exact hfuel
    · rw [h.split.1, hbase, Nat.mul_comm thread]

/-- The task for the rest. -/
theorem Dealt.last_iff (h : Dealt groups numThreads) (hsmall : numThreads.toNat < 2 ^ 32) :
    scheduleTask numThreads (narrowFor (fun i => groupAt groups
        (numThreads * (UInt64.ofNat groups.length / numThreads) + i.toUInt64))
        (UInt64.ofNat groups.length % numThreads) fuel) = .ok jobs ↔
      groups.length % numThreads.toNat < fuel ∧
        jobs = [.task ((List.range (groups.length % numThreads.toNat)).flatMap fun i =>
          groups[numThreads.toNat * (groups.length / numThreads.toNat) + i]?.toList)] := by
  have hbase := (h.base (Nat.le_refl _) numThreads rfl).1
  have hrest := Nat.le_of_eq h.rest
  have hne : numThreads ≠ 0 := by
    rintro rfl
    exact absurd h.threads (Nat.lt_irrefl 0)
  rw [scheduleTask_iff]
  constructor
  · rintro ⟨-, cs, hcs, rfl⟩
    obtain ⟨-, hfuel, rfl⟩ := (narrowFor_groupAt hrest h.len).mp hcs
    rw [h.split.2] at hfuel
    refine ⟨hfuel, ?_⟩
    rw [h.split.2, hbase]
  · rintro ⟨hfuel, rfl⟩
    refine ⟨hne, _, (narrowFor_groupAt hrest h.len).mpr ⟨?_, ?_, rfl⟩, ?_⟩
    · rw [h.split.2]
      have := Nat.mod_lt groups.length h.threads
      omega
    · rw [h.split.2]
      exact hfuel
    · rw [h.split.2, hbase]

/-- The loop over the threads has to end. -/
theorem dealGroups_threads
    (h : dealGroups groups numThreads fuel = .ok jobs) : numThreads.toNat < 2 ^ 32 := by
  unfold dealGroups at h
  split at h
  next => cases h
  next =>
    obtain ⟨tasks, htasks, -⟩ := except_bind_ok h
    exact (narrowFor_iff.mp htasks).1

/-- **The groups are dealt out**, in their order. -/
theorem dealGroups_calls (hdealt : Dealt groups numThreads)
    (h : dealGroups groups numThreads fuel = .ok jobs) : jobs.flatMap Job.calls = groups := by
  have hne : numThreads ≠ 0 := by
    rintro rfl
    exact absurd hdealt.threads (Nat.lt_irrefl 0)
  unfold dealGroups at h
  rw [if_neg hne] at h
  obtain ⟨tasks, htasks, h⟩ := except_bind_ok h
  obtain ⟨hsmall, -, f, hf, rfl⟩ := narrowFor_iff.mp htasks
  have hcalls : ((List.range numThreads.toNat).flatMap f).flatMap Job.calls =
      (List.range numThreads.toNat).flatMap fun thread =>
        (List.range (groups.length / numThreads.toNat)).flatMap fun i =>
          groups[groups.length / numThreads.toNat * thread + i]?.toList := by
    rw [List.flatMap_assoc]
    refine List.flatMap_congr fun thread ht => ?_
    rw [((hdealt.task_iff (List.mem_range.mp ht) hsmall).mp (hf thread (List.mem_range.mp ht))).2]
    exact List.append_nil _
  have hlength : groups.length = numThreads.toNat * (groups.length / numThreads.toNat) +
      groups.length % numThreads.toNat := (Nat.div_add_mod _ _).symm
  have hall := entries_tiles groups hlength
  split at h
  next hrem =>
    obtain rfl := Except.ok.inj h
    have hzero : groups.length % numThreads.toNat = 0 := by
      rw [← hdealt.split.2, hrem]
      rfl
    rw [hzero] at hall
    rw [hcalls]
    exact (List.append_nil _).symm.trans hall
  next =>
    obtain ⟨last, hlast, h⟩ := except_bind_ok h
    obtain rfl := Except.ok.inj h
    rw [List.flatMap_append, hcalls, ((hdealt.last_iff hsmall).mp hlast).2]
    exact (congrArg (_ ++ ·) (List.append_nil _)).trans hall

theorem dealGroups_ok (hdealt : Dealt groups numThreads)
    (hsmall : numThreads.toNat < 2 ^ 32) (hfuel : 2 ^ 32 ≤ fuel) :
    ∃ jobs, dealGroups groups numThreads fuel = .ok jobs := by
  have hne : numThreads ≠ 0 := by
    rintro rfl
    exact absurd hdealt.threads (Nat.lt_irrefl 0)
  have heach := hdealt.each
  have hmod := Nat.mod_lt groups.length hdealt.threads
  unfold dealGroups
  rw [if_neg hne]
  dsimp only
  rw [narrowFor_iff.mpr ⟨hsmall, by omega, _, fun thread ht =>
    (hdealt.task_iff ht hsmall).mpr ⟨by omega, rfl⟩, rfl⟩]
  split
  next => exact ⟨_, rfl⟩
  next =>
    rw [(hdealt.last_iff hsmall).mpr ⟨by omega, rfl⟩]
    exact ⟨_, rfl⟩

/-- The work-groups that are listed where dimensions 1 and 2 have too few for all threads. -/
theorem dealt_groups (hend : PairsEnd numWG ((numWG 0).toNat < 2 ^ 32))
    (hfew : ¬ numThreads ≤ numWG 1 * numWG 2) (hsmall : numThreads.toNat < 2 ^ 32)
    (hlen : groups.length = (numWG 2).toNat * ((numWG 1).toNat * (numWG 0).toNat)) :
    Dealt groups numThreads := by
  have hlt : (numWG 1).toNat * (numWG 2).toNat % 2 ^ 64 < numThreads.toNat := by
    exact UInt64.not_le.mp hfew
  have hpos : 0 < numThreads.toNat := by omega
  by_cases hzero : numWG 2 = 0 ∨ numWG 1 = 0
  · have hnil : groups.length = 0 := by
      rw [hlen]
      rcases hzero with h0 | h0
      · rw [h0]
        exact Nat.zero_mul _
      · rw [h0]
        exact (congrArg ((numWG 2).toNat * ·) (Nat.zero_mul _)).trans (Nat.mul_zero _)
    refine ⟨by omega, ?_, hpos⟩
    rw [hnil, Nat.zero_div]
    decide
  · -- the product of the two counts does not wrap
    rw [not_or] at hzero
    obtain ⟨h2, hrest⟩ := hend
    obtain ⟨h1, h0⟩ := hrest hzero.1
    have h0 := h0 hzero.2
    have hprod : (numWG 1).toNat * (numWG 2).toNat < 2 ^ 32 * 2 ^ 32 :=
      Nat.mul_lt_mul'' h1 h2
    rw [Nat.mod_eq_of_lt (by omega)] at hlt
    have hlen' : groups.length = (numWG 0).toNat * ((numWG 1).toNat * (numWG 2).toNat) := by
      rw [hlen, Nat.mul_comm (numWG 1).toNat (numWG 0).toNat, Nat.mul_left_comm,
        Nat.mul_comm (numWG 2).toNat]
    have hle : groups.length ≤ (numWG 0).toNat * numThreads.toNat := by
      rw [hlen']
      exact Nat.mul_le_mul_left _ (Nat.le_of_lt hlt)
    refine ⟨?_, ?_, hpos⟩
    · have hmul := Nat.mul_lt_mul'' h0 hsmall
      omega
    · have hdiv := Nat.div_le_div_right (c := numThreads.toNat) hle
      rw [Nat.mul_div_cancel _ hpos] at hdiv
      omega

/-- The list of the calls for all work-groups. -/
def groupCalls (state : State) (numWG : RangeT) : List State :=
  grid (List.range (numWG 0).toNat) (List.range (numWG 1).toNat) (List.range (numWG 2).toNat)
    fun g0 g1 g2 => [groupCall state g0 g1 g2]

theorem groupCalls_length :
    (groupCalls state numWG).length = (numWG 2).toNat * ((numWG 1).toNat * (numWG 0).toNat) := by
  unfold groupCalls
  rw [grid_length, List.length_range, List.length_range, List.length_range]

theorem items_groupCalls (hend : PairsEnd numWG ((numWG 0).toNat < 2 ^ 32)) :
    (groupCalls state numWG).flatMap (State.items true) = tiles state numWG := by
  unfold groupCalls
  rw [← items_groups hend, grid_flatMap]
  simp

theorem launchGrouped_inv (hfew : ¬ numThreads ≤ numWG 1 * numWG 2)
    (h : launchGrouped state numWG numThreads fuel = .ok jobs) :
    (PairsEnd numWG ((numWG 0).toNat < 2 ^ 32) ∧ numThreads.toNat < 2 ^ 32) ∧
      executed true jobs = tiles state numWG := by
  obtain ⟨groups, hgroups, h⟩ := except_bind_ok h
  obtain ⟨hend, hlist⟩ := forGroups_pure hgroups
  obtain rfl : groups = groupCalls state numWG := hlist
  have hsmall := dealGroups_threads h
  refine ⟨⟨hend, hsmall⟩, ?_⟩
  unfold executed
  rw [dealGroups_calls (dealt_groups hend hfew hsmall groupCalls_length) h, items_groupCalls hend]

theorem launchGrouped_ok (hend : PairsEnd numWG ((numWG 0).toNat < 2 ^ 32))
    (hfew : ¬ numThreads ≤ numWG 1 * numWG 2) (hsmall : numThreads.toNat < 2 ^ 32)
    (hfuel : 2 ^ 32 ≤ fuel) : ∃ jobs, launchGrouped state numWG numThreads fuel = .ok jobs := by
  obtain ⟨groups, hgroups⟩ : ∃ groups, forGroups numWG fuel
      (fun g0 g1 g2 => .ok [state.updateGroup (counters g0 g1 g2)]) = .ok groups :=
    forGroups_ok True (hend.mono fun h0 => ⟨h0, trivial⟩) hfuel fun _ _ _ _ => ⟨_, rfl⟩
  obtain rfl : groups = groupCalls state numWG := (forGroups_pure hgroups).2
  obtain ⟨jobs, hjobs⟩ :=
    dealGroups_ok (dealt_groups hend hfew hsmall groupCalls_length) hsmall hfuel
  refine ⟨jobs, ?_⟩
  unfold launchGrouped
  rw [hgroups]
  exact hjobs

/-! ### Resized groups -/

theorem State.new_ok (globalR globalO : RangeT) {localR : RangeT} (h : ∀ d, localR d ≠ 0) :
    ∃ s, State.new globalR localR globalO = .ok s ∧ s.MWorkGroup_size = localR ∧
      s.MGlobalOffset = globalO := by
  unfold State.new
  rw [if_neg fun ⟨d, hd⟩ => h d hd]
  exact ⟨_, rfl, rfl, rfl⟩

theorem State.new_inv {globalR localR globalO : RangeT} {s : State}
    (h : State.new globalR localR globalO = .ok s) :
    (∀ d, localR d ≠ 0) ∧ s.MWorkGroup_size = localR ∧ s.MGlobalOffset = globalO := by
  unfold State.new at h
  split at h
  next => cases h
  next hne =>
    obtain rfl := Except.ok.inj h
    exact ⟨fun d hd => hne ⟨d, hd⟩, rfl, rfl⟩

/-- Groups of one item outside of dimension 0 are the row's points. -/
theorem items_row (h0 : g0 < 2 ^ 32) (h1 : g1 < 2 ^ 32) (h2 : g2 < 2 ^ 32)
    (hsize1 : state.MWorkGroup_size 1 = 1) (hsize2 : state.MWorkGroup_size 2 = 1) :
    (groupCall state g0 g1 g2).items true =
      (tile (state.MWorkGroup_size 0).toNat g0).flatMap fun i =>
        pointAt state.MGlobalOffset i g1 g2 := by
  have hitems := @items_group g0 g1 g2 state h0 h1 h2
  rw [hsize1, hsize2] at hitems
  have hone : (1 : UInt64).toNat = 1 := rfl
  rw [hone, tile_one, tile_one] at hitems
  refine hitems.trans ?_
  unfold grid
  simp

/-- A launch whose groups are resized. -/
structure Resizable (ndr : NDRDesc) (state : State) (numThreads : UInt64) : Prop where
  localSize : ∀ d, ndr.LocalSize d = 1
  threads : numThreads ≠ 0
  many : numThreads < ndr.GlobalSize 0
  size : state.MWorkGroup_size = ndr.LocalSize
  offset : state.MGlobalOffset = ndr.GlobalOffset

section
variable (h : Resizable ndr state numThreads)

include h

theorem Resizable.numWG_eq (d : Fin 3) :
    ndr.numWG d = ndr.GlobalSize d := by
  apply UInt64.toNat_inj.mp
  show (ndr.GlobalSize d / ndr.LocalSize d).toNat = _
  rw [h.localSize]
  exact Nat.div_one _

/-- The items that the threads take. -/
theorem Resizable.taken :
    0 < (ndr.GlobalSize 0 / numThreads).toNat ∧
      numThreads.toNat * (ndr.GlobalSize 0 / numThreads).toNat ≤ (ndr.GlobalSize 0).toNat ∧
      (numThreads * (ndr.GlobalSize 0 / numThreads)).toNat =
        numThreads.toNat * (ndr.GlobalSize 0 / numThreads).toNat := by
  have hpos : 0 < numThreads.toNat :=
    Nat.pos_of_ne_zero fun h0 => h.threads (UInt64.toNat_inj.mp h0)
  have hlt := UInt64.lt_iff_toNat_lt.mp h.many
  have hglobal := (ndr.GlobalSize 0).toNat_lt
  have hle : numThreads.toNat * (ndr.GlobalSize 0 / numThreads).toNat ≤
      (ndr.GlobalSize 0).toNat := by
    exact Nat.mul_div_le _ _
  refine ⟨?_, hle, ?_⟩
  · exact Nat.div_pos (Nat.le_of_lt hlt) hpos
  · rw [UInt64.toNat_mul]
    exact Nat.mod_eq_of_lt (by omega)

/-- The state of the resized groups. -/
theorem Resizable.resized :
    ∃ r, getResizedState ndr (ndr.GlobalSize 0 / numThreads) = .ok r ∧
      r.MWorkGroup_size 0 = ndr.GlobalSize 0 / numThreads ∧ r.MWorkGroup_size 1 = 1 ∧
      r.MWorkGroup_size 2 = 1 ∧ r.MGlobalOffset = ndr.GlobalOffset := by
  have hone : (1 : UInt64) ≠ 0 := by decide
  have hne : ∀ d, (![ndr.GlobalSize 0 / numThreads, ndr.LocalSize 1, ndr.LocalSize 2] :
      RangeT) d ≠ 0 := by
    intro d
    rw [h.localSize, h.localSize]
    fin_cases d
    · intro h0
      have hpos := h.taken.1
      rw [show ndr.GlobalSize 0 / numThreads = 0 from h0] at hpos
      exact absurd hpos (Nat.lt_irrefl 0)
    · exact hone
    · exact hone
  obtain ⟨r, hr, hsize, hoff⟩ := State.new_ok ndr.GlobalSize ndr.GlobalOffset hne
  refine ⟨r, hr, ?_, ?_, ?_, hoff⟩
  · rw [hsize]
    rfl
  · rw [hsize]
    exact h.localSize 1
  · rw [hsize]
    exact h.localSize 2

/-- The tasks of a row take the items from the front. -/
theorem Resizable.executed_tasks (hsmall : numThreads.toNat < 2 ^ 32) (h1 : g1 < 2 ^ 32) (h2 : g2 < 2 ^ 32)
    (htasks : narrowFor (fun g0 => scheduleTask numThreads <|
      (getResizedState ndr (ndr.GlobalSize 0 / numThreads)).map fun resized =>
        [resized.updateGroup (counters g0 (UInt32.ofNat g1) (UInt32.ofNat g2))])
      numThreads fuel = .ok jobs) :
    executed true jobs = ((List.range numThreads.toNat).flatMap
      (tile (ndr.GlobalSize 0 / numThreads).toNat)).flatMap fun i =>
        pointAt ndr.GlobalOffset i g1 g2 := by
  obtain ⟨r, hr, hsize0, hsize1, hsize2, hoff⟩ := h.resized
  obtain ⟨-, -, f, hf, rfl⟩ := narrowFor_iff.mp htasks
  rw [executed_flatMap, List.flatMap_assoc]
  refine List.flatMap_congr fun g0 hg0 => ?_
  have hlt := List.mem_range.mp hg0
  obtain ⟨-, cs, hcs, hjobs⟩ := scheduleTask_iff.mp (hf g0 hlt)
  rw [hr] at hcs
  obtain rfl := Except.ok.inj hcs
  have hrow := @items_row g0 g1 g2 r (by omega) h1 h2 hsize1 hsize2
  rw [hsize0, hoff] at hrow
  rw [hjobs, ← hrow]
  unfold executed Job.calls groupCall
  simp

/-- Where the peeling starts. -/
theorem Resizable.start_le :
    (numThreads * (ndr.GlobalSize 0 / numThreads)).toUInt32.toNat ≤ (ndr.GlobalSize 0).toNat := by
  have htaken := h.taken
  rw [UInt64.toNat_toUInt32, htaken.2.2]
  exact Nat.le_trans (Nat.mod_le _ _) htaken.2.1

theorem Resizable.start_eq (hsmall : (ndr.GlobalSize 0).toNat < 2 ^ 32) :
    (numThreads * (ndr.GlobalSize 0 / numThreads)).toUInt32.toNat =
      numThreads.toNat * (ndr.GlobalSize 0 / numThreads).toNat := by
  have htaken := h.taken
  rw [UInt64.toNat_toUInt32, htaken.2.2]
  exact Nat.mod_eq_of_lt (by omega)

/-- The items of a row that are peeled off are those behind what the tasks take. -/
theorem Resizable.executed_peeled (h1 : g1 < 2 ^ 32)
    (h2 : g2 < 2 ^ 32)
    (hpeeled : narrowLoop (fun g0 => .ok [Job.inline (state.updateGroup
      (counters g0 (UInt32.ofNat g1) (UInt32.ofNat g2)))]) 1 (ndr.GlobalSize 0) fuel
      (numThreads * (ndr.GlobalSize 0 / numThreads)).toUInt32 = .ok jobs) :
    (ndr.GlobalSize 0).toNat < 2 ^ 32 ∧
      executed true jobs = ((List.range ((ndr.GlobalSize 0).toNat -
          numThreads.toNat * (ndr.GlobalSize 0 / numThreads).toNat)).map
        (numThreads.toNat * (ndr.GlobalSize 0 / numThreads).toNat + ·)).flatMap fun i =>
          pointAt ndr.GlobalOffset i g1 g2 := by
  have hle := h.start_le
  obtain ⟨hsmall, -, f, hf, rfl⟩ := (narrowLoop_hits (m := (ndr.GlobalSize 0).toNat -
    (numThreads * (ndr.GlobalSize 0 / numThreads)).toUInt32.toNat) (by decide) (by
      show (ndr.GlobalSize 0).toNat = _ + _ * 1
      omega)).mp hpeeled
  rw [h.start_eq hsmall] at hf hle ⊢
  refine ⟨hsmall, ?_⟩
  rw [executed_flatMap, List.flatMap_map]
  refine List.flatMap_congr fun k hk => ?_
  have hlt := List.mem_range.mp hk
  have hone : ∀ d, state.MWorkGroup_size d = 1 := fun d => by rw [h.size, h.localSize]
  have hcall := Except.ok.inj (hf k hlt)
  rw [show k * (1 : UInt64).toNat = k from Nat.mul_one k] at hcall
  have hrow := @items_row (numThreads.toNat * (ndr.GlobalSize 0 / numThreads).toNat + k) g1 g2
    state (by omega) h1 h2 (hone 1) (hone 2)
  rw [hone 0, show (1 : UInt64).toNat = 1 from rfl, tile_one, h.offset] at hrow
  rw [← hcall]
  unfold executed Job.calls
  simp only [List.flatMap_cons, List.flatMap_nil, List.append_nil] at hrow ⊢
  exact hrow

theorem launchResized_inv (hlaunch : launchResized ndr state ndr.numWG numThreads fuel = .ok jobs) :
    PairsEnd ndr.numWG ((ndr.numWG 0).toNat < 2 ^ 32) ∧ executed true jobs = ndr.globalIds := by
  have hlt := UInt64.lt_iff_toNat_lt.mp h.many
  unfold launchResized at hlaunch
  rw [if_neg h.threads, h.numWG_eq 0] at hlaunch
  obtain ⟨hend, f, hf, rfl⟩ := forPairs_inv ((ndr.GlobalSize 0).toNat < 2 ^ 32) hlaunch
    fun out hout => by
      obtain ⟨tasks, -, hout⟩ := except_bind_ok hout
      obtain ⟨peeled, hpeeled, -⟩ := except_bind_ok hout
      exact (h.executed_peeled (show 0 < 2 ^ 32 by decide) (show 0 < 2 ^ 32 by decide)
        hpeeled).1
  rw [h.numWG_eq 0]
  refine ⟨hend, ?_⟩
  rw [globalIds_eq, executed_flatMap, ← h.numWG_eq 1, ← h.numWG_eq 2]
  refine List.flatMap_congr fun g2 hg2 => ?_
  rw [executed_flatMap]
  refine List.flatMap_congr fun g1 hg1 => ?_
  have hg1 := List.mem_range.mp hg1
  have hg2 := List.mem_range.mp hg2
  obtain ⟨hlt1, hlt2, hsmall⟩ := hend.lt hg1 hg2
  obtain ⟨tasks, htasks, hout⟩ := except_bind_ok (hf g1 hg1 g2 hg2)
  obtain ⟨peeled, hpeeled, hout⟩ := except_bind_ok hout
  obtain hrow := Except.ok.inj hout
  rw [← hrow]
  have happend : executed true (tasks ++ peeled) = executed true tasks ++ executed true peeled := by
    unfold executed
    rw [List.flatMap_append, List.flatMap_append]
  rw [happend, h.executed_tasks (by omega) hlt1 hlt2 htasks,
    (h.executed_peeled hlt1 hlt2 hpeeled).2, ← List.flatMap_append]
  congr 1
  have hrange := range_tiles_rest numThreads.toNat (ndr.GlobalSize 0 / numThreads).toNat
    ((ndr.GlobalSize 0).toNat - numThreads.toNat * (ndr.GlobalSize 0 / numThreads).toNat)
  rw [Nat.add_sub_cancel' h.taken.2.1] at hrange
  exact hrange

theorem launchResized_ok (hend : PairsEnd ndr.numWG ((ndr.numWG 0).toNat < 2 ^ 32)) (hfuel : 2 ^ 32 ≤ fuel) :
    ∃ jobs, launchResized ndr state ndr.numWG numThreads fuel = .ok jobs := by
  have hlt := UInt64.lt_iff_toNat_lt.mp h.many
  obtain ⟨r, hr, -⟩ := h.resized
  rw [h.numWG_eq 0] at hend
  unfold launchResized
  rw [if_neg h.threads, h.numWG_eq 0]
  refine forPairs_ok hend hfuel fun hsmall g1 g2 => ?_
  have hle := h.start_le
  obtain ⟨tasks, htasks⟩ : ∃ tasks, narrowFor (fun g0 => scheduleTask numThreads <|
      (getResizedState ndr (ndr.GlobalSize 0 / numThreads)).map fun resized =>
        [resized.updateGroup (counters g0 g1 g2)]) numThreads fuel = .ok tasks :=
    ⟨_, narrowFor_iff.mpr ⟨by omega, by omega, _, fun g0 _ => scheduleTask_iff.mpr ⟨h.threads, _, by
      rw [hr]
      rfl, rfl⟩, rfl⟩⟩
  have hrounds : (ndr.GlobalSize 0).toNat =
      (numThreads * (ndr.GlobalSize 0 / numThreads)).toUInt32.toNat + ((ndr.GlobalSize 0).toNat -
        (numThreads * (ndr.GlobalSize 0 / numThreads)).toUInt32.toNat) * (1 : UInt64).toNat := by
    show (ndr.GlobalSize 0).toNat = _ + _ * 1
    omega
  obtain ⟨peeled, hpeeled⟩ : ∃ peeled, narrowLoop
      (fun g0 => .ok [Job.inline (state.updateGroup (counters g0 g1 g2))]) 1 (ndr.GlobalSize 0) fuel
        (numThreads * (ndr.GlobalSize 0 / numThreads)).toUInt32 = .ok peeled :=
    ⟨_, (narrowLoop_hits (by decide) hrounds).mpr ⟨hsmall, by omega, _, fun k _ => rfl, rfl⟩⟩
  rw [htasks, hpeeled]
  exact ⟨_, rfl⟩

/-! ### One call for every work-item -/

end

theorem executed_grid {xs ys zs : List Nat} (ock : Bool) (f : Nat → Nat → Nat → List Job) :
    executed ock (grid xs ys zs f) = grid xs ys zs fun x y z => executed ock (f x y z) := by
  unfold grid
  simp [executed_flatMap]

theorem PairsEnd.all (hne : ∀ d, numWG d ≠ 0) (h : PairsEnd numWG ((numWG 0).toNat < 2 ^ 32)) :
    ∀ d, (numWG d).toNat < 2 ^ 32 := by
  obtain ⟨h2, hrest⟩ := h
  obtain ⟨h1, hrest⟩ := hrest (hne 2)
  intro d
  fin_cases d
  · exact hrest (hne 1)
  · exact h1
  · exact h2

theorem launchSerial_inv (hsize : state.MWorkGroup_size = ndr.LocalSize)
    (hne : ∀ d, ndr.LocalSize d ≠ 0) (hne0 : numWG 0 ≠ 0)
    (h : launchSerial ndr state numWG fuel = .ok jobs) :
    PairsEnd numWG ((numWG 0).toNat < 2 ^ 32 ∧ ∀ d, (ndr.LocalSize d).toNat < 2 ^ 32) ∧
      executed false jobs = tiles state numWG := by
  obtain ⟨hend, f, hf, rfl⟩ :=
    forGroups_inv (∀ d, (ndr.LocalSize d).toNat < 2 ^ 32) h fun out hout =>
      (forGroups_pure hout).1.all hne
  have hend : PairsEnd numWG ((numWG 0).toNat < 2 ^ 32 ∧ ∀ d, (ndr.LocalSize d).toNat < 2 ^ 32) :=
    hend.mono fun hinner => ⟨hinner.1, hinner.2 hne0⟩
  refine ⟨hend, ?_⟩
  rw [executed_grid]
  refine List.flatMap_congr fun g2 hg2 => List.flatMap_congr fun g1 hg1 =>
    List.flatMap_congr fun g0 hg0 => ?_
  have hg0 := List.mem_range.mp hg0
  have hg1 := List.mem_range.mp hg1
  have hg2 := List.mem_range.mp hg2
  obtain ⟨hlt1, hlt2, hlt0, hlocal⟩ := hend.lt hg1 hg2
  dsimp only
  rw [(forGroups_pure (hf g0 hg0 g1 hg1 g2 hg2)).2, executed_grid, grid_tile, hsize]
  refine List.flatMap_congr fun l2 hl2 => List.flatMap_congr fun l1 hl1 =>
    List.flatMap_congr fun l0 hl0 => ?_
  have h0 := hlocal 0
  have h1 := hlocal 1
  have h2 := hlocal 2
  have hl0 := List.mem_range.mp hl0
  have hl1 := List.mem_range.mp hl1
  have hl2 := List.mem_range.mp hl2
  have hitem := @items_single g0 g1 g2 state (by omega) hlt1 hlt2 l0 l1 l2 (by omega) (by omega)
    (by omega)
  rw [hsize] at hitem
  refine Eq.trans ?_ hitem
  unfold executed Job.calls
  simp

theorem launchSerial_ok
    (hend : PairsEnd numWG ((numWG 0).toNat < 2 ^ 32 ∧ ∀ d, (ndr.LocalSize d).toNat < 2 ^ 32))
    (hfuel : 2 ^ 32 ≤ fuel) : ∃ jobs, launchSerial ndr state numWG fuel = .ok jobs := by
  refine forGroups_ok _ hend hfuel fun hlocal g0 g1 g2 => ?_
  refine forGroups_ok True ⟨hlocal 2, fun _ => ⟨hlocal 1, fun _ => ⟨hlocal 0, trivial⟩⟩⟩
    hfuel fun _ _ _ _ => ⟨_, rfl⟩

end Ways

/-! ## Launches -/

variable {ock : Bool} {numThreads : UInt64} {k : KernelInfo} {a : LaunchArgs} {ndr : NDRDesc}

/-- The global size in dimension 0 has been checked. -/
theorem check_global (h : a.check k = .ok ndr) : ndr.GlobalSize 0 ≠ 0 := by
  unfold LaunchArgs.check at h
  split at h
  next => cases h
  next off _ =>
    split at h
    next => cases h
    next hpos =>
      split at h
      next => cases h
      next =>
        split at h
        next => cases h
        next hne =>
          split at h
          next =>
            obtain rfl := Except.ok.inj h
            have hdim : 0 < a.workDim.toNat := UInt32.lt_iff_toNat_lt.mp (not_not.mp hpos)
            show (if (0 : Fin 3).val < a.workDim.toNat then a.pGlobalWorkSize 0 else 1) ≠ 0
            rw [if_pos (show (0 : Fin 3).val < a.workDim.toNat from hdim)]
            exact hne
          next => cases h

/-- What a launch is after the checks. -/
theorem launch_of_check (h : a.check k = .ok ndr) (fuel : Nat) :
    urEnqueueKernelLaunch ock numThreads k a fuel = .ok (ndr.launch ock numThreads k fuel) := by
  unfold urEnqueueKernelLaunch
  rw [h]
  rfl

/-- A launch that ends is right, if the sizes fit. -/
theorem launch_inv {fuel : Nat} {jobs : List Job} (hfit : ndr.SizesFit)
    (hglobal : ndr.GlobalSize 0 ≠ 0) (hlaunch : ndr.launch ock numThreads k fuel = .ok jobs) :
    ndr.Ends ock numThreads k ∧ (executed ock jobs).Perm ndr.globalIds := by
  obtain ⟨state, hstate, h⟩ := except_bind_ok hlaunch
  obtain ⟨hne, hsize, hoff⟩ := State.new_inv hstate
  -- the tiles of the groups are the range, in another order
  have htiles : (tiles state ndr.numWG).Perm ndr.globalIds := by
    unfold tiles
    rw [hsize, hoff]
    exact tiles_globalIds hfit
  have hne0 : ndr.numWG 0 ≠ 0 := by
    intro h0
    have hdvd := Nat.div_mul_cancel (Nat.dvd_of_mod_eq_zero (hfit 0).2)
    rw [← UInt64.toNat_div, show ndr.GlobalSize 0 / ndr.LocalSize 0 = 0 from h0] at hdvd
    exact hglobal (UInt64.toNat_inj.mp (hdvd.symm.trans (Nat.zero_mul _)))
  unfold NDRDesc.Ends
  unfold NDRDesc.launchFrom at h
  split at h
  next hock =>
    obtain rfl : ock = false := by simpa using hock
    obtain ⟨hend, hexec⟩ := launchSerial_inv hsize hne hne0 h
    rw [hexec]
    exact ⟨hend, htiles⟩
  next hock =>
    obtain rfl : ock = true := by simpa using hock
    split at h
    next hresize =>
      rw [if_pos hresize]
      simp only [NDRDesc.isLocalSizeOne, Bool.and_eq_true, beq_iff_eq, decide_eq_true_eq] at hresize
      have hthreads : numThreads ≠ 0 := by
        rintro rfl
        cases h
      have hres : Resizable ndr state numThreads := by
        refine ⟨fun d => ?_, hthreads, hresize.1.2, hsize, hoff⟩
        fin_cases d
        · exact hresize.1.1.1.1
        · exact hresize.1.1.1.2
        · exact hresize.1.1.2
      obtain ⟨hend, hexec⟩ := launchResized_inv hres h
      rw [hexec]
      exact ⟨⟨hthreads, hend⟩, List.Perm.refl _⟩
    next hresize =>
      rw [if_neg hresize]
      split at h
      next houter =>
        rw [if_pos houter]
        obtain ⟨hend, hexec⟩ := launchOuter_inv h
        rw [hexec]
        exact ⟨hend, htiles⟩
      next hfew =>
        rw [if_neg hfew]
        obtain ⟨hend, hexec⟩ := launchGrouped_inv hfew h
        rw [hexec]
        exact ⟨hend, htiles⟩

/-- A launch ends if its loops do. -/
theorem launch_ok (hfit : ndr.SizesFit) (hend : ndr.Ends ock numThreads k) :
    ∃ jobs, ndr.launch ock numThreads k (2 ^ 32) = .ok jobs := by
  obtain ⟨state, hstate, hsize, hoff⟩ := State.new_ok ndr.GlobalSize ndr.GlobalOffset fun d => (hfit d).1
  unfold NDRDesc.Ends at hend
  unfold NDRDesc.launch
  rw [hstate]
  show ∃ jobs, ndr.launchFrom ock numThreads k state (2 ^ 32) = .ok jobs
  unfold NDRDesc.launchFrom
  split at hend
  next hock =>
    rw [if_pos hock]
    exact launchSerial_ok hend (Nat.le_refl _)
  next hock =>
    rw [if_neg hock]
    split at hend
    next hresize =>
      rw [if_pos hresize]
      simp only [NDRDesc.isLocalSizeOne, Bool.and_eq_true, beq_iff_eq, decide_eq_true_eq] at hresize
      refine launchResized_ok ⟨fun d => ?_, hend.1, hresize.1.2, hsize, hoff⟩ hend.2 (Nat.le_refl _)
      fin_cases d
      · exact hresize.1.1.1.1
      · exact hresize.1.1.1.2
      · exact hresize.1.1.2
    next hresize =>
      rw [if_neg hresize]
      split at hend
      next houter =>
        rw [if_pos houter]
        exact launchOuter_ok hend (Nat.le_refl _)
      next hfew =>
        rw [if_neg hfew]
        exact launchGrouped_ok hend.1 hfew hend.2 (Nat.le_refl _)

/-- **Launches run every work-item once, or are rejected, exactly** if what passes the checks
has local sizes that divide the global sizes and loops that end. -/
theorem launch_iff (ock : Bool) (numThreads : UInt64) (k : KernelInfo) (a : LaunchArgs) :
    LaunchRight ock numThreads k a ↔
      ∀ ndr, a.check k = .ok ndr → ndr.SizesFit ∧ ndr.Ends ock numThreads k := by
  refine forall_congr' fun ndr => forall_congr' fun hcheck => ?_
  refine and_congr_right fun hfit => ?_
  have hlaunch := fun fuel => @launch_of_check ock numThreads k a ndr hcheck fuel
  constructor
  · intro h
    obtain ⟨fuel, jobs, hjobs⟩ := h.ends
    rw [hlaunch] at hjobs
    exact (launch_inv hfit (check_global hcheck) (Except.ok.inj hjobs)).1
  · intro hend
    obtain ⟨jobs, hjobs⟩ := launch_ok hfit hend
    refine ⟨⟨2 ^ 32, jobs, ?_⟩, fun fuel jobs hjobs => ?_⟩
    · rw [hlaunch, hjobs]
    · rw [hlaunch] at hjobs
      exact (launch_inv hfit (check_global hcheck) (Except.ok.inj hjobs)).2

/-- A kernel without constraints. -/
def plainKernel : KernelInfo := ⟨none, none, none, false⟩

/-- A launch in one dimension. -/
def linear (globalSize : UInt64) (localSize : Option UInt64) : LaunchArgs :=
  ⟨1, some fun _ => 0, fun _ => globalSize, localSize.map fun l _ => l⟩

/-- A local size that does not divide the global size and one of zero are let through, and the
loop over 2 ^ 32 work-groups does not end. -/
theorem launch_wrong :
    ¬ LaunchRight true 4 plainKernel (linear 3 (some 2)) ∧
      ¬ LaunchRight true 4 plainKernel (linear 4 (some 0)) ∧
      ¬ LaunchRight true 4 plainKernel (linear 0x100000000 none) := by
  have hcheck : ∀ (globalSize : UInt64) (localSize : Option UInt64), globalSize ≠ 0 →
      (linear globalSize localSize).check plainKernel =
        .ok (.new 1 (fun _ => 0) (fun _ => globalSize) (localSize.map fun l _ => l)) := by
    intro globalSize localSize hne
    unfold LaunchArgs.check linear
    dsimp only
    rw [if_neg hne]
    cases localSize with
    | none => rfl
    | some l => rfl
  refine ⟨fun h => ?_, fun h => ?_, fun h => ?_⟩
  · have hfit := (h _ (hcheck 3 (some 2) (by decide))).1 0
    exact absurd hfit.2 (by decide)
  · have hfit := (h _ (hcheck 4 (some 0) (by decide))).1 0
    exact absurd hfit.1 (by decide)
  · have hcheck := hcheck 0x100000000 none (by decide)
    obtain ⟨hfit, hcovers⟩ := h _ hcheck
    obtain ⟨fuel, jobs, hjobs⟩ := hcovers.ends
    have hend := (launch_inv hfit (check_global hcheck) (Except.ok.inj hjobs)).1
    exact absurd ((hend.2.2 (by decide)).2 (by decide)) (by decide)

end UnifiedRuntime.NativeCpu
