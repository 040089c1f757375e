import Mathlib

/-!
# Nested loops over a grid

Three nested loops put out the points of a grid, the first coordinate innermost. A grid whose
coordinates come in tiles has, in another order, the points of the grids of its tiles.
-/

namespace UnifiedRuntime

variable {α β γ δ : Type*}

/-! ## Ranges in tiles -/

theorem range_tiles (n size : Nat) :
    (List.range n).flatMap (fun g => (List.range size).map (size * g + ·)) =
      List.range (n * size) := by
  induction n with
  | zero => rw [Nat.zero_mul]; rfl
  | succ n ih =>
    rw [List.range_succ, List.flatMap_append, ih, Nat.succ_mul, List.range_add,
      Nat.mul_comm n size]
    simp

/-- As many tiles as fit, and the rest one by one. -/
theorem range_tiles_rest (n size rest : Nat) :
    (List.range n).flatMap (fun g => (List.range size).map (size * g + ·)) ++
        (List.range rest).map (n * size + ·) =
      List.range (n * size + rest) := by
  rw [range_tiles, List.range_add]

/-- A list is the list of its entries. -/
theorem range_entries (l : List α) :
    (List.range l.length).flatMap (fun i => l[i]?.toList) = l := by
  induction l with
  | nil => rfl
  | cons a l ih =>
    rw [List.length_cons, List.range_succ_eq_map, List.flatMap_cons, List.flatMap_map]
    exact congrArg (a :: ·) ih

/-- The entries of a list, in tiles and the rest. -/
theorem entries_tiles (l : List α) {n size rest : Nat} (h : l.length = n * size + rest) :
    ((List.range n).flatMap fun g => (List.range size).flatMap fun i => l[size * g + i]?.toList) ++
        ((List.range rest).flatMap fun i => l[n * size + i]?.toList) = l := by
  conv_rhs => rw [← range_entries l, h, ← range_tiles_rest, List.flatMap_append, List.flatMap_assoc]
  simp [List.flatMap_map]

/-! ## Grids -/

/-- The points of a grid, in the order of three nested loops. -/
def grid (xs : List α) (ys : List β) (zs : List γ) (f : α → β → γ → List δ) : List δ :=
  zs.flatMap fun z => ys.flatMap fun y => xs.flatMap fun x => f x y z

theorem grid_length {xs : List α} {ys : List β} {zs : List γ} (f : α → β → γ → δ) :
    (grid xs ys zs fun x y z => [f x y z]).length = zs.length * (ys.length * xs.length) := by
  unfold grid
  simp

theorem grid_flatMap {xs : List α} {ys : List β} {zs : List γ} {ε : Type*}
    (f : α → β → γ → List δ) (g : δ → List ε) :
    (grid xs ys zs f).flatMap g = grid xs ys zs fun x y z => (f x y z).flatMap g := by
  unfold grid
  simp [List.flatMap_assoc]

/-- Two loops in either order. -/
theorem flatMap_swap (xs : List α) (ys : List β) (f : α → β → List γ) :
    List.Perm (xs.flatMap fun x => ys.flatMap fun y => f x y)
      (ys.flatMap fun y => xs.flatMap fun x => f x y) := by
  rw [← Multiset.coe_eq_coe]
  have hswap := Multiset.bind_bind (xs : Multiset α) (ys : Multiset β)
    (f := fun x y => (f x y : Multiset γ))
  simpa only [Multiset.coe_bind] using hswap

variable {ι κ μ : Type*}

/-- **The grids of the tiles are the tiled grid**, in another order. -/
theorem grid_tiles (xs : List ι) (ys : List κ) (zs : List μ) (tx : ι → List α) (ty : κ → List β)
    (tz : μ → List γ) (f : α → β → γ → List δ) :
    List.Perm (grid xs ys zs fun x y z => grid (tx x) (ty y) (tz z) f)
      (grid (xs.flatMap tx) (ys.flatMap ty) (zs.flatMap tz) f) := by
  unfold grid
  simp only [List.flatMap_assoc]
  refine List.Perm.flatMap_left _ fun z _ => ?_
  -- the loop over the tile's last coordinate goes out of the loops over the other tiles
  have hout : List.Perm
      (ys.flatMap fun y => xs.flatMap fun x => (tz z).flatMap fun c => (ty y).flatMap fun b =>
        (tx x).flatMap fun a => f a b c)
      ((tz z).flatMap fun c => ys.flatMap fun y => xs.flatMap fun x => (ty y).flatMap fun b =>
        (tx x).flatMap fun a => f a b c) := by
    refine List.Perm.trans (List.Perm.flatMap_left _ fun y _ => flatMap_swap _ _ _) ?_
    exact flatMap_swap _ _ _
  refine hout.trans (List.Perm.flatMap_left _ fun c _ => List.Perm.flatMap_left _ fun y _ => ?_)
  exact flatMap_swap _ _ _

end UnifiedRuntime
