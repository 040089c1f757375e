import UnifiedRuntime.Sanitizer.AsanOptions
import UnifiedRuntime.Sanitizer.AsanRuns

/-!
# Where the memory of the user lies in its chunk

`allocateMemory` asks the driver for the rounded size, a redzone on both sides and, for a
larger alignment, room to move. The sum is a `uptr` and may wrap, and nothing looks for
that: a chunk that is too small is handed out for a huge request.
-/

namespace UnifiedRuntime.Sanitizer.AllocRequest

variable {m : AsanSetup} {r : AllocRequest} {allocBegin : Nat}

/-- A chunk that the driver returns for a request. An alignment is a `uint32_t`, also that
of a device. With a largest redzone below 16 `RZSize2Log` asserts. -/
structure Obtained (m : AsanSetup) (r : AllocRequest) (allocBegin : Nat) : Prop where
  options : ∃ env o, AsanOptions.new env = .ok o ∧ m.minRZSize = o.minRZSize ∧
    m.maxRZSize = o.maxRZSize
  redzone : 16 ≤ m.maxRZSize
  size_pos : 0 < r.size
  size_lt : r.size < 2 ^ 64
  align_lt : r.align < 2 ^ 32
  deviceAlign_lt : ∀ d, m.alignment d < 2 ^ 32
  aligned : r.Aligned
  chunk : allocBegin + r.neededSize m ≤ 2 ^ 64

/-- The layout of a chunk, over the natural numbers. -/
structure Geometry (m : AsanSetup) (r : AllocRequest) (allocBegin : Nat) : Prop where
  aligned : r.alignment m ∣ r.userBegin m allocBegin
  requested : r.align ≠ 0 → r.align ∣ r.userBegin m allocBegin
  left : allocBegin + 16 ≤ r.userBegin m allocBegin
  inside : r.userBegin m allocBegin + r.size ≤ allocBegin + r.neededSize m
  right : r.userBegin m allocBegin + r.size < allocBegin + r.neededSize m
  userEnd : (r.info m allocBegin).userEnd = r.userBegin m allocBegin + r.size
  needed : r.neededSize m = (r.size + (r.alignment m - 1)) / r.alignment m * r.alignment m
    + r.rzSize m * 2 + (if 16 < r.alignment m then r.alignment m else 0)

/-! ## Bounds of the parts -/

/-- Accepted options have no redzone beyond 2048. -/
theorem Obtained.rzSize_le (h : Obtained m r allocBegin) : r.rzSize m ≤ 2048 := by
  obtain ⟨env, o, ho, -, hmax⟩ := h.options
  have hmap : ∃ map, optionsMap env = .ok map := by
    obtain ⟨map, hmap, -⟩ := except_bind_ok ho
    exact ⟨map, hmap⟩
  obtain ⟨map, hmap⟩ := hmap
  have hle : m.maxRZSize ≤ 2048 := by
    rcases (sizes_read hmap ho).2 with ⟨-, heq⟩ | ⟨n, -, heq⟩
    · omega
    · simp only at heq
      split at heq
      next => omega
      next => omega
  have hlog : Nat.log2 m.maxRZSize < 12 :=
    (Nat.log2_lt (by have := h.redzone; omega)).mpr (by omega)
  have hrz : computeRZLog r.size m.minRZSize m.maxRZSize ≤ 7 := by
    have hmin : computeRZLog r.size m.minRZSize m.maxRZSize ≤ rzSize2Log m.maxRZSize :=
      Nat.min_le_right _ _
    unfold rzSize2Log at hmin
    omega
  calc r.rzSize m = 16 * 2 ^ computeRZLog r.size m.minRZSize m.maxRZSize := rfl
    _ ≤ 16 * 2 ^ 7 := Nat.mul_le_mul_left 16 (Nat.pow_le_pow_right (by omega) hrz)

theorem Obtained.alignment_lt (h : Obtained m r allocBegin) : r.alignment m < 2 ^ 32 := by
  have hlt : (if r.align = 0 then (r.device.map m.alignment).getD 16 else r.align) < 2 ^ 32 := by
    split
    next =>
      cases r.device with
      | none => exact (by decide : (16 : Nat) < 2 ^ 32)
      | some d => exact h.deviceAlign_lt d
    next => exact h.align_lt
  unfold alignment
  generalize (if r.align = 0 then (r.device.map m.alignment).getD 16 else r.align) = a at hlt ⊢
  simp only
  split
  next => omega
  next => exact hlt

/-- The alignment that is used serves the one that was asked for. -/
theorem align_dvd_alignment (ha : r.Aligned) (hz : r.align ≠ 0) : r.align ∣ r.alignment m := by
  obtain ⟨k, hk⟩ := (Nat.and_sub_one_eq_zero_iff_isPowerOfTwo hz).mp ha
  unfold alignment
  simp only [hz, if_false]
  split
  next hlt =>
    rw [hk] at hlt ⊢
    have hk₄ : k < 4 := (Nat.pow_lt_pow_iff_right (by omega : 1 < 2)).mp hlt
    exact Nat.pow_dvd_pow 2 (by omega : k ≤ 4)
  next => exact Nat.dvd_refl _

/-- The size of a request for which the sum wraps is beyond everything that is left of it. -/
theorem neededSize_wraps (h : Obtained m r allocBegin) (hf : ¬ r.Fits m) :
    r.neededSize m < r.size := by
  obtain ⟨hA, -⟩ := alignment_spec (m := m) h.aligned
  have hA' := h.alignment_lt
  have hrz := h.rzSize_le
  have hsize := h.size_lt
  have hextra : (if 16 < r.alignment m then r.alignment m else 0) ≤ r.alignment m := by
    split
    next => omega
    next => omega
  have hmod : r.neededSize m = (roundUpTo r.size (r.alignment m) + r.rzSize m * 2 +
      (if 16 < r.alignment m then r.alignment m else 0)) % 2 ^ 64 := by
    unfold neededSize add64
    simp only
    split
    next => omega
    next => omega
  by_cases hround : r.size + (r.alignment m - 1) < 2 ^ 64
  · -- the rounded size is right, and the redzones make the sum wrap
    obtain ⟨hle, hge, -⟩ := roundUpTo_spec (x := r.size) (b := r.alignment m) (by omega) hround
    have hsum : 2 ^ 64 ≤ roundUpTo r.size (r.alignment m) + r.rzSize m * 2 +
        (if 16 < r.alignment m then r.alignment m else 0) := by
      by_contra hlt
      exact hf ⟨hround, by omega⟩
    omega
  · -- rounding wraps to 0 already
    have hzero : roundUpTo r.size (r.alignment m) = 0 := by
      unfold roundUpTo add64
      have hlt : (r.size + (r.alignment m - 1)) % 2 ^ 64 < r.alignment m := by omega
      rw [Nat.div_eq_of_lt hlt, Nat.zero_mul]
    omega

/-- `UserBegin` of a chunk of any alignment. -/
theorem userBegin_geometry (h : Obtained m r allocBegin) (hf : r.Fits m) :
    r.alignment m ∣ r.userBegin m allocBegin ∧ allocBegin + 16 ≤ r.userBegin m allocBegin ∧
      r.userBegin m allocBegin + roundUpTo r.size (r.alignment m) + 1 ≤
        allocBegin + r.neededSize m := by
  obtain ⟨hA, -⟩ := alignment_spec (m := m) h.aligned
  obtain ⟨hrz, -⟩ := rzSize_spec (m := m) (r := r)
  have hrange := h.chunk
  rw [neededSize_eq hf] at hrange ⊢
  unfold userBegin
  have hadd : add64 allocBegin (r.rzSize m) = allocBegin + r.rzSize m := add64_eq (by omega)
  simp only [hadd]
  split
  next hmod => exact ⟨Nat.dvd_of_mod_eq_zero hmod, by omega, by omega⟩
  next =>
    have hroom : allocBegin + r.rzSize m + (r.alignment m - 1) < 2 ^ 64 := by
      split at hrange
      next => omega
      next => omega
    obtain ⟨hle, hge, hd⟩ := roundUpTo_spec (x := allocBegin + r.rzSize m) (b := r.alignment m)
      (by omega) hroom
    refine ⟨hd, by omega, ?_⟩
    split
    next => omega
    next => omega

/-- **The geometry of a chunk is right** exactly when the sum does not wrap. -/
theorem geometry_iff_fits (m : AsanSetup) (r : AllocRequest) (allocBegin : Nat)
    (h : Obtained m r allocBegin) : Geometry m r allocBegin ↔ r.Fits m := by
  constructor
  · intro hg
    by_contra hf
    have hlt := neededSize_wraps h hf
    have hleft := hg.left
    have hin := hg.inside
    omega
  · intro hf
    obtain ⟨hA, -⟩ := alignment_spec (m := m) h.aligned
    obtain ⟨hdvd, hleft, hright⟩ := userBegin_geometry h hf
    obtain ⟨hle, -, -⟩ := roundUpTo_spec (x := r.size) (b := r.alignment m) (by omega) hf.1
    have hrange := h.chunk
    refine ⟨hdvd, fun hz => (align_dvd_alignment h.aligned hz).trans hdvd, hleft, by omega,
      by omega, add64_eq (by omega), ?_⟩
    rw [neededSize_eq hf]
    unfold roundUpTo
    rw [add64_eq hf.1]

theorem sixteenBytes_obtained : Obtained oneCpu (sixteenBytes 0) 4096 := by
  refine ⟨⟨none, AsanOptions.default, rfl, rfl, rfl⟩, by decide, by decide, by decide, by decide,
    fun _ => (by decide : (16 : Nat) < 2 ^ 32), rfl, ?_⟩
  have hsize : (sixteenBytes 0).neededSize oneCpu = 48 := by decide +kernel
  rw [hsize]
  norm_num

theorem sixteenBytes_geometry : Geometry oneCpu (sixteenBytes 0) 4096 :=
  (geometry_iff_fits oneCpu (sixteenBytes 0) 4096 sixteenBytes_obtained).mpr
    (sixteenBytes_fits 0)

/-- All but eight bytes of the address space. -/
def hugeRequest : AllocRequest := { sixteenBytes 0 with size := 2 ^ 64 - 8 }

/-- The huge request gets the two redzones and nothing between them. -/
theorem hugeRequest_wraps :
    Obtained oneCpu hugeRequest 4096 ∧ hugeRequest.neededSize oneCpu = 4096 ∧
      ¬ Geometry oneCpu hugeRequest 4096 := by
  have hsize : hugeRequest.neededSize oneCpu = 4096 := by decide +kernel
  refine ⟨⟨⟨none, AsanOptions.default, rfl, rfl, rfl⟩, by decide, by decide +kernel,
    by decide +kernel, by decide, fun _ => (by decide : (16 : Nat) < 2 ^ 32), rfl, by rw [hsize]; norm_num⟩, hsize,
    fun hg => ?_⟩
  have hin := hg.inside
  have huge : hugeRequest.size = 2 ^ 64 - 8 := rfl
  omega

end UnifiedRuntime.Sanitizer.AllocRequest
