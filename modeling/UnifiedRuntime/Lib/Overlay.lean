import Mathlib

/-!
# Latest writes

Replicas of one array of cells. `latest i` is the value of the last write to
cell `i`, `none` while nobody has written it. A replica `Holds` the latest
writes of a set of cells when each of those that was written has the value
written last. The rules say what one more write does: to the replica it goes
to, and to a replica that is about to be overwritten as a whole.
-/

namespace UnifiedRuntime

variable {ι β : Type}

/-- A replica after a write. -/
def overlay (writes : ι → Option β) (content : ι → β) : ι → β :=
  fun i => (writes i).getD (content i)

/-- The latest writes after one more. -/
def overwrite (writes latest : ι → Option β) : ι → Option β :=
  fun i => (writes i).or (latest i)

/-- The replica has the latest write of every cell of `cells`. -/
def Holds (cells : Set ι) (latest : ι → Option β) (content : ι → β) : Prop :=
  ∀ i ∈ cells, ∀ v, latest i = some v → content i = v

/-- Nothing was written, so there is nothing to hold. -/
theorem holds_unwritten {cells : Set ι} {content : ι → β} :
    Holds cells (fun _ => none) content := by
  intro i _ v hv
  exact absurd hv (by simp)

theorem Holds.mono {cells : Set ι} {latest : ι → Option β} {a b : ι → β}
    (h : Holds cells latest a) (hab : ∀ i ∈ cells, b i = a i) : Holds cells latest b := by
  intro i hi v hv
  rw [hab i hi]
  exact h i hi v hv

/-- A write to a replica that holds the latest writes. -/
theorem Holds.overlay {cells : Set ι} {latest : ι → Option β} {content : ι → β}
    (h : Holds cells latest content) (writes : ι → Option β) :
    Holds cells (overwrite writes latest) (overlay writes content) := by
  intro i hi v hv
  unfold overwrite at hv
  unfold UnifiedRuntime.overlay
  cases hw : writes i with
  | none =>
    rw [hw] at hv
    exact h i hi v hv
  | some b =>
    rw [hw] at hv
    exact Option.some.inj hv

/-- A write of every cell does not care what the replica held. -/
theorem overwrite_of_covers {cells : Set ι} {writes : ι → Option β}
    (hw : ∀ i ∈ cells, writes i ≠ none) (latest latest' : ι → Option β) :
    ∀ i ∈ cells, overwrite writes latest i = overwrite writes latest' i := by
  intro i hi
  unfold overwrite
  cases hi' : writes i with
  | none => exact absurd hi' (hw i hi)
  | some b => rfl

end UnifiedRuntime
