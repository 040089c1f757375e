import Mathlib

/-!
# Moves of single cells

A memory and operations on its cells: a cell is copied to another, or set. What
many of them do together does not depend on their order where no cell is written
twice and none that is read is written; so it does not matter how commands made of
such operations run beside each other.
-/

namespace UnifiedRuntime

inductive Move (α β : Type) where
  | copy (src dst : α)
  | set (dst : α) (v : β)

namespace Move

variable {α β : Type} [DecidableEq α]

def dst : Move α β → α
  | copy _ dst => dst
  | set dst _ => dst

/-- The cells that are read. -/
def reads : Move α β → List α
  | copy src _ => [src]
  | set _ _ => []

/-- What is written. -/
def value (m : α → β) : Move α β → β
  | copy src _ => m src
  | set _ v => v

def perform (ops : List (Move α β)) (m : α → β) : α → β :=
  ops.foldl (fun m op => Function.update m op.dst (op.value m)) m

/-- No cell is written twice, and none that is read is written. -/
structure Separate (ops : List (Move α β)) : Prop where
  once : (ops.map dst).Nodup
  reads : ∀ op ∈ ops, ∀ a ∈ op.reads, a ∉ ops.map dst

omit [DecidableEq α] in
theorem Separate.perm {ops ops' : List (Move α β)} (h : Separate ops) (hp : ops.Perm ops') :
    Separate ops' := by
  refine ⟨(hp.map dst).nodup_iff.mp h.once, fun op hop a ha hmem => ?_⟩
  exact h.reads op (hp.mem_iff.mpr hop) a ha ((hp.map dst).mem_iff.mpr hmem)

/-- A cell that is not written. -/
theorem perform_other (ops : List (Move α β)) (m : α → β) {a : α} (ha : a ∉ ops.map dst) :
    perform ops m a = m a := by
  unfold perform
  induction ops generalizing m with
  | nil => rfl
  | cons op ops ih =>
    rw [List.map_cons, List.mem_cons, not_or] at ha
    rw [List.foldl_cons, ih _ ha.2, Function.update_of_ne ha.1]

omit [DecidableEq α] in
theorem value_congr {m m' : α → β} (op : Move α β) (h : ∀ a ∈ op.reads, m a = m' a) :
    op.value m = op.value m' := by
  cases op with
  | copy src dst => exact h src List.mem_cons_self
  | set dst v => rfl

/-- **Separate operations**, in whatever order: each cell holds what its operation writes, read
before all of them. -/
theorem perform_mem (ops : List (Move α β)) (m : α → β) (h : Separate ops) {op : Move α β}
    (hop : op ∈ ops) : perform ops m op.dst = op.value m := by
  unfold perform
  induction ops generalizing m with
  | nil => cases hop
  | cons x ops ih =>
    obtain ⟨honce, hreads⟩ := h
    rw [List.map_cons, List.nodup_cons] at honce
    have hsep : Separate ops := ⟨honce.2, fun op hop a ha hmem =>
      hreads op (List.mem_cons_of_mem _ hop) a ha (List.mem_cons_of_mem _ hmem)⟩
    rw [List.foldl_cons]
    rcases List.mem_cons.mp hop with rfl | hop
    · -- nothing writes the cell again
      exact (perform_other ops _ honce.1).trans (Function.update_self ..)
    · rw [ih _ hsep hop]
      refine value_congr op fun a ha => Function.update_of_ne ?_ ..
      rintro rfl
      exact hreads op (List.mem_cons_of_mem _ hop) _ ha List.mem_cons_self

/-- The order does not matter. -/
theorem perform_perm {ops ops' : List (Move α β)} (h : Separate ops) (hp : ops.Perm ops')
    (m : α → β) : perform ops' m = perform ops m := by
  funext a
  by_cases ha : a ∈ ops.map dst
  · obtain ⟨op, hop, rfl⟩ := List.mem_map.mp ha
    rw [perform_mem ops m h hop, perform_mem ops' m (h.perm hp) (hp.mem_iff.mp hop)]
  · rw [perform_other ops m ha, perform_other ops' m fun hc => ha ((hp.map dst).mem_iff.mpr hc)]

end Move

end UnifiedRuntime
