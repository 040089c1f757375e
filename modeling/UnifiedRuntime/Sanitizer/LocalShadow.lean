import UnifiedRuntime.Sanitizer.Shadow

/-!
# Shadow memory for local and private memory

`AllocLocalShadow` and `AllocPrivateShadow` keep one driver allocation each per
shadow object and make a new one when a launch needs more than the last size.
The pointer is a member of the object, the last size a static of the function:
all objects share it. After a fill that fails the pointer is taken back, but the
function goes on as if there were an allocation.
-/

namespace UnifiedRuntime.Sanitizer

open Function (update update_of_ne update_self)

/-- Which of the two functions; each has its own member and its own static. -/
inductive LaunchMemory where
  | localMem
  | privateMem
  deriving DecidableEq

/-- A GPU shadow object. -/
abbrev ShadowId := Nat

/-- A driver allocation, and whether the zeros were written to it. -/
structure ShadowBlock where
  kind : LaunchMemory
  owner : ShadowId
  size : Nat
  zeroed : Bool

structure LaunchShadows where
  /-- The static of each function. -/
  lastAllocedSize : LaunchMemory → Nat
  /-- `LocalShadowOffset` and `PrivateShadowOffset`. -/
  offset : LaunchMemory × ShadowId → Nat
  live : Nat → Option ShadowBlock

/-- A call, with the answers of the driver to what it may ask. -/
structure LaunchShadowCall where
  kind : LaunchMemory
  object : ShadowId
  numWG : Nat
  freesOld : Bool
  allocated : Option Nat
  fills : Bool
  freesNew : Bool

namespace LaunchShadowCall

/-- `ASAN_PRIVATE_SIZE`, or the local memory of the object's device. -/
def memorySize (localMemorySize : ShadowId → Nat) (c : LaunchShadowCall) : Nat :=
  match c.kind with
  | .localMem => localMemorySize c.object
  | .privateMem => 0xffffff + 1

/-- `RequiredShadowSize`. -/
def requiredShadowSize (localMemorySize : ShadowId → Nat) (c : LaunchShadowCall) : Nat :=
  c.numWG * c.memorySize localMemorySize % 2 ^ 64 / 16

/-- What the work-groups need, over the natural numbers. -/
def needed (localMemorySize : ShadowId → Nat) (c : LaunchShadowCall) : Nat :=
  c.numWG * c.memorySize localMemorySize / 16

def key (c : LaunchShadowCall) : LaunchMemory × ShadowId := (c.kind, c.object)

end LaunchShadowCall

namespace LaunchShadows

variable (localMemorySize : ShadowId → Nat)

/-- The object's earlier allocation is freed first, if there is one. -/
def freeOld (s : LaunchShadows) (c : LaunchShadowCall) : Option LaunchShadows :=
  if s.offset c.key ≠ 0 then
    if c.freesOld then
      some
        { live := update s.live (s.offset c.key) none
          offset := update s.offset c.key 0
          lastAllocedSize := update s.lastAllocedSize c.kind 0 }
    else none
  else some s

/-- `pfnDeviceAlloc` writes the pointer into the member. -/
def deviceAlloc (s : LaunchShadows) (c : LaunchShadowCall) (p : Nat) : LaunchShadows :=
  { s with
    live := update s.live p
      (some ⟨c.kind, c.object, c.requiredShadowSize localMemorySize, c.fills⟩)
    offset := update s.offset c.key p }

/-- What is left of an allocation that could not be filled. -/
def freeNew (s : LaunchShadows) (c : LaunchShadowCall) (p : Nat) : LaunchShadows :=
  { s with
    live := update s.live p none
    offset := update s.offset c.key 0 }

/-- `Begin` and `End`. -/
def range (s : LaunchShadows) (c : LaunchShadowCall) : Nat × Nat :=
  (s.offset c.key,
    sub64 (add64 (s.offset c.key) (c.requiredShadowSize localMemorySize)) 1)

/-- The end of both functions: the static is set, also when the fill failed. -/
def finish (s : LaunchShadows) (c : LaunchShadowCall) : LaunchShadows × Option (Nat × Nat) :=
  let size := c.requiredShadowSize localMemorySize
  ({ s with lastAllocedSize := update s.lastAllocedSize c.kind size },
    some (s.range localMemorySize c))

/-- `AllocLocalShadow` and `AllocPrivateShadow`; `none` is an error. -/
def allocShadow (s : LaunchShadows) (c : LaunchShadowCall) :
    LaunchShadows × Option (Nat × Nat) :=
  if s.lastAllocedSize c.kind < c.requiredShadowSize localMemorySize then
    match s.freeOld c, c.allocated with
    | none, _ => (s, none)
    | some s₁, none => (s₁, none)
    | some s₁, some p =>
      if c.fills then (s₁.deviceAlloc localMemorySize c p).finish localMemorySize c
      else if c.freesNew then
        ((s₁.deviceAlloc localMemorySize c p).freeNew c p).finish localMemorySize c
      else (s₁.deviceAlloc localMemorySize c p, none)
  else (s, some (s.range localMemorySize c))

/-- The driver returns memory that is not in use, inside the address space. -/
def Legal (s : LaunchShadows) (c : LaunchShadowCall) : Prop :=
  ∀ p, c.allocated = some p → p ≠ 0 ∧ p + c.requiredShadowSize localMemorySize ≤ 2 ^ 64 ∧
    ∀ s₁, s.freeOld c = some s₁ → s₁.live p = none

/-- The states of runs whose calls all satisfy `ok`. -/
inductive Reached (ok : LaunchShadows → LaunchShadowCall → Prop) : LaunchShadows → Prop where
  | start : Reached ok ⟨fun _ => 0, fun _ => 0, fun _ => none⟩
  | step {s : LaunchShadows} {c : LaunchShadowCall} : Reached ok s → s.Legal localMemorySize c →
      ok s c → Reached ok (s.allocShadow localMemorySize c).1

/-- The range of a call that succeeds is part of an allocation of the object that is live and
filled with zeros, and as large as the work-groups need. -/
def Serves (c : LaunchShadowCall) (s : LaunchShadows) (r : Nat × Nat) : Prop :=
  ∃ b, s.live r.1 = some b ∧ (b.kind, b.owner) = c.key ∧ b.zeroed = true ∧
    (∀ a, r.1 ≤ a → a ≤ r.2 → a < r.1 + b.size) ∧ r.1 + c.needed localMemorySize ≤ r.2 + 1

/-- What a call promises. -/
structure Right (s : LaunchShadows) (c : LaunchShadowCall) : Prop where
  served : ∀ r, (s.allocShadow localMemorySize c).2 = some r →
    Serves localMemorySize c (s.allocShadow localMemorySize c).1 r
  recorded : ∀ key, (s.allocShadow localMemorySize c).1.offset key ≠ 0 →
    ((s.allocShadow localMemorySize c).1.live
      ((s.allocShadow localMemorySize c).1.offset key)).isSome

/-- When a call keeps its promise. A call that wants more than the static says gets its
allocation filled, or fails for another reason first; one that does not has memory of its own
that is large enough. -/
def Sound (s : LaunchShadows) (c : LaunchShadowCall) : Prop :=
  if s.lastAllocedSize c.kind < c.requiredShadowSize localMemorySize then
    s.freeOld c = none ∨ c.allocated = none ∨
      (if c.fills then c.numWG * c.memorySize localMemorySize < 2 ^ 64 else c.freesNew = false)
  else
    c.numWG * c.memorySize localMemorySize < 2 ^ 64 ∧ ∃ b, s.live (s.offset c.key) = some b ∧
      b.zeroed = true ∧ c.requiredShadowSize localMemorySize ≤ b.size

/-! ## The members point to live memory -/

/-- What a member points to is live, its object's and inside the address space. -/
structure Recorded (s : LaunchShadows) : Prop where
  null : s.live 0 = none
  owned : ∀ key, s.offset key ≠ 0 → ∃ b, s.live (s.offset key) = some b ∧
    (b.kind, b.owner) = key ∧ s.offset key + b.size ≤ 2 ^ 64

variable {localMemorySize} {s s₁ : LaunchShadows} {c : LaunchShadowCall}

/-- Two members never point to the same memory. -/
theorem Recorded.distinct (h : s.Recorded) {key key' : LaunchMemory × ShadowId}
    (hz : s.offset key ≠ 0) (hz' : s.offset key' ≠ 0) (heq : s.offset key = s.offset key') :
    key = key' := by
  obtain ⟨b, hb, hk, -⟩ := h.owned key hz
  obtain ⟨b', hb', hk', -⟩ := h.owned key' hz'
  rw [heq, hb'] at hb
  obtain rfl := Option.some.inj hb
  exact hk.symm.trans hk'

theorem freeOld_cases (h : s.freeOld c = some s₁) :
    s.offset c.key = 0 ∧ s₁ = s ∨
      s.offset c.key ≠ 0 ∧ s₁ =
        { live := update s.live (s.offset c.key) none
          offset := update s.offset c.key 0
          lastAllocedSize := update s.lastAllocedSize c.kind 0 } := by
  unfold freeOld at h
  split at h
  next hz =>
    obtain ⟨-, h⟩ := Option.ite_none_right_eq_some.mp h
    exact .inr ⟨hz, (Option.some.inj h).symm⟩
  next hz => exact .inl ⟨not_not.mp hz, (Option.some.inj h).symm⟩

/-- Forgetting a member and the memory it points to. -/
theorem Recorded.drop (h : s.Recorded) (key : LaunchMemory × ShadowId)
    (last : LaunchMemory → Nat) :
    Recorded ⟨last, update s.offset key 0,
      update s.live (s.offset key) none⟩ := by
  refine ⟨?_, fun k hk => ?_⟩
  · show update s.live (s.offset key) none 0 = none
    by_cases hz : 0 = s.offset key
    · rw [← hz, update_self]
    · rw [update_of_ne hz, h.null]
  · by_cases hkey : k = key
    · subst hkey
      exact absurd (update_self ..) hk
    · have hoff : update s.offset key 0 k = s.offset k := update_of_ne hkey ..
      simp only [hoff] at hk ⊢
      obtain ⟨b, hb, hown, hfit⟩ := h.owned k hk
      refine ⟨b, ?_, hown, hfit⟩
      rw [update_of_ne, hb]
      intro heq
      exact hkey (h.distinct hk (heq ▸ hk) heq)

theorem Recorded.freeOld (h : s.Recorded) (hf : s.freeOld c = some s₁) : s₁.Recorded := by
  rcases freeOld_cases hf with ⟨-, rfl⟩ | ⟨-, rfl⟩
  · exact h
  · exact h.drop c.key _

/-- A new allocation. -/
theorem Recorded.deviceAlloc (h : s.Recorded) {p : Nat} (hp : p ≠ 0) (hlive : s.live p = none)
    (hfit : p + c.requiredShadowSize localMemorySize ≤ 2 ^ 64) :
    (s.deviceAlloc localMemorySize c p).Recorded := by
  refine ⟨?_, fun k hk => ?_⟩
  · show update s.live p _ 0 = none
    rw [update_of_ne hp.symm, h.null]
  · by_cases hkey : k = c.key
    · subst hkey
      have hoff : (s.deviceAlloc localMemorySize c p).offset c.key = p :=
        update_self ..
      rw [hoff]
      exact ⟨_, update_self .., rfl, hfit⟩
    · have hoff : (s.deviceAlloc localMemorySize c p).offset k = s.offset k :=
        update_of_ne hkey ..
      rw [hoff] at hk ⊢
      obtain ⟨b, hb, hown, hfit'⟩ := h.owned k hk
      refine ⟨b, ?_, hown, hfit'⟩
      show update s.live p _ (s.offset k) = some b
      rw [update_of_ne, hb]
      intro heq
      rw [heq, hlive] at hb
      cases hb

theorem Recorded.setLast (h : s.Recorded) (last : LaunchMemory → Nat) :
    Recorded { s with lastAllocedSize := last } := ⟨h.null, h.owned⟩

/-- The cases of a call. -/
theorem allocShadow_cases (localMemorySize : ShadowId → Nat) (s : LaunchShadows)
    (c : LaunchShadowCall) :
    (¬ s.lastAllocedSize c.kind < c.requiredShadowSize localMemorySize ∧
        s.allocShadow localMemorySize c = (s, some (s.range localMemorySize c))) ∨
      s.lastAllocedSize c.kind < c.requiredShadowSize localMemorySize ∧
        ((s.freeOld c = none ∧ s.allocShadow localMemorySize c = (s, none)) ∨
          ∃ s₁, s.freeOld c = some s₁ ∧
            ((c.allocated = none ∧ s.allocShadow localMemorySize c = (s₁, none)) ∨
              ∃ p, c.allocated = some p ∧
                ((c.fills = true ∧ s.allocShadow localMemorySize c =
                    (s₁.deviceAlloc localMemorySize c p).finish localMemorySize c) ∨
                  (c.fills = false ∧ c.freesNew = true ∧ s.allocShadow localMemorySize c =
                    ((s₁.deviceAlloc localMemorySize c p).freeNew c p).finish
                      localMemorySize c) ∨
                  (c.fills = false ∧ c.freesNew = false ∧ s.allocShadow localMemorySize c =
                    (s₁.deviceAlloc localMemorySize c p, none))))) := by
  unfold allocShadow
  by_cases hlt : s.lastAllocedSize c.kind < c.requiredShadowSize localMemorySize
  · refine .inr ⟨hlt, ?_⟩
    rw [if_pos hlt]
    cases hf : s.freeOld c with
    | none => exact .inl ⟨rfl, rfl⟩
    | some s₁ =>
      refine .inr ⟨s₁, rfl, ?_⟩
      cases ha : c.allocated with
      | none => exact .inl ⟨rfl, rfl⟩
      | some p =>
        refine .inr ⟨p, rfl, ?_⟩
        cases hfill : c.fills with
        | true => exact .inl ⟨rfl, by simp⟩
        | false =>
          cases hnew : c.freesNew with
          | true => exact .inr (.inl ⟨rfl, rfl, by simp⟩)
          | false => exact .inr (.inr ⟨rfl, rfl, by simp⟩)
  · exact .inl ⟨hlt, by rw [if_neg hlt]⟩

theorem Recorded.allocShadow (h : s.Recorded) (hl : s.Legal localMemorySize c) :
    (s.allocShadow localMemorySize c).1.Recorded := by
  rcases allocShadow_cases localMemorySize s c with ⟨-, heq⟩ | ⟨-, ⟨-, heq⟩ | ⟨s₁, hf, ha⟩⟩
  · rw [heq]
    exact h
  · rw [heq]
    exact h
  · have h₁ := h.freeOld hf
    rcases ha with ⟨-, heq⟩ | ⟨p, hp, hcase⟩
    · rw [heq]
      exact h₁
    · obtain ⟨hp₀, hfit, hfresh⟩ := hl p hp
      have h₂ := h₁.deviceAlloc (c := c) hp₀ (hfresh s₁ hf) hfit
      rcases hcase with ⟨-, heq⟩ | ⟨-, -, heq⟩ | ⟨-, -, heq⟩
      · rw [heq]
        exact h₂.setLast _
      · rw [heq]
        have hoff : (s₁.deviceAlloc localMemorySize c p).offset c.key = p :=
          update_self ..
        have h₃ := h₂.drop c.key (s₁.deviceAlloc localMemorySize c p).lastAllocedSize
        rw [hoff] at h₃
        exact h₃.setLast _
      · rw [heq]
        exact h₂

theorem Reached.recorded {ok : LaunchShadows → LaunchShadowCall → Prop}
    (h : Reached localMemorySize ok s) : s.Recorded := by
  induction h with
  | start => exact ⟨rfl, fun _ hk => absurd rfl hk⟩
  | step _ hl _ ih => exact ih.allocShadow hl

/-! ## When a call keeps its promise -/

/-- The last address of a range is the one before its end. -/
theorem range_serves {b : ShadowBlock} {p required needed : Nat} (hp : p ≠ 0)
    (hfit : p + b.size ≤ 2 ^ 64) (hsize : required ≤ b.size) (hneed : needed = required) :
    (∀ a, p ≤ a → a ≤ sub64 (add64 p required) 1 → a < p + b.size) ∧
      p + needed ≤ sub64 (add64 p required) 1 + 1 := by
  have hend : sub64 (add64 p required) 1 = p + required - 1 := by
    unfold sub64 add64
    omega
  refine ⟨fun a _ _ => by omega, by omega⟩

theorem needed_eq (hfit : c.numWG * c.memorySize localMemorySize < 2 ^ 64) :
    c.needed localMemorySize = c.requiredShadowSize localMemorySize := by
  unfold LaunchShadowCall.needed LaunchShadowCall.requiredShadowSize
  rw [Nat.mod_eq_of_lt hfit]

/-- A product that wraps asks for less than is needed. -/
theorem required_lt_needed (hwrap : ¬ c.numWG * c.memorySize localMemorySize < 2 ^ 64) :
    c.requiredShadowSize localMemorySize < c.needed localMemorySize := by
  unfold LaunchShadowCall.needed LaunchShadowCall.requiredShadowSize
  omega

/-- What is served is what the object's own member points to. -/
theorem serves_range_iff (h : s.Recorded) :
    Serves localMemorySize c s (s.range localMemorySize c) ↔
      c.numWG * c.memorySize localMemorySize < 2 ^ 64 ∧ ∃ b, s.live (s.offset c.key) = some b ∧
        b.zeroed = true ∧ c.requiredShadowSize localMemorySize ≤ b.size := by
  constructor
  · rintro ⟨b, hb, hown, hzero, hin, hlarge⟩
    have hoff : s.offset c.key ≠ 0 := by
      intro hz
      have hnull : s.live 0 = some b := by
        rw [← hz]
        exact hb
      rw [h.null] at hnull
      cases hnull
    obtain ⟨b', hb', -, hfit⟩ := h.owned c.key hoff
    have hreq : c.requiredShadowSize localMemorySize < 2 ^ 60 := by
      unfold LaunchShadowCall.requiredShadowSize
      omega
    -- the end of the range
    have hin' : ∀ a, s.offset c.key ≤ a →
        a ≤ sub64 (add64 (s.offset c.key) (c.requiredShadowSize localMemorySize)) 1 →
          a < s.offset c.key + b.size := hin
    have hlarge' : s.offset c.key + c.needed localMemorySize ≤
        sub64 (add64 (s.offset c.key) (c.requiredShadowSize localMemorySize)) 1 + 1 := hlarge
    generalize hend : sub64 (add64 (s.offset c.key) (c.requiredShadowSize localMemorySize)) 1 = e
      at hin' hlarge'
    have hmod : e < 2 ^ 64 ∧ (e + 1 = s.offset c.key + c.requiredShadowSize localMemorySize ∨
        e + 1 + 2 ^ 64 = s.offset c.key + c.requiredShadowSize localMemorySize ∨
        e + 1 = s.offset c.key + c.requiredShadowSize localMemorySize + 2 ^ 64) := by
      rw [← hend]
      unfold sub64 add64
      omega
    have hle : e + 1 = s.offset c.key + c.requiredShadowSize localMemorySize := by
      rcases hmod.2 with heq | heq | heq
      · exact heq
      · omega
      · omega
    refine ⟨?_, b, hb, hzero, ?_⟩
    · by_contra hwrap
      have hlt := required_lt_needed hwrap
      omega
    · by_cases hz : c.requiredShadowSize localMemorySize = 0
      · omega
      · have hlast := hin' e (by omega) (Nat.le_refl _)
        omega
  · rintro ⟨hfit64, b, hb, hzero, hsize⟩
    have hoff : s.offset c.key ≠ 0 := by
      intro hz
      rw [hz, h.null] at hb
      cases hb
    obtain ⟨b', hb', hown, hfit⟩ := h.owned c.key hoff
    obtain rfl := Option.some.inj (hb.symm.trans hb')
    have hserve := range_serves hoff hfit hsize (needed_eq hfit64)
    exact ⟨b, hb, hown, hzero, hserve.1, hserve.2⟩

/-- **One call**, in any state that is reached. -/
theorem right_iff_sound (h : s.Recorded) (hl : s.Legal localMemorySize c) :
    s.Right localMemorySize c ↔ s.Sound localMemorySize c := by
  have hrec := h.allocShadow hl
  have hrecorded : ∀ key, (s.allocShadow localMemorySize c).1.offset key ≠ 0 →
      ((s.allocShadow localMemorySize c).1.live
        ((s.allocShadow localMemorySize c).1.offset key)).isSome := by
    intro key hk
    obtain ⟨b, hb, -⟩ := hrec.owned key hk
    rw [hb]
    rfl
  have hiff : s.Right localMemorySize c ↔ ∀ r, (s.allocShadow localMemorySize c).2 = some r →
      Serves localMemorySize c (s.allocShadow localMemorySize c).1 r :=
    ⟨fun hr => hr.served, fun hs => ⟨hs, hrecorded⟩⟩
  rw [hiff]
  unfold Sound
  -- no new shadow is needed, or one is allocated that may fail to be filled
  rcases allocShadow_cases localMemorySize s c with ⟨hge, heq⟩ | ⟨hlt, hcase⟩
  · rw [if_neg hge, heq, ← serves_range_iff h]
    exact ⟨fun hs => hs _ rfl, fun hs r hr => by rwa [← Option.some.inj hr]⟩
  · rw [if_pos hlt]
    have hnone : ∀ s' : LaunchShadows, s.allocShadow localMemorySize c = (s', none) →
        ∀ r, (s.allocShadow localMemorySize c).2 = some r →
          Serves localMemorySize c (s.allocShadow localMemorySize c).1 r := by
      intro s' heq r hr
      rw [heq] at hr
      cases hr
    rcases hcase with ⟨hf, heq⟩ | ⟨s₁, hf, ⟨ha, heq⟩ | ⟨p, hp, hcase⟩⟩
    · exact iff_of_true (hnone _ heq) (.inl hf)
    · exact iff_of_true (hnone _ heq) (.inr (.inl ha))
    · have hne : ¬ (s.freeOld c = none) := by
        rw [hf]
        exact fun h => nomatch h
      have hne' : ¬ (c.allocated = none) := by
        rw [hp]
        exact fun h => nomatch h
      simp only [hne, hne', false_or]
      obtain ⟨hp₀, hfit, hfresh⟩ := hl p hp
      rcases hcase with ⟨hfill, heq⟩ | ⟨hfill, hnew, heq⟩ | ⟨hfill, hnew, heq⟩
      · -- the new allocation is served
        have hlive : (s₁.deviceAlloc localMemorySize c p).live
            ((s₁.deviceAlloc localMemorySize c p).offset c.key)
              = some ⟨c.kind, c.object, c.requiredShadowSize localMemorySize, c.fills⟩ := by
          have hoff : (s₁.deviceAlloc localMemorySize c p).offset c.key = p :=
            update_self ..
          rw [hoff]
          exact update_self ..
        have hr₂ := ((h.freeOld hf).deviceAlloc (c := c) hp₀ (hfresh s₁ hf) hfit)
        rw [heq, if_pos hfill]
        constructor
        · intro hall
          exact ((serves_range_iff hr₂).mp (hall _ rfl)).1
        · intro hfit64 r hr
          obtain rfl := Option.some.inj hr
          exact (serves_range_iff hr₂).mpr ⟨hfit64, _, hlive, hfill, Nat.le_refl _⟩
      · -- the null pointer is served
        rw [heq, hfill, hnew]
        refine iff_of_false (fun hall => ?_) (by simp)
        obtain ⟨b, hb, -⟩ := hall _ rfl
        have hoff : ((s₁.deviceAlloc localMemorySize c p).freeNew c p).offset c.key = 0 :=
          update_self ..
        have hnull : ((s₁.deviceAlloc localMemorySize c p).freeNew c p).live 0 = some b := by
          rw [← hoff]
          exact hb
        have hnone₀ : ((s₁.deviceAlloc localMemorySize c p).freeNew c p).live 0 = none := by
          show update (update s₁.live p _) p none 0 = none
          rw [update_of_ne hp₀.symm, update_of_ne hp₀.symm]
          exact (h.freeOld hf).null
        rw [hnone₀] at hnull
        cases hnull
      · exact iff_of_true (hnone _ heq) (by simp [hfill, hnew])

/-! ## One object for each function -/

/-- Calls of one object, whose fills succeed, for an amount that is neither nothing nor too
large to count. -/
structure Alone (localMemorySize : ShadowId → Nat) (object : LaunchMemory → ShadowId)
    (c : LaunchShadowCall) : Prop where
  object_eq : c.object = object c.kind
  fills : c.fills = true
  fits : c.numWG * c.memorySize localMemorySize < 2 ^ 64
  some_needed : c.requiredShadowSize localMemorySize ≠ 0

/-- The static is the size of the object's allocation, or 0. -/
def SizeKnown (object : LaunchMemory → ShadowId) (s : LaunchShadows) : Prop :=
  ∀ k, s.lastAllocedSize k = 0 ∨ ∃ b, s.live (s.offset (k, object k)) = some b ∧
    b.zeroed = true ∧ b.size = s.lastAllocedSize k

variable {object : LaunchMemory → ShadowId}

theorem Alone.key_eq (ha : Alone localMemorySize object c) : c.key = (c.kind, object c.kind) := by
  unfold LaunchShadowCall.key
  rw [ha.object_eq]

theorem SizeKnown.sound (h : SizeKnown object s) (ha : Alone localMemorySize object c) :
    s.Sound localMemorySize c := by
  unfold Sound
  split
  next => exact .inr (.inr (by rw [if_pos ha.fills]; exact ha.fits))
  next hge =>
    have hpos := ha.some_needed
    rcases h c.kind with hz | ⟨b, hb, hzero, hsize⟩
    · omega
    · rw [ha.key_eq]
      exact ⟨ha.fits, b, hb, hzero, by omega⟩

theorem SizeKnown.freeOld (h : SizeKnown object s) (hr : s.Recorded)
    (ha : Alone localMemorySize object c) (hf : s.freeOld c = some s₁) :
    SizeKnown object s₁ := by
  rcases freeOld_cases hf with ⟨-, rfl⟩ | ⟨hz, rfl⟩
  · exact h
  · intro k
    by_cases hk : k = c.kind
    · subst hk
      exact .inl (update_self ..)
    · simp only
      rw [update_of_ne hk]
      rcases h k with hlast | ⟨b, hb, hzero, hsize⟩
      · exact .inl hlast
      · -- another member, which points elsewhere
        have hkey : (k, object k) ≠ c.key := by
          rw [ha.key_eq]
          exact fun heq => hk (congrArg Prod.fst heq)
        have hoff : s.offset (k, object k) ≠ 0 := by
          intro hz'
          rw [hz', hr.null] at hb
          cases hb
        refine .inr ⟨b, ?_, hzero, hsize⟩
        rw [update_of_ne hkey, update_of_ne, hb]
        exact fun heq => hkey (hr.distinct hoff hz heq)

theorem SizeKnown.allocShadow (h : SizeKnown object s) (hr : s.Recorded)
    (ha : Alone localMemorySize object c) (hl : s.Legal localMemorySize c) :
    SizeKnown object (s.allocShadow localMemorySize c).1 := by
  rcases allocShadow_cases localMemorySize s c with ⟨-, heq⟩ | ⟨-, ⟨-, heq⟩ | ⟨s₁, hf, hcase⟩⟩
  · rwa [heq]
  · rwa [heq]
  · have h₁ := h.freeOld hr ha hf
    rcases hcase with ⟨-, heq⟩ | ⟨p, hp, ⟨hfill, heq⟩ | ⟨hfill, -⟩ | ⟨hfill, -⟩⟩
    · rwa [heq]
    · obtain ⟨-, -, hfresh⟩ := hl p hp
      rw [heq]
      intro k
      by_cases hk : k = c.kind
      · subst hk
        have hoff : (s₁.deviceAlloc localMemorySize c p).offset (c.kind, object c.kind) = p := by
          rw [← ha.key_eq]
          exact update_self ..
        have hlast : ((s₁.deviceAlloc localMemorySize c p).finish localMemorySize
            c).1.lastAllocedSize c.kind = c.requiredShadowSize localMemorySize :=
          update_self ..
        refine .inr ⟨⟨c.kind, c.object, c.requiredShadowSize localMemorySize, c.fills⟩, ?_, hfill,
          hlast.symm⟩
        show (s₁.deviceAlloc localMemorySize c p).live
          ((s₁.deviceAlloc localMemorySize c p).offset (c.kind, object c.kind)) = _
        rw [hoff]
        exact update_self ..
      · have hkey : (k, object k) ≠ c.key := by
          rw [ha.key_eq]
          exact fun heq => hk (congrArg Prod.fst heq)
        rcases h₁ k with hlast | ⟨b, hb, hzero, hsize⟩
        · exact .inl ((update_of_ne hk ..).trans hlast)
        · refine .inr ⟨b, ?_, hzero, hsize.trans (update_of_ne hk ..).symm⟩
          have hoff : (s₁.deviceAlloc localMemorySize c p).offset (k, object k)
              = s₁.offset (k, object k) := update_of_ne hkey ..
          show (s₁.deviceAlloc localMemorySize c p).live
            ((s₁.deviceAlloc localMemorySize c p).offset (k, object k)) = some b
          rw [hoff]
          show update s₁.live p _ (s₁.offset (k, object k)) = some b
          rw [update_of_ne, hb]
          intro heq'
          rw [heq', hfresh s₁ hf] at hb
          cases hb
    · rw [ha.fills] at hfill
      cases hfill
    · rw [ha.fills] at hfill
      cases hfill

theorem Reached.sizeKnown (h : Reached localMemorySize (fun _ c => Alone localMemorySize object c)
    s) : SizeKnown object s := by
  induction h with
  | start => exact fun _ => .inl rfl
  | step hreach hl ha ih => exact ih.allocShadow hreach.recorded ha hl

/-- **Calls keep their promise** exactly when they are sound, in every run; and all of them are
in a run in which each function is called for one object and no fill fails. -/
theorem launch_shadows_right (localMemorySize : ShadowId → Nat) :
    (∀ s c, Reached localMemorySize (fun _ _ => True) s → s.Legal localMemorySize c →
      (s.Right localMemorySize c ↔ s.Sound localMemorySize c)) ∧
    ∀ object s c, Reached localMemorySize (fun _ c => Alone localMemorySize object c) s →
      s.Legal localMemorySize c → Alone localMemorySize object c →
        s.Right localMemorySize c :=
  ⟨fun _ _ hs hl => right_iff_sound hs.recorded hl,
    fun _ _ _ hs hl ha => (right_iff_sound hs.recorded hl).mpr (hs.sizeKnown.sound ha)⟩

/-- A launch of `numWG` work-groups; what the driver allocates is at `p`. -/
def launch (object numWG p : Nat) (fills : Bool) : LaunchShadowCall where
  kind := .localMem
  object := object
  numWG := numWG
  freesOld := true
  allocated := some p
  fills := fills
  freesNew := true

/-- The state before the first launch. -/
def noShadows : LaunchShadows := ⟨fun _ => 0, fun _ => 0, fun _ => none⟩

theorem noShadows_legal (m : ShadowId → Nat) (hm : m 0 = 65536) (fills : Bool) :
    noShadows.Legal m (launch 0 1 0x100000 fills) := by
  intro p hp
  obtain rfl := Option.some.inj hp
  refine ⟨by omega, ?_, fun s₁ hs => ?_⟩
  · show 0x100000 + 1 * m 0 % 2 ^ 64 / 16 ≤ 2 ^ 64
    omega
  · obtain rfl := Option.some.inj hs
    rfl

/-- A second launch of more work-groups, for which the shadow has to grow. -/
theorem launch_shadows_right_grown :
    let m : ShadowId → Nat := fun _ => 65536
    let s := (noShadows.allocShadow m (launch 0 1 0x100000 true)).1
    s.Right m (launch 0 2 0x200000 true) ∧
      (s.allocShadow m (launch 0 2 0x200000 true)).2 = some (0x200000, 0x201fff) ∧
      (s.allocShadow m (launch 0 2 0x200000 true)).1.live 0x100000 = none := by
  intro m s
  have hs : Reached m (fun _ c => Alone m (fun _ => 0) c) s :=
    .step .start (noShadows_legal _ rfl true) ⟨rfl, rfl, by decide, by decide⟩
  have hlegal : s.Legal m (launch 0 2 0x200000 true) := by
    intro p hp
    obtain rfl := Option.some.inj hp
    refine ⟨by decide, by decide, fun s₁ hs₁ => ?_⟩
    unfold freeOld at hs₁
    rw [if_pos (by decide)] at hs₁
    obtain rfl := Option.some.inj hs₁
    decide
  exact ⟨(launch_shadows_right m).2 (fun _ => 0) s (launch 0 2 0x200000 true) hs hlegal
    ⟨rfl, rfl, by decide, by decide⟩, by decide, by decide⟩

/-- Two objects, and a fill that fails: the calls succeed with the null pointer as begin. -/
theorem launch_shadows_wrong :
    let m : ShadowId → Nat := fun _ => 65536
    let s := (noShadows.allocShadow m (launch 0 1 0x100000 true)).1
    Reached m (fun _ _ => True) s ∧
      (s.allocShadow m (launch 1 1 0x200000 true)).2 = some (0, 4095) ∧
      ¬ s.Right m (launch 1 1 0x200000 true) ∧
      (noShadows.allocShadow m (launch 0 1 0x100000 false)).2 = some (0, 4095) ∧
      ¬ noShadows.Right m (launch 0 1 0x100000 false) := by
  intro m s
  refine ⟨.step .start (noShadows_legal _ rfl true) trivial, by decide, fun h => ?_, by decide,
    fun h => ?_⟩
  · obtain ⟨b, hb, -⟩ := h.served (0, 4095) (by decide)
    have hnone : (s.allocShadow m (launch 1 1 0x200000 true)).1.live 0 = none := by decide
    rw [hnone] at hb
    cases hb
  · obtain ⟨b, hb, -⟩ := h.served (0, 4095) (by decide)
    have hnone : (noShadows.allocShadow m (launch 0 1 0x100000 false)).1.live 0 = none := by decide
    rw [hnone] at hb
    cases hb

end LaunchShadows

end UnifiedRuntime.Sanitizer
