import Mathlib.Data.List.Infix
import Mathlib.Data.List.Nodup
import Mathlib.Logic.Function.Basic
import Mathlib.Tactic.Common

/-!
# The life of the library

The library, the loader and the layers have one context each, which is made when it is first used
and is behind a lock (`AtomicSingleton`). Only `urLoaderInit` counts as a reference. `get_direct`
reads the pointer without the lock, and makes a context with the lock when there was none: these are
two steps, between which everything else may happen. The last `urLoaderTearDown` deletes them all.

- `Sound`: what holds between a state and the tally of the calls that led to it.
- `lifetime_right`: the library lives from an `urLoaderInit` to the `urLoaderTearDown` that balances
  the last one, and every such period has a context that no earlier one had.
- `returned_while_held`: what `get_direct` returns can be used while a reference is held.
-/

namespace UnifiedRuntime.Loader.Lifetime

open Function (update update_of_ne update_self)

/-! ## Singletons -/

/-- The singletons. -/
inductive Kind where
  | library
  | loader
  | layer (index : Nat)
deriving DecidableEq

/-- `Rc`. -/
structure Rc where
  ptr : Option Nat
  refcount : Nat

/-- `next` is the number of the next context that is made; `waiting` says which threads have read a
null pointer in `get_direct` and are about to take the lock. -/
structure State where
  rc : Kind → Rc
  next : Nat
  destroyed : Kind → List Nat
  waiting : Nat → Kind → Bool

def State.init : State :=
  { rc := fun _ => ⟨none, 0⟩, next := 0, destroyed := fun _ => [], waiting := fun _ _ => false }

variable (s : State) (k : Kind) (refcounted : Bool) (layers : Nat)

def State.setRc (rc : Rc) : State := { s with rc := update s.rc k rc }

/-- `Rc::get_or_create`, for a context that makes no others. -/
def State.getOrCreate : State :=
  let refcount := if refcounted then (s.rc k).refcount + 1 else (s.rc k).refcount
  match (s.rc k).ptr with
  | some i => s.setRc k ⟨some i, refcount⟩
  | none => { s.setRc k ⟨some s.next, refcount⟩ with next := s.next + 1 }

/-- The layers that a new context of the library has pointers to. -/
def State.useLayers : State :=
  (List.range layers).foldl (fun s index => s.getOrCreate (.layer index) false) s

/-- `Rc::get_or_create`: a new context of the library uses the layers. -/
def State.get : State :=
  match k, (s.rc k).ptr with
  | .library, none => (s.getOrCreate .library refcounted).useLayers layers
  | k, _ => s.getOrCreate k refcounted

/-- `delete ptr`, and the pointer and the count are reset. -/
def State.forceDelete : State :=
  { s.setRc k ⟨none, 0⟩ with
    destroyed := update s.destroyed k (s.destroyed k ++ (s.rc k).ptr.toList) }

/-- `context_t::tearDownLayers`, from the last layer to the first. -/
def State.tearDownLayers : State :=
  (List.range layers).reverse.foldl (fun s index => s.forceDelete (.layer index)) s

/-! ## Calls -/

inductive CallResult where
  | success
  | invalidEnumeration
  | uninitialized

/-- `UR_DEVICE_INIT_FLAGS_MASK`. -/
def deviceInitFlagsMask : UInt32 := 0xffffffe0

/-- `urLoaderInit`, up to the initialization of the context. -/
def urLoaderInit (deviceFlags : UInt32) : CallResult × State :=
  if deviceInitFlagsMask &&& deviceFlags ≠ 0 then (.invalidEnumeration, s)
  else (.success, s.get .library true layers)

/-- `Rc::release` with the deleter of `urLoaderTearDown`. -/
def urLoaderTearDown : CallResult × State :=
  let rc := s.rc .library
  if rc.refcount ≤ 0 then (.uninitialized, s)
  else if rc.refcount - 1 = 0 then
    (.success, ((s.tearDownLayers layers).forceDelete .loader).forceDelete .library)
  else (.success, s.setRc .library { rc with refcount := rc.refcount - 1 })

/-- The first step of `get_direct`. -/
def State.peek (thread : Nat) : State :=
  { s with waiting := fun t k' =>
    if t = thread ∧ k' = k then (s.rc k).ptr.isNone else s.waiting t k' }

/-- The second step, which a thread only comes to after a null pointer. -/
def State.create (thread : Nat) : State :=
  if s.waiting thread k then
    { s.get k false layers with waiting := fun t k' =>
      if t = thread ∧ k' = k then false else s.waiting t k' }
  else s

inductive Call where
  | loaderInit (deviceFlags : UInt32)
  | loaderTearDown
  | peek (thread : Nat) (k : Kind)
  | create (thread : Nat) (k : Kind)

def State.step : Call → State
  | .loaderInit deviceFlags => (urLoaderInit s layers deviceFlags).2
  | .loaderTearDown => (urLoaderTearDown s layers).2
  | .peek thread k => s.peek k thread
  | .create thread k => s.create k layers thread

/-- **A run**, of any threads. -/
def run (calls : List Call) : State := calls.foldl (fun s call => s.step layers call) .init

/-! ## The life of a context -/

/-- How many inits are not balanced yet, and how many periods are over. -/
structure Tally where
  balance : Nat
  periods : Nat

def Tally.next (t : Tally) : Call → Tally
  | .loaderInit deviceFlags =>
    if deviceInitFlagsMask &&& deviceFlags ≠ 0 then t else { t with balance := t.balance + 1 }
  | .loaderTearDown =>
    if t.balance = 1 then ⟨0, t.periods + 1⟩ else { t with balance := t.balance - 1 }
  | .peek _ _ => t
  | .create _ _ => t

def tally (calls : List Call) : Tally := calls.foldl Tally.next ⟨0, 0⟩

/-- **What `get_direct` returns**: a pointer that is not null in its first step, or what the second
one finds or makes. -/
def State.returns : Call → Option (Kind × Nat)
  | .peek _ k => (s.rc k).ptr.map fun i => (k, i)
  | .create thread k =>
    if s.waiting thread k then ((s.get k false layers).rc k).ptr.map fun i => (k, i) else none
  | _ => none

/-- **After some calls**: the library is there while an init is not balanced, and as many contexts
of it are destroyed as periods are over, each once. -/
structure Lives (calls : List Call) : Prop where
  count : ((run layers calls).rc .library).refcount = (tally calls).balance
  held : 0 < (tally calls).balance →
    ∃ i, ((run layers calls).rc .library).ptr = some i ∧ i ∉ (run layers calls).destroyed .library
  destroyed : ((run layers calls).destroyed .library).length = (tally calls).periods
  once : ∀ k, ((run layers calls).destroyed k).Nodup

/-- **One call more**: in a period the context stays, at the end of it that is destroyed, and
nothing is destroyed otherwise; what balances nothing is refused. -/
structure GoesOn (calls : List Call) (call : Call) : Prop where
  kept : 0 < (tally calls).balance → 0 < (tally (calls ++ [call])).balance →
    ((run layers (calls ++ [call])).rc .library).ptr = ((run layers calls).rc .library).ptr
  inside : (tally (calls ++ [call])).periods = (tally calls).periods →
    (run layers (calls ++ [call])).destroyed .library = (run layers calls).destroyed .library
  ended : (tally (calls ++ [call])).periods ≠ (tally calls).periods →
    ∃ i, ((run layers calls).rc .library).ptr = some i ∧
      (run layers (calls ++ [call])).destroyed .library =
        (run layers calls).destroyed .library ++ [i]
  unmatched : (tally calls).balance = 0 →
    urLoaderTearDown (run layers calls) layers = (.uninitialized, run layers calls)

/-- **A period begins** with a context that was not destroyed before. -/
def Fresh (calls : List Call) (call : Call) : Prop :=
  (tally calls).balance = 0 → 0 < (tally (calls ++ [call])).balance →
    ∃ i, ((run layers (calls ++ [call])).rc .library).ptr = some i ∧
      i ∉ (run layers calls).destroyed .library

/-- The init that begins a period makes the context. -/
def Creates (calls : List Call) (call : Call) : Prop :=
  (tally calls).balance = 0 → 0 < (tally (calls ++ [call])).balance →
    ((run layers (calls ++ [call])).rc .library).ptr = some (run layers calls).next

variable {s k refcounted layers}

/-! ## One singleton -/

theorem setRc_self {rc : Rc} : (s.setRc k rc).rc k = rc := by
  simp [State.setRc]

theorem getOrCreate_rc : (s.getOrCreate k refcounted).rc = update s.rc k
    ⟨some ((s.rc k).ptr.getD s.next),
      if refcounted then (s.rc k).refcount + 1 else (s.rc k).refcount⟩ := by
  unfold State.getOrCreate
  cases hptr : (s.rc k).ptr with
  | none => rfl
  | some i => rfl

theorem getOrCreate_destroyed : (s.getOrCreate k refcounted).destroyed = s.destroyed := by
  unfold State.getOrCreate
  cases (s.rc k).ptr with
  | none => rfl
  | some i => rfl

theorem getOrCreate_next : (s.getOrCreate k refcounted).next =
    if (s.rc k).ptr = none then s.next + 1 else s.next := by
  unfold State.getOrCreate
  cases (s.rc k).ptr with
  | none => rfl
  | some i => rfl

theorem forceDelete_self : (s.forceDelete k).rc k = ⟨none, 0⟩ ∧
    (s.forceDelete k).destroyed k = s.destroyed k ++ (s.rc k).ptr.toList := by
  unfold State.forceDelete State.setRc
  simp

theorem forceDelete_other {k' : Kind} (hk : k' ≠ k) : (s.forceDelete k).rc k' = s.rc k' ∧
    (s.forceDelete k).destroyed k' = s.destroyed k' := by
  unfold State.forceDelete State.setRc
  simp [hk]

/-- Every context that there is was made once and is not destroyed. -/
structure Tidy (s : State) : Prop where
  alive : ∀ k i, (s.rc k).ptr = some i → i < s.next ∧ i ∉ s.destroyed k
  past : ∀ k, ∀ i ∈ s.destroyed k, i < s.next
  once : ∀ k, (s.destroyed k).Nodup

theorem Tidy.init : Tidy State.init where
  alive := by
    intro k i h
    cases h
  past := by
    intro k i h
    cases h
  once := by
    intro k
    exact List.nodup_nil

theorem Tidy.getOrCreate (h : Tidy s) (k : Kind) (refcounted : Bool) :
    Tidy (s.getOrCreate k refcounted) := by
  have hle : s.next ≤ (s.getOrCreate k refcounted).next := by
    rw [getOrCreate_next]
    split <;> omega
  constructor
  · intro k' i hi
    rw [getOrCreate_destroyed]
    rw [getOrCreate_rc] at hi
    by_cases hk : k' = k
    · subst hk
      cases hptr : (s.rc k').ptr with
      | none =>
        -- a new context has a number that no other had
        obtain rfl : s.next = i := by simpa [hptr] using hi
        refine ⟨by rw [getOrCreate_next, if_pos hptr]; omega, ?_⟩
        intro hmem
        exact absurd (h.past k' _ hmem) (Nat.lt_irrefl _)
      | some j =>
        obtain rfl : j = i := by simpa [hptr] using hi
        obtain ⟨hlt, hmem⟩ := h.alive k' j hptr
        exact ⟨by omega, hmem⟩
    · rw [update_of_ne hk] at hi
      obtain ⟨hlt, hmem⟩ := h.alive k' i hi
      exact ⟨by omega, hmem⟩
  · intro k' i hi
    rw [getOrCreate_destroyed] at hi
    have hlt := h.past k' i hi
    omega
  · intro k'
    rw [getOrCreate_destroyed]
    exact h.once k'

/-- A context that is destroyed is not held any more, so it is destroyed once. -/
theorem Tidy.forceDelete (h : Tidy s) (k : Kind) : Tidy (s.forceDelete k) := by
  obtain ⟨hrc, hdestroyed⟩ := forceDelete_self (s := s) (k := k)
  constructor
  · intro k' i hi
    by_cases hk : k' = k
    · rw [hk, hrc] at hi
      cases hi
    · rw [(forceDelete_other hk).1] at hi
      rw [(forceDelete_other hk).2]
      exact h.alive k' i hi
  · intro k' i hi
    by_cases hk : k' = k
    · rw [hk, hdestroyed, List.mem_append, Option.mem_toList] at hi
      rcases hi with hi | hi
      · exact h.past k i hi
      · exact (h.alive k i hi).1
    · rw [(forceDelete_other hk).2] at hi
      exact h.past k' i hi
  · intro k'
    by_cases hk : k' = k
    · rw [hk, hdestroyed]
      cases hptr : (s.rc k).ptr with
      | none => simpa using h.once k
      | some i =>
        rw [Option.toList_some, List.nodup_append_comm, List.singleton_append, List.nodup_cons]
        exact ⟨(h.alive k i hptr).2, h.once k⟩
    · rw [(forceDelete_other hk).2]
      exact h.once k'

theorem Tidy.congr {s' : State} (h : Tidy s) (hptr : ∀ k, (s'.rc k).ptr = (s.rc k).ptr)
    (hnext : s'.next = s.next) (hdestroyed : s'.destroyed = s.destroyed) : Tidy s' := by
  constructor
  · intro k i hi
    rw [hptr] at hi
    rw [hnext, hdestroyed]
    exact h.alive k i hi
  · intro k i hi
    rw [hdestroyed] at hi
    rw [hnext]
    exact h.past k i hi
  · intro k
    rw [hdestroyed]
    exact h.once k

/-! ## The layers -/

/-- What the layers do to the rest. -/
theorem useLayers_spec (s : State) (layers : Nat) :
    (s.useLayers layers).rc .library = s.rc .library ∧
      (s.useLayers layers).destroyed = s.destroyed ∧ (Tidy s → Tidy (s.useLayers layers)) := by
  unfold State.useLayers
  induction List.range layers generalizing s with
  | nil => exact ⟨rfl, rfl, id⟩
  | cons index indices ih =>
    obtain ⟨hrc, hdestroyed, htidy⟩ := ih (s.getOrCreate (.layer index) false)
    refine ⟨?_, ?_, ?_⟩
    · rw [List.foldl_cons, hrc, getOrCreate_rc, update_of_ne (by simp)]
    · rw [List.foldl_cons, hdestroyed, getOrCreate_destroyed]
    · intro h
      exact htidy (h.getOrCreate _ _)

/-- The layers go; the library's own context is not touched. -/
theorem tearDownLayers_spec (s : State) (layers : Nat) :
    (s.tearDownLayers layers).rc .library = s.rc .library ∧
      (s.tearDownLayers layers).destroyed .library = s.destroyed .library ∧
      (Tidy s → Tidy (s.tearDownLayers layers)) := by
  unfold State.tearDownLayers
  induction (List.range layers).reverse generalizing s with
  | nil => exact ⟨rfl, rfl, id⟩
  | cons index indices ih =>
    obtain ⟨hrc, hdestroyed, htidy⟩ := ih (s.forceDelete (.layer index))
    refine ⟨?_, ?_, ?_⟩
    · rw [List.foldl_cons, hrc, (forceDelete_other (by simp)).1]
    · rw [List.foldl_cons, hdestroyed, (forceDelete_other (by simp)).2]
    · intro h
      exact htidy (h.forceDelete _)

/-! ## Calls -/

/-- **What `get` does to the library**, whichever singleton it is called for. -/
theorem get_spec (s : State) (k : Kind) (refcounted : Bool) (layers : Nat) :
    ((s.get k refcounted layers).rc .library =
      if k = .library then
        ⟨some ((s.rc .library).ptr.getD s.next),
          if refcounted then (s.rc .library).refcount + 1 else (s.rc .library).refcount⟩
      else s.rc .library) ∧
      (s.get k refcounted layers).destroyed = s.destroyed ∧
      (Tidy s → Tidy (s.get k refcounted layers)) := by
  have hplain : ((s.getOrCreate k refcounted).rc .library =
      if k = .library then
        ⟨some ((s.rc .library).ptr.getD s.next),
          if refcounted then (s.rc .library).refcount + 1 else (s.rc .library).refcount⟩
      else s.rc .library) := by
    rw [getOrCreate_rc]
    by_cases hk : k = .library
    · rw [if_pos hk, hk, update_self]
    · rw [if_neg hk, update_of_ne (Ne.symm hk)]
  unfold State.get
  split
  · obtain ⟨hrc, hdestroyed, htidy⟩ :=
      useLayers_spec (s.getOrCreate .library refcounted) layers
    refine ⟨by rw [hrc, hplain], by rw [hdestroyed, getOrCreate_destroyed], ?_⟩
    intro h
    exact htidy (h.getOrCreate _ _)
  · exact ⟨hplain, getOrCreate_destroyed, fun h => h.getOrCreate _ _⟩

/-- **What a teardown does to the library.** -/
theorem urLoaderTearDown_spec (s : State) (layers : Nat) :
    ((s.rc .library).refcount = 0 → urLoaderTearDown s layers = (.uninitialized, s)) ∧
    ((s.rc .library).refcount = 1 →
      (urLoaderTearDown s layers).2.rc .library = ⟨none, 0⟩ ∧
        (urLoaderTearDown s layers).2.destroyed .library =
          s.destroyed .library ++ (s.rc .library).ptr.toList) ∧
    (1 < (s.rc .library).refcount →
      (urLoaderTearDown s layers).2.rc .library =
          ⟨(s.rc .library).ptr, (s.rc .library).refcount - 1⟩ ∧
        (urLoaderTearDown s layers).2.destroyed = s.destroyed) ∧
    (Tidy s → Tidy (urLoaderTearDown s layers).2) := by
  obtain ⟨hrc, hdestroyed, htidy⟩ := tearDownLayers_spec s layers
  -- the layers go first, then the loader, and the library last
  have hloader : Kind.library ≠ Kind.loader := by decide
  unfold urLoaderTearDown
  refine ⟨?_, ?_, ?_, ?_⟩
  · intro h
    simp [h]
  · intro h
    simp only [h]
    refine ⟨forceDelete_self.1, ?_⟩
    refine forceDelete_self.2.trans ?_
    rw [(forceDelete_other hloader).1, (forceDelete_other hloader).2, hrc, hdestroyed]
  · intro h
    simp only [if_neg (by omega : ¬ (s.rc .library).refcount ≤ 0),
      if_neg (by omega : ¬ (s.rc .library).refcount - 1 = 0)]
    exact ⟨setRc_self, rfl⟩
  · intro h
    by_cases hzero : (s.rc .library).refcount ≤ 0
    · simpa [hzero] using h
    · simp only [if_neg hzero]
      split
      · exact ((htidy h).forceDelete _).forceDelete _
      · refine h.congr ?_ rfl rfl
        intro k
        by_cases hk : k = .library
        · simp [State.setRc, hk]
        · simp [State.setRc, hk]

/-- **What one call does to the library**, and what it counts for. -/
inductive Effect (s : State) (t : Tally) (s' : State) (t' : Tally) : Prop where
  | stay (hrc : s'.rc .library = s.rc .library)
      (hdestroyed : s'.destroyed .library = s.destroyed .library) (ht : t' = t)
  | use (hrc : s'.rc .library =
        ⟨some ((s.rc .library).ptr.getD s.next), (s.rc .library).refcount⟩)
      (hdestroyed : s'.destroyed .library = s.destroyed .library) (ht : t' = t)
  | acquire (hrc : s'.rc .library =
        ⟨some ((s.rc .library).ptr.getD s.next), (s.rc .library).refcount + 1⟩)
      (hdestroyed : s'.destroyed .library = s.destroyed .library)
      (ht : t' = { t with balance := t.balance + 1 })
  | drop (hlt : 1 < t.balance)
      (hrc : s'.rc .library = ⟨(s.rc .library).ptr, (s.rc .library).refcount - 1⟩)
      (hdestroyed : s'.destroyed .library = s.destroyed .library)
      (ht : t' = { t with balance := t.balance - 1 })
  | last (hone : t.balance = 1) (hrc : s'.rc .library = ⟨none, 0⟩)
      (hdestroyed : s'.destroyed .library =
        s.destroyed .library ++ (s.rc .library).ptr.toList)
      (ht : t' = ⟨0, t.periods + 1⟩)

variable {t : Tally}

theorem step_effect (layers : Nat) (hcount : (s.rc .library).refcount = t.balance)
    (call : Call) :
    Effect s t (s.step layers call) (t.next call) := by
  cases call with
  | loaderInit deviceFlags =>
    simp only [State.step, urLoaderInit, Tally.next]
    by_cases hflags : deviceInitFlagsMask &&& deviceFlags ≠ 0
    · rw [if_pos hflags, if_pos hflags]
      exact .stay rfl rfl rfl
    · rw [if_neg hflags, if_neg hflags]
      obtain ⟨hrc, hdestroyed, -⟩ := get_spec s .library true layers
      exact .acquire hrc (by rw [hdestroyed]) rfl
  | loaderTearDown =>
    obtain ⟨hnone, hlast, hdrop, -⟩ := urLoaderTearDown_spec s layers
    simp only [State.step, Tally.next]
    rcases Nat.lt_trichotomy t.balance 1 with hlt | hone | hlt
    · have hzero : t.balance = 0 := by omega
      rw [hnone (by omega)]
      refine .stay rfl rfl ?_
      rw [hzero]
      cases t
      exact congrArg (Tally.mk · _) hzero.symm
    · obtain ⟨hrc, hdestroyed⟩ := hlast (by omega)
      rw [if_pos hone]
      exact .last hone hrc hdestroyed rfl
    · obtain ⟨hrc, hdestroyed⟩ := hdrop (by omega)
      rw [if_neg (by omega)]
      exact .drop hlt hrc (by rw [hdestroyed]) rfl
  | peek thread k => exact .stay rfl rfl rfl
  | create thread k =>
    simp only [State.step, State.create, Tally.next]
    split
    · obtain ⟨hrc, hdestroyed, -⟩ := get_spec s k false layers
      by_cases hk : k = .library
      · rw [if_pos hk] at hrc
        exact .use hrc (congrFun hdestroyed _) rfl
      · rw [if_neg hk] at hrc
        exact .stay hrc (congrFun hdestroyed _) rfl
    · exact .stay rfl rfl rfl

theorem Tidy.step (layers : Nat) (h : Tidy s) (call : Call) : Tidy (s.step layers call) := by
  cases call with
  | loaderInit deviceFlags =>
    simp only [State.step, urLoaderInit]
    split
    · exact h
    · exact (get_spec s .library true layers).2.2 h
  | loaderTearDown => exact (urLoaderTearDown_spec s layers).2.2.2 h
  | peek thread k => exact h.congr (fun k => rfl) rfl rfl
  | create thread k =>
    simp only [State.step, State.create]
    split
    · exact ((get_spec s k false layers).2.2 h).congr (fun k => rfl) rfl rfl
    · exact h

/-! ## Runs -/

/-- **What holds** between a state and the tally of the calls. -/
structure Sound (s : State) (t : Tally) : Prop where
  tidy : Tidy s
  count : (s.rc .library).refcount = t.balance
  held : 0 < t.balance → ∃ i, (s.rc .library).ptr = some i
  ended : (s.destroyed .library).length = t.periods

/-- **Step lemma.** The count is what the tally of the calls says. -/
theorem Sound.step (layers : Nat) (h : Sound s t) (call : Call) :
    Sound (s.step layers call) (t.next call) := by
  have htidy := h.tidy.step layers call
  cases step_effect layers h.count call with
  | stay hrc hdestroyed ht =>
    rw [ht]
    exact ⟨htidy, by rw [hrc, h.count], by rw [hrc]; exact h.held, by rw [hdestroyed, h.ended]⟩
  | use hrc hdestroyed ht =>
    rw [ht]
    exact ⟨htidy, by rw [hrc, h.count], fun _ => ⟨_, by rw [hrc]⟩, by rw [hdestroyed, h.ended]⟩
  | acquire hrc hdestroyed ht =>
    rw [ht]
    exact ⟨htidy, by rw [hrc, h.count], fun _ => ⟨_, by rw [hrc]⟩, by rw [hdestroyed, h.ended]⟩
  | drop hlt hrc hdestroyed ht =>
    rw [ht]
    refine ⟨htidy, by rw [hrc, h.count], ?_, by rw [hdestroyed, h.ended]⟩
    intro hpos
    rw [hrc]
    exact h.held (by omega)
  | last hone hrc hdestroyed ht =>
    obtain ⟨i, hi⟩ := h.held (by omega)
    rw [ht]
    refine ⟨htidy, by rw [hrc], fun hpos => absurd hpos (Nat.lt_irrefl _), ?_⟩
    rw [hdestroyed, hi, List.length_append, h.ended]
    rfl

theorem sound_run (layers : Nat) (calls : List Call) :
    Sound (run layers calls) (tally calls) := by
  unfold run tally
  have hinit : Sound .init ⟨0, 0⟩ :=
    ⟨Tidy.init, rfl, fun hpos => absurd hpos (Nat.lt_irrefl _), rfl⟩
  revert hinit
  generalize State.init = s
  generalize (⟨0, 0⟩ : Tally) = t
  intro h
  induction calls generalizing s t with
  | nil => exact h
  | cons call calls ih => exact ih _ _ (h.step layers call)

theorem run_append (layers : Nat) (calls : List Call) (call : Call) :
    run layers (calls ++ [call]) = (run layers calls).step layers call := by
  simp [run]

theorem tally_append (calls : List Call) (call : Call) :
    tally (calls ++ [call]) = (tally calls).next call := by
  simp [tally]

theorem lives (layers : Nat) (calls : List Call) : Lives layers calls := by
  have h := sound_run layers calls
  refine ⟨h.count, ?_, h.ended, h.tidy.once⟩
  intro hpos
  obtain ⟨i, hi⟩ := h.held hpos
  exact ⟨i, hi, (h.tidy.alive .library i hi).2⟩

theorem goesOn (layers : Nat) (calls : List Call) (call : Call) : GoesOn layers calls call := by
  have h := sound_run layers calls
  have heffect := step_effect layers h.count call
  rw [← run_append, ← tally_append] at heffect
  constructor
  · intro hpos hpos'
    obtain ⟨i, hi⟩ := h.held hpos
    cases heffect with
    | stay hrc hdestroyed ht => rw [hrc]
    | use hrc hdestroyed ht => rw [hrc, hi, Option.getD_some]
    | acquire hrc hdestroyed ht => rw [hrc, hi, Option.getD_some]
    | drop hlt hrc hdestroyed ht => rw [hrc]
    | last hone hrc hdestroyed ht =>
      rw [ht] at hpos'
      exact absurd hpos' (Nat.lt_irrefl _)
  · intro hperiods
    cases heffect with
    | stay hrc hdestroyed ht => exact hdestroyed
    | use hrc hdestroyed ht => exact hdestroyed
    | acquire hrc hdestroyed ht => exact hdestroyed
    | drop hlt hrc hdestroyed ht => exact hdestroyed
    | last hone hrc hdestroyed ht =>
      rw [ht] at hperiods
      exact absurd hperiods (Nat.succ_ne_self _)
  · intro hperiods
    cases heffect with
    | stay hrc hdestroyed ht => exact absurd (by rw [ht]) hperiods
    | use hrc hdestroyed ht => exact absurd (by rw [ht]) hperiods
    | acquire hrc hdestroyed ht => exact absurd (by rw [ht]) hperiods
    | drop hlt hrc hdestroyed ht => exact absurd (by rw [ht]) hperiods
    | last hone hrc hdestroyed ht =>
      -- the teardown that balances the last init deletes the context
      obtain ⟨i, hi⟩ := h.held (by omega)
      refine ⟨i, hi, ?_⟩
      rw [hdestroyed, hi]
      rfl
  · intro hzero
    exact (urLoaderTearDown_spec _ layers).1 (h.count.trans hzero)

theorem fresh (layers : Nat) (calls : List Call) (call : Call) : Fresh layers calls call := by
  intro hzero hpos
  have h := sound_run layers calls
  have h' := sound_run layers (calls ++ [call])
  obtain ⟨i, hi⟩ := h'.held hpos
  refine ⟨i, hi, ?_⟩
  have heffect := step_effect layers h.count call
  rw [← run_append, ← tally_append] at heffect
  cases heffect with
  | acquire hrc hdestroyed ht =>
    rw [← hdestroyed]
    exact (h'.tidy.alive .library i hi).2
  | stay hrc hdestroyed ht => rw [ht] at hpos; omega
  | use hrc hdestroyed ht => rw [ht] at hpos; omega
  | drop hlt hrc hdestroyed ht => omega
  | last hone hrc hdestroyed ht => omega

/-- **The library lives** from an init to the teardown that balances the last one, in every run of
any threads, and has a context of its own in every such period. -/
theorem lifetime_right (layers : Nat) (calls : List Call) (call : Call) :
    Lives layers calls ∧ GoesOn layers calls call ∧ Fresh layers calls call :=
  ⟨lives layers calls, goesOn layers calls call, fresh layers calls call⟩

/-! ## Pointers that are in use -/

/-- A context that is there is found again. -/
theorem getOrCreate_ptr {k' : Kind} {i : Nat} (h : (s.rc k').ptr = some i) :
    ((s.getOrCreate k refcounted).rc k').ptr = some i := by
  rw [getOrCreate_rc]
  by_cases hk : k' = k
  · subst hk
    rw [update_self, h, Option.getD_some]
  · rw [update_of_ne hk]
    exact h

theorem get_ptr {k' : Kind} {i : Nat} (h : (s.rc k').ptr = some i) :
    ((s.get k refcounted layers).rc k').ptr = some i := by
  unfold State.get State.useLayers
  split
  · have hlibrary : ((s.getOrCreate .library refcounted).rc k').ptr = some i := getOrCreate_ptr h
    revert hlibrary
    generalize s.getOrCreate .library refcounted = s'
    intro hlibrary
    induction List.range layers generalizing s' with
    | nil => exact hlibrary
    | cons index indices ih => exact ih _ (getOrCreate_ptr hlibrary)
  · exact getOrCreate_ptr h

/-- **A call keeps every context** unless it is the teardown that balances the last init. -/
theorem step_ptr (hcount : (s.rc .library).refcount = t.balance) {call : Call} {i : Nat}
    (hpos : 0 < t.balance) (hpos' : 0 < (t.next call).balance) (h : (s.rc k).ptr = some i) :
    ((s.step layers call).rc k).ptr = some i := by
  cases call with
  | loaderInit deviceFlags =>
    simp only [State.step, urLoaderInit]
    split
    · exact h
    · exact get_ptr h
  | loaderTearDown =>
    have hone : t.balance ≠ 1 := by
      intro hone
      simp [Tally.next, hone] at hpos'
    simp only [State.step, urLoaderTearDown,
      if_neg (by omega : ¬ (s.rc .library).refcount ≤ 0),
      if_neg (by omega : ¬ (s.rc .library).refcount - 1 = 0)]
    by_cases hk : k = .library
    · subst hk
      exact h
    · simpa [State.setRc, hk] using h
  | peek thread k' => exact h
  | create thread k' =>
    simp only [State.step, State.create]
    split
    · exact get_ptr h
    · exact h

/-- What a call returns is the context of the singleton after it. -/
theorem ptr_of_returns {call : Call} {i : Nat} (h : s.returns layers call = some (k, i)) :
    ((s.step layers call).rc k).ptr = some i := by
  cases call with
  | loaderInit deviceFlags => cases h
  | loaderTearDown => cases h
  | peek thread k' =>
    obtain ⟨j, hj, heq⟩ := Option.map_eq_some_iff.mp h
    obtain ⟨rfl, rfl⟩ := Prod.mk.inj heq
    exact hj
  | create thread k' =>
    simp only [State.returns] at h
    simp only [State.step, State.create]
    split at h
    next hwaiting =>
      obtain ⟨j, hj, heq⟩ := Option.map_eq_some_iff.mp h
      obtain ⟨rfl, rfl⟩ := Prod.mk.inj heq
      rw [if_pos hwaiting]
      exact hj
    next => cases h

/-- **A context stays** through calls that leave an init unbalanced. -/
theorem ptr_foldl {i : Nat} (h : Sound s t) (hptr : (s.rc k).ptr = some i) :
    ∀ more : List Call, (∀ done, done <+: more → 0 < (done.foldl Tally.next t).balance) →
      ((more.foldl (fun s call => s.step layers call) s).rc k).ptr = some i := by
  intro more
  induction more generalizing s t with
  | nil => exact fun _ => hptr
  | cons call more ih =>
    intro hheld
    have hnow : 0 < t.balance := hheld [] List.nil_prefix
    have hnext : 0 < (t.next call).balance := hheld [call] ⟨more, rfl⟩
    exact ih (h.step layers call) (step_ptr h.count hnow hnext hptr) fun done hdone =>
      hheld (call :: done) (List.prefix_cons_inj call |>.mpr hdone)

/-- **What `get_direct` returns can be used while a reference is held**: as long as an init is not
balanced it stays the context of its singleton, and it differs from all that were destroyed, none
of which was destroyed twice. -/
theorem returned_while_held (layers : Nat) (calls : List Call) (call : Call) (more : List Call)
    (k : Kind) (i : Nat) (hreturned : (run layers calls).returns layers call = some (k, i))
    (hheld : ∀ done, done <+: more → 0 < (tally (calls ++ call :: done)).balance) :
    ((run layers (calls ++ call :: more)).rc k).ptr = some i ∧
      ((run layers (calls ++ call :: more)).destroyed k ++ [i]).Nodup := by
  have hptr : ((run layers (calls ++ call :: more)).rc k).ptr = some i := by
    have hsound := (sound_run layers calls).step layers call
    have hstays : ((more.foldl (fun s : State => s.step layers) _).rc k).ptr = some i :=
      ptr_foldl hsound (ptr_of_returns hreturned) more
        fun done hdone => by simpa [tally] using hheld done hdone
    simpa [run] using hstays
  refine ⟨hptr, ?_⟩
  have honce := ((sound_run layers (calls ++ call :: more)).tidy.forceDelete k).once k
  rw [forceDelete_self.2, hptr] at honce
  exact honce

/-- A thread reads a null pointer, and another one inits the library. -/
def readNull : List Call := [.peek 0 .library, .loaderInit 0]

/-- A second init and its teardown, with a use of a layer between them. -/
def secondInit : List Call := [.loaderInit 0, .peek 1 (.layer 0), .loaderTearDown]

theorem returned_while_held_second :
    ((run 1 (readNull ++ Call.create 0 .library :: secondInit)).rc .library).ptr = some 0 ∧
      ((run 1 (readNull ++ Call.create 0 .library :: secondInit)).destroyed .library ++ [0]).Nodup := by
  refine returned_while_held 1 readNull (.create 0 .library) secondInit .library 0 (by decide) ?_
  intro done hdone
  have hmem := (List.mem_inits _ _).mpr hdone
  clear hdone
  revert done
  decide

/-- One period, and a use of the library after it. -/
def usedBetween : List Call :=
  [.loaderInit 0, .loaderTearDown, .peek 0 .library, .create 0 .library]

/-- The init of the next period finds the context that the use has made. -/
theorem made_by_use : ¬ Creates 0 usedBetween (.loaderInit 0) := by
  intro h
  have hptr := h rfl (by decide)
  cases hptr

end UnifiedRuntime.Loader.Lifetime
