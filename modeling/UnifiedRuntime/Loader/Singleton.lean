import Mathlib

/-!
# The loader's handles

With several adapters the loader gives the application objects of its own. For
every native handle a `singleton_factory_t` (`common/ur_singleton.hpp`) keeps one
object and how often it was handed out. The generated functions
(`templates/ldrddi.cpp.mako`) call the adapter with the native handle and then the
factory: `getInstance` for what the adapter puts out, `retain` and `release` for the
retain and release functions.

| here | there |
| --- | --- |
| `LoaderState.getInstance`, `retain`, `release` | the factory |
| `LoaderState.outputs` | a function that puts handles out |
| `LoaderState.retainHandle`, `releaseHandle` | `urXRetain`, `urXRelease` |
-/

namespace UnifiedRuntime.Loader

open Function (update update_of_ne update_self)

/-! ## The factory -/

structure Entry where
  ptr : Nat
  refCount : Nat

/-- The factory's map and the loader objects there are, each with its native handle. -/
structure LoaderState where
  map : Nat → Option Entry
  objects : Nat → Option Nat

namespace LoaderState

def init : LoaderState := ⟨fun _ => none, fun _ => none⟩

/-- A new object for the key at `p`, if that is free memory. -/
def makeUnique (s : LoaderState) (key : Nat) (alloc : Option Nat) : Option (LoaderState × Nat) :=
  match alloc with
  | none => none
  | some p =>
    if p = 0 ∨ (s.objects p).isSome then none
    else some (⟨update s.map key (some ⟨p, 0⟩), update s.objects p (some key)⟩, p)

/-- `none` is `std::bad_alloc`. -/
def getInstance (s : LoaderState) (key : Nat) (alloc : Option Nat) : Option (LoaderState × Nat) :=
  -- no zero keys allowed in map
  if key = 0 then some (s, 0)
  else
    match s.map key with
    | none => s.makeUnique key alloc
    | some e =>
      some ({ s with map := update s.map key (some { e with refCount := e.refCount + 1 }) },
        e.ptr)

/-- `none` where the factory asserts that the key is there. -/
def retain (s : LoaderState) (key : Nat) : Option LoaderState :=
  match s.map key with
  | none => none
  | some e =>
    some { s with map := update s.map key (some { e with refCount := e.refCount + 1 }) }

def release (s : LoaderState) (key : Nat) : Option LoaderState :=
  match s.map key with
  | none => none
  | some e =>
    if e.refCount = 0 then
      some ⟨update s.map key none, update s.objects e.ptr none⟩
    else
      some { s with map := update s.map key (some { e with refCount := e.refCount - 1 }) }

end LoaderState

/-! ## The generated functions -/

inductive CallResult where
  | success | adapterSpecific | uninitialized | outOfHostMemory
  | error (code : Nat)
deriving DecidableEq

/-- After which results of the adapter a function wraps what was put out: most of them
after a success, the enqueue functions also after a warning, `urProgramLink` always. -/
inductive WrapRule where
  | onSuccess | onWarning | always

def WrapRule.wraps : WrapRule → CallResult → Bool
  | .onSuccess, r => decide (r = .success)
  | .onWarning, r => decide (r = .success) || decide (r = .adapterSpecific)
  | .always, _ => true

/-- What a call leaves, what it returns, and the objects it hands out with their keys. -/
structure Outcome where
  state : LoaderState
  result : CallResult
  handed : List (Nat × Nat)

namespace LoaderState

/-- The native handles become loader handles one after the other, up to the first
`std::bad_alloc`. -/
def wrap (s : LoaderState) (r : CallResult) : List (Nat × Option Nat) → Outcome
  | [] => ⟨s, r, []⟩
  | (native, alloc) :: outs =>
    match s.getInstance native alloc with
    | none => ⟨s, .outOfHostMemory, []⟩
    | some (s', p) =>
      let o := s'.wrap r outs
      if native = 0 then o else { o with handed := (native, p) :: o.handed }

/-- `pfn` is what the adapter returns, or `none` if it has no such function. -/
def outputs (s : LoaderState) (rule : WrapRule) (pfn : Option CallResult)
    (outs : List (Nat × Option Nat)) : Outcome :=
  match pfn with
  | none => ⟨s, .uninitialized, []⟩
  | some r => if rule.wraps r then s.wrap r outs else ⟨s, r, []⟩

/-- The retain and the release functions: `none` where the loader reads an object that
is no more, or the factory's assertion fails. -/
def countHandle (s : LoaderState) (factory : LoaderState → Nat → Option LoaderState) (h : Nat)
    (pfn : Option CallResult) : Option Outcome :=
  match s.objects h with
  | none => none
  | some native =>
    match pfn with
    | none => some ⟨s, .uninitialized, []⟩
    | some r => (factory s native).map fun s' => ⟨s', r, []⟩

def retainHandle (s : LoaderState) (h : Nat) (pfn : Option CallResult) : Option Outcome :=
  s.countHandle retain h pfn

def releaseHandle (s : LoaderState) (h : Nat) (pfn : Option CallResult) : Option Outcome :=
  s.countHandle release h pfn

end LoaderState

inductive LoaderCall where
  | outputs (rule : WrapRule) (pfn : Option CallResult) (outs : List (Nat × Option Nat))
  | retain (h : Nat) (pfn : Option CallResult)
  | release (h : Nat) (pfn : Option CallResult)

def LoaderState.step (s : LoaderState) : LoaderCall → Option Outcome
  | .outputs rule pfn outs => some (s.outputs rule pfn outs)
  | .retain h pfn => s.retainHandle h pfn
  | .release h pfn => s.releaseHandle h pfn

/-! ## What the counts are for -/

/-- For each native handle, the successful creations, gets and retains, and the
successful releases. -/
structure Tally where
  acquired : Nat → Nat
  dropped : Nat → Nat

namespace Tally

def init : Tally := ⟨fun _ => 0, fun _ => 0⟩

/-- The tally after a call made in `s`. -/
def next (t : Tally) (s : LoaderState) (c : LoaderCall) (o : Outcome) : Tally :=
  match c with
  | .outputs _ _ _ =>
    { t with acquired := fun k => t.acquired k + (o.handed.map Prod.fst).count k }
  | .retain h pfn =>
    { t with acquired := fun k =>
        t.acquired k + if s.objects h = some k ∧ pfn = some .success then 1 else 0 }
  | .release h pfn =>
    { t with dropped := fun k =>
        t.dropped k + if s.objects h = some k ∧ pfn = some .success then 1 else 0 }

end Tally

/-- The adapter does not fail a retain or a release. -/
def LoaderCall.Succeeds : LoaderCall → Prop
  | .outputs _ _ _ => True
  | .retain _ pfn | .release _ pfn => pfn = none ∨ pfn = some .success

/-! ## Entries and objects -/

namespace LoaderState

/-- How often an entry is held. -/
def held (s : LoaderState) (k : Nat) : Nat :=
  match s.map k with
  | none => 0
  | some e => e.refCount + 1

/-- Every entry has its object, and every object is an entry's. -/
structure Linked (s : LoaderState) : Prop where
  object : ∀ k e, s.map k = some e → s.objects e.ptr = some k
  entry : ∀ p k, s.objects p = some k → ∃ e, s.map k = some e ∧ e.ptr = p

/-- The entries of `s` are there in `s'`, with the objects they had. -/
def Keeps (s s' : LoaderState) : Prop :=
  ∀ k e, s.map k = some e → ∃ e', s'.map k = some e' ∧ e'.ptr = e.ptr

theorem Keeps.rfl {s : LoaderState} : s.Keeps s := fun _ e h => ⟨e, h, Eq.refl _⟩

theorem Keeps.trans {s t u : LoaderState} (h₁ : s.Keeps t) (h₂ : t.Keeps u) : s.Keeps u := by
  intro k e he
  obtain ⟨e', he', hp⟩ := h₁ k e he
  obtain ⟨e'', he'', hp'⟩ := h₂ k e' he'
  exact ⟨e'', he'', hp'.trans hp⟩

theorem linked_init : init.Linked := ⟨fun _ _ h => by simp [init] at h, fun _ _ h => by
  simp [init] at h⟩

theorem held_eq_zero_iff (s : LoaderState) (k : Nat) : s.held k = 0 ↔ s.map k = none := by
  unfold held
  cases s.map k <;> simp

/-! An entry that changes its count. -/

/-- The state with another count for an entry. -/
def setCount (s : LoaderState) (key : Nat) (e : Entry) (n : Nat) : LoaderState :=
  { s with map := update s.map key (some { e with refCount := n }) }

section SetCount

variable {s : LoaderState} {key n : Nat} {e : Entry}

theorem setCount_linked (hs : s.Linked) (he : s.map key = some e) :
    (s.setCount key e n).Linked := by
  refine ⟨fun k e' h => ?_, fun p k h => ?_⟩
  · by_cases hk : k = key
    · subst hk
      simp only [setCount, update_self, Option.some.injEq] at h
      rw [← h]
      exact hs.object k e he
    · simp only [setCount, update_of_ne hk] at h
      exact hs.object k e' h
  · obtain ⟨e', he', hp⟩ := hs.entry p k h
    by_cases hk : k = key
    · subst hk
      rw [he] at he'
      cases he'
      exact ⟨{ e with refCount := n }, by simp [setCount], hp⟩
    · exact ⟨e', by simp [setCount, update_of_ne hk, he'], hp⟩

theorem setCount_keeps (he : s.map key = some e) : s.Keeps (s.setCount key e n) := by
  intro k e' he'
  by_cases hk : k = key
  · subst hk
    rw [he] at he'
    cases he'
    exact ⟨{ e with refCount := n }, by simp [setCount], rfl⟩
  · exact ⟨e', by simp [setCount, update_of_ne hk, he'], rfl⟩

theorem setCount_held (k : Nat) :
    (s.setCount key e n).held k = if k = key then n + 1 else s.held k := by
  by_cases hk : k = key
  · subst hk
    simp [held, setCount]
  · simp [held, setCount, hk]

end SetCount

theorem held_of_map {s : LoaderState} {k : Nat} {e : Entry} (he : s.map k = some e) :
    s.held k = e.refCount + 1 := by
  unfold held
  rw [he]

/-! ## The factory's operations -/

theorem makeUnique_spec {s s' : LoaderState} {key p : Nat} {alloc : Option Nat} (hs : s.Linked)
    (hm : s.map key = none) (h : s.makeUnique key alloc = some (s', p)) :
    s'.Linked ∧ s.Keeps s' ∧ (∀ k, s'.held k = s.held k + if k = key then 1 else 0) ∧
      ∃ e, s'.map key = some e ∧ e.ptr = p := by
  unfold makeUnique at h
  split at h
  · cases h
  · next q =>
    obtain ⟨hfree, ⟨⟩⟩ := Option.ite_none_left_eq_some.mp h
    rw [not_or, Bool.not_eq_true, Option.isSome_eq_false_iff, Option.isNone_iff_eq_none] at hfree
    -- no entry has the new object
    have hne : ∀ k e, s.map k = some e → e.ptr ≠ p := by
      intro k e he hp
      have := hs.object k e he
      rw [hp, hfree.2] at this
      cases this
    have hkey : ∀ k e, s.map k = some e → k ≠ key := by
      rintro k e he rfl
      rw [hm] at he
      cases he
    refine ⟨⟨fun k e he => ?_, fun a k ha => ?_⟩, fun k e he => ?_, fun k => ?_, ?_⟩
    · by_cases hk : k = key
      · subst hk
        simp only [update_self, Option.some.injEq] at he ⊢
        rw [← he, update_self]
      · simp only [update_of_ne hk] at he
        simp only [update_of_ne (hne k e he)]
        exact hs.object k e he
    · by_cases hp : a = p
      · subst hp
        simp only [update_self, Option.some.injEq] at ha
        subst ha
        exact ⟨_, update_self .., rfl⟩
      · simp only [update_of_ne hp] at ha
        obtain ⟨e, he, hep⟩ := hs.entry a k ha
        exact ⟨e, by simp [update_of_ne (hkey k e he), he], hep⟩
    · exact ⟨e, by simp [update_of_ne (hkey k e he), he], rfl⟩
    · by_cases hk : k = key
      · subst hk
        simp [held, hm]
      · simp [held, hk]
    · exact ⟨_, update_self .., rfl⟩

theorem getInstance_spec {s s' : LoaderState} {key p : Nat} {alloc : Option Nat} (hs : s.Linked)
    (hkey : key ≠ 0) (h : s.getInstance key alloc = some (s', p)) :
    s'.Linked ∧ s.Keeps s' ∧ (∀ k, s'.held k = s.held k + if k = key then 1 else 0) ∧
      ∃ e, s'.map key = some e ∧ e.ptr = p := by
  unfold getInstance at h
  rw [if_neg hkey] at h
  split at h
  · next hm => exact makeUnique_spec hs hm h
  · next e he =>
    cases h
    refine ⟨setCount_linked hs he, setCount_keeps he, fun k => ?_,
      ⟨_, update_self .., rfl⟩⟩
    refine (setCount_held k).trans ?_
    by_cases hk : k = key
    · rw [if_pos hk, if_pos hk, hk, held_of_map he]
    · rw [if_neg hk, if_neg hk, Nat.add_zero]

theorem retain_spec {s s' : LoaderState} {key : Nat} (hs : s.Linked)
    (h : s.retain key = some s') :
    s'.Linked ∧ s.Keeps s' ∧ ∀ k, s'.held k = s.held k + if k = key then 1 else 0 := by
  unfold retain at h
  split at h
  · cases h
  · next e he =>
    cases h
    refine ⟨setCount_linked hs he, setCount_keeps he, fun k => ?_⟩
    refine (setCount_held k).trans ?_
    by_cases hk : k = key
    · rw [if_pos hk, if_pos hk, hk, held_of_map he]
    · rw [if_neg hk, if_neg hk, Nat.add_zero]

theorem release_spec {s s' : LoaderState} {key : Nat} (hs : s.Linked)
    (h : s.release key = some s') :
    s'.Linked ∧ (∀ k e, k ≠ key ∨ (s'.map k).isSome → s.map k = some e →
        ∃ e', s'.map k = some e' ∧ e'.ptr = e.ptr) ∧
      ∀ k, s.held k = s'.held k + if k = key then 1 else 0 := by
  unfold release at h
  split at h
  · cases h
  · next e he =>
    split at h
    · next h0 =>
      cases h
      -- no other key leads to the object that goes
      have hother : ∀ k e', s.map k = some e' → e'.ptr = e.ptr → k = key := by
        intro k e' he' hp
        have := hs.object k e' he'
        rw [hp, hs.object key e he] at this
        cases this
        rfl
      refine ⟨⟨fun k e' h => ?_, fun p k h => ?_⟩, fun k e' hk he' => ?_, fun k => ?_⟩
      · by_cases hk : k = key
        · subst hk
          simp at h
        · simp only [update_of_ne hk] at h
          have hp : e'.ptr ≠ e.ptr := fun hp => hk (hother k e' h hp)
          simp only [update_of_ne hp]
          exact hs.object k e' h
      · by_cases hp : p = e.ptr
        · subst hp
          simp at h
        · simp only [update_of_ne hp] at h
          obtain ⟨e', he', hep⟩ := hs.entry p k h
          have hk : k ≠ key := by
            rintro rfl
            rw [he] at he'
            cases he'
            exact hp hep.symm
          exact ⟨e', by simp [update_of_ne hk, he'], hep⟩
      · have hne : k ≠ key := by
          rcases hk with hk | hk
          · exact hk
          · rintro rfl
            simp at hk
        exact ⟨e', by simp [update_of_ne hne, he'], rfl⟩
      · by_cases hk : k = key
        · subst hk
          rw [held_of_map he, h0]
          simp [held]
        · simp [held, hk]
    · next h0 =>
      cases h
      refine ⟨setCount_linked hs he, fun k e' _ he' => setCount_keeps he k e' he', fun k => ?_⟩
      refine Eq.trans ?_ (congrArg (· + _) (setCount_held k).symm)
      by_cases hk : k = key
      · rw [if_pos hk, if_pos hk, hk, held_of_map he]
        omega
      · rw [if_neg hk, if_neg hk, Nat.add_zero]

/-- What was put out is handed out with the objects of the entries. -/
theorem wrap_spec {r : CallResult} {outs : List (Nat × Option Nat)} {s : LoaderState}
    (hs : s.Linked) :
    (s.wrap r outs).state.Linked ∧ s.Keeps (s.wrap r outs).state ∧
      (∀ k, (s.wrap r outs).state.held k
        = s.held k + ((s.wrap r outs).handed.map Prod.fst).count k) ∧
      ∀ x ∈ (s.wrap r outs).handed, ∃ e, (s.wrap r outs).state.map x.1 = some e ∧ e.ptr = x.2 := by
  induction outs generalizing s with
  | nil => exact ⟨hs, Keeps.rfl, fun k => by simp [wrap], by simp [wrap]⟩
  | cons out outs ih =>
    obtain ⟨native, alloc⟩ := out
    unfold wrap
    split
    · exact ⟨hs, Keeps.rfl, fun k => by simp, by simp⟩
    · next s' p hg =>
      by_cases h0 : native = 0
      · have hs' : s' = s := by
          rw [getInstance, if_pos h0] at hg
          cases hg
          rfl
        simp only [if_pos h0, hs']
        exact ih hs
      · obtain ⟨hl, hk, hheld, e, he, hep⟩ := getInstance_spec hs h0 hg
        obtain ⟨hl', hk', hheld', hhanded⟩ := ih hl
        simp only [if_neg h0]
        refine ⟨hl', hk.trans hk', fun k => ?_, fun x hx => ?_⟩
        · rw [hheld' k, hheld k]
          by_cases hkn : k = native
          · subst hkn
            simp
            omega
          · simp [hkn, Ne.symm hkn]
        · rcases List.mem_cons.mp hx with rfl | hx
          · obtain ⟨e', he', hep'⟩ := hk' native e he
            exact ⟨e', he', hep'.trans hep⟩
          · exact hhanded x hx

end LoaderState

end UnifiedRuntime.Loader
