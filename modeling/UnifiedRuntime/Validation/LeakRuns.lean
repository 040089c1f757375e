import UnifiedRuntime.Validation.LeakCheck

/-!
# The counts follow the ledgers

A ledger of a handle is posted with every call that is not refused: a
`createRefCount` of an address that has an entry and a retain of one that has none
are refused. A call that leaves no adapter handle live ends with the report, and
everything is forgotten. `Kept` is the invariant: an entry's count is what its
ledger comes to, and `adapterCount` is the number of adapter handles that are live.
It holds in every run in which an address that has an entry is used with the type
of the entry (`references_tracked`).
-/

namespace UnifiedRuntime.Validation

/-! ## Ledgers -/

/-- The calls on one handle since they last came out even. -/
structure Ledger where
  creations : Nat
  retains : Nat
  releases : Nat
deriving DecidableEq

namespace Ledger

def empty : Ledger := ⟨0, 0, 0⟩

/-- A ledger that comes out even starts again. -/
def settle (l : Ledger) : Ledger := if l.creations + l.retains = l.releases then empty else l

def post (l : Ledger) : RefCountUpdateType → Ledger
  | .create | .createOrIncrease => settle { l with creations := l.creations + 1 }
  | .increase => settle { l with retains := l.retains + 1 }
  | .decrease => settle { l with releases := l.releases + 1 }

/-- Created, and creations and retains exceed the releases. -/
def Live (l : Ledger) : Prop := 0 < l.creations ∧ l.releases < l.creations + l.retains

instance (l : Ledger) : Decidable l.Live := inferInstanceAs (Decidable (_ ∧ _))

def net (l : Ledger) : Int := l.creations + l.retains - l.releases

end Ledger

def RefCountUpdateType.delta : RefCountUpdateType → Int
  | .create | .createOrIncrease | .increase => 1
  | .decrease => -1

namespace Ledger

@[simp] theorem net_empty : empty.net = 0 := rfl

theorem net_settle (l : Ledger) : l.settle.net = l.net := by
  unfold settle
  split
  · next h =>
    rw [net_empty]
    unfold net
    omega
  · rfl

theorem net_post (l : Ledger) (u : RefCountUpdateType) : (l.post u).net = l.net + u.delta := by
  cases u <;> simp only [post, net_settle] <;> simp only [net, RefCountUpdateType.delta] <;>
    push_cast <;> omega

/-- Even ledgers are empty, and what exceeds the releases was created. -/
structure Sound (l : Ledger) : Prop where
  even : l.net = 0 → l = empty
  created : 0 < l.net → 0 < l.creations

theorem sound_empty : empty.Sound := ⟨fun _ => rfl, fun h => absurd h (by decide)⟩

theorem sound_settle {l : Ledger} (h : 0 < l.net → 0 < l.creations) : l.settle.Sound := by
  unfold settle
  split
  · exact sound_empty
  · next hne =>
    refine ⟨fun h0 => ?_, h⟩
    unfold net at h0
    omega

theorem Sound.post {l : Ledger} (hl : l.Sound) {u : RefCountUpdateType}
    (hu : u = .increase → l ≠ empty) : (l.post u).Sound := by
  cases u with
  | createOrIncrease | create => exact sound_settle fun _ => Nat.succ_pos _
  | increase =>
    refine sound_settle fun h => ?_
    -- a retain that makes the ledger positive met a positive one
    have h0 : l.net ≠ 0 := fun h0 => hu rfl (hl.even h0)
    have hpos := hl.created
    simp only [net] at h h0 hpos ⊢
    omega
  | decrease =>
    refine sound_settle fun h => ?_
    have hpos := hl.created
    simp only [net] at h hpos ⊢
    omega

theorem Sound.live_iff {l : Ledger} (hl : l.Sound) : l.Live ↔ 0 < l.net := by
  have hpos := hl.created
  unfold net at hpos ⊢
  constructor
  · rintro ⟨_, h⟩
    omega
  · intro h
    exact ⟨hpos h, by omega⟩

end Ledger

/-! ## Posting the calls -/

section Books

variable {τ : Type}

/-- A ledger for every handle. -/
abbrev Books (τ : Type) : Type := Handle τ → Ledger

namespace Books

def init : Books τ := fun _ => Ledger.empty

/-- Some handle with this address has an open ledger. -/
def Recorded (b : Books τ) (ptr : Nat) : Prop := ∃ h, h.ptr = ptr ∧ b h ≠ Ledger.empty

/-- A `createRefCount` of what is there, a retain of what is not. -/
def Refused (b : Books τ) (k : RefCall τ) : Prop :=
  match k.update with
  | .create => b.Recorded k.handle.ptr
  | .increase => ¬ b.Recorded k.handle.ptr
  | .createOrIncrease | .decrease => False

def post [DecidableEq τ] (b : Books τ) (k : RefCall τ) : Books τ :=
  Function.update b k.handle ((b k.handle).post k.update)

/-- The adapter handles that are live. -/
def adapters (adapter : τ) (b : Books τ) : Set (Handle τ) :=
  {h | h.type = adapter ∧ (b h).Live}

open Classical in
/-- The ledgers after a call: without an adapter they are all forgotten. -/
noncomputable def next [DecidableEq τ] (adapter : τ) (b : Books τ) (k : RefCall τ) : Books τ :=
  if b.Refused k then b
  else if (b.post k).adapters adapter = ∅ then init
  else b.post k

/-- The address is used with the type of its entry, and the adapter flag is given for
adapter handles and for no others. -/
structure Typed (adapter : τ) (b : Books τ) (k : RefCall τ) : Prop where
  sameType : ∀ h, h.ptr = k.handle.ptr → b h ≠ Ledger.empty → h.type = k.handle.type
  flagged : k.isAdapterHandle = true ↔ k.handle.type = adapter

end Books

end Books

/-! ## What a call does to the entries -/

section Entries

variable {τ : Type}

namespace RefCountContext

/-- The count of an address, zero without an entry. -/
def count (c : RefCountContext τ) (ptr : Nat) : Int :=
  match c.counts.lookup ptr with
  | none => 0
  | some it => it.refCount

def refused (c : RefCountContext τ) (k : RefCall τ) : Bool :=
  match k.update with
  | .create => (c.counts.lookup k.handle.ptr).isSome
  | .increase => (c.counts.lookup k.handle.ptr).isNone
  | .createOrIncrease | .decrease => false

/-- What a call adds to `adapterCount`. -/
def adapterDelta (c : RefCountContext τ) (k : RefCall τ) : Int :=
  if k.isAdapterHandle then
    match k.update with
    | .createOrIncrease => if c.counts.lookup k.handle.ptr = none then 1 else 0
    | .decrease => if c.count k.handle.ptr = 1 then -1 else 0
    | .create | .increase => 0
  else 0

/-- The type of the entry a call leaves. -/
def entryType (c : RefCountContext τ) (h : Handle τ) : τ :=
  match c.counts.lookup h.ptr with
  | none => h.type
  | some it => it.type

theorem updateEntry_ok {c : RefCountContext τ} {k : RefCall τ} (hr : c.refused k = false) :
    ∃ log, c.updateEntry k.handle k.update k.isAdapterHandle
      = .ok (⟨c.counts.insert k.handle.ptr
            ⟨c.count k.handle.ptr + k.update.delta, c.entryType k.handle⟩,
          c.adapterCount + c.adapterDelta k⟩,
        ⟨c.count k.handle.ptr + k.update.delta, c.entryType k.handle⟩, log) := by
  cases k with
  | createRefCount h =>
    cases hl : c.counts.lookup h.ptr with
    | none =>
      exact ⟨[], by simp [updateEntry, RefCall.handle, RefCall.update, count, entryType, adapterDelta, RefCountUpdateType.delta, hl]⟩
    | some it => simp [refused, RefCall.update, RefCall.handle, hl] at hr
  | incrementRefCount h b =>
    cases hl : c.counts.lookup h.ptr with
    | none => simp [refused, RefCall.update, RefCall.handle, hl] at hr
    | some it =>
      cases b <;>
        exact ⟨[], by simp [updateEntry, RefCall.handle, RefCall.update,
          count, entryType, adapterDelta, RefCountUpdateType.delta, hl]⟩
  | createOrIncrementRefCount h b =>
    cases hl : c.counts.lookup h.ptr <;> cases b <;>
      exact ⟨[], by simp [updateEntry, RefCall.handle, RefCall.update, RefCall.isAdapterHandle,
        count, entryType, adapterDelta, RefCountUpdateType.delta, hl]⟩
  | decrementRefCount h b =>
    -- one case for an address without an entry, one for each sign of the count
    cases hl : c.counts.lookup h.ptr with
    | none =>
      exact ⟨[.releaseNonexistent h.ptr], by simp [updateEntry, RefCall.handle, RefCall.update,
        count, entryType, adapterDelta, RefCountUpdateType.delta, hl]⟩
    | some it =>
      have hsub : it.refCount + -1 = it.refCount - 1 := by omega
      by_cases hneg : it.refCount - 1 < 0
      · have h1 : it.refCount ≠ 1 := by omega
        exact ⟨[.releaseNonexistent h.ptr], by simp [updateEntry, RefCall.handle,
          RefCall.update, count, entryType, adapterDelta,
          RefCountUpdateType.delta, hl, hneg, h1, hsub]⟩
      · by_cases h1 : it.refCount = 1
        · cases b <;>
            exact ⟨[], by simp [updateEntry, RefCall.handle, RefCall.update,
              RefCall.isAdapterHandle, count, entryType, adapterDelta,
              RefCountUpdateType.delta, hl, h1, Int.sub_eq_add_neg]⟩
        · have h0 : it.refCount - 1 ≠ 0 := by omega
          exact ⟨[], by simp [updateEntry, RefCall.handle, RefCall.update,
            count, entryType, adapterDelta,
            RefCountUpdateType.delta, hl, hneg, h1, h0, hsub]⟩

/-- The entries after a call that is not refused, before the adapters are looked at. -/
def posted (c : RefCountContext τ) (k : RefCall τ) : RefCountContext τ :=
  let it : RefRuntimeInfo τ :=
    ⟨c.count k.handle.ptr + k.update.delta, c.entryType k.handle⟩
  let counts := c.counts.insert k.handle.ptr it
  ⟨if it.refCount = 0 then counts.erase k.handle.ptr else counts,
    c.adapterCount + c.adapterDelta k⟩

theorem call_refused {c : RefCountContext τ} {k : RefCall τ} (hr : c.refused k = true) :
    (c.call k).context = c ∧ (c.call k).report = none := by
  cases k with
  | createRefCount h =>
    obtain ⟨it, hl⟩ := Option.isSome_iff_exists.mp hr
    have hl' : c.counts.lookup h.ptr = some it := hl
    simp [call, createRefCount, updateRefCount, updateEntry, hl']
  | incrementRefCount h b =>
    have hl : c.counts.lookup h.ptr = none := Option.isNone_iff_eq_none.mp hr
    simp [call, incrementRefCount, updateRefCount, updateEntry, hl]
  | createOrIncrementRefCount h b | decrementRefCount h b => simp [refused, RefCall.update] at hr

theorem call_posted {c : RefCountContext τ} {k : RefCall τ} (hr : c.refused k = false) :
    (c.call k).context
        = (if (c.posted k).adapterCount = 0 then init else c.posted k) ∧
      (c.call k).report
        = if (c.posted k).adapterCount = 0 then some (c.posted k).logInvalidReferences
          else none := by
  obtain ⟨log, hu⟩ := updateEntry_ok hr
  rw [call_eq]
  simp only [updateRefCount, hu, posted]
  by_cases h0 : c.count k.handle.ptr + k.update.delta = 0 <;>
    by_cases ha : c.adapterCount + c.adapterDelta k = 0 <;> simp [h0, ha, init]

theorem posted_lookup (c : RefCountContext τ) (k : RefCall τ) :
    (c.posted k).counts.lookup k.handle.ptr
      = if c.count k.handle.ptr + k.update.delta = 0 then none
        else some ⟨c.count k.handle.ptr + k.update.delta, c.entryType k.handle⟩ := by
  simp only [posted]
  split
  · rw [AList.lookup_erase]
  · rw [AList.lookup_insert]

theorem posted_lookup_ne (c : RefCountContext τ) (k : RefCall τ) {p : Nat}
    (hp : p ≠ k.handle.ptr) : (c.posted k).counts.lookup p = c.counts.lookup p := by
  simp only [posted]
  split
  · rw [AList.lookup_erase_ne hp, AList.lookup_insert_ne hp]
  · rw [AList.lookup_insert_ne hp]

end RefCountContext

end Entries

/-! ## The invariant -/

section Kept

variable {τ : Type} [DecidableEq τ] {adapter : τ} {c : RefCountContext τ} {b : Books τ}

/-- What the entry of an address says about one handle. -/
def RefCountContext.balance (c : RefCountContext τ) (h : Handle τ) : Int :=
  match c.counts.lookup h.ptr with
  | none => 0
  | some it => if it.type = h.type then it.refCount else 0

/-- **The entries are what the ledgers come to.** -/
structure Kept (adapter : τ) (c : RefCountContext τ) (b : Books τ) : Prop where
  sound : ∀ h, (b h).Sound
  balance : ∀ h, c.balance h = (b h).net
  nonzero : ∀ p it, c.counts.lookup p = some it → it.refCount ≠ 0
  finite : (b.adapters adapter).Finite
  counted : c.adapterCount = ((b.adapters adapter).ncard : Int)

omit [DecidableEq τ] in
theorem Books.adapters_init : Books.adapters adapter (Books.init : Books τ) = ∅ := by
  ext h
  simp [Books.adapters, Books.init, Ledger.Live, Ledger.empty]

theorem Kept.init : Kept adapter (RefCountContext.init : RefCountContext τ) Books.init where
  sound := fun _ => Ledger.sound_empty
  balance := fun h => by simp [RefCountContext.balance, RefCountContext.init, Books.init]
  nonzero := fun p it h => by simp [RefCountContext.init] at h
  finite := by rw [Books.adapters_init]; exact Set.finite_empty
  counted := by rw [Books.adapters_init]; simp [RefCountContext.init]

namespace Kept

/-- An entry is an open ledger of the handle with the entry's type. -/
theorem open_of_lookup (hk : Kept adapter c b) {p : Nat} {it : RefRuntimeInfo τ}
    (hl : c.counts.lookup p = some it) : b ⟨p, it.type⟩ ≠ Ledger.empty := by
  intro he
  have hb := hk.balance ⟨p, it.type⟩
  simp only [RefCountContext.balance, hl, if_pos, he, Ledger.net_empty] at hb
  exact hk.nonzero p it hl hb

theorem recorded_iff (hk : Kept adapter c b) (p : Nat) :
    b.Recorded p ↔ (c.counts.lookup p).isSome = true := by
  constructor
  · rintro ⟨h, rfl, hne⟩
    cases hl : c.counts.lookup h.ptr with
    | some it => rfl
    | none =>
      have hb := hk.balance h
      simp only [RefCountContext.balance, hl] at hb
      exact absurd ((hk.sound h).even hb.symm) hne
  · intro h
    obtain ⟨it, hl⟩ := Option.isSome_iff_exists.mp h
    exact ⟨⟨p, it.type⟩, rfl, hk.open_of_lookup hl⟩

theorem refused_iff (hk : Kept adapter c b) (k : RefCall τ) :
    b.Refused k ↔ c.refused k = true := by
  cases k with
  | createRefCount h => exact hk.recorded_iff h.ptr
  | incrementRefCount h f =>
    refine (not_congr (hk.recorded_iff h.ptr)).trans ?_
    simp [RefCountContext.refused, RefCall.update, RefCall.handle]
  | createOrIncrementRefCount h f | decrementRefCount h f =>
    simp [Books.Refused, RefCountContext.refused, RefCall.update]

/-- An address used with its type has the count of that handle. -/
theorem count_eq (hk : Kept adapter c b) {k : RefCall τ} (ht : b.Typed adapter k) :
    c.count k.handle.ptr = (b k.handle).net ∧ c.entryType k.handle = k.handle.type := by
  have hb := hk.balance k.handle
  unfold RefCountContext.balance at hb
  unfold RefCountContext.count RefCountContext.entryType
  cases hl : c.counts.lookup k.handle.ptr with
  | none =>
    simp only [hl] at hb
    exact ⟨hb, rfl⟩
  | some it =>
    have hty : it.type = k.handle.type := ht.sameType ⟨_, it.type⟩ rfl (hk.open_of_lookup hl)
    simp only [hl, if_pos hty] at hb
    exact ⟨hb, hty⟩

end Kept

variable {k : RefCall τ}

omit [DecidableEq τ] in
/-- A ledger that is retained is open. -/
theorem Books.open_of_increase (ht : b.Typed adapter k) (hr : ¬ b.Refused k)
    (hu : k.update = .increase) : b k.handle ≠ Ledger.empty := by
  simp only [Books.Refused, hu, not_not] at hr
  obtain ⟨h, hp, hne⟩ := hr
  have hty := ht.sameType h hp hne
  have heq : h = k.handle := Handle.ext_iff.mpr ⟨hp, hty⟩
  rwa [heq] at hne

/-! ## Counting the adapters -/

theorem Books.post_same (b : Books τ) (k : RefCall τ) :
    b.post k k.handle = (b k.handle).post k.update := by
  simp [Books.post]

theorem Books.post_ne (b : Books τ) {h : Handle τ} (hne : h ≠ k.handle) : b.post k h = b h := by
  simp [Books.post, hne]

/-- Where the call leaves the handle as live as it was, or is not about an adapter. -/
theorem Books.adapters_same
    (h : k.handle.type = adapter → (((b k.handle).post k.update).Live ↔ (b k.handle).Live)) :
    (b.post k).adapters adapter = b.adapters adapter := by
  ext x
  by_cases hx : x = k.handle
  · subst hx
    simp only [Books.adapters, Set.mem_ofPred_eq, Books.post_same]
    exact and_congr_right h
  · simp [Books.adapters, Books.post_ne b hx]

theorem Books.adapters_insert (ht : k.handle.type = adapter)
    (h : ((b k.handle).post k.update).Live) :
    (b.post k).adapters adapter = insert k.handle (b.adapters adapter) := by
  ext x
  by_cases hx : x = k.handle
  · subst hx
    simp [Books.adapters, Books.post_same, ht, h]
  · simp [Books.adapters, Books.post_ne b hx, hx]

theorem Books.adapters_diff (h : ¬ ((b k.handle).post k.update).Live) :
    (b.post k).adapters adapter = b.adapters adapter \ {k.handle} := by
  ext x
  by_cases hx : x = k.handle
  · subst hx
    simp [Books.adapters, Books.post_same, h]
  · simp [Books.adapters, Books.post_ne b hx, hx]

theorem Kept.live_post (hk : Kept adapter c b) (ht : b.Typed adapter k) (hr : ¬ b.Refused k) :
    ((b k.handle).post k.update).Sound ∧
      (((b k.handle).post k.update).Live ↔ 0 < (b k.handle).net + k.update.delta) := by
  have hs := (hk.sound k.handle).post (Books.open_of_increase ht hr)
  exact ⟨hs, by rw [hs.live_iff, Ledger.net_post]⟩

theorem Kept.lookup_eq_none_iff (hk : Kept adapter c b) (p : Nat) :
    c.counts.lookup p = none ↔ c.count p = 0 := by
  unfold RefCountContext.count
  cases hl : c.counts.lookup p with
  | none => simp
  | some it => simpa using hk.nonzero p it hl

/-- `adapterCount` moves with the set of the adapter handles that are live. -/
theorem Kept.counted_post (hk : Kept adapter c b) (ht : b.Typed adapter k) (hr : ¬ b.Refused k) :
    ((b.post k).adapters adapter).Finite ∧
      c.adapterCount + c.adapterDelta k = (((b.post k).adapters adapter).ncard : Int) := by
  obtain ⟨hcount, -⟩ := hk.count_eq ht
  obtain ⟨-, hpost⟩ := hk.live_post ht hr
  have hlive := (hk.sound k.handle).live_iff
  have hnone := hk.lookup_eq_none_iff k.handle.ptr
  have hmem (ha : k.handle.type = adapter) :
      k.handle ∈ b.adapters adapter ↔ 0 < (b k.handle).net :=
    ⟨fun h => hlive.mp h.2, fun h => ⟨ha, hlive.mpr h⟩⟩
  -- the set is the old one wherever the call changes nothing about an adapter
  have hsame (hd : c.adapterDelta k = 0) (h : k.handle.type = adapter →
      (((b k.handle).post k.update).Live ↔ (b k.handle).Live)) :
      ((b.post k).adapters adapter).Finite ∧
        c.adapterCount + c.adapterDelta k = (((b.post k).adapters adapter).ncard : Int) := by
    rw [Books.adapters_same h, hd, Int.add_zero]
    exact ⟨hk.finite, hk.counted⟩
  by_cases hf : k.isAdapterHandle = true
  · have ha := ht.flagged.mp hf
    cases k with
    | createRefCount h => exact absurd hf (by simp [RefCall.isAdapterHandle])
    | incrementRefCount h f =>
      have hne : (b h).net ≠ 0 := fun h0 =>
        Books.open_of_increase ht hr rfl ((hk.sound h).even h0)
      refine hsame (by simp [RefCountContext.adapterDelta, RefCall.update]) fun _ => ?_
      rw [hpost, hlive]
      simp only [RefCall.handle, RefCall.update, RefCountUpdateType.delta]
      omega
    | createOrIncrementRefCount h f =>
      simp only [RefCall.handle, RefCall.update, RefCountUpdateType.delta] at hpost hcount hnone
      by_cases hl : c.counts.lookup h.ptr = none
      · have h0 : (b h).net = 0 := by rw [← hcount]; exact hnone.mp hl
        have hnew : h ∉ b.adapters adapter := fun hm => by
          have := (hmem ha).mp hm
          simp only [RefCall.handle] at this
          omega
        have hins := Books.adapters_insert (b := b) ha (hpost.mpr (by omega))
        simp only [RefCall.handle] at hins
        have hd : c.adapterDelta (.createOrIncrementRefCount h f) = 1 := by
          simp only [RefCountContext.adapterDelta, if_pos hf]
          simp [RefCall.update, RefCall.handle, hl]
        rw [hins, hd, Set.ncard_insert_of_notMem hnew hk.finite, hk.counted]
        exact ⟨hk.finite.insert h, rfl⟩
      · have h0 : (b h).net ≠ 0 := by rw [← hcount]; exact fun h0 => hl (hnone.mpr h0)
        refine hsame ?_ fun _ => ?_
        · simp [RefCountContext.adapterDelta, RefCall.update, RefCall.handle, hl]
        · refine hpost.trans (Iff.trans ?_ hlive.symm)
          simp only [RefCall.handle]
          omega
    | decrementRefCount h f =>
      simp only [RefCall.handle, RefCall.update, RefCountUpdateType.delta] at hpost hcount
      by_cases h1 : c.count h.ptr = 1
      · have hold : h ∈ b.adapters adapter := (hmem ha).mpr (by
          simp only [RefCall.handle]
          omega)
        have hdiff := @Books.adapters_diff _ _ adapter b (.decrementRefCount h f) (fun hl => by
          have := hpost.mp hl
          omega)
        simp only [RefCall.handle] at hdiff
        have hd : c.adapterDelta (.decrementRefCount h f) = -1 := by
          simp only [RefCountContext.adapterDelta, if_pos hf]
          simp [RefCall.update, RefCall.handle, h1]
        have hpos : 0 < (b.adapters adapter).ncard :=
          (Set.ncard_pos hk.finite).mpr ⟨h, hold⟩
        rw [hdiff, Set.ncard_sdiff_singleton_of_mem hold, hk.counted]
        exact ⟨hk.finite.subset Set.sdiff_subset, by omega⟩
      · refine hsame ?_ fun _ => ?_
        · simp [RefCountContext.adapterDelta, RefCall.update, RefCall.handle, h1]
        · refine hpost.trans (Iff.trans ?_ hlive.symm)
          simp only [RefCall.handle]
          omega
  · refine hsame ?_ fun ha => absurd (ht.flagged.mpr ha) hf
    simp [RefCountContext.adapterDelta, hf]

/-! ## A call keeps the invariant -/

namespace RefCountContext

theorem balance_posted {k : RefCall τ} (hty : c.entryType k.handle = k.handle.type) :
    (c.posted k).balance k.handle = c.count k.handle.ptr + k.update.delta := by
  unfold balance
  rw [posted_lookup]
  by_cases h0 : c.count k.handle.ptr + k.update.delta = 0 <;> simp [h0, hty]

/-- Another type at the address of the call: the entry left there is not its own. -/
theorem balance_posted_other {k : RefCall τ} {h : Handle τ} (hp : h.ptr = k.handle.ptr)
    (hne : c.entryType k.handle ≠ h.type) : (c.posted k).balance h = 0 ∧ c.balance h = 0 := by
  unfold balance
  rw [hp, posted_lookup]
  unfold entryType at hne ⊢
  cases hl : c.counts.lookup k.handle.ptr with
  | none =>
    simp only [hl] at hne
    by_cases h0 : c.count k.handle.ptr + k.update.delta = 0 <;> simp [h0, hne]
  | some it =>
    simp only [hl] at hne
    by_cases h0 : c.count k.handle.ptr + k.update.delta = 0 <;> simp [h0, hne]

theorem balance_posted_ne {k : RefCall τ} {h : Handle τ} (hp : h.ptr ≠ k.handle.ptr) :
    (c.posted k).balance h = c.balance h := by
  unfold balance
  rw [posted_lookup_ne c k hp]

end RefCountContext

theorem Kept.posted (hk : Kept adapter c b) (ht : b.Typed adapter k)
    (hr : ¬ b.Refused k) : Kept adapter (c.posted k) (b.post k) := by
  obtain ⟨hcount, htype⟩ := hk.count_eq ht
  obtain ⟨hfin, hcounted⟩ := hk.counted_post ht hr
  refine ⟨fun h => ?_, fun h => ?_, fun p it hl => ?_, hfin, hcounted⟩
  · by_cases hh : h = k.handle
    · rw [hh, Books.post_same]
      exact (hk.live_post ht hr).1
    · rw [Books.post_ne b hh]
      exact hk.sound h
  · by_cases hh : h = k.handle
    · rw [hh, RefCountContext.balance_posted htype, Books.post_same, Ledger.net_post, hcount]
    · rw [Books.post_ne b hh, ← hk.balance h]
      by_cases hp : h.ptr = k.handle.ptr
      · have hne : c.entryType k.handle ≠ h.type := fun e =>
          hh (Handle.ext_iff.mpr ⟨hp, by rw [← e, htype]⟩)
        obtain ⟨hnew, hold⟩ := RefCountContext.balance_posted_other hp hne
        rw [hnew, hold]
      · exact RefCountContext.balance_posted_ne hp
  · by_cases hp : p = k.handle.ptr
    · subst hp
      rw [RefCountContext.posted_lookup] at hl
      obtain ⟨hne, ⟨⟩⟩ := Option.ite_none_left_eq_some.mp hl
      exact hne
    · rw [RefCountContext.posted_lookup_ne c k hp] at hl
      exact hk.nonzero p it hl

theorem Kept.adapterCount_eq_zero_iff (hk : Kept adapter c b) :
    c.adapterCount = 0 ↔ b.adapters adapter = ∅ := by
  rw [hk.counted, Int.natCast_eq_zero, Set.ncard_eq_zero hk.finite]

theorem Kept.call (hk : Kept adapter c b) (ht : b.Typed adapter k) :
    Kept adapter (c.call k).context (b.next adapter k) := by
  by_cases hr : b.Refused k
  · have hn : b.next adapter k = b := by rw [Books.next, if_pos hr]
    rw [(RefCountContext.call_refused ((hk.refused_iff k).mp hr)).1, hn]
    exact hk
  · have hp := hk.posted ht hr
    have hf : c.refused k = false := by
      simpa using fun h => hr ((hk.refused_iff k).mpr h)
    rw [(RefCountContext.call_posted hf).1, Books.next, if_neg hr]
    by_cases hnone : (b.post k).adapters adapter = ∅
    · rw [if_pos (hp.adapterCount_eq_zero_iff.mpr hnone), if_pos hnone]
      exact Kept.init
    · rw [if_neg fun h => hnone (hp.adapterCount_eq_zero_iff.mp h), if_neg hnone]
      exact hp

/-- The report is made by the calls that are not refused and leave no adapter live. -/
theorem Kept.report_iff (hk : Kept adapter c b) (ht : b.Typed adapter k) :
    (c.call k).report.isSome = true ↔
      ¬ b.Refused k ∧ (b.post k).adapters adapter = ∅ := by
  by_cases hr : b.Refused k
  · rw [(RefCountContext.call_refused ((hk.refused_iff k).mp hr)).2]
    simp [hr]
  · have hf : c.refused k = false := by
      simpa using fun h => hr ((hk.refused_iff k).mpr h)
    rw [(RefCountContext.call_posted hf).2, ← (hk.posted ht hr).adapterCount_eq_zero_iff]
    split <;> simp_all

theorem Kept.isReferenceValid_iff (hk : Kept adapter c b) (h : Handle τ) :
    c.isReferenceValid h = true ↔ (b h).Live := by
  rw [(hk.sound h).live_iff, ← hk.balance h]
  unfold RefCountContext.isReferenceValid RefCountContext.balance
  cases c.counts.lookup h.ptr with
  | none => simp
  | some it =>
    by_cases hty : it.type = h.type
    · simp [hty]
      omega
    · simp [hty]

end Kept

/-! ## Runs -/

section Runs

variable {τ : Type} [DecidableEq τ]

/-- The states of runs whose calls are all typed, with the ledgers beside them. -/
inductive Tracked (adapter : τ) : RefCountContext τ → Books τ → Prop where
  | init : Tracked adapter .init Books.init
  | call {c : RefCountContext τ} {b : Books τ} (k : RefCall τ) : Tracked adapter c b →
      b.Typed adapter k → Tracked adapter (c.call k).context (b.next adapter k)

theorem Tracked.kept {adapter : τ} {c : RefCountContext τ} {b : Books τ}
    (h : Tracked adapter c b) : Kept adapter c b := by
  induction h with
  | init => exact Kept.init
  | call k _ ht ih => exact ih.call ht

/-- **The validation layer counts the references.** -/
theorem references_tracked {adapter : τ} {c : RefCountContext τ} {b : Books τ}
    (hc : Tracked adapter c b) :
    (∀ h, c.isReferenceValid h = true ↔ (b h).Live) ∧
    c.adapterCount = ((b.adapters adapter).ncard : Int) ∧
    (∀ k, b.Typed adapter k → ((c.call k).report.isSome = true ↔
      ¬ b.Refused k ∧ (b.post k).adapters adapter = ∅)) :=
  ⟨hc.kept.isReferenceValid_iff, hc.kept.counted, fun _ ht => hc.kept.report_iff ht⟩

/-- The context after some calls. -/
def RefCountContext.calls (ks : List (RefCall τ)) : RefCountContext τ :=
  ks.foldl (fun c k => (c.call k).context) .init

/-- The ledgers after some calls. -/
noncomputable def Books.calls (adapter : τ) (ks : List (RefCall τ)) : Books τ :=
  ks.foldl (Books.next adapter) Books.init

/-- A call opens the ledger of its handle only. -/
theorem Books.next_ne_empty {adapter : τ} {b : Books τ} {k : RefCall τ} {h : Handle τ}
    (hne : b.next adapter k h ≠ Ledger.empty) : b h ≠ Ledger.empty ∨ h = k.handle := by
  unfold Books.next at hne
  split at hne
  · exact .inl hne
  · split at hne
    · exact absurd rfl hne
    · by_cases hk : h = k.handle
      · exact .inr hk
      · rw [Books.post, Function.update_of_ne hk] at hne
        exact .inl hne

/-- **Calls that are typed**: each address is used with one type, and flags are given. -/
theorem tracked_calls {adapter : τ} (ks : List (RefCall τ))
    (htypes : ∀ k ∈ ks, ∀ k' ∈ ks, k.handle.ptr = k'.handle.ptr → k.handle.type = k'.handle.type)
    (hflags : ∀ k ∈ ks, (k.isAdapterHandle = true ↔ k.handle.type = adapter)) :
    Tracked adapter (RefCountContext.calls ks) (Books.calls adapter ks) := by
  suffices htracked : Tracked adapter (RefCountContext.calls ks) (Books.calls adapter ks) ∧
      ∀ h, Books.calls adapter ks h ≠ Ledger.empty → ∃ k ∈ ks, k.handle = h from htracked.1
  induction ks using List.reverseRecOn with
  | nil => exact ⟨.init, fun h hne => absurd rfl hne⟩
  | append_singleton ks k ih =>
    obtain ⟨htracked, hused⟩ := ih
      (fun k₁ h₁ k₂ h₂ => htypes k₁ (List.mem_append_left _ h₁) k₂ (List.mem_append_left _ h₂))
      fun k₁ h₁ => hflags k₁ (List.mem_append_left _ h₁)
    have hlast : k ∈ ks ++ [k] := List.mem_append_right _ List.mem_cons_self
    have htyped : (Books.calls adapter ks).Typed adapter k := by
      refine ⟨fun h hptr hne => ?_, hflags k hlast⟩
      obtain ⟨k', hk', rfl⟩ := hused h hne
      exact htypes k' (List.mem_append_left _ hk') k hlast hptr
    have hnext : Books.calls adapter (ks ++ [k]) = (Books.calls adapter ks).next adapter k := by
      simp [Books.calls]
    have hcall : RefCountContext.calls (ks ++ [k]) =
        ((RefCountContext.calls ks).call k).context := by
      simp [RefCountContext.calls]
    rw [hnext, hcall]
    refine ⟨htracked.call k htyped, fun h hne => ?_⟩
    rcases Books.next_ne_empty hne with hold | rfl
    · obtain ⟨k', hk', hh⟩ := hused h hold
      exact ⟨k', List.mem_append_left _ hk', hh⟩
    · exact ⟨k, hlast, rfl⟩

/-- A context of an adapter is created, retained and released once. -/
def oneContext : List (RefCall Bool) :=
  [.createOrIncrementRefCount ⟨1, true⟩ true, .createRefCount ⟨2, false⟩,
    .incrementRefCount ⟨2, false⟩ false, .decrementRefCount ⟨2, false⟩ false]

theorem references_tracked_oneContext :
    (∀ h, (RefCountContext.calls oneContext).isReferenceValid h = true ↔
      (Books.calls true oneContext h).Live) ∧
    (RefCountContext.calls oneContext).adapterCount =
      (((Books.calls true oneContext).adapters true).ncard : Int) ∧
    (∀ k, (Books.calls true oneContext).Typed true k →
      (((RefCountContext.calls oneContext).call k).report.isSome = true ↔
        ¬ (Books.calls true oneContext).Refused k ∧
          ((Books.calls true oneContext).post k).adapters true = ∅)) :=
  references_tracked (tracked_calls oneContext (by decide) (by decide))

/-! ## Calls that are not counted -/

/-- The ledgers when every call is posted and nothing is forgotten. -/
def Books.posts (ks : List (RefCall τ)) : Books τ := ks.foldl Books.post Books.init

/-- Handles that are live by their calls and have no valid reference: a second
`createRefCount`, a retain before the creation, a report with references left, a
creation without an adapter, and a release of the adapter's address as a context. -/
theorem references_not_counted :
    let adapter : Handle Bool := ⟨1, true⟩
    let context : Handle Bool := ⟨2, false⟩
    let get : RefCall Bool := .createOrIncrementRefCount adapter true
    let runs : List (List (RefCall Bool) × Handle Bool) :=
      [([get, .createRefCount context, .createRefCount context,
          .decrementRefCount context false], context),
        ([get, .incrementRefCount context false, .createRefCount context,
          .decrementRefCount context false], context),
        ([get, .createRefCount context, .decrementRefCount adapter true], context),
        ([.createRefCount context], context),
        ([get, .decrementRefCount ⟨1, false⟩ false], adapter)]
    (∀ r ∈ runs, (Books.posts r.1 r.2).Live ∧
      (RefCountContext.calls r.1).isReferenceValid r.2 = false) ∧
    (RefCountContext.init.call (.createRefCount context)).report.isSome = true ∧
    (RefCountContext.calls [get, .decrementRefCount ⟨1, false⟩ false]).adapterCount = 1 := by
  refine ⟨?_, by decide, by decide⟩
  decide

end Runs

end UnifiedRuntime.Validation
