import UnifiedRuntime.LevelZero.QueueGroups

/-!
# Indices in range

A group whose range lies within its queues keeps its next index there, however often it is asked
and by however many threads; and within the range different indices stand for different queues of
the device. Whether the range that the constructor chooses lies within the queues depends on the
device, the property and the environment.

- `Good.step`, `run_good`: what a step preserves, and a run.
- `nativeIndex_within`, `nativeIndex_injective`: the native queues behind the indices.
- `queueGroups_iff`: when the indices of a queue are in range.
-/

namespace UnifiedRuntime.LevelZero.QueueGroups

variable {d : Device} {g : QueueGroup} {groups : List GroupProperties}
  {copyEnv computeEnv : Option Str} {asserts imm : Bool}

/-! ## The environment -/

theorem stoi_range {s : Str} {v : Int} (h : stoi s = .ok v) : -(2 ^ 31) ≤ v ∧ v ≤ intMax := by
  unfold stoi at h
  split at h
  next => cases h
  next w _ =>
    split at h
    next hrange => exact Except.ok.inj h ▸ hrange
    next => cases h

theorem atoi_range (s : Str) : -(2 ^ 31) ≤ atoi s ∧ atoi s ≤ intMax := by
  unfold atoi toI32 intMax
  omega

/-- The bounds of the compute range are `int`s that are not negative. -/
theorem computeRange (env : Option Str) {lower upper : Int}
    (h : getRangeOfAllowedComputeEngines env = (lower, upper)) :
    0 ≤ lower ∧ lower ≤ upper ∧ upper ≤ intMax ∧ (lower = upper ∨ lower = 0) := by
  unfold getRangeOfAllowedComputeEngines at h
  split at h
  next =>
    obtain ⟨rfl, rfl⟩ := Prod.mk.inj h
    exact ⟨le_rfl, le_rfl, by decide, Or.inl rfl⟩
  next s =>
    split at h
    next hpos =>
      obtain ⟨rfl, rfl⟩ := Prod.mk.inj h
      exact ⟨hpos, le_rfl, (atoi_range s).2, Or.inl rfl⟩
    next =>
      obtain ⟨rfl, rfl⟩ := Prod.mk.inj h
      exact ⟨le_rfl, by decide, le_rfl, Or.inr rfl⟩

/-- Those of the copy range are ordered. -/
theorem copyRange {env : Option Str} {lower upper : Int}
    (h : getRangeOfAllowedCopyEngines env imm = .ok (lower, upper)) :
    lower ≤ upper ∧ upper ≤ intMax := by
  unfold getRangeOfAllowedCopyEngines at h
  split at h
  next =>
    have hpair := Except.ok.inj h
    split at hpair
    next =>
      obtain ⟨rfl, rfl⟩ := Prod.mk.inj hpair
      exact ⟨le_rfl, by decide⟩
    next =>
      obtain ⟨rfl, rfl⟩ := Prod.mk.inj hpair
      exact ⟨by decide, le_rfl⟩
  next range =>
    split at h
    next =>
      cases hv : stoi range with
      | error e =>
        rw [hv] at h
        cases h
      | ok v =>
        rw [hv] at h
        have hpair := Except.ok.inj h
        split at hpair
        next =>
          obtain ⟨rfl, rfl⟩ := Prod.mk.inj hpair
          exact ⟨by decide, le_rfl⟩
        next =>
          obtain ⟨rfl, rfl⟩ := Prod.mk.inj hpair
          exact ⟨le_rfl, by decide⟩
    next pos _ =>
      cases hlo : stoi (Str.substr range 0 (some pos)) with
      | error e =>
        rw [hlo] at h
        cases h
      | ok lo =>
        rw [hlo] at h
        cases hhi : stoi (Str.substr range (pos + 1) none) with
        | error e =>
          rw [hhi] at h
          cases h
        | ok hi =>
          rw [hhi] at h
          have hpair := Except.ok.inj h
          split at hpair
          next =>
            obtain ⟨rfl, rfl⟩ := Prod.mk.inj hpair
            exact ⟨by decide, le_rfl⟩
          next hvalid =>
            obtain ⟨rfl, rfl⟩ := Prod.mk.inj hpair
            have hle := (stoi_range hhi).2
            exact ⟨by omega, hle⟩

theorem toU32_of_nonneg {v : Int} (h : 0 ≤ v) (hle : v ≤ intMax) :
    (toU32 v : Int) = v ∧ toU32 v < 2 ^ 31 := by
  unfold toU32 intMax at *
  omega

/-! ## Taking indices -/

/-- The indices of the range are below the number of queues, and the next one is in the range. -/
structure InRange (g : QueueGroup) : Prop where
  lower : g.lowerIndex ≤ g.nextIndex
  upper : g.nextIndex ≤ g.upperIndex
  size : g.upperIndex < g.zeQueues

/-- A group of the same kind as another, in its range. -/
structure Good (g₀ g : QueueGroup) : Prop where
  type : g.type = g₀.type
  zeQueues : g.zeQueues = g₀.zeQueues
  lowerIndex : g.lowerIndex = g₀.lowerIndex
  upperIndex : g.upperIndex = g₀.upperIndex
  inRange : InRange g

variable {g₀ : QueueGroup}

/-- **One step of the round robin stays in the range.** -/
theorem advance_good (h : Good g₀ g) (hint : g₀.upperIndex < 2 ^ 31) : Good g₀ g.advance := by
  obtain ⟨htype, hsize, hlower, hupper, hrange⟩ := h
  refine ⟨htype, hsize, hlower, hupper, ?_⟩
  have hnext : (g.nextIndex + 1) % 2 ^ 32 = g.nextIndex + 1 := by
    have hle := hrange.upper
    exact Nat.mod_eq_of_lt (by omega)
  unfold QueueGroup.advance
  dsimp only
  rw [hnext]
  split
  next hlt => exact ⟨le_rfl, Nat.le_trans hrange.lower hrange.upper, hrange.size⟩
  next hle => exact ⟨Nat.le_succ_of_le hrange.lower, Nat.le_of_not_lt hle, hrange.size⟩

theorem getQueueIndex_good (h : Good g₀ g) (hint : g₀.upperIndex < 2 ^ 31)
    (queryOnly : Bool) : Good g₀ (getQueueIndex d g queryOnly).1 := by
  cases queryOnly with
  | true => exact h
  | false => exact advance_good h hint

theorem mem_of_lookup {α β : Type} [BEq α] {k : α} {v : β} :
    ∀ {l : List (α × β)}, l.lookup k = some v → ∃ a, (a, v) ∈ l
  | [], h => by cases h
  | (a, b) :: l, h => by
    rw [List.lookup_cons] at h
    split at h
    next => exact ⟨a, Option.some.inj h ▸ List.mem_cons_self⟩
    next =>
      obtain ⟨a', ha'⟩ := mem_of_lookup h
      exact ⟨a', List.mem_cons_of_mem _ ha'⟩

/-- **A step of any thread keeps all groups in range.** -/
theorem step_good (hint : g₀.upperIndex < 2 ^ 31) {l : GroupsByTid} (s : Step)
    (h : ∀ e ∈ l, Good g₀ e.2) : ∀ e ∈ GroupsByTid.step d l s, Good g₀ e.2 := by
  unfold GroupsByTid.step
  split
  next => exact h
  next master hmaster =>
    have hentry : Good g₀ (GroupsByTid.get l s.tid master.2) := by
      unfold GroupsByTid.get
      split
      next g hg =>
        obtain ⟨a, ha⟩ := mem_of_lookup hg
        exact h _ ha
      next => exact h _ (List.mem_of_getElem? hmaster)
    intro e he
    rcases List.mem_cons.mp he with rfl | he
    · exact @getQueueIndex_good d _ _ hentry hint _
    · exact h e (List.mem_filter.mp he).1

/-- **So does every run.** -/
theorem run_good (hint : g₀.upperIndex < 2 ^ 31) :
    ∀ (steps : List Step) {l : GroupsByTid}, (∀ e ∈ l, Good g₀ e.2) →
      ∀ e ∈ GroupsByTid.run d l steps, Good g₀ e.2
  | [], _, h => h
  | s :: steps, _, h => run_good hint steps (step_good hint s h)

/-! ## The native queues behind the indices -/

/-- The devices of a platform: root devices and sub-devices, and the sub-sub-devices that stand
for one queue of a compute group. -/
inductive Made (copyEnv : Option Str) (imm : Bool) (groups : List GroupProperties) (d : Device) :
    Prop where
  | root (h : initializeDevice copyEnv imm groups none = some d)
  | subSub (ordinal index : Nat) (p : GroupProperties) (hp : groups[ordinal]? = some p)
      (hindex : index < p.numQueues.toNat) (hint : index < 2 ^ 31)
      (h : initializeDevice copyEnv imm groups (some (ordinal, index)) = some d)

/-- What is known of the groups of a device. -/
structure Native (groups : List GroupProperties) (d : Device) : Prop where
  compute : ∃ o p, d.compute.zeOrdinal = some o ∧ groups[o]? = some p ∧
    (d.compute.zeIndex = none → p.numQueues = d.compute.numQueues) ∧
    ∀ k, d.compute.zeIndex = some k → k < p.numQueues.toNat ∧ k < 2 ^ 31
  main : ∀ o, d.mainCopy.zeOrdinal = some o →
    ∃ p, groups[o]? = some p ∧ p.numQueues = 1 ∧ d.mainCopy.numQueues = 1
  link : ∀ o, d.linkCopy.zeOrdinal = some o →
    ∃ p, groups[o]? = some p ∧ p.numQueues = d.linkCopy.numQueues ∧ p.numQueues ≠ 1

theorem computeGroupInfo_spec : ∀ (ps : List GroupProperties) (i : Nat),
    (computeGroupInfo i ps).zeIndex = none ∧
      ∀ o, (computeGroupInfo i ps).zeOrdinal = some o →
        ∃ k p, o = i + k ∧ ps[k]? = some p ∧ p.numQueues = (computeGroupInfo i ps).numQueues
  | [], i => ⟨rfl, nofun⟩
  | p :: ps, i => by
    rw [computeGroupInfo]
    split
    next => exact ⟨rfl, fun o ho => ⟨0, p, (Option.some.inj ho).symm, rfl, rfl⟩⟩
    next =>
      obtain ⟨hindex, hspec⟩ := computeGroupInfo_spec ps (i + 1)
      refine ⟨hindex, fun o ho => ?_⟩
      obtain ⟨k, q, rfl, hq, hn⟩ := hspec o ho
      exact ⟨k + 1, q, by omega, hq, hn⟩

/-- The main group has one queue, and the link group has not. -/
theorem copyGroupInfos_spec (get : Nat → Option GroupProperties) :
    ∀ (ps : List GroupProperties) (i : Nat) (main : QueueGroupInfo),
      (∀ k p, ps[k]? = some p → get (i + k) = some p) →
      (∀ o, main.zeOrdinal = some o → ∃ p, get o = some p ∧ p.numQueues = 1 ∧ main.numQueues = 1) →
      (∀ o, (copyGroupInfos i main ps).1.zeOrdinal = some o → ∃ p, get o = some p ∧
        p.numQueues = 1 ∧ (copyGroupInfos i main ps).1.numQueues = 1) ∧
      ∀ o, (copyGroupInfos i main ps).2.zeOrdinal = some o → ∃ p, get o = some p ∧
        p.numQueues = (copyGroupInfos i main ps).2.numQueues ∧ p.numQueues ≠ 1
  | [], i, main, _, hmain => ⟨hmain, nofun⟩
  | p :: ps, i, main, hget, hmain => by
    have hrest : ∀ k q, ps[k]? = some q → get (i + 1 + k) = some q := by
      intro k q hq
      have := hget (k + 1) q hq
      rwa [show i + (k + 1) = i + 1 + k by omega] at this
    rw [copyGroupInfos]
    split
    next =>
      split
      next hone =>
        refine copyGroupInfos_spec get ps (i + 1) _ hrest fun o ho => ?_
        obtain rfl := Option.some.inj ho
        exact ⟨p, hget 0 p rfl, hone, hone⟩
      next hne =>
        refine ⟨hmain, fun o ho => ?_⟩
        obtain rfl := Option.some.inj ho
        exact ⟨p, hget 0 p rfl, rfl, hne⟩
    next => exact copyGroupInfos_spec get ps (i + 1) main hrest hmain

theorem Made.native (h : Made copyEnv imm groups d) : Native groups d := by
  obtain ⟨hindex, hcompute⟩ := computeGroupInfo_spec groups 0
  cases h with
  | root h =>
    unfold initializeDevice at h
    dsimp only at h
    split at h
    next => cases h
    next hord =>
      obtain ⟨o, ho⟩ := Option.ne_none_iff_exists'.mp hord
      obtain ⟨k, p, hk, hp, hn⟩ := hcompute o ho
      rw [Nat.zero_add] at hk
      subst hk
      split at h
      next => cases h
      next lower upper _ =>
        obtain rfl := Option.some.inj h
        obtain ⟨hmain, hlink⟩ := copyGroupInfos_spec (groups[·]?) groups 0 .unavailable
          (fun k p hk => by rwa [Nat.zero_add]) nofun
        refine ⟨⟨_, p, ho, hp, fun _ => hn, fun k hk => ?_⟩, ?_, ?_⟩
        · cases hindex.symm.trans hk
        · split
          next => exact hmain
          next => exact nofun
        · split
          next => exact hlink
          next => exact nofun
  | subSub ordinal index p hp hk hint h =>
    obtain rfl := Option.some.inj h
    refine ⟨⟨ordinal, p, rfl, hp, nofun, fun k hk' => ?_⟩, nofun, nofun⟩
    obtain rfl := Option.some.inj hk'
    exact ⟨hk, hint⟩

/-- **An index is one of the queues of its native group.** -/
theorem nativeIndex_copy (h : Native groups d) {type : QueueType} (htype : type ≠ .compute)
    {i : Nat} (hi : i < d.numCopyQueues) (hint : i < 2 ^ 31) :
    (∃ o p, d.mainCopy.zeOrdinal = some o ∧ groups[o]? = some p ∧ p.numQueues = 1 ∧ i = 0 ∧
        nativeIndex d type i = (o, 0)) ∨
      ∃ o p, d.linkCopy.zeOrdinal = some o ∧ groups[o]? = some p ∧ p.numQueues ≠ 1 ∧
        ∃ k, k < p.numQueues.toNat ∧ nativeIndex d type i = (o, k) ∧
          i = k + if d.hasMainCopyEngine then 1 else 0 := by
  unfold nativeIndex indexType
  rw [if_pos htype]
  unfold Device.numCopyQueues at hi
  -- with a main copy engine, those of the link are counted from 1
  cases hmain : d.mainCopy.zeOrdinal with
  | some o =>
    have hhas : d.hasMainCopyEngine = true := by
      unfold Device.hasMainCopyEngine
      rw [hmain]
      rfl
    obtain ⟨p, hp, hone, hnum⟩ := h.main o hmain
    rw [if_pos hhas, hnum] at hi
    rw [hhas]
    by_cases hzero : i = 0
    · subst hzero
      refine Or.inl ⟨o, p, rfl, hp, hone, rfl, ?_⟩
      show ((d.mainCopy.zeOrdinal).getD (2 ^ 32 - 1), 0) = (o, 0)
      rw [hmain]
      rfl
    · have hone' : (1 : UInt32).toNat = 1 := rfl
      have hlink : d.hasLinkCopyEngine = true := by
        by_contra hno
        rw [if_neg hno] at hi
        omega
      rw [if_pos hlink] at hi
      obtain ⟨o', ho'⟩ := Option.isSome_iff_exists.mp hlink
      obtain ⟨q, hq, hnum', hne⟩ := h.link o' ho'
      refine Or.inr ⟨o', q, ho', hq, hne, i - 1, ?_, ?_, ?_⟩
      · rw [hnum']
        omega
      · have hbeq : (i = 0 && true) = false := by
          rw [decide_eq_false hzero]
          rfl
        simp only [hbeq]
        show ((d.linkCopy.zeOrdinal).getD (2 ^ 32 - 1), (i + 2 ^ 32 - 1) % 2 ^ 32) = _
        rw [ho', show (i + 2 ^ 32 - 1) % 2 ^ 32 = i - 1 by omega]
        rfl
      · rw [if_pos rfl]
        omega
  | none =>
    have hhas : d.hasMainCopyEngine = false := by
      unfold Device.hasMainCopyEngine
      rw [hmain]
      rfl
    rw [if_neg (by rw [hhas]; exact Bool.false_ne_true), Nat.zero_add] at hi
    have hlink : d.hasLinkCopyEngine = true := by
      by_contra hno
      rw [if_neg hno] at hi
      omega
    rw [if_pos hlink] at hi
    obtain ⟨o', ho'⟩ := Option.isSome_iff_exists.mp hlink
    obtain ⟨q, hq, hnum', hne⟩ := h.link o' ho'
    refine Or.inr ⟨o', q, ho', hq, hne, i, ?_, ?_, ?_⟩
    · rw [hnum']
      exact hi
    · rw [hhas, Bool.and_false]
      show ((d.linkCopy.zeOrdinal).getD (2 ^ 32 - 1), i) = _
      rw [ho']
      rfl
    · rw [hhas]
      rfl

theorem nativeIndex_compute {o : Nat} (ho : d.compute.zeOrdinal = some o) (i : Nat) :
    nativeIndex d .compute i = (o, i) := by
  show ((d.compute.zeOrdinal).getD (2 ^ 32 - 1), i) = (o, i)
  rw [ho]
  rfl

/-- **A group is safe**: its indices are in range, and those of its range stand for different
queues of the device. -/
structure SafeGroup (groups : List GroupProperties) (d : Device) (g : QueueGroup) : Prop where
  inRange : InRange g
  within : ∀ i, g.lowerIndex ≤ i → i ≤ g.upperIndex →
    ∃ p, groups[(nativeIndex d g.type i).1]? = some p ∧
      (nativeIndex d g.type i).2 < p.numQueues.toNat
  distinct : ∀ i j, g.lowerIndex ≤ i → i ≤ g.upperIndex → g.lowerIndex ≤ j → j ≤ g.upperIndex →
    i ≠ j → nativeIndex d g.type i ≠ nativeIndex d g.type j

/-- Only the range matters for the native queues. -/
theorem SafeGroup.of_good (h : SafeGroup groups d g₀) (hgood : Good g₀ g) :
    SafeGroup groups d g := by
  obtain ⟨htype, -, hlower, hupper, hrange⟩ := hgood
  refine ⟨hrange, ?_, ?_⟩
  · rw [htype, hlower, hupper]
    exact h.within
  · rw [htype, hlower, hupper]
    exact h.distinct

theorem safe_copy (hnative : Native groups d) (htype : g.type ≠ .compute)
    (hsize : g.zeQueues = d.numCopyQueues) (hrange : InRange g) (hint : g.upperIndex < 2 ^ 31) :
    SafeGroup groups d g := by
  have hindex : ∀ i, i ≤ g.upperIndex → i < d.numCopyQueues ∧ i < 2 ^ 31 := by
    intro i hi
    have := hrange.size
    omega
  refine ⟨hrange, fun i _ hi => ?_, fun i j _ hi _ hj hne heq => hne ?_⟩
  · obtain ⟨hlt, hlt'⟩ := hindex i hi
    rcases nativeIndex_copy hnative htype hlt hlt' with
      ⟨o, p, -, hp, hone, -, hpair⟩ | ⟨o, p, -, hp, -, k, hk, hpair, -⟩
    · rw [hpair]
      refine ⟨p, hp, ?_⟩
      rw [hone]
      exact Nat.one_pos
    · rw [hpair]
      exact ⟨p, hp, hk⟩
  · obtain ⟨hlti, hlti'⟩ := hindex i hi
    obtain ⟨hltj, hltj'⟩ := hindex j hj
    rcases nativeIndex_copy hnative htype hlti hlti' with
      ⟨o, p, -, hp, hone, rfl, hpair⟩ | ⟨o, p, -, hp, hmany, k, -, hpair, hik⟩
    · rcases nativeIndex_copy hnative htype hltj hltj' with
        ⟨o', p', -, hp', -, rfl, hpair'⟩ | ⟨o', p', -, hp', hmany', k', -, hpair', -⟩
      · rfl
      · -- the main group has one queue and the link group has not
        rw [hpair, hpair'] at heq
        obtain ⟨rfl, -⟩ := Prod.mk.inj heq
        obtain rfl := Option.some.inj (hp.symm.trans hp')
        exact absurd hone hmany'
    · rcases nativeIndex_copy hnative htype hltj hltj' with
        ⟨o', p', -, hp', hone', -, hpair'⟩ | ⟨o', p', -, hp', -, k', -, hpair', hjk⟩
      · rw [hpair, hpair'] at heq
        obtain ⟨rfl, -⟩ := Prod.mk.inj heq
        obtain rfl := Option.some.inj (hp.symm.trans hp')
        exact absurd hone' hmany
      · rw [hpair, hpair'] at heq
        obtain ⟨-, rfl⟩ := Prod.mk.inj heq
        rw [hik, hjk]

theorem safe_compute (hnative : Native groups d) (htype : g.type = .compute)
    (hsize : g.zeQueues = d.compute.numQueues.toNat) (hrange : InRange g)
    (hone : ∀ k, d.compute.zeIndex = some k → g.lowerIndex = k ∧ g.upperIndex = k) :
    SafeGroup groups d g := by
  obtain ⟨o, p, ho, hp, hroot, hsub⟩ := hnative.compute
  refine ⟨hrange, fun i hlo hi => ?_, fun i j _ _ _ _ hne heq => hne ?_⟩
  · rw [htype, nativeIndex_compute ho]
    refine ⟨p, hp, ?_⟩
    show i < p.numQueues.toNat
    cases hindex : d.compute.zeIndex with
    | none =>
      have := hrange.size
      rw [hroot hindex]
      omega
    | some k =>
      obtain ⟨hlower, hupper⟩ := hone k hindex
      have hk := (hsub k hindex).1
      omega
  · rw [htype] at heq
    exact (Prod.mk.inj heq).2

/-! ## The ranges of the constructor -/

theorem filterUpperIndex_eq {lower upper n : Nat} (hlower : lower < 2 ^ 31)
    (hupper : upper < 2 ^ 31) (hn : n < 2 ^ 34) :
    filterUpperIndex lower upper n =
      if lower + n = 0 then upper else min upper (lower + n - 1) := by
  unfold filterUpperIndex
  split
  next => omega
  next => omega

theorem forceComputeIndex_range (computeIndex : Option UInt32) :
    forceComputeIndex computeIndex ≤ intMax := by
  unfold forceComputeIndex
  split
  next => unfold toI32 intMax; omega
  next => decide

/-- No queue is created: an assertion fails, or no compute queue is allowed. -/
def ComputeStops (asserts : Bool) (computeEnv : Option Str) (d : Device) (force : Int) : Prop :=
  match d.compute.zeIndex with
  | some _ => asserts = true ∧ 0 < force
  | none => force < 0 ∧ d.compute.numQueues.toNat = 0 ∧
      0 < (getRangeOfAllowedComputeEngines computeEnv).1

/-- The index of a sub-sub-device, the index that is asked for, or the lower bound of the
environment is the index of a queue. -/
def ComputeFits (computeEnv : Option Str) (d : Device) (force : Int) : Prop :=
  match d.compute.zeIndex with
  | some index => index < d.compute.numQueues.toNat
  | none =>
    if 0 ≤ force then force < d.compute.numQueues.toNat
    else (getRangeOfAllowedComputeEngines computeEnv).1 < d.compute.numQueues.toNat

/-- The compute group, where there is one. -/
structure ComputeGroup (d : Device) (g : QueueGroup) (fits : Prop) : Prop where
  type : g.type = .compute
  zeQueues : g.zeQueues = d.compute.numQueues.toNat
  bounds : g.lowerIndex ≤ g.upperIndex
  next : g.nextIndex = g.lowerIndex
  int : g.upperIndex < 2 ^ 31
  one : ∀ k, d.compute.zeIndex = some k → g.lowerIndex = k ∧ g.upperIndex = k
  fits : g.upperIndex < g.zeQueues ↔ fits

theorem computeGroup_cases (hnative : Native groups d) (asserts : Bool) (computeEnv : Option Str)
    {force : Int} (hforce : force ≤ intMax) :
    (computeGroup asserts computeEnv d d.compute.numQueues.toNat force = none ∧
        ComputeStops asserts computeEnv d force) ∨
      ∃ g, computeGroup asserts computeEnv d d.compute.numQueues.toNat force = some g ∧
        ¬ ComputeStops asserts computeEnv d force ∧
          ComputeGroup d g (ComputeFits computeEnv d force) := by
  obtain ⟨-, p, -, -, -, hsub⟩ := hnative.compute
  unfold computeGroup ComputeStops ComputeFits
  cases hindex : d.compute.zeIndex with
  | some k =>
    obtain ⟨-, hint⟩ := hsub k hindex
    dsimp only
    split
    next hstop =>
      rw [Bool.and_eq_true, decide_eq_true_eq] at hstop
      exact Or.inl ⟨rfl, hstop⟩
    next hgo =>
      rw [Bool.and_eq_true, decide_eq_true_eq] at hgo
      refine Or.inr ⟨_, rfl, hgo, rfl, rfl, le_rfl, rfl, hint, fun k' hk' => ?_, Iff.rfl⟩
      obtain rfl := Option.some.inj (hindex.symm.trans hk')
      exact ⟨rfl, rfl⟩
  | none =>
    have hn := d.compute.numQueues.toNat_lt
    have hno : ∀ k, d.compute.zeIndex = some k → False := fun k hk => by
      cases hindex.symm.trans hk
    by_cases hpos : 0 ≤ force
    · obtain ⟨hval, hlt⟩ := toU32_of_nonneg hpos hforce
      rw [if_pos hpos, if_pos hpos]
      refine Or.inr ⟨_, rfl, fun h => absurd h.1 (by omega), rfl, rfl, le_rfl, rfl, hlt,
        fun k hk => (hno k hk).elim, ?_⟩
      show toU32 force < d.compute.numQueues.toNat ↔ _
      omega
    · rw [if_neg hpos]
      cases hrange : getRangeOfAllowedComputeEngines computeEnv with
      | mk lower upper =>
        obtain ⟨hlower, hle, hupper, hends⟩ := computeRange computeEnv hrange
        obtain ⟨hlval, hllt⟩ := toU32_of_nonneg hlower (by omega)
        obtain ⟨huval, hult⟩ := toU32_of_nonneg (v := upper) (by omega) hupper
        have heq := @filterUpperIndex_eq (toU32 lower) (toU32 upper) d.compute.numQueues.toNat
          hllt hult (by omega)
        dsimp only
        rw [heq]
        by_cases hstop : d.compute.numQueues.toNat = 0 ∧ 0 < lower
        · refine Or.inl ⟨if_neg ?_, by omega, hstop⟩
          split <;> omega
        · refine Or.inr ⟨_, if_pos ?_, fun h => hstop h.2, rfl, rfl, ?_, rfl, ?_,
            fun k hk => (hno k hk).elim, ?_⟩
          · split <;> omega
          · dsimp only
            split <;> omega
          · dsimp only
            split <;> omega
          · dsimp only
            split <;> omega

/-- The copy group is empty, or its upper bound is the index of a queue. -/
def CopyFits (copyEnv : Option Str) (d : Device) : Prop :=
  ∀ first second, getRangeOfAllowedCopyEngines copyEnv d.immCommandListUsed = .ok (first, second) →
    d.numCopyQueues = 0 ∨ first ≤ 0 ∨ second < d.numCopyQueues

structure CopyGroup (d : Device) (g : QueueGroup) (fits : Prop) : Prop where
  type : g.type = .mainCopy
  bounds : g.lowerIndex ≤ g.upperIndex
  next : g.nextIndex = g.lowerIndex
  int : g.upperIndex < 2 ^ 31
  unused : g.zeQueues = 0 → fits
  used : g.zeQueues ≠ 0 → g.zeQueues = d.numCopyQueues ∧ (g.upperIndex < g.zeQueues ↔ fits)

theorem copyGroup_cases (copyEnv : Option Str) (d : Device) :
    (copyGroup copyEnv d d.numCopyQueues = none ∧
        ∃ e, getRangeOfAllowedCopyEngines copyEnv d.immCommandListUsed = .error e) ∨
      ∃ g, copyGroup copyEnv d d.numCopyQueues = some g ∧
        (∀ e, getRangeOfAllowedCopyEngines copyEnv d.immCommandListUsed ≠ .error e) ∧
          CopyGroup d g (CopyFits copyEnv d) := by
  have hm : d.numCopyQueues < 2 ^ 34 := by
    have hmain := d.mainCopy.numQueues.toNat_lt
    have hlink := d.linkCopy.numQueues.toNat_lt
    unfold Device.numCopyQueues
    split <;> split <;> omega
  unfold copyGroup CopyFits
  cases hrange : getRangeOfAllowedCopyEngines copyEnv d.immCommandListUsed with
  | error e => exact Or.inl ⟨rfl, e, rfl⟩
  | ok range =>
    obtain ⟨first, second⟩ := range
    obtain ⟨hle, hint⟩ := copyRange hrange
    have hpair : (∀ a b : Int, (Except.ok (first, second) : Except Str.StdException (Int × Int)) =
        .ok (a, b) → d.numCopyQueues = 0 ∨ a ≤ 0 ∨ b < d.numCopyQueues) ↔
        d.numCopyQueues = 0 ∨ first ≤ 0 ∨ second < d.numCopyQueues := by
      constructor
      · intro h
        exact h first second rfl
      · rintro h a b hab
        obtain ⟨rfl, rfl⟩ := Prod.mk.inj (Except.ok.inj hab)
        exact h
    rw [hpair]
    dsimp only
    by_cases hneg : first < 0 ∨ second < 0
    · rw [if_pos hneg]
      refine Or.inr ⟨_, rfl, nofun, rfl, le_rfl, rfl, by decide, fun _ => ?_,
        fun h => absurd rfl h⟩
      omega
    · rw [if_neg hneg]
      obtain ⟨hfval, hflt⟩ := toU32_of_nonneg (v := first) (by omega) (by omega)
      obtain ⟨hsval, hslt⟩ := toU32_of_nonneg (v := second) (by omega) hint
      rw [filterUpperIndex_eq hflt hslt hm]
      by_cases hnone : d.numCopyQueues = 0 ∧ 0 < first
      · refine Or.inr ⟨_, if_neg ?_, nofun, rfl, le_rfl, rfl, by decide, fun _ => Or.inl hnone.1,
          fun h => absurd rfl h⟩
        split <;> omega
      · refine Or.inr ⟨_, if_pos ?_, nofun, rfl, ?_, rfl, ?_, fun h => Or.inl h, fun h => ⟨rfl, ?_⟩⟩
        · split <;> omega
        · dsimp only
          split <;> omega
        · dsimp only
          split <;> omega
        · dsimp only at h ⊢
          split <;> omega

/-! ## The queue -/

/-- **The indices of a queue are in range** after any steps of any threads, in the compute group
and, where it is used, in the copy group. -/
def SafeQueue (groups : List GroupProperties) (d : Device) (q : Queue) : Prop :=
  ∀ tid steps,
    (∀ e ∈ GroupsByTid.run d [(tid, q.compute)] steps, SafeGroup groups d e.2) ∧
      (q.copy.zeQueues ≠ 0 → ∀ e ∈ GroupsByTid.run d [(tid, q.copy)] steps, SafeGroup groups d e.2)

theorem run_safe (hsafe : SafeGroup groups d g) (hint : g.upperIndex < 2 ^ 31) (tid : Nat)
    (steps : List Step) : ∀ e ∈ GroupsByTid.run d [(tid, g)] steps, SafeGroup groups d e.2 := by
  have hstart : ∀ e ∈ [(tid, g)], Good g e.2 := by
    intro e he
    obtain rfl := List.mem_singleton.mp he
    exact ⟨rfl, rfl, rfl, rfl, hsafe.inRange⟩
  intro e he
  exact hsafe.of_good (@run_good d g hint steps _ hstart e he)

/-- A range has its next index at its start. -/
theorem inRange_iff (hbounds : g.lowerIndex ≤ g.upperIndex) (hnext : g.nextIndex = g.lowerIndex) :
    InRange g ↔ g.upperIndex < g.zeQueues := by
  constructor
  · intro h
    exact h.size
  · intro h
    exact ⟨hnext.symm.le, hnext.le.trans hbounds, h⟩

theorem safeQueue_iff (hnative : Native groups d) {compute copy : QueueGroup} {P Q : Prop}
    (hcompute : ComputeGroup d compute P) (hcopy : CopyGroup d copy Q) :
    SafeQueue groups d ⟨compute, copy⟩ ↔ P ∧ Q := by
  constructor
  · intro h
    have hfirst := h 0 []
    constructor
    · exact hcompute.fits.mp (hfirst.1 (0, compute) List.mem_cons_self).inRange.size
    · by_cases hused : copy.zeQueues = 0
      · exact hcopy.unused hused
      · have hsafe := hfirst.2 hused (0, copy) List.mem_cons_self
        exact (hcopy.used hused).2.mp hsafe.inRange.size
  · rintro ⟨hp, hq⟩ tid steps
    constructor
    · have hrange := (inRange_iff hcompute.bounds hcompute.next).mpr (hcompute.fits.mpr hp)
      exact run_safe (safe_compute hnative hcompute.type hcompute.zeQueues hrange hcompute.one)
        hcompute.int tid steps
    · intro hused
      obtain ⟨hsize, hfits⟩ := hcopy.used hused
      have hrange := (inRange_iff hcopy.bounds hcopy.next).mpr (hfits.mpr hq)
      have htype : copy.type ≠ .compute := by
        rw [hcopy.type]
        exact nofun
      exact run_safe (safe_copy hnative htype hsize hrange hcopy.int) hcopy.int tid steps

/-- **The indices of a queue, exactly.** On every device of a platform, a queue that
`urQueueCreate` returns has all its indices in range just if no queue is returned, or the compute
index and the bounds of the copy range fit. -/
theorem queueGroups_iff (asserts imm : Bool) (computeEnv copyEnv : Option Str)
    (groups : List GroupProperties) (d : Device) (computeIndex : Option UInt32)
    (hmade : Made copyEnv imm groups d) :
    (∀ q, urQueueCreate asserts computeEnv copyEnv d computeIndex = some q →
        SafeQueue groups d q) ↔
      ComputeStops asserts computeEnv d (forceComputeIndex computeIndex) ∨
        (∃ e, getRangeOfAllowedCopyEngines copyEnv d.immCommandListUsed = .error e) ∨
          ComputeFits computeEnv d (forceComputeIndex computeIndex) ∧ CopyFits copyEnv d := by
  have hnative := hmade.native
  unfold urQueueCreate
  rcases computeGroup_cases hnative asserts computeEnv (forceComputeIndex_range computeIndex) with
    ⟨hnone, hstops⟩ | ⟨compute, hsome, hgo, hcompute⟩
  · rw [hnone]
    exact iff_of_true nofun (Or.inl hstops)
  · rw [hsome]
    rcases copyGroup_cases copyEnv d with ⟨hnone', herr⟩ | ⟨copy, hsome', hok, hcopy⟩
    · rw [hnone']
      exact iff_of_true nofun (Or.inr (Or.inl herr))
    · rw [hsome']
      constructor
      · intro h
        exact Or.inr (Or.inr ((safeQueue_iff hnative hcompute hcopy).mp (h _ rfl)))
      · rintro (hstops | ⟨e, he⟩ | hfits) q hq
        · exact absurd hstops hgo
        · exact absurd he (hok e)
        · obtain rfl := Option.some.inj hq
          exact (safeQueue_iff hnative hcompute hcopy).mpr hfits

/-- A device with four compute queues, a main and two link copy engines. -/
def fourQueues : Device :=
  ⟨⟨some 0, none, 4⟩, ⟨some 1, none, 1⟩, ⟨some 2, none, 2⟩, false⟩

theorem fourQueues_made (imm : Bool) (himm : imm = false) :
    Made none imm [⟨true, true, 4⟩, ⟨false, true, 1⟩, ⟨false, true, 2⟩] fourQueues := by
  subst himm
  exact .root rfl

/-- Its queue for compute index 3 is safe. -/
theorem queueGroups_iff_four :
    SafeQueue [⟨true, true, 4⟩, ⟨false, true, 1⟩, ⟨false, true, 2⟩] fourQueues
      ⟨⟨.compute, 4, 3, 3, 3⟩, ⟨.mainCopy, 3, 0, 2, 0⟩⟩ := by
  refine (queueGroups_iff true false none none _ fourQueues (some 3)
    (fourQueues_made false rfl)).mpr (Or.inr (Or.inr ⟨?_, ?_⟩)) _ (by decide +kernel)
  · have hforce : forceComputeIndex (some 3) = 3 := by decide +kernel
    rw [hforce]
    exact (by decide : (3 : Int) < 4)
  · intro first second h
    obtain ⟨rfl, rfl⟩ := Prod.mk.inj (Except.ok.inj h)
    exact Or.inr (Or.inl le_rfl)

/-- Compute index 7 is accepted for four queues, and so is a lower bound of 4 in the environment;
the copy range 1:3 is kept for three queues. -/
theorem queueGroups_outOfRange :
    (urQueueCreate true none none fourQueues (some 7) =
        some ⟨⟨.compute, 4, 7, 7, 7⟩, ⟨.mainCopy, 3, 0, 2, 0⟩⟩ ∧
      ¬ SafeQueue [⟨true, true, 4⟩, ⟨false, true, 1⟩, ⟨false, true, 2⟩] fourQueues
        ⟨⟨.compute, 4, 7, 7, 7⟩, ⟨.mainCopy, 3, 0, 2, 0⟩⟩) ∧
    (urQueueCreate true (some ['4']) none fourQueues none =
        some ⟨⟨.compute, 4, 4, 4, 4⟩, ⟨.mainCopy, 3, 0, 2, 0⟩⟩ ∧
      ¬ SafeQueue [⟨true, true, 4⟩, ⟨false, true, 1⟩, ⟨false, true, 2⟩] fourQueues
        ⟨⟨.compute, 4, 4, 4, 4⟩, ⟨.mainCopy, 3, 0, 2, 0⟩⟩) ∧
    (urQueueCreate true none (some ['1', ':', '3']) fourQueues none =
        some ⟨⟨.compute, 4, 0, 0, 0⟩, ⟨.mainCopy, 3, 1, 3, 1⟩⟩ ∧
      ¬ SafeQueue [⟨true, true, 4⟩, ⟨false, true, 1⟩, ⟨false, true, 2⟩] fourQueues
        ⟨⟨.compute, 4, 0, 0, 0⟩, ⟨.mainCopy, 3, 1, 3, 1⟩⟩) := by
  refine ⟨⟨by decide +kernel, fun h => ?_⟩, ⟨by decide +kernel, fun h => ?_⟩,
    by decide +kernel, fun h => ?_⟩
  · exact absurd ((h 0 []).1 _ List.mem_cons_self).inRange.size (by decide)
  · exact absurd ((h 0 []).1 _ List.mem_cons_self).inRange.size (by decide)
  · exact absurd ((h 0 []).2 (by decide) _ List.mem_cons_self).inRange.size (by decide)

end UnifiedRuntime.LevelZero.QueueGroups
