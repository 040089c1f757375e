import UnifiedRuntime.Sanitizer.AsanHeapRuns

/-!
# Chunks that leave the quarantine

`releaseMemory` frees the chunks that `Quarantine::put` returned with the context of
the release and updates that context's statistics, whichever context they were
allocated in; and a free that fails ends the loop over chunks that have left the
quarantine. `Accounts` is what holds as long as neither happens: every chunk that was
evicted was passed to the driver once, with its context, and the counters are the
sizes of the context's chunks in the map. Within the loop `waiting` are the chunks
still to be freed, and `debt` is what `UpdateUSMFreed` will add at the end.
-/

namespace UnifiedRuntime.Sanitizer

open Function (update update_of_ne update_self)
open HeapState

/-! ## Counters -/

/-- What is added up over the entries of the map. -/
def HeapState.total (s : HeapState) (f : Chunk → Nat) : Int :=
  (s.allocationMap.map fun id => (f (s.infos id) : Int)).sum

theorem HeapState.total_nonneg (s : HeapState) (f : Chunk → Nat) : 0 ≤ s.total f := by
  refine List.sum_nonneg fun x hx => ?_
  obtain ⟨id, -, rfl⟩ := List.mem_map.mp hx
  exact Int.natCast_nonneg _

def Chunk.sizeFor (context : ContextId) (x : Chunk) : Nat :=
  if x.context = context then x.allocSize else 0

def Chunk.redzoneFor (context : ContextId) (x : Chunk) : Nat :=
  if x.context = context then x.getRedzoneSize else 0

def Chunk.releasedFor (context : ContextId) (x : Chunk) : Nat :=
  if x.context = context ∧ x.isReleased = true then x.allocSize else 0

theorem sum_filter_ne {l : List InfoId} (hl : l.Nodup) {id : InfoId} (hid : id ∈ l)
    (f : InfoId → Int) : ((l.filter (· ≠ id)).map f).sum + f id = (l.map f).sum := by
  induction l with
  | nil => cases hid
  | cons x rest ih =>
    obtain ⟨hx, hrest⟩ := List.nodup_cons.mp hl
    rcases List.mem_cons.mp hid with rfl | hid
    · have hsame : rest.filter (· ≠ id) = rest := List.filter_eq_self.mpr fun y hy => by
        simpa using fun he : y = id => hx (he ▸ hy)
      rw [List.filter_cons_of_neg (by simp), hsame, List.map_cons, List.sum_cons, Int.add_comm]
    · have hne : x ≠ id := fun he => hx (he ▸ hid)
      rw [List.filter_cons_of_pos (by simpa using hne), List.map_cons, List.sum_cons,
        List.map_cons, List.sum_cons, Int.add_assoc, ih hrest hid]

theorem HeapState.total_erase {s : HeapState} (hnodup : s.allocationMap.Nodup) {id : InfoId}
    (hid : id ∈ s.allocationMap) (f : Chunk → Nat) :
    (s.erase id).total f + f (s.infos id) = s.total f :=
  sum_filter_ne hnodup hid fun x => (f (s.infos x) : Int)

/-! ## Which calls free what they should -/

/-- A call of `allocateMemory` or `releaseMemory`; sizes are `size_t`. -/
def HeapOp.IsMemoryCall : HeapOp → Prop
  | .allocateMemory r _ => r.size < 2 ^ 64
  | .releaseMemory .. => True
  | .registerProgram .. | .driverProgramRelease _ | .unregisterProgram _ => False

/-- The chunks that must leave the quarantine are of the context of the release, and
the driver frees them. -/
def HeapOp.FreesOwn (m : AsanSetup) (s : HeapState) : HeapOp → Prop
  | .releaseMemory context address frees => m.maxQuarantineSizeMB ≠ 0 →
    ∀ id, s.released context address = some id →
      ∀ x ∈ s.toEvict id, (s.infos x).context = context ∧ frees x = true
  | _ => True

/-! ## The invariant -/

structure Accounts (m : AsanSetup) (s : HeapState) (context : ContextId) (debt : Int)
    (waiting : List InfoId) : Prop where
  malloced : ∀ c, (s.stats c).usmMalloced = s.total (·.sizeFor c)
  redzones : ∀ c, (s.stats c).usmMallocedRedzones = s.total (·.redzoneFor c)
  freed : ∀ c, (s.stats c).usmFreed + (if c = context then debt else 0)
    = if m.maxQuarantineSizeMB = 0 then 0 else s.total (·.releasedFor c)
  passed : s.frees.map DriverFree.chunk ++ waiting = s.evicted
  owner : ∀ f ∈ s.frees, f.context = (s.infos f.chunk).context ∧ f.succeeded = true
  once : s.evicted.Nodup
  known : ∀ id ∈ s.evicted, id < s.nextInfo
  erased : ∀ id ∈ s.evicted, id ∈ s.allocationMap ↔ id ∈ waiting
  chunks : ∀ id ∈ s.allocationMap, (s.infos id).isGlobal = false
  noGlobals : ∀ p, s.globals p = []

theorem Accounts.init (m : AsanSetup) (noChunk : Chunk) :
    Accounts m (.init m noChunk) 0 0 [] := by
  refine ⟨fun c => rfl, fun c => rfl, fun c => ?_, rfl, ?_, List.nodup_nil, ?_, ?_, ?_, fun p => rfl⟩
  · have hzero : (HeapState.init m noChunk).total (·.releasedFor c) = 0 := rfl
    rw [hzero, ite_self, ite_self]
    rfl
  all_goals simp [HeapState.init]

/-- Without debts it does not matter whose they are. -/
theorem Accounts.rest {m : AsanSetup} {s : HeapState} {context : ContextId}
    (h : Accounts m s context 0 []) (context' : ContextId) : Accounts m s context' 0 [] := by
  refine { h with freed := fun c => ?_ }
  have hf := h.freed c
  rw [ite_self] at hf ⊢
  exact hf

theorem MapInv.nodup {s : HeapState} (h : MapInv s) : s.allocationMap.Nodup := by
  refine h.apart.imp_of_mem fun {i j} hi _ hij he => ?_
  subst he
  have hpos := (h.block i hi).size_pos
  exact hij ⟨by omega, by omega⟩

/-! ## Allocations -/

theorem sub64_redzone {needed user size : Nat} (hs : size < 2 ^ 64) (hu : user < 2 ^ 64) :
    sub64 needed (sub64 (add64 user size) user) = sub64 needed size := by
  have h : sub64 (add64 user size) user = size := by
    unfold sub64 add64
    omega
  rw [h]

theorem userBegin_lt (m : AsanSetup) (r : AllocRequest) (allocBegin : Nat) :
    r.userBegin m allocBegin < 2 ^ 64 := by
  have hadd : ∀ a b, add64 a b < 2 ^ 64 := fun a b => Nat.mod_lt _ (by norm_num)
  unfold AllocRequest.userBegin
  dsimp only
  split
  · exact hadd _ _
  · exact Nat.lt_of_le_of_lt (Nat.div_mul_le_self _ _) (hadd _ _)

section Steps

variable {m : AsanSetup} {s s' : HeapState} {context : ContextId} {id : InfoId}

theorem MapInv.total_adds (h : MapInv s) {x : Chunk} (ha : MapInv.Adds s s' x)
    (f : Chunk → Nat) : s'.total f = f x + s.total f := by
  unfold HeapState.total
  rw [ha.map, List.map_cons, List.sum_cons, ha.new]
  congr 2
  refine List.map_congr_left fun id hid => ?_
  rw [ha.old (h.freshMap id hid)]

theorem Accounts.noStaleGlobal (h : Accounts m s context 0 []) (x : Chunk) :
    s.NoStaleGlobal x := by
  intro id hid hg
  rw [h.chunks id hid] at hg
  cases hg

/-- What the calls of `urUSMFree` were for is known. -/
theorem Accounts.freed_known (h : Accounts m s context 0 []) {f : DriverFree}
    (hf : f ∈ s.frees) : f.chunk < s.nextInfo := by
  refine h.known f.chunk ?_
  rw [← h.passed, List.append_nil]
  exact List.mem_map_of_mem hf

theorem Accounts.added (h : Accounts m s context 0 []) (hm : MapInv s) {x : Chunk}
    (hx : x.isGlobal = false) (hrel : x.isReleased = false) (ha : MapInv.Adds s s' x)
    (hstats : s'.stats = update s.stats x.context
      ((s.stats x.context).updateUSMMalloced x.allocSize x.getRedzoneSize))
    (hfrees : s'.frees = s.frees) (hevicted : s'.evicted = s.evicted) :
    Accounts m s' context 0 [] := by
  have hold : ∀ f ∈ s.frees, s'.infos f.chunk = s.infos f.chunk := fun f hf =>
    ha.old (h.freed_known hf)
  refine ⟨fun c => ?_, fun c => ?_, fun c => ?_, ?_, ?_, ?_, ?_, ?_, ?_, fun p => ?_⟩
  · rw [hm.total_adds ha, hstats, ← h.malloced c]
    by_cases hc : c = x.context
    · subst hc
      simp only [update_self, AsanStats.updateUSMMalloced, Chunk.sizeFor, if_true]
      omega
    · simp only [update_of_ne hc, Chunk.sizeFor, if_neg (Ne.symm hc)]
      omega
  · rw [hm.total_adds ha, hstats, ← h.redzones c]
    by_cases hc : c = x.context
    · subst hc
      simp only [update_self, AsanStats.updateUSMMalloced, Chunk.redzoneFor, if_true]
      omega
    · simp only [update_of_ne hc, Chunk.redzoneFor, if_neg (Ne.symm hc)]
      omega
  · have hzero : x.releasedFor c = 0 := by
      simp [Chunk.releasedFor, hrel]
    rw [hm.total_adds ha, hstats, hzero, Int.natCast_zero, Int.zero_add, ← h.freed c]
    by_cases hc : c = x.context
    · subst hc
      simp [AsanStats.updateUSMMalloced]
    · simp [update_of_ne hc]
  · rw [hfrees, hevicted]
    exact h.passed
  · intro f hf
    rw [hfrees] at hf
    rw [hold f hf]
    exact h.owner f hf
  · rw [hevicted]
    exact h.once
  · intro id hid
    rw [hevicted] at hid
    rw [ha.nextInfo]
    exact Nat.lt_succ_of_lt (h.known id hid)
  · intro id hid
    rw [hevicted] at hid
    rw [ha.map, ← h.erased id hid, List.mem_cons, or_iff_right (Nat.ne_of_lt (h.known id hid))]
  · intro id hid
    rw [ha.map] at hid
    rcases List.mem_cons.mp hid with rfl | hid
    · rw [ha.new]
      exact hx
    · rw [ha.old (hm.freshMap id hid)]
      exact h.chunks id hid
  · rcases ha.globals with hg | ⟨hg, -⟩
    · rw [hg]
      exact h.noGlobals p
    · rw [hx] at hg
      cases hg

theorem Accounts.allocateMemory (h : Accounts m s context 0 []) (hm : MapInv s)
    (r : AllocRequest) (answer : Option Nat) (hl : (HeapOp.allocateMemory r answer).Legal m s)
    (hsize : r.size < 2 ^ 64) : Accounts m (s.allocateMemory m r answer) context 0 [] := by
  unfold HeapState.allocateMemory
  split
  · exact h
  · cases answer with
    | none => exact h
    | some allocBegin =>
      have hnew := hl allocBegin rfl
      have hap := hm.apart_of_new hnew (h.noStaleGlobal _)
      refine h.added hm rfl rfl ⟨rfl, rfl, MapInv.emplace_map (hm.keys_of_apart hnew.1 hap), rfl,
        rfl, .inl rfl⟩ ?_ rfl rfl
      have hred : Chunk.getRedzoneSize { r.info m allocBegin with isGlobal := false }
          = sub64 (r.neededSize m) r.size := sub64_redzone hsize (userBegin_lt m r allocBegin)
      rw [hred]
      rfl

/-! ## A chunk that is freed -/

/-- The statistics and the map after `UpdateUSMRealFreed` and `erase`. -/
theorem Accounts.total_freed {x : InfoId} (hnodup : s.allocationMap.Nodup)
    (hx : x ∈ s.allocationMap) (hmap : s'.allocationMap = s.allocationMap.filter (· ≠ x))
    (hinfos : s'.infos = s.infos) (f : Chunk → Nat) :
    s'.total f + f (s.infos x) = s.total f := by
  rw [← HeapState.total_erase hnodup hx]
  unfold HeapState.total
  rw [hmap, hinfos]
  rfl

/-- What is counted, without the chunk that was freed. -/
theorem Accounts.realFreed {debt : Int} {waiting : List InfoId}
    (h : Accounts m s context debt waiting) (hctx : (s.infos id).context = context)
    (hstats : s'.stats = update s.stats context ((s.stats context).updateUSMRealFreed m
      (s.infos id).allocSize (s.infos id).getRedzoneSize)) (c : ContextId) :
    (s'.total (·.sizeFor c) + (s.infos id).sizeFor c = s.total (·.sizeFor c) →
      (s'.stats c).usmMalloced = s'.total (·.sizeFor c)) ∧
    (s'.total (·.redzoneFor c) + (s.infos id).redzoneFor c = s.total (·.redzoneFor c) →
      (s'.stats c).usmMallocedRedzones = s'.total (·.redzoneFor c)) := by
  rw [← h.malloced c, ← h.redzones c, hstats]
  by_cases hc : c = context
  · subst hc
    simp only [update_self, AsanStats.updateUSMRealFreed, Chunk.sizeFor, Chunk.redzoneFor,
      hctx, if_true]
    omega
  · simp only [update_of_ne hc, Chunk.sizeFor, Chunk.redzoneFor, hctx,
      if_neg (Ne.symm hc)]
    omega

/-- One round of the loop. -/
def HeapState.freeOne (m : AsanSetup) (s : HeapState) (context : ContextId)
    (frees : InfoId → Bool) (id : InfoId) : HeapState :=
  let s := s.realFreed m context id
  let s := { s with
    heap := s.afterFree id (frees id)
    frees := s.frees ++ [DriverFree.mk id context (frees id)] }
  s.erase id

variable {frees : InfoId → Bool}

/-- A block that the loop frees is counted, and pays its part of the debt. -/
theorem Accounts.freeOne {debt : Int} {rest : List InfoId}
    (hq : m.maxQuarantineSizeMB ≠ 0) (h : Accounts m s context debt (id :: rest))
    (hnodup : s.allocationMap.Nodup) (hctx : (s.infos id).context = context)
    (hrel : (s.infos id).isReleased = true) (hfree : frees id = true) :
    Accounts m (s.freeOne m context frees id) context debt rest := by
  have hevicted : id ∈ s.evicted := by
    rw [← h.passed]
    exact List.mem_append_right _ List.mem_cons_self
  have hid : id ∈ s.allocationMap := (h.erased id hevicted).mpr List.mem_cons_self
  have htotal := @Accounts.total_freed s (s.freeOne m context frees id) id hnodup hid rfl rfl
  have hstats : (s.freeOne m context frees id).stats = update s.stats context
      ((s.stats context).updateUSMRealFreed m (s.infos id).allocSize
        (s.infos id).getRedzoneSize) := rfl
  have hreal := h.realFreed hctx hstats
  refine ⟨fun c => ?_, fun c => ?_, fun c => ?_, ?_, ?_, h.once, h.known, ?_, ?_, h.noGlobals⟩
  · exact (hreal c).1 (htotal (·.sizeFor c))
  · exact (hreal c).2 (htotal (·.redzoneFor c))
  · have ht := htotal (·.releasedFor c)
    have hf := h.freed c
    rw [if_neg hq] at hf ⊢
    rw [← hf] at ht
    rw [hstats]
    by_cases hc : c = context
    · subst hc
      simp only [update_self, AsanStats.updateUSMRealFreed, if_neg hq,
        Chunk.releasedFor, hctx, hrel, and_self, if_true] at ht ⊢
      omega
    · simp only [update_of_ne hc, Chunk.releasedFor, hctx, Ne.symm hc, false_and,
        if_false] at ht ⊢
      omega
  · have hfrees : (s.freeOne m context frees id).frees
        = s.frees ++ [⟨id, context, frees id⟩] := rfl
    rw [hfrees, List.map_append, List.append_assoc]
    exact h.passed
  · intro f hf
    rcases List.mem_append.mp hf with hf | hf
    · exact h.owner f hf
    · obtain rfl := List.mem_singleton.mp hf
      exact ⟨hctx.symm, hfree⟩
  · intro y hy
    have hnot : id ∉ rest := by
      have honce := h.once
      rw [← h.passed] at honce
      exact (List.nodup_cons.mp (List.nodup_append.mp honce).2.1).1
    have hmap : (s.freeOne m context frees id).allocationMap
        = s.allocationMap.filter (· ≠ id) := rfl
    rw [hmap, List.mem_filter, h.erased y hy, List.mem_cons, decide_eq_true_eq]
    constructor
    · rintro ⟨rfl | hy, hne⟩
      · exact absurd rfl hne
      · exact hy
    · intro hy
      exact ⟨.inr hy, fun he => hnot (he ▸ hy)⟩
  · intro y hy
    exact h.chunks y (List.mem_filter.mp hy).1

/-- The loop frees all that is waiting. -/
theorem Accounts.freeLoop {debt : Int} (hq : m.maxQuarantineSizeMB ≠ 0)
    (l : List InfoId) : ∀ {s : HeapState}, Accounts m s context debt l → s.allocationMap.Nodup →
    (∀ x ∈ l, (s.infos x).context = context ∧ (s.infos x).isReleased = true ∧ frees x = true) →
    Accounts m (HeapState.freeLoop m context frees l s).1 context debt [] ∧
      (HeapState.freeLoop m context frees l s).2 = true := by
  induction l with
  | nil => exact fun h _ _ => ⟨h, rfl⟩
  | cons id rest ih =>
    intro s h hnodup hall
    obtain ⟨hctx, hrel, hfree⟩ := hall id List.mem_cons_self
    have hloop : HeapState.freeLoop m context frees (id :: rest) s
        = HeapState.freeLoop m context frees rest (s.freeOne m context frees id) := by
      exact if_pos hfree
    rw [hloop]
    exact ih (h.freeOne hq hnodup hctx hrel hfree) (hnodup.filter _)
      fun x hx => hall x (List.mem_cons_of_mem _ hx)

/-! ## `retire` -/

theorem total_markReleased (f : Chunk → Nat)
    (hf : ∀ x : Chunk, f { x with isReleased := true } = f x) :
    (s.markReleased id).total f = s.total f := by
  unfold HeapState.total
  congr 1
  refine List.map_congr_left fun x _ => ?_
  unfold HeapState.markReleased
  by_cases hx : x = id
  · subst hx
    simp [hf]
  · simp [update_of_ne hx]

/-- A chunk of the map is released now. -/
theorem total_releasedFor_markReleased (hnodup : s.allocationMap.Nodup)
    (hid : id ∈ s.allocationMap) (hrel : (s.infos id).isReleased = false) (c : ContextId) :
    (s.markReleased id).total (·.releasedFor c)
      = s.total (·.releasedFor c) + (s.infos id).sizeFor c := by
  have hold : (s.infos id).releasedFor c = 0 := by
    simp [Chunk.releasedFor, hrel]
  have hnew : ((s.markReleased id).infos id).releasedFor c = (s.infos id).sizeFor c := by
    simp [HeapState.markReleased, Chunk.releasedFor, Chunk.sizeFor]
  have hrest : ((s.markReleased id).erase id).total (·.releasedFor c)
      = (s.erase id).total (·.releasedFor c) := by
    unfold HeapState.total
    congr 1
    refine List.map_congr_left fun x hx => ?_
    have hne : x ≠ id := of_decide_eq_true (List.mem_filter.mp hx).2
    have hinfo : ((s.markReleased id).erase id).infos x = s.infos x :=
      update_of_ne hne ..
    rw [hinfo]
    rfl
  have h1 := HeapState.total_erase (s := s.markReleased id) hnodup hid (·.releasedFor c)
  have h2 := HeapState.total_erase hnodup hid (·.releasedFor c)
  omega

/-- The chunk is released and in the quarantine, the release list is waiting. -/
theorem Accounts.put (hq : m.maxQuarantineSizeMB ≠ 0) (h : Accounts m s context 0 [])
    (hm : MapInv s) (hid : id ∈ s.allocationMap) (hctx : (s.infos id).context = context)
    (hrel : (s.infos id).isReleased = false) :
    Accounts m ((s.markReleased id).putQuarantine id).1 context (s.infos id).allocSize
      (s.toEvict id) := by
  -- what is evicted was in the quarantine, and stays in the map for now
  have hheld : ∀ x ∈ s.toEvict id, x ∈ (s.quarantine.map (s.infos id).device).list := by
    intro x hx
    rw [← toEvict_append]
    exact List.mem_append_left _ hx
  have hmap : ∀ x ∈ s.toEvict id, x ∈ s.allocationMap := fun x hx =>
    (hm.held _ x (hheld x hx)).1
  have hevicted : ((s.markReleased id).putQuarantine id).1.evicted = s.evicted ++ s.toEvict id := by
    rw [← toEvict_markReleased]
    rfl
  have hinfos : ∀ x, ((s.markReleased id).putQuarantine id).1.infos x
      = (s.markReleased id).infos x := fun _ => rfl
  have htotal : ∀ f, ((s.markReleased id).putQuarantine id).1.total f
      = (s.markReleased id).total f := fun _ => rfl
  refine ⟨fun c => ?_, fun c => ?_, fun c => ?_, ?_, fun f hf => ?_, ?_, ?_, ?_, fun x hx => ?_,
    h.noGlobals⟩
  · rw [htotal, total_markReleased _ fun _ => rfl]
    exact h.malloced c
  · rw [htotal, total_markReleased _ fun _ => rfl]
    exact h.redzones c
  · have hf := h.freed c
    have ht := total_releasedFor_markReleased hm.nodup hid hrel c
    have hstats : ((s.markReleased id).putQuarantine id).1.stats = s.stats := rfl
    rw [if_neg hq] at hf ⊢
    rw [htotal, hstats]
    unfold Chunk.sizeFor at ht
    rw [hctx] at ht
    by_cases hc : c = context
    · subst hc
      simp only [if_true] at hf ht ⊢
      omega
    · simp only [if_neg hc, if_neg (Ne.symm hc)] at hf ht ⊢
      omega
  · have hfrees : ((s.markReleased id).putQuarantine id).1.frees = s.frees := rfl
    have hp := h.passed
    rw [List.append_nil] at hp
    rw [hevicted, hfrees, hp]
  · rw [hinfos, (markReleased_same f.chunk).2.2.2.1]
    exact h.owner f hf
  · rw [hevicted]
    have hnodup := hm.heldOnce (s.infos id).device
    rw [← toEvict_append] at hnodup
    refine List.nodup_append.mpr ⟨h.once, (List.nodup_append.mp hnodup).1, ?_⟩
    rintro x hx y hy rfl
    exact absurd ((h.erased x hx).mp (hmap x hy)) List.not_mem_nil
  · intro x hx
    rw [hevicted] at hx
    rcases List.mem_append.mp hx with hx | hx
    · exact h.known x hx
    · exact hm.freshMap x (hmap x hx)
  · intro x hx
    rw [hevicted] at hx
    rcases List.mem_append.mp hx with hx' | hx'
    · refine ⟨fun hin => absurd ((h.erased x hx').mp hin) List.not_mem_nil, fun hin => hmap x hin⟩
    · exact ⟨fun _ => hx', fun _ => hmap x hx'⟩
  · rw [hinfos, (markReleased_same x).2.2.1]
    exact h.chunks x hx

/-- The debt is paid. -/
theorem Accounts.pay {debt : Nat} (hq : m.maxQuarantineSizeMB ≠ 0)
    (h : Accounts m s context debt []) :
    Accounts m (s.updateStats context (·.updateUSMFreed debt)) context 0 [] := by
  refine ⟨fun c => ?_, fun c => ?_, fun c => ?_, h.passed, h.owner, h.once, h.known, h.erased,
    h.chunks, h.noGlobals⟩
  · refine Eq.trans ?_ (h.malloced c)
    by_cases hc : c = context
    · subst hc
      simp [HeapState.updateStats, AsanStats.updateUSMFreed]
    · simp [HeapState.updateStats, update_of_ne hc]
  · refine Eq.trans ?_ (h.redzones c)
    by_cases hc : c = context
    · subst hc
      simp [HeapState.updateStats, AsanStats.updateUSMFreed]
    · simp [HeapState.updateStats, update_of_ne hc]
  · have hf := h.freed c
    rw [if_neg hq] at hf ⊢
    refine Eq.trans ?_ hf
    by_cases hc : c = context
    · subst hc
      simp [HeapState.updateStats, AsanStats.updateUSMFreed]
    · simp [HeapState.updateStats, update_of_ne hc, if_neg hc]

/-- With a quarantine a released block is paid for when it is evicted. -/
theorem Accounts.retire_quarantine (hq : m.maxQuarantineSizeMB ≠ 0)
    (h : Accounts m s context 0 []) (hm : MapInv s) (hid : id ∈ s.allocationMap)
    (hctx : (s.infos id).context = context) (hrel : (s.infos id).isReleased = false)
    (hown : ∀ x ∈ s.toEvict id, (s.infos x).context = context ∧ frees x = true) :
    Accounts m (s.retire m context id frees) context 0 [] := by
  have hput := h.put hq hm hid hctx hrel
  have hall : ∀ x ∈ s.toEvict id,
      (((s.markReleased id).putQuarantine id).1.infos x).context = context ∧
      (((s.markReleased id).putQuarantine id).1.infos x).isReleased = true ∧ frees x = true := by
    intro x hx
    have hinfos : ((s.markReleased id).putQuarantine id).1.infos x
      = (s.markReleased id).infos x := rfl
    have hheld : x ∈ (s.quarantine.map (s.infos id).device).list := by
      rw [← toEvict_append]
      exact List.mem_append_left _ hx
    rw [hinfos, (markReleased_same x).2.2.2.1, markReleased_isReleased, (hm.held _ x hheld).2.2.1,
      ite_self]
    exact ⟨(hown x hx).1, rfl, (hown x hx).2⟩
  obtain ⟨hloop, hdone⟩ := Accounts.freeLoop hq (s.toEvict id) hput hm.nodup hall
  have hsize : ((HeapState.freeLoop m context frees (s.toEvict id)
      ((s.markReleased id).putQuarantine id).1).1.infos id).allocSize = (s.infos id).allocSize := by
    rw [(freeLoop_same _ _).1]
    exact (markReleased_same id).2.1
  unfold HeapState.retire
  rw [if_neg hq]
  simp only [putQuarantine_snd, toEvict_markReleased, hdone, if_true, hsize]
  exact hloop.pay hq

theorem Accounts.retire_now (hq : m.maxQuarantineSizeMB = 0)
    (h : Accounts m s context 0 []) (hm : MapInv s) (hid : id ∈ s.allocationMap)
    (hctx : (s.infos id).context = context) :
    Accounts m (s.retire m context id frees) context 0 [] := by
  rw [retire_freedNow hq]
  have hinfos : (s.freedNow m context id frees).infos = (s.markReleased id).infos := rfl
  have htotal : ∀ f : Chunk → Nat, (∀ x : Chunk, f { x with isReleased := true } = f x) →
      (s.freedNow m context id frees).total f + f (s.infos id) = s.total f := by
    intro f hf
    have h1 := @Accounts.total_freed (s.markReleased id) (s.freedNow m context id frees) id
      hm.nodup hid rfl rfl f
    rw [total_markReleased f hf] at h1
    have h2 : f ((s.markReleased id).infos id) = f (s.infos id) := by
      simp [HeapState.markReleased, hf]
    rwa [h2] at h1
  have hstats : (s.freedNow m context id frees).stats = update s.stats context
      ((s.stats context).updateUSMRealFreed m (s.infos id).allocSize
        (s.infos id).getRedzoneSize) := by
    have h1 := (@markReleased_same s id id).2.1
    have h2 := (@markReleased_same s id id).2.2.2.2.2
    rw [← h1, ← h2]
    rfl
  have hreal := h.realFreed hctx hstats
  refine ⟨fun c => ?_, fun c => ?_, fun c => ?_, h.passed, fun f hf => ?_, h.once, h.known,
    fun x hx => ?_, fun x hx => ?_, h.noGlobals⟩
  · exact (hreal c).1 (htotal (·.sizeFor c) fun _ => rfl)
  · exact (hreal c).2 (htotal (·.redzoneFor c) fun _ => rfl)
  · have hf := h.freed c
    rw [if_pos hq] at hf ⊢
    refine Eq.trans ?_ hf
    rw [hstats]
    by_cases hc : c = context
    · subst hc
      simp [AsanStats.updateUSMRealFreed, if_pos hq]
    · simp [update_of_ne hc]
  · rw [hinfos, (markReleased_same f.chunk).2.2.2.1]
    exact h.owner f hf
  · have hgone := h.erased x hx
    constructor
    · intro hin
      exact hgone.mp (List.mem_filter.mp hin).1
    · intro hin
      cases hin
  · rw [hinfos, (markReleased_same x).2.2.1]
    exact h.chunks x (List.mem_filter.mp hx).1

end Steps

/-! ## Runs -/

section Runs

variable {m : AsanSetup} {s : HeapState}

def FreesOwnChunks (m : AsanSetup) (s : HeapState) (op : HeapOp) : Prop :=
  op.IsMemoryCall ∧ op.FreesOwn m s

/-- **Step lemma.** The accounts rest on the map, so the two are kept together. -/
theorem Accounts.step (h : Accounts m s 0 0 []) (hm : MapInv s) {op : HeapOp}
    (hl : op.Legal m s) (hs : FreesOwnChunks m s op) :
    Accounts m (s.step m op) 0 0 [] ∧ MapInv (s.step m op) := by
  obtain ⟨hcall, hown⟩ := hs
  cases op with
  | allocateMemory r answer =>
    exact ⟨h.allocateMemory hm r answer hl hcall,
      hm.allocateMemory m r answer hl fun _ _ => h.noStaleGlobal _⟩
  | releaseMemory context address frees =>
    have hglob : (HeapOp.releaseMemory context address frees).Safe m s := fun id hid =>
      h.chunks id (released_some hid).1
    refine ⟨?_, hm.releaseMemory address hglob⟩
    show Accounts m (s.releaseMemory m context address frees) 0 0 []
    unfold HeapState.releaseMemory
    split
    · exact h
    · next id hid =>
      obtain ⟨hmem, hctx, hrel⟩ := released_some hid
      by_cases hq : m.maxQuarantineSizeMB = 0
      · exact ((h.rest context).retire_now hq hm hmem hctx).rest 0
      · exact ((h.rest context).retire_quarantine hq hm hmem hctx hrel
          (hown hq id hid)).rest 0
  | registerProgram program context spirKernels reads => exact hcall.elim
  | driverProgramRelease program => exact hcall.elim
  | unregisterProgram program => exact hcall.elim

theorem HeapReached.accounts (h : HeapReached m (FreesOwnChunks m) s) :
    Accounts m s 0 0 [] ∧ MapInv s := by
  induction h with
  | init noChunk => exact ⟨.init m noChunk, .init m noChunk⟩
  | step op _ hl hs ih => exact ih.1.step ih.2 hl hs

/-- **Evicted chunks are released once, by their owner.** -/
structure ReleasedOnce (s : HeapState) : Prop where
  /-- What was evicted was passed to the driver, each chunk once and in order. -/
  passed : s.frees.map DriverFree.chunk = s.evicted ∧ s.evicted.Nodup
  owner : ∀ f ∈ s.frees, f.context = (s.infos f.chunk).context
  /-- Evicted chunks are not in the map, those in the quarantine are. -/
  erased : (∀ id ∈ s.evicted, id ∉ s.allocationMap) ∧
    ∀ d, ∀ id ∈ (s.quarantine.map d).list, id ∈ s.allocationMap
  /-- The counters of a context are those of its chunks. -/
  counted : ∀ c, (s.stats c).usmMalloced = s.total (·.sizeFor c) ∧
    (s.stats c).usmMallocedRedzones = s.total (·.redzoneFor c)
  noUnderflow : ∀ c, 0 ≤ (s.stats c).usmMalloced ∧ 0 ≤ (s.stats c).usmMallocedRedzones ∧
    0 ≤ (s.stats c).usmFreed

theorem evicted_released_once (h : HeapReached m (FreesOwnChunks m) s) : ReleasedOnce s := by
  obtain ⟨ha, hm⟩ := h.accounts
  have hp := ha.passed
  rw [List.append_nil] at hp
  refine ⟨⟨hp, ha.once⟩, fun f hf => (ha.owner f hf).1, ⟨fun id hid hin => ?_,
    fun d id hid => (hm.held d id hid).1⟩, fun c => ⟨ha.malloced c, ha.redzones c⟩,
    fun c => ⟨?_, ?_, ?_⟩⟩
  · exact absurd ((ha.erased id hid).mp hin) List.not_mem_nil
  · rw [ha.malloced c]
    exact s.total_nonneg _
  · rw [ha.redzones c]
    exact s.total_nonneg _
  · have hf := ha.freed c
    rw [ite_self, Int.add_zero] at hf
    rw [hf]
    split
    · exact Int.le_refl 0
    · exact s.total_nonneg _

/-! Chunks of a device with a quarantine of one megabyte. -/

def someBytes (context : ContextId) (size : Nat) : AllocRequest :=
  { sixteenBytes context with size := size }

def freshHeap : HeapState := .init oneQuarantine noChunk

/-- The address the application gets of a chunk at `allocBegin`. -/
def userBegin (context : ContextId) (size allocBegin : Nat) : Nat :=
  (someBytes context size).userBegin oneQuarantine allocBegin

/-- Context 0 has 900000 bytes at 65536, context `c` has 300000 at 2097152. -/
def twoChunks (c : ContextId) : HeapState :=
  (freshHeap.allocateMemory oneQuarantine (someBytes 0 900000) (some 65536)).allocateMemory
    oneQuarantine (someBytes c 300000) (some 2097152)

/-- Both are released; the second evicts the first. -/
def evictedFirst (c : ContextId) (frees : InfoId → Bool) : HeapState :=
  ((twoChunks c).releaseMemory oneQuarantine 0 (userBegin 0 900000 65536) frees).releaseMemory
    oneQuarantine c (userBegin c 300000 2097152) frees

theorem twoChunks_reached (ok : HeapState → HeapOp → Prop)
    (hok : ∀ s r a, r.size < 2 ^ 64 → ok s (.allocateMemory r a)) :
    HeapReached oneQuarantine ok (twoChunks 0) ∧ HeapReached oneQuarantine ok (twoChunks 1) := by
  have hfirst : HeapReached oneQuarantine ok _ := HeapReached.allocate (.init noChunk)
    (someBytes 0 900000) 65536 (by decide +kernel) (hok _ _ _ (by decide +kernel))
  exact ⟨hfirst.allocate _ _ (by decide +kernel) (hok _ _ _ (by decide +kernel)),
    hfirst.allocate _ _ (by decide +kernel) (hok _ _ _ (by decide +kernel))⟩

theorem evicted_released_once_own : ReleasedOnce (evictedFirst 0 fun _ => true) ∧
    (evictedFirst 0 fun _ => true).evicted = [0] := by
  have htwo := (twoChunks_reached (FreesOwnChunks oneQuarantine)
    fun _ _ _ h => ⟨h, trivial⟩).1
  have hfirst := HeapReached.step (.releaseMemory 0 (userBegin 0 900000 65536) fun _ => true)
    htwo trivial ⟨trivial, fun _ id hid x hx => ?_⟩
  · refine ⟨evicted_released_once (.step (.releaseMemory 0 (userBegin 0 300000 2097152)
      fun _ => true) hfirst trivial ⟨trivial, fun _ id hid x hx => ?_⟩), by decide +kernel⟩
    have hid' : id = 1 := by
      have h1 : (((twoChunks 0).releaseMemory oneQuarantine 0 (userBegin 0 900000 65536)
          fun _ => true).released 0 (userBegin 0 300000 2097152)) = some 1 := by decide +kernel
      exact (Option.some.inj (h1.symm.trans hid)).symm
    subst hid'
    have hx' : x ∈ ((twoChunks 0).releaseMemory oneQuarantine 0 (userBegin 0 900000 65536)
          fun _ => true).toEvict 1 := hx
    have hlist : ((twoChunks 0).releaseMemory oneQuarantine 0 (userBegin 0 900000 65536)
          fun _ => true).toEvict 1 = [0] := by decide +kernel
    rw [hlist, List.mem_singleton] at hx'
    subst hx'
    exact ⟨by decide +kernel, rfl⟩
  · have hid' : id = 0 := by
      have h1 : ((twoChunks 0).released 0 (userBegin 0 900000 65536)) = some 0 := by
        decide +kernel
      exact (Option.some.inj (h1.symm.trans hid)).symm
    subst hid'
    have hlist : (twoChunks 0).toEvict 0 = [] := by decide +kernel
    rw [hlist] at hx
    cases hx

/-- A chunk of context 0 that a release in context 1 evicts is freed with context 1,
whose counters underflow. A chunk whose free fails has left the quarantine and stays
in the map, and of the chunks evicted with it the driver never hears. -/
theorem evicted_released_otherwise :
    (∃ s, HeapReached oneQuarantine (fun _ _ => True) s ∧ s.evicted = [0] ∧
      (∃ f ∈ s.frees, f.context ≠ (s.infos f.chunk).context) ∧
      (s.stats 1).usmMalloced < 0 ∧ (s.stats 1).usmFreed < 0) ∧
    (∃ s, HeapReached oneQuarantine (fun _ _ => True) s ∧ s.evicted = [0] ∧
      0 ∈ s.allocationMap) ∧
    (∃ s, HeapReached oneQuarantine (fun _ _ => True) s ∧ s.evicted = [1, 2] ∧
      s.frees.map DriverFree.chunk = [1]) := by
  obtain ⟨hsame, hother⟩ := twoChunks_reached (fun _ _ => True) fun _ _ _ _ => trivial
  have hevicted : ∀ {c}, HeapReached oneQuarantine (fun _ _ => True) (twoChunks c) →
      ∀ frees, HeapReached oneQuarantine (fun _ _ => True) (evictedFirst c frees) :=
    fun h frees => .step (.releaseMemory _ _ frees)
      (.step (.releaseMemory _ _ frees) h trivial trivial) trivial trivial
  refine ⟨⟨_, hevicted hother fun _ => true, by decide +kernel, by decide +kernel,
      by decide +kernel, by decide +kernel⟩,
    ⟨_, hevicted hsame fun _ => false, by decide +kernel, by decide +kernel⟩, ?_⟩
  · -- the two smaller chunks are evicted together by the largest
    have hthird := hsame.allocate (someBytes 0 500000) 8388608 (by decide +kernel) trivial
    have hone := HeapReached.step (.releaseMemory 0 (userBegin 0 300000 2097152) fun _ => true)
      hthird trivial trivial
    have htwo := HeapReached.step (.releaseMemory 0 (userBegin 0 500000 8388608) fun _ => true)
      hone trivial trivial
    exact ⟨_, .step (.releaseMemory 0 (userBegin 0 900000 65536) fun _ => false) htwo trivial
      trivial, by decide +kernel, by decide +kernel⟩

end Runs

end UnifiedRuntime.Sanitizer
