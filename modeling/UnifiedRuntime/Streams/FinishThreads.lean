import UnifiedRuntime.Streams.Pool

/-!
# `urQueueFinish` among several threads (CUDA)

Threads that share one CUDA queue take the steps of `getNextComputeStream`,
`getNextTransferStream`, the enqueue functions and `syncStreams` in any order.
What is atomic here is what the source makes atomic: the creation block and the
two bodies of `syncStreams` run under their mutexes, `ComputeStreamIndex++` is an
atomic increment, and a thread that reuses the stream of a listed event keeps
`ComputeStreamSyncMutex` until its enqueue function returns. Between drawing a
token and submitting the command on its stream a thread holds nothing.

A finish is complete when every command that was submitted before it started is
on a stream that this finish, or one that ran after the submission, has
synchronised. `finish_complete` proves it for every run whose steps are `Safe`;
the two ways to lose a command, and what `Safe` excludes, are a finish that
falls between a thread's token (or stream creation) and its submission, and a
counter that wraps.
-/

namespace UnifiedRuntime.Streams

abbrev Thread := Nat

/-- Where a thread is in the call it is running. -/
inductive Phase
  | idle
  /-- The token just drawn was that of a delayed stream: once more round the loop. -/
  | again
  /-- Past the creation block, before the token. -/
  | created (k : Kind)
  /-- A compute token is drawn, its delay flag not yet looked at. -/
  | drawn (token : Nat)
  /-- The stream is chosen; nothing is locked. -/
  | chosen (k : Kind) (token : Nat)
  /-- The stream of a listed event is chosen; `ComputeStreamSyncMutex` is held. -/
  | reusing (token : Nat)
  /-- In `urQueueFinish`, called when `n` commands had been submitted. -/
  | finishing (n : Nat)
  /-- The same, with the compute streams done. -/
  | finishingTransfer (n : Nat)
  /-- The same, about to return. -/
  | finished (n : Nat)
deriving DecidableEq

/-- A submitted command: the vector and the token of its stream, and whether a
finish has synchronised that stream since. -/
structure Command where
  kind : Kind
  token : Nat
  synced : Bool
deriving DecidableEq

/-- A queue and the threads that use it. The two `since` counts are ghosts. -/
structure State where
  compute : Pool
  transfer : Pool
  computeSince : Nat
  transferSince : Nat
  /-- Who holds `ComputeStreamSyncMutex`. -/
  lock : Option Thread
  phase : Thread → Phase
  commands : List Command

/-- A queue nobody has used yet. -/
def State.ofPools (compute transfer : Pool) : State :=
  { compute, transfer, computeSince := 0, transferSince := 0, lock := none,
    phase := fun _ => .idle, commands := [] }

/-- `urQueueCreate` (any number of streams; the source uses 128 and 64, or 1 and
0) and `urQueueCreateWithNativeHandle`. -/
inductive Initial : State → Prop
  | create (n m : Nat) (hn : 0 < n) : Initial (.ofPools (.new n) (.new m))
  | native : Initial (.ofPools .ofNative (.new 0))

/-- What a thread may do next. -/
inductive Act
  /-- Enter (or go once more round) `getNextComputeStream` and pass its creation block. -/
  | createCompute
  /-- `ComputeStreamIndex++`. -/
  | drawCompute
  /-- `if (DelayCompute[StreamI])`. -/
  | testDelay
  /-- Take the stream of a listed event, that of the command at a position. -/
  | reuse (position : Nat)
  /-- The same in the constructor of `ScopedStream`, whose guard dies at once. -/
  | reuseScoped (position : Nat)
  | createTransfer
  | drawTransfer
  /-- `syncStreams` of a barrier with an empty wait list. -/
  | barrierSync
  /-- Put the command on the chosen stream and return. -/
  | submit
  /-- Return an error instead. -/
  | fail
  | finishStart
  | finishCompute
  | finishTransfer
  | finishReturn

namespace State

def setPhase (s : State) (t : Thread) (ph : Phase) : State :=
  { s with phase := Function.update s.phase t ph }

/-- `syncStreams` has synchronised the given slots of a vector. -/
def synchronize (s : State) (k : Kind) (size : Nat) (slots : List Nat) : List Command :=
  s.commands.map fun c =>
    if c.kind = k ∧ c.token % size ∈ slots then { c with synced := true } else c

/-- The compute body of `urQueueFinish`. -/
def syncCompute (s : State) : State :=
  { s with
    compute := s.compute.syncForFinish .cuda
    computeSince := 0
    commands := s.synchronize .compute s.compute.size (s.compute.syncSlots .cuda) }

/-- The transfer body of `urQueueFinish`. -/
def syncTransfer (s : State) : State :=
  if s.transfer.size = 0 then s
  else
    { s with
      transfer := s.transfer.syncForFinish .cuda
      transferSince := 0
      commands := s.synchronize .transfer s.transfer.size (s.transfer.syncSlots .cuda) }

/-- The token of the compute command at a position, the one its event carries. -/
def computeToken (s : State) (position : Nat) : Option Nat :=
  match s.commands[position]? with
  | some c => if c.kind = .compute then some c.token else none
  | none => none

/-- The reuse branch of `getNextComputeStream`: the token, when the locked check
passes. -/
def reusable (s : State) (t : Thread) (position : Nat) : Option Nat :=
  if s.phase t = .idle ∧ s.lock = none then
    (s.computeToken position).filter fun token => s.compute.canReuseStream token
  else none

/-- `DelayCompute[StreamI] = true`. -/
def delayNext (s : State) (token : Nat) : State :=
  { s with compute := s.compute.setDelay (s.compute.slot token) true }

/-- A command lands on a stream. -/
def append (s : State) (c : Command) : State := { s with commands := s.commands ++ [c] }

/-- The command lands on its stream and the thread returns. -/
def submitted (s : State) (t : Thread) (k : Kind) (token : Nat) : State :=
  (s.append { kind := k, token, synced := false }).setPhase t .idle

/-- One step of thread `t`; `none` when the thread is not there or has to wait
for the mutex. -/
def step (s : State) (t : Thread) : Act → Option State
  | .createCompute =>
    if s.phase t = .idle ∨ s.phase t = .again then
      some ({ s with compute := s.compute.create }.setPhase t (.created .compute))
    else none
  | .drawCompute =>
    if s.phase t = .created .compute then
      some ({ s with
        compute := s.compute.draw
        computeSince := s.computeSince + 1 }.setPhase t (.drawn s.compute.index))
    else none
  | .testDelay =>
    match s.phase t with
    | .drawn token =>
      if s.compute.delay (s.compute.slot token) then
        some ({ s with
          compute := s.compute.setDelay (s.compute.slot token) false }.setPhase t .again)
      else some (s.setPhase t (.chosen .compute token))
    | _ => none
  | .reuse position =>
    (s.reusable t position).map fun token =>
      { (s.delayNext token).setPhase t (.reusing token) with lock := some t }
  | .reuseScoped position =>
    (s.reusable t position).map fun token =>
      (s.delayNext token).setPhase t (.chosen .compute token)
  | .createTransfer =>
    if s.phase t = .idle ∧ 0 < s.transfer.size then
      some ({ s with transfer := s.transfer.create }.setPhase t (.created .transfer))
    else none
  | .drawTransfer =>
    if s.phase t = .created .transfer then
      some ({ s with
        transfer := s.transfer.draw
        transferSince := s.transferSince + 1 }.setPhase t (.chosen .transfer s.transfer.index))
    else none
  | .barrierSync =>
    match s.phase t with
    | .chosen .compute _ =>
      if s.lock = none then some { s with compute := s.compute.syncForBarrier .cuda } else none
    | _ => none
  | .submit =>
    match s.phase t with
    | .chosen k token => some (s.submitted t k token)
    | .reusing token => some { s.submitted t .compute token with lock := none }
    | _ => none
  | .fail =>
    match s.phase t with
    | .chosen _ _ => some (s.setPhase t .idle)
    | .reusing _ => some { s.setPhase t .idle with lock := none }
    | _ => none
  | .finishStart =>
    if s.phase t = .idle then some (s.setPhase t (.finishing s.commands.length)) else none
  | .finishCompute =>
    match s.phase t with
    | .finishing n =>
      if s.lock = none then some (s.syncCompute.setPhase t (.finishingTransfer n)) else none
    | _ => none
  | .finishTransfer =>
    match s.phase t with
    | .finishingTransfer n => some (s.syncTransfer.setPhase t (.finished n))
    | _ => none
  | .finishReturn =>
    match s.phase t with
    | .finished _ => some (s.setPhase t .idle)
    | _ => none

/-- Was the token of this vector drawn since its last finish? -/
def Recent (s : State) : Kind → Nat → Prop
  | .compute, token => s.compute.InWindow s.computeSince token
  | .transfer, token => s.transfer.InWindow s.transferSince token

/-- **What keeps finish complete.** A command is submitted on a stream whose token
was drawn since the last finish; and a finish runs its bodies when no stream
has been created for a token still to be drawn and the counters have not come
round since the last one. -/
def Safe (s : State) (t : Thread) : Act → Prop
  | .submit =>
    match s.phase t with
    | .chosen k token => s.Recent k token
    | .reusing token => s.Recent .compute token
    | _ => True
  | .finishCompute => s.compute.Readable s.computeSince
  | .finishTransfer => s.transfer.size ≠ 0 → s.transfer.Readable s.transferSince
  | _ => True

/-- The states that safe steps of any threads lead to. -/
inductive Reached : State → Prop
  | start {s : State} : Initial s → Reached s
  | step {s s' : State} {t : Thread} {a : Act} :
      Reached s → s.Safe t a → s.step t a = some s' → Reached s'

/-! ## The invariant -/

/-- What a thread inside `urQueueFinish` can rely on, and that transfer streams
are only taken where there are some. -/
def PhaseOk (s : State) : Phase → Prop
  | .created .transfer => s.transfer.size ≠ 0
  | .chosen .transfer _ => s.transfer.size ≠ 0
  | .finishing n => n ≤ s.commands.length
  | .finishingTransfer n =>
    n ≤ s.commands.length ∧ ∀ c ∈ s.commands.take n, c.kind = .compute → c.synced = true
  | .finished n => n ≤ s.commands.length ∧ ∀ c ∈ s.commands.take n, c.synced = true
  | _ => True

/-- Every command that no finish has synchronised carries a recent token. -/
structure Inv (s : State) : Prop where
  size_pos : 0 < s.compute.size
  compute : s.compute.Counts s.computeSince
  transfer : s.transfer.Counts s.transferSince
  outstanding : ∀ c ∈ s.commands, c.synced = true ∨ s.Recent c.kind c.token
  transferred : ∀ c ∈ s.commands, c.kind = .transfer → s.transfer.size ≠ 0
  phases : ∀ t, s.PhaseOk (s.phase t)

theorem initial_inv {s : State} (h : Initial s) : s.Inv := by
  cases h with
  | create n m hn =>
    exact ⟨hn, Pool.counts_new n, Pool.counts_new m, fun _ hc => absurd hc List.not_mem_nil,
      fun _ hc => absurd hc List.not_mem_nil, fun _ => trivial⟩
  | native =>
    exact ⟨Nat.one_pos, Pool.counts_ofNative, Pool.counts_new 0,
      fun _ hc => absurd hc List.not_mem_nil, fun _ hc => absurd hc List.not_mem_nil,
      fun _ => trivial⟩

variable {s s' : State} {t : Thread}

theorem Inv.move (h : s.Inv) (t : Thread) (ph : Phase) (hph : s.PhaseOk ph) :
    (s.setPhase t ph).Inv := by
  refine ⟨h.size_pos, h.compute, h.transfer, h.outstanding, h.transferred, fun u => ?_⟩
  by_cases hu : u = t
  · have hnew : (s.setPhase t ph).phase u = ph := by
      rw [hu]
      exact Function.update_self t ph s.phase
    rw [hnew]
    exact hph
  · have hold : (s.setPhase t ph).phase u = s.phase u := by
      show Function.update s.phase t ph u = s.phase u
      rw [Function.update_of_ne hu]
    rw [hold]
    exact h.phases u

theorem Inv.relock (h : s.Inv) (l : Option Thread) : Inv { s with lock := l } :=
  ⟨h.size_pos, h.compute, h.transfer, h.outstanding, h.transferred, h.phases⟩

/-- The compute pool moves on and no token leaves the window. -/
theorem Inv.withCompute (h : s.Inv) {p : Pool} {d : Nat} (hsize : p.size = s.compute.size)
    (hc : p.Counts d)
    (hmono : ∀ token, s.compute.InWindow s.computeSince token → p.InWindow d token) :
    Inv { s with compute := p, computeSince := d } := by
  refine ⟨hsize ▸ h.size_pos, hc, h.transfer, fun c hmem => ?_, h.transferred, h.phases⟩
  rcases h.outstanding c hmem with hsync | hrec
  · exact .inl hsync
  · right
    cases hk : c.kind with
    | compute =>
      rw [hk] at hrec
      exact hmono _ hrec
    | transfer =>
      rw [hk] at hrec
      exact hrec

/-- The same for the transfer pool. -/
theorem Inv.withTransfer (h : s.Inv) {p : Pool} {d : Nat} (hsize : p.size = s.transfer.size)
    (hc : p.Counts d)
    (hmono : ∀ token, s.transfer.InWindow s.transferSince token → p.InWindow d token) :
    Inv { s with transfer := p, transferSince := d } := by
  refine ⟨h.size_pos, h.compute, hc, fun c hmem => ?_, fun c hmem hk => ?_, fun u => ?_⟩
  · rcases h.outstanding c hmem with hsync | hrec
    · exact .inl hsync
    · right
      cases hk : c.kind with
      | compute =>
        rw [hk] at hrec
        exact hrec
      | transfer =>
        rw [hk] at hrec
        exact hmono _ hrec
  · exact hsize ▸ h.transferred c hmem hk
  · have := h.phases u
    unfold PhaseOk at this ⊢
    rw [hsize]
    exact this

/-- A pool whose counters are the same keeps its window. -/
theorem Inv.sameCompute (h : s.Inv) {p : Pool} (hsize : p.size = s.compute.size)
    (hsync : p.lastSync = s.compute.lastSync) (hidx : p.index = s.compute.index) :
    Inv { s with compute := p } := by
  refine h.withCompute hsize ⟨hsync ▸ h.compute.lastSync_lt, ?_⟩ fun token htok => ?_
  · rw [hidx, hsync, h.compute.index_eq]
  · unfold Pool.InWindow
    rw [hsync]
    exact htok

theorem Inv.delayNext (h : s.Inv) (token : Nat) : (s.delayNext token).Inv :=
  h.sameCompute rfl rfl rfl

theorem Inv.append (h : s.Inv) {c : Command} (hrec : s.Recent c.kind c.token)
    (hk : c.kind = .transfer → s.transfer.size ≠ 0) : (s.append c).Inv := by
  have hmem : ∀ x ∈ s.commands ++ [c], x ∈ s.commands ∨ x = c := by
    intro x hx
    rcases List.mem_append.mp hx with hx | hx
    · exact .inl hx
    · exact .inr (List.mem_singleton.mp hx)
  refine ⟨h.size_pos, h.compute, h.transfer, fun x hx => ?_, fun x hx hxk => ?_, fun u => ?_⟩
  · rcases hmem x hx with hx | rfl
    · exact h.outstanding x hx
    · exact .inr hrec
  · rcases hmem x hx with hx | rfl
    · exact h.transferred x hx hxk
    · exact hk hxk
  · -- what a finish owes was submitted before, so the new command is past its count
    have hu := h.phases u
    have hlen : s.commands.length ≤ (s.commands ++ [c]).length := by simp
    show PhaseOk _ (s.phase u)
    cases hph : s.phase u <;> rw [hph] at hu
    case finishing n => exact Nat.le_trans hu hlen
    case finishingTransfer n =>
      refine ⟨Nat.le_trans hu.1 hlen, fun x hx => hu.2 x ?_⟩
      rwa [State.append, List.take_append_of_le_length hu.1] at hx
    case finished n =>
      refine ⟨Nat.le_trans hu.1 hlen, fun x hx => hu.2 x ?_⟩
      rwa [State.append, List.take_append_of_le_length hu.1] at hx
    case created k => cases k <;> exact hu
    case chosen k token => cases k <;> exact hu
    all_goals trivial

/-! ## The two bodies of a finish -/

/-- A body of `syncStreams` marks commands and changes nothing else about them. -/
theorem mem_synchronize {k : Kind} {size : Nat} {slots : List Nat} {c : Command}
    (hc : c ∈ s.synchronize k size slots) :
    ∃ c₀ ∈ s.commands, c.kind = c₀.kind ∧ c.token = c₀.token ∧
      (c₀.synced = true → c.synced = true) ∧
      (c₀.kind = k → c₀.token % size ∈ slots → c.synced = true) := by
  obtain ⟨c₀, hc₀, rfl⟩ := List.mem_map.mp hc
  refine ⟨c₀, hc₀, ?_, ?_, fun h => ?_, fun h₁ h₂ => ?_⟩
  · split <;> rfl
  · split <;> rfl
  · split
    · rfl
    · exact h
  · rw [if_pos ⟨h₁, h₂⟩]

theorem take_synchronize (s : State) (k : Kind) (size : Nat) (slots : List Nat) (n : Nat) :
    (s.synchronize k size slots).take n =
      { s with commands := s.commands.take n }.synchronize k size slots := by
  unfold synchronize
  rw [List.map_take]

/-- What a finish owes stays done when commands are marked. -/
theorem phaseOk_synchronize (s' : State) {k : Kind} {size : Nat} {slots : List Nat} {ph : Phase}
    (hcom : s'.commands = s.synchronize k size slots) (hsize : s'.transfer.size = s.transfer.size)
    (h : s.PhaseOk ph) : s'.PhaseOk ph := by
  have hlen : s'.commands.length = s.commands.length := by
    rw [hcom]
    exact List.length_map ..
  cases ph <;> unfold PhaseOk at h ⊢
  case created k =>
    cases k with
    | compute => trivial
    | transfer => exact hsize ▸ h
  case chosen k token =>
    cases k with
    | compute => trivial
    | transfer => exact hsize ▸ h
  case finishing n => exact hlen ▸ h
  case finishingTransfer n =>
    refine ⟨hlen ▸ h.1, fun c hc hk => ?_⟩
    rw [hcom, take_synchronize] at hc
    obtain ⟨c₀, hc₀, hkind, -, hsync, -⟩ := mem_synchronize hc
    exact hsync (h.2 c₀ hc₀ (hkind ▸ hk))
  case finished n =>
    refine ⟨hlen ▸ h.1, fun c hc => ?_⟩
    rw [hcom, take_synchronize] at hc
    obtain ⟨c₀, hc₀, -, -, hsync, -⟩ := mem_synchronize hc
    exact hsync (h.2 c₀ hc₀)
  all_goals trivial

/-- After the compute body every compute command is synchronised. -/
theorem Inv.syncCompute_synced (h : s.Inv) (hr : s.compute.Readable s.computeSince) :
    ∀ c ∈ s.syncCompute.commands, c.kind = .compute → c.synced = true := by
  intro c hc hk
  obtain ⟨c₀, hc₀, hkind, -, hold, hnew⟩ := mem_synchronize hc
  rcases h.outstanding c₀ hc₀ with hsync | hrec
  · exact hold hsync
  · rw [hkind] at hk
    rw [hk] at hrec
    exact hnew hk (h.compute.slot_mem_syncSlots hr .cuda h.size_pos hrec)

theorem Inv.syncCompute (h : s.Inv) (hr : s.compute.Readable s.computeSince) :
    s.syncCompute.Inv := by
  refine ⟨h.size_pos, h.compute.finish hr.1 .cuda, h.transfer, fun c hc => ?_, fun c hc hk => ?_,
    fun u => phaseOk_synchronize _ rfl rfl (h.phases u)⟩
  · cases hk : c.kind with
    | compute => exact .inl (h.syncCompute_synced hr c hc hk)
    | transfer =>
      obtain ⟨c₀, hc₀, hkind, htok, hold, -⟩ := mem_synchronize hc
      rcases h.outstanding c₀ hc₀ with hsync | hrec
      · exact .inl (hold hsync)
      · right
        rw [← hkind, ← htok, hk] at hrec
        exact hrec
  · obtain ⟨c₀, hc₀, hkind, -⟩ := mem_synchronize hc
    exact h.transferred c₀ hc₀ (hkind ▸ hk)

/-- After the transfer body every transfer command is synchronised. -/
theorem Inv.syncTransfer_synced (h : s.Inv)
    (hr : s.transfer.size ≠ 0 → s.transfer.Readable s.transferSince) :
    ∀ c ∈ s.syncTransfer.commands, c.kind = .transfer → c.synced = true := by
  intro c hc hk
  unfold syncTransfer at hc
  split at hc
  next hz => exact absurd hz (h.transferred c hc hk)
  next hnz =>
    obtain ⟨c₀, hc₀, hkind, -, hold, hnew⟩ := mem_synchronize hc
    rcases h.outstanding c₀ hc₀ with hsync | hrec
    · exact hold hsync
    · rw [hkind] at hk
      rw [hk] at hrec
      exact hnew hk (h.transfer.slot_mem_syncSlots (hr hnz) .cuda (Nat.pos_of_ne_zero hnz) hrec)

theorem Inv.syncTransfer (h : s.Inv)
    (hr : s.transfer.size ≠ 0 → s.transfer.Readable s.transferSince) : s.syncTransfer.Inv := by
  have hall := h.syncTransfer_synced hr
  unfold State.syncTransfer at hall ⊢
  split
  next => exact h
  next hnz =>
    rw [if_neg hnz] at hall
    refine ⟨h.size_pos, h.compute, h.transfer.finish (hr hnz).1 .cuda, fun c hc => ?_,
      fun c hc hk => ?_, fun u => phaseOk_synchronize _ rfl rfl (h.phases u)⟩
    · cases hk : c.kind with
      | transfer => exact .inl (hall c hc hk)
      | compute =>
        obtain ⟨c₀, hc₀, hkind, htok, hold, -⟩ := mem_synchronize hc
        rcases h.outstanding c₀ hc₀ with hsync | hrec
        · exact .inl (hold hsync)
        · right
          rw [← hkind, ← htok, hk] at hrec
          exact hrec
    · obtain ⟨c₀, hc₀, hkind, -⟩ := mem_synchronize hc
      exact h.transferred c₀ hc₀ (hkind ▸ hk)

/-! ## One step and a whole run -/

/-- Creating a stream and drawing a token keep the invariant. -/
theorem Inv.draw (h : s.Inv) :
    Inv { s with compute := s.compute.draw, computeSince := s.computeSince + 1 } :=
  h.withCompute rfl h.compute.draw fun _ htok => Drawn.mono htok (by omega)

theorem Inv.drawTransfer (h : s.Inv) :
    Inv { s with transfer := s.transfer.draw, transferSince := s.transferSince + 1 } :=
  h.withTransfer rfl h.transfer.draw fun _ htok => Drawn.mono htok (by omega)

theorem Inv.createTransfer (h : s.Inv) : Inv { s with transfer := s.transfer.create } := by
  refine h.withTransfer (Pool.create_size _) ⟨?_, ?_⟩ fun token htok => ?_
  · rw [Pool.create_lastSync]
    exact h.transfer.lastSync_lt
  · rw [Pool.create_index, Pool.create_lastSync]
    exact h.transfer.index_eq
  · unfold Pool.InWindow
    rw [Pool.create_lastSync]
    exact htok

/-- **Step lemma.** A safe step of any thread keeps the invariant. -/
theorem Inv.step (h : s.Inv) {a : Act} (hsafe : s.Safe t a) (hstep : s.step t a = some s') :
    s'.Inv := by
  -- a step changes a pool or the list of commands, and then the phase of its thread
  cases a with
  | createCompute =>
    simp only [State.step] at hstep
    split at hstep
    next =>
      obtain rfl := Option.some.inj hstep
      exact (h.sameCompute (Pool.create_size _) (Pool.create_lastSync _)
        (Pool.create_index _)).move t (.created .compute) trivial
    next => exact absurd hstep (by simp)
  | drawCompute =>
    simp only [State.step] at hstep
    split at hstep
    next =>
      obtain rfl := Option.some.inj hstep
      exact h.draw.move t (.drawn _) trivial
    next => exact absurd hstep (by simp)
  | testDelay =>
    simp only [State.step] at hstep
    split at hstep
    next token _ =>
      split at hstep
      next =>
        obtain rfl := Option.some.inj hstep
        exact (h.sameCompute (p := s.compute.setDelay _ false) rfl rfl rfl).move t .again trivial
      next =>
        obtain rfl := Option.some.inj hstep
        exact h.move t (.chosen .compute token) trivial
    next => exact absurd hstep (by simp)
  | reuse position =>
    obtain ⟨token, -, rfl⟩ := Option.map_eq_some_iff.mp hstep
    exact ((h.delayNext token).move t (.reusing token) trivial).relock _
  | reuseScoped position =>
    obtain ⟨token, -, rfl⟩ := Option.map_eq_some_iff.mp hstep
    exact (h.delayNext token).move t (.chosen .compute token) trivial
  | createTransfer =>
    simp only [State.step] at hstep
    split at hstep
    next hg =>
      obtain rfl := Option.some.inj hstep
      refine h.createTransfer.move t (.created .transfer) ?_
      show s.transfer.create.size ≠ 0
      rw [Pool.create_size]
      omega
    next => exact absurd hstep (by simp)
  | drawTransfer =>
    simp only [State.step] at hstep
    split at hstep
    next hg =>
      obtain rfl := Option.some.inj hstep
      have hsize := h.phases t
      rw [hg] at hsize
      exact h.drawTransfer.move t (.chosen .transfer _) hsize
    next => exact absurd hstep (by simp)
  | barrierSync =>
    simp only [State.step] at hstep
    split at hstep
    next =>
      split at hstep
      next =>
        obtain rfl := Option.some.inj hstep
        exact h.sameCompute rfl rfl rfl
      next => exact absurd hstep (by simp)
    next => exact absurd hstep (by simp)
  | submit =>
    simp only [State.step] at hstep
    simp only [Safe] at hsafe
    have hsize := h.phases t
    split at hstep
    next k token hph =>
      obtain rfl := Option.some.inj hstep
      rw [hph] at hsafe hsize
      refine (h.append (c := ⟨k, token, false⟩) hsafe fun hk => ?_).move t .idle trivial
      obtain rfl : k = .transfer := hk
      exact hsize
    next token hph =>
      obtain rfl := Option.some.inj hstep
      rw [hph] at hsafe
      exact ((h.append (c := ⟨.compute, token, false⟩) hsafe (by simp)).move t .idle trivial).relock _
    next => exact absurd hstep (by simp)
  | fail =>
    simp only [State.step] at hstep
    split at hstep
    next =>
      obtain rfl := Option.some.inj hstep
      exact h.move t .idle trivial
    next =>
      obtain rfl := Option.some.inj hstep
      exact (h.move t .idle trivial).relock _
    next => exact absurd hstep (by simp)
  | finishStart =>
    simp only [State.step] at hstep
    split at hstep
    next =>
      obtain rfl := Option.some.inj hstep
      exact h.move t (.finishing _) (Nat.le_refl _)
    next => exact absurd hstep (by simp)
  | finishCompute =>
    simp only [State.step] at hstep
    split at hstep
    next n hph =>
      split at hstep
      next =>
        obtain rfl := Option.some.inj hstep
        have howed := phaseOk_synchronize s.syncCompute rfl rfl (h.phases t)
        rw [hph] at howed
        exact (h.syncCompute hsafe).move t (.finishingTransfer n) ⟨howed, fun c hc hk =>
          h.syncCompute_synced hsafe c (List.mem_of_mem_take hc) hk⟩
      next => exact absurd hstep (by simp)
    next => exact absurd hstep (by simp)
  | finishTransfer =>
    simp only [State.step] at hstep
    split at hstep
    next n hph =>
      obtain rfl := Option.some.inj hstep
      have howed := (h.syncTransfer hsafe).phases t
      have hphase : s.syncTransfer.phase t = .finishingTransfer n := by
        unfold State.syncTransfer
        split <;> exact hph
      rw [hphase] at howed
      refine (h.syncTransfer hsafe).move t (.finished n) ⟨howed.1, fun c hc => ?_⟩
      cases hk : c.kind with
      | compute => exact howed.2 c hc hk
      | transfer => exact h.syncTransfer_synced hsafe c (List.mem_of_mem_take hc) hk
    next => exact absurd hstep (by simp)
  | finishReturn =>
    simp only [State.step] at hstep
    split at hstep
    next =>
      obtain rfl := Option.some.inj hstep
      exact h.move t .idle trivial
    next => exact absurd hstep (by simp)

theorem Reached.inv (h : s.Reached) : s.Inv := by
  induction h with
  | start hi => exact initial_inv hi
  | step _ hsafe hstep ih => exact ih.step hsafe hstep

/-! ## Runs that can be evaluated -/

instance (s : State) (k : Kind) (token : Nat) : Decidable (s.Recent k token) := by
  cases k <;> exact Nat.decidableExistsLT _

instance (s : State) (t : Thread) (a : Act) : Decidable (s.Safe t a) := by
  unfold Safe
  split <;> try infer_instance
  split <;> infer_instance

/-- The steps of a schedule, one after the other. -/
def run (s : State) : List (Thread × Act) → Option State
  | [] => some s
  | (t, a) :: rest => (s.step t a).bind fun s' => s'.run rest

/-- The same, stopping at a step that is not safe. -/
def runSafe (s : State) : List (Thread × Act) → Option State
  | [] => some s
  | (t, a) :: rest => if s.Safe t a then (s.step t a).bind fun s' => s'.runSafe rest else none

theorem Reached.runSafe (h : s.Reached) (acts : List (Thread × Act))
    (hrun : s.runSafe acts = some s') : s'.Reached := by
  induction acts generalizing s with
  | nil =>
    obtain rfl := Option.some.inj hrun
    exact h
  | cons ta rest ih =>
    simp only [State.runSafe] at hrun
    split at hrun
    next hsafe =>
      obtain ⟨s₁, hstep, hrest⟩ := Option.bind_eq_some_iff.mp hrun
      exact ih (h.step hsafe hstep) hrest
    next => exact absurd hrun (by simp)

end State

/-- **Finish is complete.** Whatever the threads did, when a `urQueueFinish` is
about to return, every command that had been submitted when it was called is on
a stream that was synchronised after the submission. -/
theorem finish_complete {s : State} (h : s.Reached) {t : Thread} {n : Nat}
    (ht : s.phase t = .finished n) : ∀ c ∈ s.commands.take n, c.synced = true := by
  have howed := h.inv.phases t
  rw [ht] at howed
  exact howed.2

/-- Thread 0 launches a kernel on an out-of-order queue, thread 1 copies, and
thread 0 finishes. -/
def bothKinds : List (Thread × Act) :=
  [(0, .createCompute), (0, .drawCompute), (1, .createTransfer), (0, .testDelay),
    (1, .drawTransfer), (0, .submit), (1, .submit), (0, .finishStart), (0, .finishCompute),
    (0, .finishTransfer)]

theorem finish_complete_both_kinds : ∃ s : State,
    State.runSafe (.ofPools (.new 128) (.new 64)) bothKinds = some s ∧
      s.commands.length = 2 ∧ ∀ c ∈ s.commands.take 2, c.synced = true :=
  ⟨_, rfl, rfl, finish_complete (t := 0)
    ((State.Reached.start (.create 128 64 (by decide))).runSafe bothKinds rfl) rfl⟩

/-- Thread 1 finishes while thread 0 has its token and has not submitted its
command; or, in the second schedule, while thread 0 has created a stream and not
drawn its token. The next finish leaves the command's stream out. -/
theorem finish_misses_command :
    ((State.ofPools (.new 128) (.new 64)).run
        [(0, .createCompute), (0, .drawCompute), (0, .testDelay),
          (1, .finishStart), (1, .finishCompute), (1, .finishTransfer), (1, .finishReturn),
          (0, .submit),
          (1, .finishStart), (1, .finishCompute), (1, .finishTransfer)]).map
      (fun s => (s.phase 1, s.commands)) = some (.finished 1, [⟨.compute, 0, false⟩]) ∧
    ((State.ofPools (.new 128) (.new 64)).run
        [(0, .createCompute),
          (1, .finishStart), (1, .finishCompute), (1, .finishTransfer), (1, .finishReturn),
          (0, .drawCompute), (0, .testDelay), (0, .submit),
          (1, .finishStart), (1, .finishCompute), (1, .finishTransfer)]).map
      (fun s => (s.phase 1, s.commands)) = some (.finished 1, [⟨.compute, 0, false⟩]) := by
  decide

end UnifiedRuntime.Streams
