import UnifiedRuntime.LevelZero.CompletionChanges

/-!
# Runs of completion batches

Every call is a sequence of changes, so that what the changes keep holds in every run.

- `step_changes`: a call as changes.
- `cleanup_oldest`: what is left in the queue has not completed.
- `completion_batches`: all of it for a run.
-/

namespace UnifiedRuntime.LevelZero.Completion

open Function (update update_of_ne update_self)
open Relation (ReflTransGen)

variable {limits : Limits} {s s' : CommandList} {ans : Answers} {op : Op} {clear resets : Prop}

/-! ## Sequences of changes -/

theorem changes_inv (hc : ReflTransGen (Change clear resets) s s') (h : Inv s) : Inv s' := by
  induction hc with
  | refl => exact h
  | tail _ hstep ih => exact hstep.inv ih

theorem changes_timely (hc : ReflTransGen (Change clear resets) s s') (hclear : clear)
    (hi : Inv s) (h : Timely s) : Timely s' := by
  induction hc with
  | refl => exact h
  | tail hpre hstep ih => exact hstep.timely hclear (changes_inv hpre hi) ih

theorem changes_clean (hc : ReflTransGen (Change clear resets) s s') (hclear : clear)
    (hresets : resets) (hi : Inv s) (ht : Timely s) (h : Clean s) : Clean s' := by
  induction hc with
  | refl => exact h
  | tail hpre hstep ih =>
    exact hstep.clean hresets (changes_inv hpre hi) (changes_timely hpre hclear hi ht) ih

/-! ## `cleanup` -/

/-- The events after a reset of a batch. -/
def resetSignal (s : CommandList) (i : Nat) (ok : Bool) : Nat → Bool :=
  if (s.batch i).barrierEvent && ok then update s.signalled i false else s.signalled

theorem resetSignal_fades (s : CommandList) (i : Nat) (ok : Bool) :
    Fades s.signalled (resetSignal s i ok) := by
  intro j hj
  unfold resetSignal at hj
  split at hj
  next =>
    by_cases hij : j = i
    · subst hij
      rw [update_self] at hj
      cases hj
    · rwa [update_of_ne hij] at hj
  next => exact hj

theorem resetSignal_reset {i : Nat} {ok : Bool} (hok : ok = true)
    (hevent : (s.batch i).barrierEvent = true) : resetSignal s i ok i = false := by
  unfold resetSignal
  rw [hevent, hok]
  exact update_self ..

/-- `reset`, in one piece. -/
theorem reset_eq (s : CommandList) (i : Nat) (ok : Bool) :
    (s.reset i ok).1 = { s with
      batch := update s.batch i (s.batch i).emptied
      signalled := resetSignal s i ok } := by
  unfold CommandList.reset resetSignal
  cases hevent : (s.batch i).barrierEvent with
  | false => rfl
  | true =>
    cases ok with
    | false => rfl
    | true => rfl

/-- The body of the loop of `cleanup`, where the oldest batch has completed. -/
theorem retire_eq (s : CommandList) (oldest : Nat) (rest : List Nat) (ok : Bool) :
    (({ s.setBatch oldest { s.batch oldest with st := .completed } with
        sealed := rest }.moveCompletedEvents oldest).reset oldest ok).1 =
      s.retire oldest rest (resetSignal s oldest ok) := by
  have hself : update s.batch oldest { s.batch oldest with st := .completed } oldest =
      { s.batch oldest with st := .completed } := update_self ..
  have hempty : (update s.batch oldest { s.batch oldest with st := .completed }
      oldest).emptied = (s.batch oldest).emptied := by
    rw [hself]
    rfl
  have hsignal : resetSignal ({ s.setBatch oldest { s.batch oldest with st := .completed } with
      sealed := rest }.moveCompletedEvents oldest) oldest ok = resetSignal s oldest ok := by
    have hevent : (update s.batch oldest { s.batch oldest with st := .completed }
        oldest).barrierEvent = (s.batch oldest).barrierEvent := by
      rw [hself]
    show (if (update s.batch oldest { s.batch oldest with st := .completed }
      oldest).barrierEvent && ok then _ else _) = _
    rw [hevent]
    rfl
  rw [reset_eq, hsignal]
  unfold CommandList.retire CommandList.moveCompletedEvents CommandList.setBatch
  rw [hempty, Function.update_idem]

theorem reset_success {i : Nat} {ok : Bool} (hok : ok = true) :
    (s.reset i ok).2 = .success := by
  unfold CommandList.reset
  rw [hok]
  cases (s.batch i).barrierEvent with
  | false => rfl
  | true => rfl

theorem cleanupLoop_eq (oldest : Nat) (rest : List Nat) (cleaned : Bool) :
    CommandList.cleanupLoop ans (oldest :: rest) cleaned s =
      if (s.queryState oldest (ans.queries oldest)).2 = .completed then
        let r := ({ (s.queryState oldest (ans.queries oldest)).1 with
          sealed := rest }.moveCompletedEvents oldest).reset oldest (ans.resets oldest)
        if r.2 = .success then CommandList.cleanupLoop ans rest true r.1 else r
      else ((s.queryState oldest (ans.queries oldest)).1,
        if cleaned then .success else .outOfResources) := rfl

/-- What the loop of `cleanup` does with the oldest batch. -/
theorem cleanupLoop_cons {oldest : Nat} {rest : List Nat} (cleaned : Bool)
    (hst : (s.batch oldest).st = .sealed) :
    ((CommandList.cleanupLoop ans (oldest :: rest) cleaned s).1 = s ∧
        (s.signalled oldest && ans.queries oldest) = false) ∨
      s.signalled oldest = true ∧
        ((CommandList.cleanupLoop ans (oldest :: rest) cleaned s).1 =
            s.retire oldest rest (resetSignal s oldest (ans.resets oldest)) ∧
            ans.resets oldest = false ∨
          (CommandList.cleanupLoop ans (oldest :: rest) cleaned s).1 =
            (CommandList.cleanupLoop ans rest true
              (s.retire oldest rest (resetSignal s oldest (ans.resets oldest)))).1) := by
  rw [cleanupLoop_eq]
  cases hcomplete : s.signalled oldest && ans.queries oldest with
  | false =>
    refine Or.inl ⟨?_, rfl⟩
    have hquery : s.queryState oldest (ans.queries oldest) = (s, .sealed) := by
      unfold CommandList.queryState
      rw [hcomplete, if_neg fun h => Bool.false_ne_true h.2, hst]
    rw [hquery]
    rfl
  | true =>
    refine Or.inr ⟨((Bool.and_eq_true _ _).mp hcomplete).1, ?_⟩
    have hquery : s.queryState oldest (ans.queries oldest) =
        (s.setBatch oldest { s.batch oldest with st := .completed }, .completed) := by
      unfold CommandList.queryState
      rw [hcomplete, if_pos ⟨hst, rfl⟩]
    have hretire := retire_eq s oldest rest (ans.resets oldest)
    rw [hquery, if_pos rfl]
    dsimp only at hretire ⊢
    split
    next hok =>
      rw [hretire]
      exact Or.inr rfl
    next hfailed =>
      refine Or.inl ⟨hretire, ?_⟩
      cases hreset : ans.resets oldest with
      | false => rfl
      | true => exact absurd (reset_success hreset) hfailed

/-- What `cleanup` leaves of the active batch. -/
structure ActiveKept (s s' : CommandList) : Prop where
  active : s'.active = s.active
  batch : s'.batch s.active = s.batch s.active
  signalled : s'.signalled s.active = true → s.signalled s.active = true

theorem cleanupLoop_changes : ∀ (l : List Nat) (cleaned : Bool) {s : CommandList}, Inv s →
    s.sealed = l →
    ReflTransGen (Change clear (∀ i, ans.resets i = true)) s
        (CommandList.cleanupLoop ans l cleaned s).1 ∧
      ActiveKept s (CommandList.cleanupLoop ans l cleaned s).1
  | [], _, _, _, _ => ⟨.refl, rfl, rfl, id⟩
  | oldest :: rest, cleaned, s, hi, hsealed => by
    have hmem : oldest ∈ s.sealed := hsealed ▸ List.mem_cons_self
    rcases cleanupLoop_cons cleaned ((hi.sealed oldest).mp hmem).2 with
      ⟨heq, -⟩ | ⟨hcomplete, hout⟩
    · rw [heq]
      exact ⟨.refl, rfl, rfl, id⟩
    · have hchange : Change clear (∀ i, ans.resets i = true) s
          (s.retire oldest rest (resetSignal s oldest (ans.resets oldest))) :=
        .retire oldest rest _ hsealed hcomplete (resetSignal_fades s oldest _)
          fun hok hevent => resetSignal_reset (hok oldest) hevent
      have hne : s.active ≠ oldest := by
        intro heq
        exact hi.active_not_sealed (heq ▸ hmem)
      have hkept : ActiveKept s
          (s.retire oldest rest (resetSignal s oldest (ans.resets oldest))) :=
        ⟨rfl, CommandList.retire_other rest _ hne, resetSignal_fades s oldest _ s.active⟩
      rcases hout with ⟨heq, -⟩ | heq
      · rw [heq]
        exact ⟨.single hchange, hkept⟩
      · rw [heq]
        obtain ⟨hrest, hkept'⟩ := cleanupLoop_changes rest true (hchange.inv hi) rfl
        refine ⟨.head hchange hrest, hkept'.active.trans hkept.active, ?_, fun h => ?_⟩
        · have hbatch := hkept'.batch
          exact hbatch.trans hkept.batch
        · have hsignal := hkept'.signalled
          exact hkept.signalled (hsignal h)

/-- **The oldest batch that `cleanup` leaves has not completed**, if no call fails. -/
theorem cleanupLoop_oldest (hqueries : ∀ i, ans.queries i = true)
    (hresets : ∀ i, ans.resets i = true) : ∀ (l : List Nat) (cleaned : Bool) {s : CommandList},
    Inv s → s.sealed = l → ∀ i rest,
      (CommandList.cleanupLoop ans l cleaned s).1.sealed = i :: rest →
        (CommandList.cleanupLoop ans l cleaned s).1.signalled i = false
  | [], _, s, _, hsealed, i, rest, hleft => by
    have hleft' : s.sealed = i :: rest := hleft
    rw [hsealed] at hleft'
    cases hleft'
  | oldest :: tail, cleaned, s, hi, hsealed, i, rest, hleft => by
    have hmem : oldest ∈ s.sealed := hsealed ▸ List.mem_cons_self
    rcases cleanupLoop_cons cleaned ((hi.sealed oldest).mp hmem).2 with
      ⟨heq, hincomplete⟩ | ⟨hcomplete, hout⟩
    · rw [heq] at hleft ⊢
      rw [hsealed] at hleft
      obtain ⟨rfl, -⟩ := List.cons.inj hleft
      rw [hqueries, Bool.and_true] at hincomplete
      exact hincomplete
    · rcases hout with ⟨-, hfailed⟩ | heq
      · rw [hresets] at hfailed
        cases hfailed
      · rw [heq] at hleft ⊢
        exact cleanupLoop_oldest hqueries hresets tail true (hi.retire _ hsealed) rfl i rest hleft

/-! ## `tryCleanup` -/

/-- An empty batch is found, or made, or there is none. -/
theorem findFirstEmptyBatchOrCreate_cases (hi : Inv s) (clear resets : Prop) :
    (s.findFirstEmptyBatchOrCreate limits = (s, none)) ∨
      ∃ s' next, s.findFirstEmptyBatchOrCreate limits = (s', some next) ∧
        ReflTransGen (Change clear resets) s s' ∧ ActiveKept s s' ∧ next < s'.count ∧
        (s'.batch next).st = .empty := by
  unfold CommandList.findFirstEmptyBatchOrCreate
  cases hfind : (List.range s.count).find? fun i => (s.batch i).st = .empty with
  | some i =>
    have hlt : i < s.count := List.mem_range.mp (List.mem_of_find?_eq_some hfind)
    have hst := List.find?_some hfind
    exact Or.inr ⟨s, i, rfl, .refl, ⟨rfl, rfl, id⟩, hlt, by simpa using hst⟩
  | none =>
    dsimp only
    split
    next =>
      refine Or.inr ⟨_, s.count, rfl, .single .create, ⟨rfl, ?_, id⟩, Nat.lt_succ_self _, ?_⟩
      · exact update_of_ne (Nat.ne_of_lt hi.active) _ _
      · show (update s.batch s.count CompletionBatch.new s.count).st = .empty
        rw [update_self]
        rfl
    next => exact Or.inl rfl

theorem sealBatch_of_event (hevent : (s.batch s.active).barrierEvent = true) :
    s.sealBatch s.active ans = s.appendBarrier s.active ans := by
  unfold CommandList.sealBatch CommandList.ensureEvent
  rw [if_pos hevent]

/-- `switch` where the barrier's event is there and the barrier is appended. -/
theorem switch_goOn {next : Nat} (hne : next ≠ s.active)
    (hevent : (s.batch s.active).barrierEvent = true) (hok : ans.appendBarrier = true) :
    (s.switch next ans).1 = s.goOn next := by
  have hnext : update s.batch s.active { s.batch s.active with st := .sealed } next =
      s.batch next := update_of_ne hne _ _
  unfold CommandList.switch
  rw [sealBatch_of_event hevent]
  unfold CommandList.appendBarrier
  rw [if_pos hok, if_pos rfl]
  unfold CommandList.use CommandList.setBatch CommandList.goOn
  dsimp only
  rw [hnext]

theorem switch_refused {next : Nat} (hevent : (s.batch s.active).barrierEvent = true)
    (hok : ans.appendBarrier = false) : (s.switch next ans).1 = s := by
  unfold CommandList.switch
  rw [sealBatch_of_event hevent]
  unfold CommandList.appendBarrier
  rw [hok]
  rfl

theorem createEvent_event (s : CommandList) (i : Nat) :
    ((s.createEvent i).batch i).barrierEvent = true := by
  show (update s.batch i { s.batch i with barrierEvent := true } i).barrierEvent = true
  rw [update_self]

/-- `switch` where the event is not there: none is made, or it goes on with one. -/
theorem switch_createEvent {next : Nat} (hevent : (s.batch s.active).barrierEvent = false) :
    (s.switch next ans).1 = s ∨
      (s.switch next ans).1 = ((s.createEvent s.active).switch next ans).1 := by
  cases hcreate : ans.createEvent with
  | false =>
    have hnone : s.sealBatch s.active ans = (s, .failed) := by
      unfold CommandList.sealBatch CommandList.ensureEvent
      rw [hevent, hcreate]
      rfl
    refine Or.inl ?_
    unfold CommandList.switch
    rw [hnone]
    rfl
  | true =>
    have hsome : s.sealBatch s.active ans = (s.createEvent s.active).sealBatch s.active ans := by
      have hmade := @sealBatch_of_event (s.createEvent s.active) ans (createEvent_event s s.active)
      have hactive : (s.createEvent s.active).active = s.active := rfl
      rw [hactive] at hmade
      rw [hmade]
      unfold CommandList.sealBatch CommandList.ensureEvent
      rw [hevent, hcreate]
      rfl
    refine Or.inr ?_
    have hactive : (s.createEvent s.active).active = s.active := rfl
    unfold CommandList.switch
    rw [hsome, hactive]

theorem switch_changes {next : Nat} (hi : Inv s) (hnext : next < s.count)
    (hempty : (s.batch next).st = .empty)
    (hclear : clear → ans.appendBarrier = true → (s.batch s.active).barrierEvent = true →
      s.signalled s.active = false) :
    ReflTransGen (Change clear resets) s (s.switch next ans).1 := by
  have hne : next ≠ s.active := by
    rintro rfl
    rw [hi.active_st] at hempty
    cases hempty
  cases hevent : (s.batch s.active).barrierEvent with
  | true =>
    cases hok : ans.appendBarrier with
    | false =>
      rw [switch_refused hevent hok]
    | true =>
      rw [switch_goOn hne hevent hok]
      exact .single (.goOn next hnext hempty hevent fun h => hclear h hok hevent)
  | false =>
    rcases @switch_createEvent s ans next hevent with heq | heq
    · rw [heq]
    · -- the new event is not signalled
      rw [heq]
      have hself := createEvent_event s s.active
      have hother : ((s.createEvent s.active).batch next).st = .empty := by
        show (update s.batch s.active _ next : CompletionBatch).st = _
        rw [update_of_ne hne]
        exact hempty
      have hsignal : (s.createEvent s.active).signalled s.active = false :=
        update_self ..
      refine .head .createEvent ?_
      cases hok : ans.appendBarrier with
      | false => rw [@switch_refused (s.createEvent s.active) ans next hself hok]
      | true =>
        rw [@switch_goOn (s.createEvent s.active) ans next hne hself hok]
        exact .single (.goOn next hnext hother hself fun _ => hsignal)

theorem tryCleanup_changes (hi : Inv s) :
    ReflTransGen (Change ((Op.tryCleanup ans).Meets limits s) (∀ i, ans.resets i = true)) s
      (s.tryCleanup limits ans).1 := by
  obtain ⟨hchanges, hkept⟩ := @cleanupLoop_changes ans ((Op.tryCleanup ans).Meets limits s)
    s.sealed false s hi rfl
  have hi₁ : Inv (s.cleanup ans).1 := changes_inv hchanges hi
  have hkept₁ : ActiveKept s (s.cleanup ans).1 := hkept
  have hchanges₁ : ReflTransGen (Change ((Op.tryCleanup ans).Meets limits s)
    (∀ i, ans.resets i = true)) s (s.cleanup ans).1 := hchanges
  have hbatch : (s.cleanup ans).1.batch (s.cleanup ans).1.active = s.batch s.active := by
    rw [hkept₁.active]
    exact hkept₁.batch
  unfold CommandList.tryCleanup
  dsimp only
  split
  next hfull =>
    have hfull' : s.isFull limits = true := by
      unfold CommandList.isFull at hfull ⊢
      rwa [hbatch] at hfull
    rcases @findFirstEmptyBatchOrCreate_cases limits _ hi₁
      ((Op.tryCleanup ans).Meets limits s) (∀ i, ans.resets i = true) with
      heq | ⟨s₂, next, heq, hcreated, hkept₂, hnext, hempty⟩
    · rw [heq]
      exact hchanges₁
    · rw [heq]
      refine hchanges₁.trans (hcreated.trans (switch_changes (changes_inv hcreated hi₁) hnext
        hempty fun hmeets hok hevent => ?_))
      have hactive : s₂.active = s.active := hkept₂.active.trans hkept₁.active
      have hbatch₂ : s₂.batch s₂.active = s.batch s.active := by
        have hsame := hkept₂.batch
        rw [hkept₁.active] at hsame
        rw [hactive, hsame]
        exact hkept₁.batch
      rw [hbatch₂] at hevent
      have hclear := hmeets hfull' hok hevent
      rw [hactive]
      cases hsignal : s₂.signalled s.active with
      | false => rfl
      | true =>
        have hback := hkept₂.signalled
        rw [hkept₁.active] at hback
        rw [hkept₁.signalled (hback hsignal)] at hclear
        cases hclear
  next => exact hchanges₁

/-! ## `synchronize` -/

/-- `forceReset` goes over all batches. -/
theorem resetAll_eq (reset : Nat → Bool) (s : CommandList) : ∀ n, ∃ signalled,
    (List.range n).foldl (fun s i => (s.reset i (reset i)).1) s =
        { s with
          batch := fun i => if i < n then (s.batch i).emptied else s.batch i
          signalled := signalled } ∧
      Fades s.signalled signalled ∧
      ((∀ i, reset i = true) → ∀ i < n, (s.batch i).barrierEvent = true → signalled i = false)
  | 0 => ⟨s.signalled, rfl, fun _ => id, fun _ i hi => absurd hi (Nat.not_lt_zero i)⟩
  | n + 1 => by
    obtain ⟨signalled, heq, hfades, hreset⟩ := resetAll_eq reset s n
    rw [List.range_succ, List.foldl_append, heq, List.foldl_cons, List.foldl_nil, reset_eq]
    have hn : (if n < n then (s.batch n).emptied else s.batch n) = s.batch n :=
      if_neg (Nat.lt_irrefl n)
    have hfades' := resetSignal_fades { s with
      batch := fun i => if i < n then (s.batch i).emptied else s.batch i
      signalled := signalled } n (reset n)
    refine ⟨_, ?_, fun i hsignal => hfades i (hfades' i hsignal), fun hok i hlt hevent => ?_⟩
    · have hbatch : update
          (fun i => if i < n then (s.batch i).emptied else s.batch i) n
          (if n < n then (s.batch n).emptied else s.batch n).emptied =
          fun i => if i < n + 1 then (s.batch i).emptied else s.batch i := by
        funext i
        by_cases hi : i = n
        · subst hi
          rw [update_self, hn, if_pos (Nat.lt_succ_self _)]
        · rw [update_of_ne hi]
          by_cases hlt : i < n
          · rw [if_pos hlt, if_pos (Nat.lt_succ_of_lt hlt)]
          · rw [if_neg hlt, if_neg (by omega)]
      rw [hbatch]
    · by_cases hi : i = n
      · subst hi
        refine resetSignal_reset (hok _) ?_
        show (if i < i then (s.batch i).emptied else s.batch i).barrierEvent = true
        rw [hn]
        exact hevent
      · have hold := hreset hok i (by omega) hevent
        cases hsignal : resetSignal { s with
            batch := fun i => if i < n then (s.batch i).emptied else s.batch i
            signalled := signalled } n (reset n) i with
        | false => rfl
        | true =>
          have hbefore : signalled i = true := hfades' i hsignal
          rw [hold] at hbefore
          cases hbefore

theorem synchronize_change (hi : Inv s) (reset : Nat → Bool) :
    Change clear (∀ i, reset i = true) s (s.synchronize reset) := by
  obtain ⟨signalled, heq, hfades, hreset⟩ := resetAll_eq reset
    { s.completeAll with eventList := [], taken := s.taken ++ s.eventList } s.count
  have hrestart : s.synchronize reset = s.restart signalled := by
    have hzero : (if 0 < s.count then (s.batch 0).emptied else s.batch 0) = (s.batch 0).emptied :=
      if_pos (Nat.zero_lt_of_lt hi.active)
    have hall : CommandList.resetAll reset
        { s.completeAll with eventList := [], taken := s.taken ++ s.eventList } = _ := heq
    unfold CommandList.synchronize CommandList.forceReset
    rw [hall]
    unfold CommandList.use CommandList.setBatch CommandList.restart CommandList.completeAll
    dsimp only
    rw [hzero]
  rw [hrestart]
  exact .restart signalled hfades hreset

/-! ## Runs -/

/-- **A call is a sequence of changes.** -/
theorem step_changes (hi : Inv s) (op : Op) :
    ReflTransGen (Change (op.Meets limits s) op.Resets) s (s.step limits op) := by
  cases op with
  | append => exact .single .append
  | tryCleanup ans => exact tryCleanup_changes hi
  | complete k => exact .single (.complete k)
  | synchronize reset => exact .single (synchronize_change hi reset)
  | take keep => exact .single (.take keep)

theorem new_inv : Inv .new := by
  have hst : (CommandList.new.batch 0).st = .accumulating := rfl
  refine ⟨⟨Nat.one_pos, fun i hi => ?_, fun i => ?_, List.Pairwise.nil, List.nodup_nil, nofun⟩,
    nofun, nofun, nofun⟩
  · obtain rfl : i = 0 := Nat.lt_one_iff.mp hi
    exact ⟨fun _ => rfl, fun _ => hst⟩
  · refine ⟨nofun, fun h => ?_⟩
    obtain rfl : i = 0 := Nat.lt_one_iff.mp h.1
    cases h.2

theorem new_timely : Timely .new := ⟨nofun, List.nodup_nil, nofun, nofun⟩

theorem new_clean : Clean .new := ⟨nofun, nofun⟩

/-- **A run keeps the order.** -/
theorem run_inv : ∀ (ops : List Op) {s : CommandList}, Inv s → Inv (s.run limits ops)
  | [], _, h => h
  | op :: ops, _, h => run_inv ops (changes_inv (step_changes h op) h)

/-- **A run whose calls meet the condition is in time.** -/
theorem run_timely : ∀ (ops : List Op) {s : CommandList}, Inv s → Timely s →
    AllMeet limits s ops → Timely (s.run limits ops)
  | [], _, _, h, _ => h
  | op :: ops, _, hi, h, hmeet =>
    run_timely ops (changes_inv (step_changes hi op) hi)
      (changes_timely (step_changes hi op) hmeet.1 hi h) hmeet.2

/-- Where events are clean, every call meets the condition. -/
theorem Clean.meets (h : Clean s) (hi : Inv s) (op : Op) : op.Meets limits s := by
  cases op with
  | tryCleanup ans =>
    intro _ _ _
    cases hsignal : s.signalled s.active with
    | false => rfl
    | true => exact absurd (h.signalled _ hsignal) hi.active_not_sealed
  | append => trivial
  | complete k => trivial
  | synchronize reset => trivial
  | take keep => trivial

/-- **Resets that succeed are enough.** -/
theorem run_meets : ∀ (ops : List Op) {s : CommandList}, Inv s → Timely s → Clean s →
    (∀ op ∈ ops, op.Resets) → AllMeet limits s ops
  | [], _, _, _, _, _ => trivial
  | op :: ops, _, hi, ht, h, hresets => by
    have hchanges := @step_changes limits _ hi op
    have hmeets := @Clean.meets limits _ h hi op
    have hreset := hresets op List.mem_cons_self
    exact ⟨hmeets, run_meets ops (changes_inv hchanges hi) (changes_timely hchanges hmeets hi ht)
      (changes_clean hchanges hmeets hreset hi ht h)
      fun op' hop => hresets op' (List.mem_cons_of_mem _ hop)⟩

/-- **Completion batches.** In every run the batches and events are in order, and what `cleanup`
leaves at the head of the queue has not completed (if no call of it fails); and if every call
meets the condition, as it does where no reset fails, an event is moved only after a barrier
behind its command. -/
theorem completion_batches (limits : Limits) (ops : List Op) (ans : Answers) :
    Orderly (CommandList.new.run limits ops) ∧
    ((∀ i, ans.queries i = true) → (∀ i, ans.resets i = true) → ∀ i rest,
      ((CommandList.new.run limits ops).cleanup ans).1.sealed = i :: rest →
        ((CommandList.new.run limits ops).cleanup ans).1.signalled i = false) ∧
    (AllMeet limits .new ops → MovedInTime (CommandList.new.run limits ops)) ∧
    ((∀ op ∈ ops, op.Resets) → AllMeet limits .new ops) := by
  have hi := @run_inv limits ops _ new_inv
  refine ⟨hi.toOrderly, fun hqueries hresets => ?_, fun hmeet => ?_, fun hresets => ?_⟩
  · exact cleanupLoop_oldest hqueries hresets _ false hi rfl
  · exact (run_timely ops new_inv new_timely hmeet).moved
  · exact run_meets ops new_inv new_timely new_clean hresets

/-- A driver that does everything but, if `resets` is not set, reset events. -/
def answers (resets : Bool) : Answers := ⟨fun _ => true, fun _ => resets, true, true⟩

/-- Three commands in batches of one; the first reset fails, and the first batch is sealed
again while its event is still signalled. -/
def staleRun : List Op :=
  [.append, .tryCleanup (answers true), .append, .complete 0, .tryCleanup (answers false), .append,
    .complete 0, .tryCleanup (answers true), .tryCleanup (answers true)]

/-- The third command's event has left the list, and no barrier behind it has completed. -/
theorem completion_batches_stale : ¬ MovedInTime (CommandList.new.run ⟨1, 2⟩ staleRun) := by
  intro h
  have hmoved : (CommandList.new.run ⟨1, 2⟩ staleRun).moved = [⟨0, 0⟩, ⟨2, 1⟩, ⟨4, 0⟩] := rfl
  have hdone : (CommandList.new.run ⟨1, 2⟩ staleRun).done = [3, 1] := rfl
  obtain ⟨p, hp, hlt⟩ := h ⟨4, 0⟩ (by simp [hmoved])
  rw [hdone] at hp
  have hlt' : 4 < p := hlt
  rcases List.mem_cons.mp hp with rfl | hp
  · omega
  · obtain rfl := List.mem_singleton.mp hp
    omega

end UnifiedRuntime.LevelZero.Completion
