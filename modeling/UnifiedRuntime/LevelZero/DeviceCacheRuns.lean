import UnifiedRuntime.LevelZero.DeviceCache

/-!
# Populating the device cache again and again

A call that fails at a harmless step leaves whole devices in the cache, or none; a call that
succeeds from an empty cache makes it complete.

- `populate_right`: one call.
- `cache_right`: runs of calls that meet no defect.
-/

namespace UnifiedRuntime.LevelZero.DeviceCache

variable {exposeCSlice : Bool} {failing : Option Step} {i : Nat} {s : Platform} {t : Tree}
  {tree done : List Tree} {step : Step} {seen seen' : List ZeHandle}

/-! ## A step of a call -/

theorem Step.AtDevice.congr (h : step.AtDevice exposeCSlice i t seen)
    (hseen : ∀ ze, ze ∈ seen' → ze ∈ seen) : step.AtDevice exposeCSlice i t seen' := by
  cases step with
  | initializeRoot i' =>
    obtain ⟨hi, ze, hroot, hnot⟩ := h
    exact ⟨hi, ze, hroot, fun hmem => hnot (hseen ze hmem)⟩
  | _ => exact h

/-- Only the first step of a sub-device fails without the driver. -/
theorem Fails.driver (h : Fails tree failing step) (hsub : ∀ i j, step ≠ .initializeSub i j) :
    failing = some step := by
  rcases h with h | ⟨i, j, _, _, -, -, -, h⟩
  · exact h
  · exact absurd h (hsub i j)

theorem Step.AtDevice.place (h : step.AtDevice exposeCSlice i t seen) :
    (ofLex step.place).1 = i + 1 := by
  cases step with
  | deviceCount | devices =>
    obtain ⟨_, _, -, hsub⟩ := h
    exact hsub.elim
  | initializeDevice k | subDeviceCount k | subDevices k | rootDevice k =>
    exact congrArg (· + 1) (show k = i from h)
  | initializeRoot k => exact congrArg (· + 1) h.1
  | initializeSub k j | queueGroupCount k j | queueGroups k j | initializeSubSub k j =>
    obtain ⟨_, _, -, hk, -⟩ := h
    exact congrArg (· + 1) hk

theorem EndsAt.first {step' : Step} (h : EndsAt exposeCSlice tree cache failing step)
    (hfails : Fails tree failing step') (hoccurs : Occurs exposeCSlice tree cache step') :
    step.place ≤ step'.place :=
  (le_total _ _).elim id (h.2 ⟨hfails, hoccurs⟩)

/-- A call where a step fails on its way ends somewhere. -/
theorem exists_endsAt (hfails : Fails tree failing step)
    (hoccurs : Occurs exposeCSlice tree cache step) :
    ∃ step, EndsAt exposeCSlice tree cache failing step :=
  exists_minimalFor_of_wellFoundedLT _ _ ⟨step, hfails, hoccurs⟩

/-- **A call that ends at a harmless step of a device** puts nothing of the device into the cache. -/
theorem device_fails (exposeCSlice : Bool) (failing : Option Step) (ht : tree[i]? = some t)
    (hfails : Fails tree failing step)
    (hat : step.AtDevice exposeCSlice i t (s.cache.map (·.ze)))
    (hfirst : ∀ step', failing = some step' →
      step'.AtDevice exposeCSlice i t (s.cache.map (·.ze)) → step.place ≤ step'.place)
    (hharmless : Harmless tree step) :
    ∃ next, device exposeCSlice failing i t s = (.error .driver, { s with next := next }) ∧
      s.next ≤ next := by
  have hone : s.next ≤ s.next + 1 := Nat.le_succ _
  have htwo : s.next ≤ s.next + 1 + 1 := Nat.le_trans hone (Nat.le_succ _)
  unfold device
  cases step with
  | deviceCount | devices =>
    obtain ⟨_, _, -, hsub⟩ := hat
    exact hsub.elim
  | subDevices | queueGroupCount | queueGroups | initializeSubSub => exact hharmless.elim
  | initializeDevice k =>
    obtain rfl : k = i := hat
    exact ⟨_, if_pos (hfails.driver (by simp)), hone⟩
  | subDeviceCount k =>
    obtain rfl : k = i := hat
    obtain rfl := hfails.driver (by simp)
    refine ⟨s.next + 1, ?_, hone⟩
    simp only [Option.some.injEq, reduceCtorEq, ↓reduceIte]
    rfl
  | initializeSub k j =>
    obtain ⟨j', sub, hsub, rfl, rfl⟩ := hat
    obtain rfl : j = 0 := hharmless
    -- the steps of the device itself came before
    have hpast : ∀ (step' : Step) (n : Nat), step'.place = toLex (k + 1, toLex (0, n)) →
        step'.AtDevice exposeCSlice k t (s.cache.map (·.ze)) → failing ≠ some step' := by
      intro step' n hplace hat' h
      have hle := hfirst step' h hat'
      rw [hplace, Step.place, Prod.Lex.toLex_le_toLex', Prod.Lex.toLex_le_toLex'] at hle
      exact Nat.not_succ_le_zero 0 (hle.2 rfl).1
    rw [if_neg (hpast (.initializeDevice k) 0 rfl rfl),
      if_neg (hpast (.subDeviceCount k) 1 rfl rfl), if_neg (hpast (.subDevices k) 2 rfl rfl)]
    have hends : failing = some (.initializeSub k 0) ∨ ¬ sub.hasCompute := by
      rcases hfails with h | ⟨_, _, t', sub', ht', hsub', hcompute, heq⟩
      · exact .inl h
      · obtain ⟨rfl, rfl⟩ := Step.initializeSub.inj heq
        obtain rfl := Option.some.inj (ht.symm.trans ht')
        obtain rfl := Option.some.inj (hsub.symm.trans hsub')
        exact .inr hcompute
    cases hsubs : t.subs with
    | nil =>
      rw [hsubs] at hsub
      cases hsub
    | cons first rest =>
      rw [hsubs] at hsub
      obtain rfl := Option.some.inj hsub
      refine ⟨s.next + 1 + 1, ?_, htwo⟩
      rw [subDevices, subDevice, if_pos hends]
      rfl
  | rootDevice k =>
    obtain rfl : k = i := hat
    obtain rfl := hfails.driver (by simp)
    refine ⟨s.next + 1, ?_, hone⟩
    simp only [Option.some.injEq, reduceCtorEq, ↓reduceIte, hharmless t ht, subDevices]
    rfl
  | initializeRoot k =>
    obtain ⟨rfl, ze, hroot, hseen⟩ := hat
    obtain rfl := hfails.driver (by simp)
    refine ⟨s.next + 1 + 1, ?_, htwo⟩
    have hany : ¬ (s.cache.any (·.ze = ze)) = true := by
      intro hany
      obtain ⟨d, hd, hze⟩ := List.any_eq_true.mp hany
      exact hseen (List.mem_map.mpr ⟨d, hd, of_decide_eq_true hze⟩)
    have hcall : rootDevice (some (.initializeRoot k)) k (some ze) s.alloc.newArray.deleteArray =
        (.error .driver, s.alloc.newArray.deleteArray.alloc) :=
      (if_neg hany).trans (if_pos rfl)
    simp only [Option.some.injEq, reduceCtorEq, ↓reduceIte, hharmless t ht, subDevices, hroot,
      hcall]
    rfl

/-! ## Handles -/

variable {cache : List Device} {ze : ZeHandle}

theorem mem_keys : ze ∈ (t.keys exposeCSlice).map (·.1) ↔ ze ∈ t.handles := by
  have hsub : ∀ sub : SubTree, ze ∈ (sub.keys exposeCSlice).map (·.1) ↔ ze = sub.ze := by
    intro sub
    unfold SubTree.keys
    rw [List.map_append, List.mem_append, List.map_map]
    constructor
    · rintro (h | h)
      · obtain ⟨q, -, rfl⟩ := List.mem_map.mp h
        rfl
      · exact List.mem_singleton.mp h
    · exact fun h => .inr (List.mem_singleton.mpr h)
  unfold Tree.keys Tree.handles
  rw [List.map_append, List.mem_append, List.map_flatMap, List.mem_flatMap, List.mem_cons]
  constructor
  · rintro (⟨sub, hmem, hze⟩ | hze)
    · exact .inr (List.mem_map.mpr ⟨sub, hmem, ((hsub sub).mp hze).symm⟩)
    · exact .inl (List.mem_singleton.mp hze)
  · rintro (hze | hze)
    · exact .inr (List.mem_singleton.mpr hze)
    · obtain ⟨sub, hmem, hsame⟩ := List.mem_map.mp hze
      exact .inl ⟨sub, hmem, (hsub sub).mpr hsame.symm⟩

/-- What a complete cache has. -/
def expected (exposeCSlice : Bool) (done : List Tree) : List (ZeHandle × Option Queue) :=
  done.flatMap (Tree.keys exposeCSlice) ++ (cards done).map fun ze => (ze, none)

theorem mem_cards : ze ∈ cards done ↔ ∃ t ∈ done, t.root = some ze := by
  unfold cards
  rw [List.mem_dedup, List.mem_filterMap]

theorem mem_expected : ze ∈ (expected exposeCSlice done).map (·.1) ↔
    ze ∈ done.flatMap Tree.handles ∨ ze ∈ cards done := by
  unfold expected
  rw [List.map_append, List.mem_append, List.map_flatMap]
  refine or_congr ?_ ?_
  · rw [List.mem_flatMap, List.mem_flatMap]
    exact exists_congr fun t => and_congr_right fun _ => mem_keys
  · exact ⟨fun h => by simpa using h, fun h => by simpa using h⟩

theorem map_key_fst : (cache.map Device.key).map (·.1) = cache.map (·.ze) :=
  List.map_map ..

/-- The handles in the cache after a device. -/
theorem mem_after {cache block : List Device} (hkeys : (block.map Device.key).Perm
      (t.keys exposeCSlice ++ (newCard t cache).map fun ze => (ze, none))) :
    ze ∈ (cache ++ block).map (·.ze) ↔ ze ∈ cache.map (·.ze) ++ t.seen := by
  have hblock : ze ∈ block.map (·.ze) ↔ ze ∈ t.handles ∨ ze ∈ newCard t cache := by
    rw [← map_key_fst, (hkeys.map _).mem_iff, List.map_append, List.mem_append, mem_keys]
    simp
  rw [List.map_append, List.mem_append, List.mem_append, hblock, Tree.seen, List.mem_append]
  unfold newCard
  rw [List.mem_filter, decide_eq_true_eq]
  constructor
  · rintro (h | h | ⟨h, -⟩)
    · exact .inl h
    · exact .inr (.inl h)
    · exact .inr (.inr h)
  · rintro (h | h | h)
    · exact .inl h
    · exact .inr (.inl h)
    · by_cases hc : ze ∈ cache.map (·.ze)
      · exact .inl hc
      · exact .inr (.inr ⟨h, hc⟩)

/-- One more device is complete, with its card if that is new. -/
theorem expected_add {cache block : List Device}
    (hcards : ∀ ze, t.root = some ze → ze ∉ done.flatMap Tree.handles)
    (hcache : (cache.map Device.key).Perm (expected exposeCSlice done))
    (hblock : (block.map Device.key).Perm
      (t.keys exposeCSlice ++ (newCard t cache).map fun ze => (ze, none))) :
    ((cache ++ block).map Device.key).Perm (expected exposeCSlice (done ++ [t])) := by
  have hknown : ∀ ze, t.root = some ze → (ze ∈ cache.map (·.ze) ↔ ze ∈ cards done) := by
    intro ze hroot
    rw [← map_key_fst, (hcache.map _).mem_iff, mem_expected]
    exact or_iff_right (hcards ze hroot)
  have hnewCard : ∀ ze, ze ∈ newCard t cache ↔ t.root = some ze ∧ ze ∉ cards done := by
    intro ze
    unfold newCard
    rw [List.mem_filter, decide_eq_true_eq, Option.mem_toList]
    exact and_congr_right fun hroot => not_congr (hknown ze hroot)
  have hnew : (cards (done ++ [t])).Perm (cards done ++ newCard t cache) := by
    refine (List.perm_ext_iff_of_nodup (List.nodup_dedup _) ?_).mpr fun ze => ?_
    · rw [List.nodup_append]
      refine ⟨List.nodup_dedup _, ?_, fun x hx y hy => ?_⟩
      · refine List.Nodup.filter _ ?_
        cases t.root with
        | none => exact List.nodup_nil
        | some ze => exact List.nodup_singleton ze
      · rintro rfl
        exact ((hnewCard x).mp hy).2 hx
    · rw [List.mem_append, hnewCard, mem_cards]
      refine mem_cards.trans ?_
      constructor
      · rintro ⟨t', ht', hroot⟩
        rcases List.mem_append.mp ht' with hold | hlast
        · exact .inl ⟨t', hold, hroot⟩
        · obtain rfl := List.mem_singleton.mp hlast
          by_cases hc : ∃ t ∈ done, t.root = some ze
          · exact .inl hc
          · exact .inr ⟨hroot, hc⟩
      · rintro (⟨t', ht', hroot⟩ | ⟨hroot, -⟩)
        · exact ⟨t', List.mem_append_left _ ht', hroot⟩
        · exact ⟨t, List.mem_append_right _ (List.mem_singleton_self t), hroot⟩
  unfold expected at hcache ⊢
  rw [List.map_append, List.flatMap_append, List.flatMap_singleton]
  refine (hcache.append hblock).trans ?_
  refine List.Perm.trans ?_ ((hnew.symm.map fun ze => (ze, none)).append_left _)
  rw [List.map_append]
  generalize done.flatMap (Tree.keys exposeCSlice) = a
  rw [List.append_assoc, List.append_assoc, ← List.append_assoc _ (t.keys exposeCSlice),
    ← List.append_assoc (t.keys exposeCSlice)]
  exact (List.perm_append_comm.append_right _).append_left a

/-! ## The devices of a call -/

/-- **The devices of a call**, if no step fails. -/
theorem devices_spec (exposeCSlice : Bool) (failing : Option Step) :
    ∀ (ts : List Tree) (i : Nat) (done : List Tree) (s : Platform),
    (∀ t ∈ ts, ∀ sub ∈ t.subs, sub.hasCompute = true) →
    (∀ t ∈ done ++ ts, ∀ ze, t.root = some ze → ze ∉ (done ++ ts).flatMap Tree.handles) →
    (∀ step, failing = some step → ∀ k t, ts[k]? = some t →
      ¬ step.AtDevice exposeCSlice (i + k) t
        (s.cache.map (·.ze) ++ (ts.take k).flatMap Tree.seen)) →
    ∃ block next, devices exposeCSlice failing i ts s =
        (.ok (), { s with cache := s.cache ++ block, next := next }) ∧
      (Closed s → Closed { s with cache := s.cache ++ block, next := next }) ∧
      (∀ ze, ze ∈ (s.cache ++ block).map (·.ze) ↔ ze ∈ s.cache.map (·.ze) ++ ts.flatMap Tree.seen) ∧
      ((s.cache.map Device.key).Perm (expected exposeCSlice done) →
        ((s.cache ++ block).map Device.key).Perm (expected exposeCSlice (done ++ ts)))
  | [], i, done, s, _, _, _ => by
    refine ⟨[], s.next, ?_, fun h => ?_, fun ze => ?_, fun h => ?_⟩
    · rw [devices, List.append_nil]
    · rw [List.append_nil]
      exact h
    · rw [List.append_nil, List.flatMap_nil, List.append_nil]
    · rw [List.append_nil, List.append_nil]
      exact h
  | t :: ts, i, done, s, hcompute, hcards, hstep => by
    have hfirst : t ∈ done ++ t :: ts := List.mem_append_right _ List.mem_cons_self
    have hown : ∀ ze, t.root = some ze → ze ∉ t.handles := by
      intro ze hroot hmem
      exact hcards t hfirst ze hroot (List.mem_flatMap.mpr ⟨t, hfirst, hmem⟩)
    obtain ⟨block, next, heq, hclosed, hkeys⟩ := device_spec exposeCSlice failing (s := s) (i := i)
      (hcompute t List.mem_cons_self) hown fun step h hat => by
        refine hstep step h 0 t rfl ?_
        rw [List.take_zero, List.flatMap_nil, List.append_nil]
        exact hat
    -- the other devices see the cache with the block of the first
    obtain ⟨block', next', heq', hclosed', hmem', hkeys'⟩ := devices_spec exposeCSlice failing ts
      (i + 1) (done ++ [t]) { s with cache := s.cache ++ block, next := next }
      (fun t' h => hcompute t' (List.mem_cons_of_mem t h))
      (by rw [List.append_assoc]; exact hcards)
      fun step h k t' hk hat => by
        refine hstep step h (k + 1) t' hk ?_
        rw [Nat.add_assoc, Nat.add_comm 1] at hat
        refine hat.congr fun ze hze => ?_
        rw [List.take_succ_cons, List.flatMap_cons] at hze
        rw [List.mem_append, mem_after hkeys, List.mem_append]
        simp only [List.mem_append] at hze
        rcases hze with h | h | h
        · exact .inl (.inl h)
        · exact .inl (.inr h)
        · exact .inr h
    refine ⟨block ++ block', next', ?_, fun h => ?_, fun ze => ?_, fun h => ?_⟩
    · rw [devices, heq]
      dsimp only
      rw [heq', List.append_assoc]
    · rw [← List.append_assoc]
      exact hclosed' (hclosed h)
    · rw [← List.append_assoc, hmem', List.mem_append, mem_after hkeys, List.flatMap_cons]
      simp [or_assoc]
    · rw [← List.append_assoc, List.append_cons]
      refine hkeys' (expected_add (fun ze hroot hmem => ?_) h hkeys)
      refine hcards t hfirst ze hroot ?_
      rw [List.flatMap_append]
      exact List.mem_append_left _ hmem

theorem devices_append : ∀ (ts ts' : List Tree) (i : Nat) (s : Platform),
    devices exposeCSlice failing i (ts ++ ts') s =
      match devices exposeCSlice failing i ts s with
      | (.error e, s') => (.error e, s')
      | (.ok _, s') => devices exposeCSlice failing (i + ts.length) ts' s'
  | [], _, _, _ => rfl
  | t :: ts, ts', i, s => by
    rw [List.cons_append, devices, devices]
    rcases device exposeCSlice failing i t s with ⟨_ | _, s'⟩
    · rfl
    · rw [List.length_cons, Nat.add_comm ts.length, ← Nat.add_assoc]
      exact devices_append ts ts' (i + 1) s'

/-- **A call that ends at a harmless step** has added whole devices only. -/
theorem devices_fails (hreported : Reported tree)
    (hends : EndsAt exposeCSlice tree s.cache failing step) (ht : tree[i]? = some t)
    (hat : step.AtDevice exposeCSlice i t
      (s.cache.map (·.ze) ++ (tree.take i).flatMap Tree.seen))
    (hharmless : Harmless tree step) :
    ∃ block next, devices exposeCSlice failing 0 tree s =
        (.error .driver, { s with cache := s.cache ++ block, next := next }) ∧
      (Closed s → Closed { s with cache := s.cache ++ block, next := next }) := by
  obtain ⟨hi, hget⟩ := List.getElem?_eq_some_iff.mp ht
  have htree : tree = tree.take i ++ t :: tree.drop (i + 1) := by
    rw [← hget, List.getElem_cons_drop, List.take_append_drop]
  have hlength : (tree.take i).length = i := List.length_take_of_le (Nat.le_of_lt hi)
  have hsub : ∀ t' ∈ tree.take i, t' ∈ tree := fun t' h => List.mem_of_mem_take h
  have hearlier : ∀ {k : Nat} {t' : Tree}, (tree.take i)[k]? = some t' →
      k < i ∧ tree[k]? = some t' := by
    intro k t' hk
    have hlt : k < i := hlength ▸ (List.getElem?_eq_some_iff.mp hk).1
    rw [List.getElem?_take_of_lt hlt] at hk
    exact ⟨hlt, hk⟩
  -- no step of an earlier device fails
  have hbefore : ∀ {k : Nat} {t' : Tree} {step' : Step}, k < i → Fails tree failing step' →
      tree[k]? = some t' → ¬ step'.AtDevice exposeCSlice k t'
        (s.cache.map (·.ze) ++ (tree.take k).flatMap Tree.seen) := by
    intro k t' step' hlt hfails hk hat'
    have hle := Prod.Lex.monotone_fst _ _ (hends.first hfails (.inr (.inr ⟨k, t', hk, hat'⟩)))
    rw [hat.place, hat'.place] at hle
    omega
  obtain ⟨block, next, heq, hclosed, hmem, -⟩ := devices_spec exposeCSlice failing
    (tree.take i) 0 [] s
    (fun t' h sub hs => by
      obtain ⟨k, hk⟩ := List.mem_iff_getElem?.mp h
      obtain ⟨j, hj⟩ := List.mem_iff_getElem?.mp hs
      obtain ⟨hlt, hk'⟩ := hearlier hk
      by_contra hcompute
      exact hbefore hlt (.inr ⟨k, j, t', sub, hk', hj, hcompute, rfl⟩) hk' ⟨j, sub, hj, rfl, rfl⟩)
    (fun t' h ze hroot hze => by
      obtain ⟨t'', ht'', hze'⟩ := List.mem_flatMap.mp hze
      exact hreported.cards t' (hsub t' h) ze hroot
        (List.mem_flatMap.mpr ⟨t'', hsub t'' ht'', hze'⟩))
    fun step' h k t' hk hat' => by
      obtain ⟨hlt, hk'⟩ := hearlier hk
      rw [Nat.zero_add, List.take_take, Nat.min_eq_left (Nat.le_of_lt hlt)] at hat'
      exact hbefore hlt (.inl h) hk' hat'
  obtain ⟨next', heq', hle⟩ := device_fails exposeCSlice failing
    (s := { s with cache := s.cache ++ block, next := next }) ht hends.1.1
    (hat.congr fun ze hze => (hmem ze).mp hze) (fun step' h hat' =>
      hends.first (.inl h) (.inr (.inr ⟨i, t, ht, hat'.congr fun ze hze => (hmem ze).mpr hze⟩)))
    hharmless
  refine ⟨block, next', ?_, fun h => (hclosed h).later hle⟩
  rw [htree, devices_append, heq]
  dsimp only
  rw [hlength, Nat.zero_add, devices, heq']

/-! ## The complete cache -/

theorem find?_of_nodup {α : Type} {f : α → Nat} : ∀ {xs : List α} {x : α}, (xs.map f).Nodup → x ∈ xs →
    xs.find? (fun y => f y = f x) = some x
  | y :: ys, x, hnodup, hx => by
    rw [List.map_cons, List.nodup_cons] at hnodup
    rw [List.find?_cons]
    rcases List.mem_cons.mp hx with rfl | hmem
    · rw [decide_eq_true rfl]
    · have hne : f y ≠ f x := fun heq => hnodup.1 (heq ▸ List.mem_map_of_mem hmem)
      rw [decide_eq_false hne]
      exact find?_of_nodup hnodup.2 hmem

theorem mem_of_withIds {d : Device} (h : d ∈ withIds cache) :
    ∃ d' ∈ cache, ∃ id, d = { d' with id := id } := by
  obtain ⟨id, hid, heq⟩ := List.mem_mapIdx.mp h
  exact ⟨_, List.getElem_mem hid, id, heq.symm⟩

theorem withIds_mem {d : Device} (h : d ∈ cache) : ∃ id, { d with id := id } ∈ withIds cache := by
  obtain ⟨id, hid, rfl⟩ := List.getElem_of_mem h
  exact ⟨id, List.mem_mapIdx.mpr ⟨id, hid, rfl⟩⟩

theorem map_withIds {α : Type} {f : Device → α}
    (hf : ∀ (d : Device) (id : Nat), f { d with id := id } = f d) :
    (withIds cache).map f = cache.map f := by
  refine List.ext_getElem? fun k => ?_
  unfold withIds
  rw [List.getElem?_map, List.getElem?_mapIdx, List.getElem?_map, Option.map_map]
  exact congrArg (cache[k]?.map ·) (funext fun d => hf d k)

theorem ids_withIds (cache : List Device) :
    (withIds cache).map (·.id) = List.range (withIds cache).length := by
  unfold withIds
  rw [List.mapIdx_eq_zipIdx_map, List.map_map, List.length_map, List.length_zipIdx,
    List.range_eq_range']
  exact List.zipIdx_map_snd 0 cache

theorem Closed.withIds (h : Closed s) :
    Closed { s with cache := DeviceCache.withIds s.cache } := by
  refine ⟨fun d hd => ?_, ?_, fun d hd x hx => ?_, fun d hd hroot => ?_, fun d hd x hx => ?_⟩
  · obtain ⟨d', hd', id, rfl⟩ := mem_of_withIds hd
    exact h.range d' hd'
  · rw [map_withIds fun _ _ => rfl]
    exact h.nodup
  · obtain ⟨d', hd', id, rfl⟩ := mem_of_withIds hd
    obtain ⟨p, hp, hrest⟩ := h.root d' hd' x hx
    obtain ⟨id', hp'⟩ := withIds_mem hp
    exact ⟨_, hp', hrest⟩
  · obtain ⟨d', hd', id, rfl⟩ := mem_of_withIds hd
    exact h.top d' hd' hroot
  · obtain ⟨d', hd', id, rfl⟩ := mem_of_withIds hd
    obtain ⟨c, hc, hrest⟩ := h.children d' hd' x hx
    obtain ⟨id', hc'⟩ := withIds_mem hc
    exact ⟨_, hc', hrest⟩

/-- The filter of the lookup leaves out the devices of queues, and no others. -/
theorem Closed.filter {d : Device} (h : Closed s) (hd : d ∈ s.cache) :
    (d.root = none ∨ ∃ x ∈ d.root, ∃ parent ∈ find s.cache x, parent.root = none) ↔
      d.queue = none := by
  cases hroot : d.root with
  | none => exact iff_of_true (.inl rfl) (h.top d hd hroot)
  | some x =>
    obtain ⟨p, hp, rfl, -, hqueue⟩ := h.root d hd x hroot
    have hfind : find s.cache p.address = some p := find?_of_nodup h.nodup hp
    rw [hqueue]
    constructor
    · rintro (hnone | ⟨y, hy, parent, hparent, hnone⟩)
      · cases hnone
      · obtain rfl := Option.some.inj hy
        obtain rfl := Option.some.inj (hfind.symm.trans hparent)
        exact hnone
    · exact fun hnone => .inr ⟨_, rfl, p, hfind, hnone⟩

theorem handles_keys (h : ze ∈ tree.flatMap Tree.handles ++ cards tree) :
    (ze, none) ∈ expected exposeCSlice tree := by
  rcases List.mem_append.mp h with h | h
  · obtain ⟨t, ht, hmem⟩ := List.mem_flatMap.mp h
    refine List.mem_append_left _ (List.mem_flatMap.mpr ⟨t, ht, ?_⟩)
    rcases List.mem_cons.mp hmem with rfl | hsub
    · exact List.mem_append_right _ (List.mem_singleton_self _)
    · obtain ⟨sub, hmem', rfl⟩ := List.mem_map.mp hsub
      refine List.mem_append_left _ (List.mem_flatMap.mpr ⟨sub, hmem', ?_⟩)
      exact List.mem_append_right _ (List.mem_singleton_self _)
  · exact List.mem_append_right _ (List.mem_map_of_mem h)

/-- A closed cache with every device is complete once it has ids. -/
theorem Closed.complete (h : Closed s)
    (hkeys : (s.cache.map Device.key).Perm (expected exposeCSlice tree)) :
    Complete exposeCSlice tree (DeviceCache.withIds s.cache) := by
  have hclosed := h.withIds
  have hids := ids_withIds s.cache
  have hkeys' : ((DeviceCache.withIds s.cache).map Device.key).Perm
      (expected exposeCSlice tree) := by
    rw [map_withIds fun _ _ => rfl]
    exact hkeys
  refine ⟨hkeys', hclosed.nodup, fun d hd x hx => ?_, hclosed.children, hids, fun d hd => ?_,
    fun ze hze => ?_⟩
  · obtain ⟨p, hp, hx', hmem, -⟩ := hclosed.root d hd x hx
    exact ⟨p, hp, hx', hmem⟩
  · refine find?_of_nodup (f := Device.id) ?_ hd
    rw [hids]
    exact List.nodup_range
  · obtain ⟨d, hd, hkey⟩ := List.mem_map.mp ((hkeys'.mem_iff).mpr (handles_keys hze))
    cases hfind : getDeviceFromNativeHandle (DeviceCache.withIds s.cache) ze with
    | none =>
      have hnot := List.find?_eq_none.mp hfind d hd
      rw [decide_eq_true_eq] at hnot
      exact absurd ⟨congrArg Prod.fst hkey, (hclosed.filter hd).mpr (congrArg Prod.snd hkey)⟩ hnot
    | some d' =>
      have hd' := List.mem_of_find?_eq_some hfind
      have hfound := List.find?_some hfind
      rw [decide_eq_true_eq] at hfound
      obtain ⟨hze', hfilter⟩ := hfound
      exact ⟨d', hd', hze', (hclosed.filter hd').mp hfilter, rfl⟩

/-! ## Calls -/

/-- The invariant of the platform. -/
structure Good (exposeCSlice : Bool) (tree : List Tree) (s : Platform) : Prop where
  closed : Closed s
  complete : s.populated = true → Complete exposeCSlice tree s.cache

/-- **One call.** -/
theorem populate_right (hreported : Reported tree) (hgood : Good exposeCSlice tree s)
    (hcareful : Careful exposeCSlice tree s failing) :
    CallRight exposeCSlice tree s failing ∧
      Good exposeCSlice tree (populateDeviceCacheIfNeeded exposeCSlice tree s failing).2 := by
  have hparents : ∀ {s' : Platform}, Closed s' → ∀ d ∈ s'.cache, ∀ x, d.root = some x →
      ∃ parent ∈ s'.cache, parent.address = x := by
    intro s' hclosed d hd x hx
    obtain ⟨p, hp, heq, -⟩ := hclosed.root d hd x hx
    exact ⟨p, hp, heq⟩
  by_cases hpopulated : s.populated = true
  · have hcall : populateDeviceCacheIfNeeded exposeCSlice tree s failing = (.ok (), s) :=
      if_pos hpopulated
    refine ⟨⟨fun _ => ?_, ?_, ?_⟩, ?_⟩
    · rw [hcall]
      exact hgood.complete hpopulated
    · rw [hcall]
      exact hparents hgood.closed
    · rw [hcall]
    · rw [hcall]
      exact hgood
  · -- what a call that fails and keeps a closed cache is
    have herror : ∀ {s' : Platform}, populateDeviceCacheIfNeeded exposeCSlice tree s failing =
        (.error .driver, s') → Closed s' → s'.populated = s.populated → s'.arrays = s.arrays →
        CallRight exposeCSlice tree s failing ∧
          Good exposeCSlice tree (populateDeviceCacheIfNeeded exposeCSlice tree s failing).2 := by
      intro s' hcall hclosed hsame harrays
      refine ⟨⟨fun hok => ?_, ?_, ?_⟩, ?_⟩
      · rw [hcall] at hok
        cases hok
      · rw [hcall]
        exact hparents hclosed
      · rw [hcall]
        exact harrays
      · rw [hcall]
        exact ⟨hclosed, fun h => absurd (hsame.symm.trans h) hpopulated⟩
    obtain ⟨hharmless, hempty⟩ := hcareful.resolve_left hpopulated
    by_cases hfirst : failing = some .deviceCount ∨ failing = some .devices
    · refine herror ?_ hgood.closed rfl rfl
      unfold populateDeviceCacheIfNeeded
      rw [if_neg hpopulated, if_pos hfirst]
    by_cases hends : ∃ step, EndsAt exposeCSlice tree s.cache failing step
    · obtain ⟨step, hends⟩ := hends
      obtain ⟨hfails, rfl | rfl | ⟨i, t, ht, hat⟩⟩ := hends.1
      · exact absurd (.inl (hfails.driver (by simp))) hfirst
      · exact absurd (.inr (hfails.driver (by simp))) hfirst
      obtain ⟨block, next, heq, hclosed⟩ :=
        devices_fails hreported hends ht hat (hharmless step hends)
      refine herror ?_ (hclosed hgood.closed) rfl rfl
      unfold populateDeviceCacheIfNeeded
      rw [if_neg hpopulated, if_neg hfirst, heq]
    · have hnone : ∀ step, Fails tree failing step → ¬ Occurs exposeCSlice tree s.cache step :=
        fun step hfails hoccurs => hends (exists_endsAt hfails hoccurs)
      obtain ⟨block, next, heq, hclosed, -, hkeys⟩ := devices_spec exposeCSlice failing
        tree 0 [] s
        (fun t ht sub hsub => by
          obtain ⟨i, hi⟩ := List.mem_iff_getElem?.mp ht
          obtain ⟨j, hj⟩ := List.mem_iff_getElem?.mp hsub
          by_contra hcompute
          exact hnone _ (.inr ⟨i, j, t, sub, hi, hj, hcompute, rfl⟩)
            (.inr (.inr ⟨i, t, hi, j, sub, hj, rfl, rfl⟩)))
        hreported.cards fun step h k t hk hat => by
          rw [Nat.zero_add] at hat
          exact hnone step (.inl h) (.inr (.inr ⟨k, t, hk, hat⟩))
      have hcall : populateDeviceCacheIfNeeded exposeCSlice tree s failing = (.ok (), { s with
          cache := withIds (s.cache ++ block), next := next, populated := true }) := by
        unfold populateDeviceCacheIfNeeded
        rw [if_neg hpopulated, if_neg hfirst, heq]
      have hclosed' := hclosed hgood.closed
      have hfull : Complete exposeCSlice tree (withIds (s.cache ++ block)) :=
        hclosed'.complete (hkeys (by rw [hempty fun step h => hends ⟨step, h⟩]; exact .nil))
      have hafter : Closed { s with
          cache := withIds (s.cache ++ block), next := next, populated := true } :=
        ⟨hclosed'.withIds.range, hclosed'.withIds.nodup, hclosed'.withIds.root,
          hclosed'.withIds.top, hclosed'.withIds.children⟩
      refine ⟨⟨fun _ => ?_, ?_, ?_⟩, ?_⟩
      · rw [hcall]
        exact hfull
      · rw [hcall]
        exact hparents hafter
      · rw [hcall]
      · rw [hcall]
        exact ⟨hafter, fun _ => hfull⟩

theorem good_nil : Good exposeCSlice tree {} :=
  ⟨⟨nofun, List.nodup_nil, nofun, nofun, nofun⟩, nofun⟩

/-- **Calls that meet no defect**: every successful one finds the cache complete, and one that fails
leaves no device without its parent and no array. -/
theorem cache_right (exposeCSlice : Bool) (tree : List Tree) (calls : List (Option Step))
    (hreported : Reported tree)
    (hcareful : Along (fun s failing => (populateDeviceCacheIfNeeded exposeCSlice tree s failing).2)
      (Careful exposeCSlice tree) {} calls) :
    Along (fun s failing => (populateDeviceCacheIfNeeded exposeCSlice tree s failing).2)
      (CallRight exposeCSlice tree) {} calls := by
  have hstep : ∀ s failing, Good exposeCSlice tree s → Careful exposeCSlice tree s failing →
      Good exposeCSlice tree (populateDeviceCacheIfNeeded exposeCSlice tree s failing).2 :=
    fun s failing hgood hcareful => (populate_right hreported hgood hcareful).2
  have hgood := (Along.invariant hstep good_nil hcareful).1
  exact (hgood.and hcareful).mono fun _ _ h => (populate_right hreported h.1 h.2).1

/-- A card with a device of two tiles, where the first sub-device has two queues. -/
def twoTiles : List Tree :=
  [{ ze := 1, subs := [⟨2, [⟨true, 2⟩], true⟩, ⟨3, [⟨true, 1⟩], true⟩], root := some 4 }]

theorem twoTiles_reported : Reported twoTiles := ⟨by decide, by decide⟩

theorem cache_right_retry : getNumDevices
      (populateDeviceCacheIfNeeded false twoTiles
        (populateDeviceCacheIfNeeded false twoTiles {} (some (.initializeSub 0 0))).2 none).2 = 6 ∧
    Along (fun s failing => (populateDeviceCacheIfNeeded false twoTiles s failing).2)
      (CallRight false twoTiles) {} [some (.initializeSub 0 0), none] := by
  have hcompute : ∀ t ∈ twoTiles, ∀ sub ∈ t.subs, sub.hasCompute = true := by decide
  have hfails : ∀ {failing step}, Fails twoTiles failing step → failing = some step := by
    rintro failing step (h | ⟨i, j, t, sub, ht, hsub, hnot, -⟩)
    · exact h
    · exact absurd (hcompute t (List.mem_of_getElem? ht) sub (List.mem_of_getElem? hsub)) hnot
  refine ⟨rfl, cache_right false twoTiles _ twoTiles_reported
    ⟨.inr ⟨fun step h => ?_, fun _ => rfl⟩, .inr ⟨fun step h => ?_, fun _ => rfl⟩, trivial⟩⟩
  · obtain rfl := Option.some.inj (hfails h.1.1)
    rfl
  · cases hfails h.1.1

/-- The second sub-device cannot be initialized: the first one and those of its queues are in the
cache, the device is not. -/
theorem parent_destroyed : ¬ ∀ exposeCSlice tree calls, Reported tree →
    Along (fun s failing => (populateDeviceCacheIfNeeded exposeCSlice tree s failing).2)
      (CallRight exposeCSlice tree) {} calls := by
  intro h
  have hcall := (h false twoTiles [some (.initializeSub 0 1)] twoTiles_reported).1
  obtain ⟨parent, hparent, haddress⟩ :=
    hcall.parents { address := 1, ze := 2, root := some 0, subs := [2, 3] } (by decide) 0 rfl
  revert parent
  decide

end UnifiedRuntime.LevelZero.DeviceCache
