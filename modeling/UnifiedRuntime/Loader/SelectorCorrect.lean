import UnifiedRuntime.Lib.Except
import UnifiedRuntime.Loader.SelectorReading

/-!
# The selection against its documentation

`selectedDevices` keeps three vectors and takes devices out of them as filters
match. Read as one pool (`DevicePools.all`) that is a `sweep`, so its result is
the documented concatenation with repeats erased, for the matches the code
computes. Where every filter is faithful those are the documented matches
(`selectedDevices_faithful`); a filter that is neither faithful nor rejected
makes a selector of its own that is wrong on some device tree.
-/

namespace UnifiedRuntime.Loader

open Str

/-! ## Three vectors as one pool -/

/-- Each vector holds devices of its own depth. -/
def DevicePools.Levelled (pools : DevicePools) : Prop :=
  ∀ l, ∀ d ∈ pools.at l, d.level = l

variable {b : PlatformBackend} {p : Platform} {m : EnvVarMap} {pools : DevicePools}

/-- A filter selects from the devices of its own level only. -/
theorem all_filter_filterAt (h : pools.Levelled) (f : DeviceSpec) :
    pools.all.filter (filterAt f) = (pools.at f.level).filter (applyFilter f) := by
  have hat : ∀ l, (pools.at l).filter (filterAt f)
      = if l = f.level then (pools.at l).filter (applyFilter f) else [] := by
    intro l
    split
    · next hl =>
      refine List.filter_congr fun d hd => ?_
      simp [filterAt, h l d hd, hl]
    · next hl =>
      refine List.filter_eq_nil_iff.mpr fun d hd => ?_
      simp [filterAt, h l d hd, hl]
  have hall : pools.all = pools.at .root ++ pools.at .sub ++ pools.at .subSub := rfl
  rw [hall, List.filter_append, List.filter_append, hat, hat, hat]
  cases f.level <;> simp

theorem removeIf_at (pools : DevicePools) (f : DeviceSpec) (l : DevicePartLevel) :
    (pools.removeIf f).at l
      = if l = f.level then (pools.at l).filter (!applyFilter f ·) else pools.at l := by
  unfold DevicePools.removeIf
  cases hf : f.level <;> cases l <;> rfl

theorem removeIf_levelled (h : pools.Levelled) (f : DeviceSpec) : (pools.removeIf f).Levelled := by
  intro l d hd
  rw [removeIf_at] at hd
  split at hd
  · exact h l d (List.mem_filter.mp hd).1
  · exact h l d hd

/-- Removing at one depth is filtering the whole pool. -/
theorem removeIf_all (h : pools.Levelled) (f : DeviceSpec) :
    (pools.removeIf f).all = pools.all.filter (!filterAt f ·) := by
  have hat : ∀ l, (pools.removeIf f).at l = (pools.at l).filter (!filterAt f ·) := by
    intro l
    rw [removeIf_at]
    split
    · next hl =>
      refine List.filter_congr fun d hd => ?_
      simp [filterAt, h l d hd, hl]
    · next hl =>
      symm
      refine List.filter_eq_self.mpr fun d hd => ?_
      simp [filterAt, h l d hd, hl]
  have hall : ∀ q : DevicePools, q.all = q.at .root ++ q.at .sub ++ q.at .subSub := fun _ => rfl
  rw [hall, hall, List.filter_append, List.filter_append, hat, hat, hat]

theorem applyDiscards_levelled : ∀ (discards : List DeviceSpec) {pools : DevicePools},
    pools.Levelled → (applyDiscards discards pools).Levelled := by
  intro discards
  induction discards with
  | nil => intro pools h; exact h
  | cons f discards ih => intro pools h; exact ih (removeIf_levelled h f)

theorem applyDiscards_all : ∀ (discards : List DeviceSpec) {pools : DevicePools},
    pools.Levelled →
      (applyDiscards discards pools).all = pools.all.filter (fun d => !discards.any (filterAt · d)) := by
  intro discards
  induction discards with
  | nil =>
    intro pools _
    simp [applyDiscards]
  | cons f discards ih =>
    intro pools h
    have hrest := ih (removeIf_levelled h f)
    rw [show applyDiscards (f :: discards) pools = applyDiscards discards (pools.removeIf f) from rfl,
      hrest, removeIf_all h, List.filter_filter]
    refine List.filter_congr fun d _ => ?_
    rw [List.any_cons, Bool.not_or, Bool.and_comm]

/-- The accept loop, from any state of the loop. -/
theorem applyAccepts_foldl : ∀ (accepts : List DeviceSpec) {pools : DevicePools}
    (selected : List DeviceHandle), pools.Levelled →
      (accepts.foldl (fun (pools, selected) accept =>
        (pools.removeIf accept, selected ++
          ((pools.at accept.level).filter (applyFilter accept)).map (·.urDeviceHandle)))
        (pools, selected)).2
      = selected ++ (sweep (accepts.map filterAt) pools.all).map (·.urDeviceHandle) := by
  intro accepts
  induction accepts with
  | nil =>
    intro pools selected _
    simp [sweep]
  | cons f accepts ih =>
    intro pools selected h
    rw [List.foldl_cons, ih _ (removeIf_levelled h f), removeIf_all h, List.map_cons,
      sweep_cons, all_filter_filterAt h, List.map_append, List.append_assoc]

/-- **The accept loop is a sweep over the whole pool.** -/
theorem applyAccepts_eq_sweep (accepts : List DeviceSpec) (h : pools.Levelled) :
    (applyAccepts accepts pools).2
      = (sweep (accepts.map filterAt) pools.all).map (·.urDeviceHandle) := by
  have hloop := applyAccepts_foldl accepts [] h
  exact hloop

/-! ## The devices of a platform -/

theorem mem_rootDevices {dt : DeviceType} {d : DeviceSpec} :
    d ∈ rootDevices p dt ↔ ∃ i h, p.roots[i]? = some h ∧ keepDeviceType dt d = true ∧
      d = ⟨.root, p.deviceType h, i, deviceIdTypeALL, deviceIdTypeALL, h⟩ := by
  unfold rootDevices
  rw [List.mem_filter, List.mem_map]
  constructor
  · rintro ⟨⟨⟨h, i⟩, hmem, rfl⟩, hk⟩
    rw [List.mem_zipIdx_iff_getElem?] at hmem
    exact ⟨i, h, hmem, hk, rfl⟩
  · rintro ⟨i, h, hi, hk, rfl⟩
    exact ⟨⟨(h, i), List.mem_zipIdx_iff_getElem?.mpr hi, rfl⟩, hk⟩

theorem mem_partitionDevices {spec : DeviceSpec → Nat → DeviceHandle → DeviceSpec}
    {ds : List DeviceSpec} {d : DeviceSpec} :
    d ∈ partitionDevices p spec ds ↔
      ∃ e ∈ ds, ∃ i h, (p.partition e.urDeviceHandle)[i]? = some h ∧ d = spec e i h := by
  unfold partitionDevices
  rw [List.mem_flatMap]
  refine exists_congr fun e => and_congr_right fun _ => ?_
  rw [List.mem_map]
  constructor
  · rintro ⟨⟨h, i⟩, hmem, rfl⟩
    exact ⟨i, h, List.mem_zipIdx_iff_getElem?.mp hmem, rfl⟩
  · rintro ⟨i, h, hi, rfl⟩
    exact ⟨(h, i), List.mem_zipIdx_iff_getElem?.mpr hi, rfl⟩

theorem devicePools_levelled (p : Platform) (dt : DeviceType) : (devicePools p dt).Levelled := by
  intro l d hd
  cases l with
  | root =>
    obtain ⟨i, h, -, -, rfl⟩ := mem_rootDevices.mp hd
    rfl
  | sub =>
    change d ∈ subDevices p _ at hd
    obtain ⟨e, -, i, h, -, rfl⟩ := mem_partitionDevices.mp hd
    rfl
  | subSub =>
    change d ∈ subSubDevices p _ at hd
    obtain ⟨e, -, i, h, -, rfl⟩ := mem_partitionDevices.mp hd
    rfl

theorem zipIdx_map_nodup {α β : Type} {l : List α} {g : α × Nat → β} (idx : β → Nat)
    (h : ∀ x i, idx (g (x, i)) = i) : (l.zipIdx.map g).Nodup := by
  refine List.Nodup.of_map idx ?_
  have hsnd : (l.zipIdx.map g).map idx = l.zipIdx.map Prod.snd := by
    rw [List.map_map]
    exact List.map_congr_left fun x _ => h x.1 x.2
  rw [hsnd, List.zipIdx_map_snd]
  exact List.nodup_range'

/-- Partitioning keeps positions apart: a device's position is its parent's and
its own index. -/
theorem partitionDevices_key_nodup {κ : Type}
    {spec : DeviceSpec → Nat → DeviceHandle → DeviceSpec} {ds : List DeviceSpec}
    {key : DeviceSpec → κ} {key' : DeviceSpec → κ × Nat}
    (hkey : ∀ e i h, key' (spec e i h) = (key e, i)) (h : (ds.map key).Nodup) :
    ((partitionDevices p spec ds).map key').Nodup := by
  unfold partitionDevices
  rw [List.map_flatMap, List.nodup_flatMap]
  refine ⟨fun e _ => ?_, ?_⟩
  · rw [List.map_map]
    exact zipIdx_map_nodup Prod.snd fun x i => by simp [hkey]
  · refine (List.pairwise_map.mp h).imp fun {a b} hab => ?_
    intro x hxa hxb
    simp only [List.map_map, List.mem_map, Function.comp_apply] at hxa hxb
    obtain ⟨⟨h1, i1⟩, -, rfl⟩ := hxa
    obtain ⟨⟨h2, i2⟩, -, he⟩ := hxb
    simp only [hkey, Prod.mk.injEq] at he
    exact hab he.1.symm

theorem rootDevices_nodup (p : Platform) (dt : DeviceType) :
    ((rootDevices p dt).map (·.rootId)).Nodup := by
  refine List.Nodup.sublist (List.Sublist.map _ List.filter_sublist) ?_
  rw [List.map_map]
  exact zipIdx_map_nodup id fun x i => rfl

/-- **No device stands at two positions of the pool.** -/
theorem devicePools_nodup (p : Platform) (dt : DeviceType) : (devicePools p dt).all.Nodup := by
  have hroot := rootDevices_nodup p dt
  have hsub : ((subDevices p (rootDevices p dt)).map (fun d => (d.rootId, d.subId))).Nodup :=
    partitionDevices_key_nodup (fun _ _ _ => rfl) hroot
  have hsubSub : ((subSubDevices p (subDevices p (rootDevices p dt))).map
      (fun d => ((d.rootId, d.subId), d.subsubId))).Nodup :=
    partitionDevices_key_nodup (fun _ _ _ => rfl) hsub
  have hlev := devicePools_levelled p dt
  refine List.nodup_append.mpr ⟨List.nodup_append.mpr ⟨hroot.of_map, hsub.of_map, ?_⟩,
    hsubSub.of_map, ?_⟩
  · intro a ha b hb hab
    have h1 := hlev .root a ha
    have h2 := hlev .sub b hb
    rw [hab, h2] at h1
    exact absurd h1 (by decide)
  · intro a ha b hb hab
    have h2 := hlev .subSub b hb
    rcases List.mem_append.mp ha with ha | ha
    · have h1 := hlev .root a ha
      rw [hab, h2] at h1
      exact absurd h1 (by decide)
    · have h1 := hlev .sub a ha
      rw [hab, h2] at h1
      exact absurd h1 (by decide)

/-! ## Reading the terms -/

/-- Push several filters of one term. -/
def DeviceLists.pushAll (lists : DeviceLists) (discard : Bool) (specs : List DeviceSpec) :
    DeviceLists :=
  if discard then { lists with discard := lists.discard ++ specs }
  else { lists with accept := lists.accept ++ specs }

theorem push_pushAll (lists : DeviceLists) (discard : Bool) (spec : DeviceSpec)
    (specs : List DeviceSpec) :
    (lists.push discard spec).pushAll discard specs = lists.pushAll discard (spec :: specs) := by
  cases discard <;> simp [DeviceLists.push, DeviceLists.pushAll]

theorem pushFilters_foldlM {discard : Bool} : ∀ (strs : List Str) {lists : DeviceLists},
    (∀ s ∈ strs, ∃ f, Filter.read s = some f ∧ ¬ f.Rejected) →
      strs.foldlM (pushFilters discard) lists
        = .ok (lists.pushAll discard ((strs.filterMap Filter.read).map Filter.toSpec)) := by
  intro strs
  induction strs with
  | nil =>
    intro lists _
    cases discard <;> simp [DeviceLists.pushAll] <;> rfl
  | cons s strs ih =>
    intro lists h
    obtain ⟨f, hf, hr⟩ := h s (List.mem_cons_self ..)
    have hread := (readFilterString_ok (filter_read_text hf) hr).2
    have hstep : pushFilters discard lists s = .ok (lists.push discard f.toSpec) := by
      unfold pushFilters
      rw [hread]
    rw [List.foldlM_cons, hstep, List.filterMap_cons_some hf, List.map_cons, ← push_pushAll]
    exact ih fun s hs => h s (List.mem_cons_of_mem _ hs)

/-- What a term in the grammar passes the checks with. -/
theorem checkTerm_ok {name backend : Str} {strs : List Str} (hb : backendMatches name backend = true)
    (hne : strs ≠ []) (h : ∀ s ∈ strs, ∃ f, Filter.read s = some f ∧ ¬ f.Rejected) :
    checkTerm name backend strs = .ok (some strs) := by
  have hempty : ¬ strs.any List.isEmpty = true := by
    rw [List.any_eq_true]
    rintro ⟨s, hs, he⟩
    obtain ⟨f, hf, -⟩ := h s hs
    exact filterText_ne_nil (filter_read_text hf) (List.isEmpty_iff.mp he)
  have hdots : ¬ strs.any (fun s => 2 < s.count '.') = true := by
    rw [List.any_eq_true]
    rintro ⟨s, hs, he⟩
    obtain ⟨f, hf, -⟩ := h s hs
    exact filterText_dots (filter_read_text hf) (by simpa using he)
  have hwild : ¬ strs.any badWildcard = true := by
    rw [List.any_eq_true]
    rintro ⟨s, hs, he⟩
    obtain ⟨f, hf, hr⟩ := h s hs
    rw [(readFilterString_ok (filter_read_text hf) hr).1] at he
    exact absurd he (by simp)
  unfold checkTerm
  rw [if_neg (by simp [hb]), if_neg (by simpa using hne), if_neg hempty, if_neg hdots,
    if_neg hwild]

theorem readTerm_ok {name : Str} {lists : DeviceLists} {e : Str × List Str} (hk : e.1 ≠ [])
    (hb : backendMatches name (termBackend e.1).2 = true) (hne : e.2 ≠ [])
    (h : ∀ s ∈ e.2, ∃ f, Filter.read s = some f ∧ ¬ f.Rejected) :
    readTerm name lists e
      = .ok (lists.pushAll (termBackend e.1).1 ((e.2.filterMap Filter.read).map Filter.toSpec)) := by
  unfold readTerm
  rw [if_neg (by simpa using hk)]
  simp only
  rw [checkTerm_ok hb hne h]
  exact pushFilters_foldlM e.2 h

/-- The filters of one kind in a list of terms. -/
def termFilters (discard : Bool) (es : List (Str × List Str)) : List Filter :=
  es.flatMap fun e => if (termBackend e.1).1 = discard then e.2.filterMap Filter.read else []

theorem readTerms_foldlM {name : Str} : ∀ (es : List (Str × List Str)) (lists : DeviceLists),
    (∀ e ∈ es, e.1 ≠ [] ∧ backendMatches name (termBackend e.1).2 = true ∧ e.2 ≠ [] ∧
      ∀ s ∈ e.2, ∃ f, Filter.read s = some f ∧ ¬ f.Rejected) →
      es.foldlM (readTerm name) lists
        = .ok ⟨lists.accept ++ (termFilters false es).map Filter.toSpec,
            lists.discard ++ (termFilters true es).map Filter.toSpec⟩ := by
  intro es
  induction es with
  | nil =>
    intro lists _
    simp [termFilters]
    rfl
  | cons e es ih =>
    intro lists h
    obtain ⟨hk, hb, hne, hf⟩ := h e (List.mem_cons_self ..)
    rw [List.foldlM_cons, readTerm_ok hk hb hne hf]
    have hrest := ih (lists.pushAll (termBackend e.1).1
      ((e.2.filterMap Filter.read).map Filter.toSpec)) fun x hx => h x (List.mem_cons_of_mem _ hx)
    refine hrest.trans ?_
    cases hd : (termBackend e.1).1 <;> simp [DeviceLists.pushAll, termFilters, hd]

/-- What the code selects with the filters as it reads them. -/
def codeSelection (m : EnvVarMap) (p : Platform) (deviceType : DeviceType) : List DeviceSpec :=
  sweep (m.accepts.map fun f => filterAt f.toSpec)
    ((devicePools p deviceType).all.filter fun d =>
      !(m.filters true).any fun f => filterAt f.toSpec d)

theorem filters_ne_nil (hm : m.Names b) : ¬ (m.filters false = [] ∧ m.filters true = []) := by
  rintro ⟨hacc, hdis⟩
  obtain ⟨e, es, he⟩ := List.exists_cons_of_ne_nil hm.nonempty
  have hmem : e ∈ m.entries := by rw [he]; exact List.mem_cons_self ..
  obtain ⟨s, ss, hs⟩ := List.exists_cons_of_ne_nil (hm.filters e hmem)
  have hsmem : s ∈ e.2 := by rw [hs]; exact List.mem_cons_self ..
  obtain ⟨f, hf⟩ := Option.isSome_iff_exists.mp
    (hm.grammar s (List.mem_flatMap.mpr ⟨e, hmem, hsmem⟩))
  have hin : f ∈ m.filters (termBackend e.1).1 :=
    List.mem_flatMap.mpr ⟨e, hmem, by rw [if_pos rfl]; exact List.mem_filterMap.mpr ⟨s, hsmem, hf⟩⟩
  cases hb : (termBackend e.1).1 with
  | false => rw [hb, hacc] at hin; exact absurd hin List.not_mem_nil
  | true => rw [hb, hdis] at hin; exact absurd hin List.not_mem_nil

/-- With no rejected filter the selection succeeds. -/
theorem selectedDevices_eq (hm : m.Names b)
    (hr : ∀ s ∈ m.filterStrings, ∀ f, Filter.read s = some f → ¬ f.Rejected) (p : Platform)
    (dt : DeviceType) :
    selectedDevices b m p dt = .ok (some ((codeSelection m p dt).map (·.urDeviceHandle))) := by
  have hread : readTerms (platformBackendName b) m
      = .ok ⟨(m.filters false).map Filter.toSpec, (m.filters true).map Filter.toSpec⟩ := by
    unfold readTerms
    rw [readTerms_foldlM]
    · rfl
    · intro e he
      refine ⟨hm.key e he, hm.backend e he, hm.filters e he, fun s hs => ?_⟩
      have hmem : s ∈ m.filterStrings := List.mem_flatMap.mpr ⟨e, he, hs⟩
      obtain ⟨f, hf⟩ := Option.isSome_iff_exists.mp (hm.grammar s hmem)
      exact ⟨f, hf, hr s hmem f hf⟩
  have hlev := devicePools_levelled p dt
  have hdis : (applyDiscards ((m.filters true).map Filter.toSpec) (devicePools p dt)).all
      = (devicePools p dt).all.filter fun d => !(m.filters true).any fun f => filterAt f.toSpec d := by
    rw [applyDiscards_all _ hlev]
    refine List.filter_congr fun d _ => ?_
    rw [List.any_map]
    rfl
  have hacc : (if ((m.filters false).map Filter.toSpec).isEmpty then [acceptAllRoots]
      else (m.filters false).map Filter.toSpec) = m.accepts.map Filter.toSpec := by
    unfold EnvVarMap.accepts
    cases m.filters false with
    | nil => rfl
    | cons f fs => rfl
  unfold selectedDevices
  rw [hread]
  change (if _ then _ else _) = _
  rw [if_neg]
  · simp only [hacc]
    rw [applyAccepts_eq_sweep _ (applyDiscards_levelled _ hlev), hdis, List.map_map]
    rfl
  · intro h
    refine filters_ne_nil hm ?_
    simpa using h

/-- **Faithful filters select what is documented.** -/
theorem selectedDevices_faithful (hm : m.Names b)
    (hf : ∀ s ∈ m.filterStrings, ∀ f, Filter.read s = some f → f.Faithful ∧ ¬ f.Rejected)
    (p : Platform) (dt : DeviceType) :
    selectedDevices b m p dt = .ok (some (documentedSelection m p dt)) := by
  have hfilter : ∀ d, ∀ f ∈ m.filters d, f.Faithful := by
    intro d f hmem
    obtain ⟨e, he, hfe⟩ := List.mem_flatMap.mp hmem
    split at hfe
    · obtain ⟨s, hs, hread⟩ := List.mem_filterMap.mp hfe
      exact (hf s (List.mem_flatMap.mpr ⟨e, he, hs⟩) f hread).1
    · exact absurd hfe List.not_mem_nil
  have hacc : ∀ f ∈ m.accepts, f.Faithful := by
    intro f hmem
    unfold EnvVarMap.accepts at hmem
    split at hmem
    · rw [List.mem_singleton.mp hmem]
      exact trivial
    · exact hfilter false f hmem
  rw [selectedDevices_eq hm (fun s hs f hr => (hf s hs f hr).2)]
  unfold codeSelection documentedSelection
  have hmap : m.accepts.map (fun f => filterAt f.toSpec)
      = m.accepts.map (fun f d => f.matches d) :=
    List.map_congr_left fun f hmem => funext fun d => filterAt_faithful (hacc f hmem) d
  have hany : ∀ d, ((m.filters true).any fun f => filterAt f.toSpec d)
      = (m.filters true).any (·.matches d) := by
    intro d
    rw [Bool.eq_iff_iff, List.any_eq_true, List.any_eq_true]
    refine exists_congr fun f => and_congr_right fun hmem => ?_
    rw [filterAt_faithful (hfilter true f hmem)]
  simp only [hany]
  rw [hmap, sweep_eq_eraseDups ((devicePools_nodup p dt).filter _), List.flatMap_map]
  simp

/-! ## Rejected filters -/

/-- A term with a rejected filter fails, whatever was read before it. -/
theorem readTerm_rejected {name : Str} {lists : DeviceLists} {e : Str × List Str} (hk : e.1 ≠ [])
    (hg : ∀ s ∈ e.2, (Filter.read s).isSome) {s : Str} (hs : s ∈ e.2) {f : Filter}
    (hf : Filter.read s = some f) (hr : f.Rejected) :
    ∃ err, readTerm name lists e = .error err := by
  have hempty : ¬ e.2.any List.isEmpty = true := by
    rw [List.any_eq_true]
    rintro ⟨s', hs', he⟩
    obtain ⟨f', hf'⟩ := Option.isSome_iff_exists.mp (hg s' hs')
    exact filterText_ne_nil (filter_read_text hf') (List.isEmpty_iff.mp he)
  unfold readTerm
  rw [if_neg (by simpa using hk)]
  simp only
  unfold checkTerm
  split
  · exact ⟨_, rfl⟩
  split
  · exact ⟨_, rfl⟩
  split
  · exact ⟨_, rfl⟩
  split
  · exact ⟨_, rfl⟩
  next hwild =>
    rcases readFilterString_rejected (filter_read_text hf) hr with hbad | herr
    · exact absurd (List.any_eq_true.mpr ⟨s, hs, hbad⟩) hwild
    · refine foldlM_error _ _ hs fun lists' => ⟨.exception .outOfRange, ?_⟩
      unfold pushFilters
      rw [herr]

theorem selectedDevices_rejected (hm : m.Names b) {s : Str}
    (hs : s ∈ m.filterStrings) {f : Filter} (hf : Filter.read s = some f) (hr : f.Rejected)
    (p : Platform) (dt : DeviceType) : ∃ err, selectedDevices b m p dt = .error err := by
  obtain ⟨e, he, hse⟩ := List.mem_flatMap.mp hs
  obtain ⟨err, herr⟩ := foldlM_error (readTerm (platformBackendName b)) ⟨[], []⟩ he
    fun lists => readTerm_rejected (hm.key e he)
      (fun s hs => hm.grammar s (List.mem_flatMap.mpr ⟨e, he, hs⟩)) hse hf hr
  refine ⟨err, ?_⟩
  unfold selectedDevices readTerms
  rw [herr]
  rfl

/-! ## Handles of a device tree -/

theorem partitionDevices_handles
    {spec : DeviceSpec → Nat → DeviceHandle → DeviceSpec} {ds : List DeviceSpec}
    (hspec : ∀ e i h, (spec e i h).urDeviceHandle = h) :
    (partitionDevices p spec ds).map (·.urDeviceHandle)
      = (ds.map (·.urDeviceHandle)).flatMap p.partition := by
  unfold partitionDevices
  rw [List.map_flatMap, List.flatMap_map]
  congr 1
  funext e
  rw [List.map_map]
  have hfst : ((fun d : DeviceSpec => d.urDeviceHandle) ∘ fun x : DeviceHandle × Nat =>
      spec e x.2 x.1) = Prod.fst := funext fun x => hspec e x.2 x.1
  exact (congrArg (fun g => List.map g _) hfst).trans (List.zipIdx_map_fst ..)

theorem devicePools_handles_nodup (hp : p.Tree) (dt : DeviceType) :
    ((devicePools p dt).all.map (·.urDeviceHandle)).Nodup := by
  have hroot : List.Sublist ((rootDevices p dt).map (·.urDeviceHandle)) p.roots := by
    refine List.Sublist.trans (List.Sublist.map _ List.filter_sublist) ?_
    simp [Function.comp_def]
  have hsub : List.Sublist ((subDevices p (rootDevices p dt)).map (·.urDeviceHandle))
      (p.roots.flatMap p.partition) := by
    unfold subDevices
    rw [partitionDevices_handles fun _ _ _ => rfl]
    exact hroot.flatMap _
  have hsubSub : List.Sublist
      ((subSubDevices p (subDevices p (rootDevices p dt))).map (·.urDeviceHandle))
      ((p.roots.flatMap p.partition).flatMap p.partition) := by
    unfold subSubDevices
    rw [partitionDevices_handles fun _ _ _ => rfl]
    exact hsub.flatMap _
  have hall : (devicePools p dt).all.map (·.urDeviceHandle)
      = (rootDevices p dt).map (·.urDeviceHandle)
        ++ (subDevices p (rootDevices p dt)).map (·.urDeviceHandle)
        ++ (subSubDevices p (subDevices p (rootDevices p dt))).map (·.urDeviceHandle) := by
    rw [← List.map_append, ← List.map_append]
    rfl
  rw [hall]
  exact List.Nodup.sublist ((hroot.append hsub).append hsubSub) hp

theorem codeSelection_sublist_all {dt : DeviceType} :
    ∀ d ∈ codeSelection m p dt, d ∈ (devicePools p dt).all := by
  intro d hd
  exact (List.mem_filter.mp (mem_sweep.mp hd).1).1

/-- No handle is selected twice. -/
theorem codeSelection_handles_nodup (hp : p.Tree)
    (dt : DeviceType) : ((codeSelection m p dt).map (·.urDeviceHandle)).Nodup := by
  refine List.Nodup.map_on ?_ (sweep_nodup ((devicePools_nodup p dt).filter _))
  intro a ha b hb hab
  exact List.inj_on_of_nodup_map (devicePools_handles_nodup hp dt)
    (codeSelection_sublist_all a ha) (codeSelection_sublist_all b hb) hab

/-! ## A tree with a device at every position up to a bound -/

/-- `a` roots of type `hw`, each with `b` sub-devices, each of those with `c`. A
handle codes its parent's handle and its own index. -/
def gridPlatform (hw : DeviceType) (a b c : Nat) : Platform where
  roots := (List.range a).map (Nat.pair 0)
  deviceType := fun _ => hw
  partition := fun h =>
    (List.range (if (Nat.unpair h).1 = 0 then b else c)).map (Nat.pair (h + 1))

theorem grid_flatMap_nodup (hw : DeviceType) (a b c : Nat) {l : List DeviceHandle}
    (h : l.Nodup) : (l.flatMap (gridPlatform hw a b c).partition).Nodup := by
  rw [List.nodup_flatMap]
  refine ⟨fun x _ => List.nodup_range.map fun i j hij => (Nat.pair_eq_pair.mp hij).2, ?_⟩
  refine h.imp fun {x y} hxy => ?_
  intro z hz hz'
  obtain ⟨i, -, rfl⟩ := List.mem_map.mp hz
  obtain ⟨j, -, hj⟩ := List.mem_map.mp hz'
  exact hxy (Nat.succ.inj (Nat.pair_eq_pair.mp hj).1).symm

theorem grid_parent {hw : DeviceType} {a b c : Nat} {l : List DeviceHandle} {x : DeviceHandle}
    (h : x ∈ l.flatMap (gridPlatform hw a b c).partition) : ∃ y ∈ l, (Nat.unpair x).1 = y + 1 := by
  obtain ⟨y, hy, hx⟩ := List.mem_flatMap.mp h
  obtain ⟨i, -, rfl⟩ := List.mem_map.mp hx
  exact ⟨y, hy, by rw [Nat.unpair_pair]⟩

theorem gridPlatform_tree (hw : DeviceType) (a b c : Nat) : (gridPlatform hw a b c).Tree := by
  have hroots : (gridPlatform hw a b c).roots.Nodup :=
    List.nodup_range.map fun i j hij => (Nat.pair_eq_pair.mp hij).2
  have hzero : ∀ x ∈ (gridPlatform hw a b c).roots, (Nat.unpair x).1 = 0 := by
    intro x hx
    obtain ⟨i, -, rfl⟩ := List.mem_map.mp hx
    rw [Nat.unpair_pair]
  have hsubs := grid_flatMap_nodup hw a b c hroots
  refine List.nodup_append.mpr ⟨List.nodup_append.mpr ⟨hroots, hsubs, ?_⟩,
    grid_flatMap_nodup hw a b c hsubs, ?_⟩
  · intro x hx y hy hxy
    obtain ⟨z, -, hz⟩ := grid_parent hy
    rw [← hxy, hzero x hx] at hz
    exact absurd hz (by omega)
  · intro x hx y hy hxy
    obtain ⟨z, hzmem, hz⟩ := grid_parent hy
    rw [← hxy] at hz
    rcases List.mem_append.mp hx with hx | hx
    · rw [hzero x hx] at hz
      exact absurd hz (by omega)
    · -- the parent of a sub-device is a root, that of a sub-sub-device is not
      obtain ⟨w, hwmem, hparent⟩ := grid_parent hx
      obtain ⟨v, -, hv⟩ := grid_parent hzmem
      have hwz : w = z := Nat.succ.inj (hparent.symm.trans hz)
      rw [← hwz, hzero w hwmem] at hv
      exact absurd hv (by simp)

/-- Every position inside the bounds holds a device of the grid. -/
theorem mem_gridPlatform (l : DevicePartLevel) (hw : DeviceType) (i j k : Nat) :
    ∃ h, deviceAt l hw i j k h
      ∈ (devicePools (gridPlatform hw (i + 1) (j + 1) (k + 1)) .all).all := by
  let p := gridPlatform hw (i + 1) (j + 1) (k + 1)
  have hget : ∀ (g : Nat → Nat) (n : Nat), ((List.range (n + 1)).map g)[n]? = some (g n) := by
    intro g n
    rw [List.getElem?_map, List.getElem?_range (Nat.lt_succ_self n)]
    rfl
  have hroot : (⟨.root, hw, i, deviceIdTypeALL, deviceIdTypeALL, Nat.pair 0 i⟩ : DeviceSpec)
      ∈ rootDevices p .all :=
    mem_rootDevices.mpr ⟨i, _, hget _ i, rfl, rfl⟩
  have hsub : (⟨.sub, hw, i, j, deviceIdTypeALL, Nat.pair (Nat.pair 0 i + 1) j⟩ : DeviceSpec)
      ∈ subDevices p (rootDevices p .all) := by
    refine mem_partitionDevices.mpr ⟨_, hroot, j, _, ?_, rfl⟩
    change ((List.range (if (Nat.unpair (Nat.pair 0 i)).1 = 0 then j + 1 else k + 1)).map _)[j]? = _
    rw [Nat.unpair_pair]
    exact hget _ j
  have hsubSub : (⟨.subSub, hw, i, j, k,
      Nat.pair (Nat.pair (Nat.pair 0 i + 1) j + 1) k⟩ : DeviceSpec)
      ∈ subSubDevices p (subDevices p (rootDevices p .all)) := by
    refine mem_partitionDevices.mpr ⟨_, hsub, k, _, ?_, rfl⟩
    change ((List.range (if (Nat.unpair (Nat.pair (Nat.pair 0 i + 1) j)).1 = 0 then j + 1
      else k + 1)).map _)[k]? = _
    rw [Nat.unpair_pair]
    exact hget _ k
  cases l with
  | root => exact ⟨_, List.mem_append_left _ (List.mem_append_left _ hroot)⟩
  | sub => exact ⟨_, List.mem_append_left _ (List.mem_append_right _ hsub)⟩
  | subSub => exact ⟨_, List.mem_append_right _ hsubSub⟩

theorem exists_tree_with_device (l : DevicePartLevel) (hw : DeviceType) (i j k : Nat) :
    ∃ p : Platform, p.Tree ∧ ∃ h, deviceAt l hw i j k h ∈ (devicePools p .all).all :=
  ⟨_, gridPlatform_tree .., mem_gridPlatform l hw i j k⟩

theorem deviceAt_level (l : DevicePartLevel) (hw : DeviceType) (i j k : Nat)
    (h : DeviceHandle) : (deviceAt l hw i j k h).level = l := by
  cases l <;> rfl

/-! ## The selector against its documentation -/

theorem single_names {s : Str} (h : (Filter.read s).isSome) :
    (EnvVarMap.single ['*'] [s]).Names b where
  nonempty := by simp [EnvVarMap.single]
  key := by simp [EnvVarMap.single]
  backend := by simp [EnvVarMap.single, termBackend, backendMatches, front]
  filters := by simp [EnvVarMap.single]
  grammar := by simpa [EnvVarMap.single, EnvVarMap.filterStrings] using h

theorem single_accepts {s : Str} {f : Filter} (h : Filter.read s = some f) :
    (EnvVarMap.single ['*'] [s]).accepts = [f] ∧ (EnvVarMap.single ['*'] [s]).filters true = [] := by
  simp [EnvVarMap.accepts, EnvVarMap.filters, EnvVarMap.single, termBackend, front, h]

/-- A filter that is neither faithful nor rejected makes a wrong selector. -/
theorem not_selectsAsDocumented {s : Str} {f : Filter}
    (hread : Filter.read s = some f) (hf : ¬ f.Faithful) (hr : ¬ f.Rejected) :
    ¬ SelectsAsDocumented b (.single ['*'] [s]) := by
  intro hsel
  obtain ⟨hw, i, j, k, hmis⟩ := exists_mismatch hf hr
  obtain ⟨p, hp, h, hd⟩ := exists_tree_with_device f.level hw i j k
  have hnames := single_names (b := b) (s := s) (by rw [hread]; rfl)
  obtain ⟨hacc, hdis⟩ := single_accepts hread
  have heq := selectedDevices_eq hnames (fun s' hs' f' hf' => by
    have : s' = s := by simpa [EnvVarMap.single, EnvVarMap.filterStrings] using hs'
    rw [this, hread] at hf'
    exact Option.some.inj hf' ▸ hr) p .all
  obtain ⟨hlist, -⟩ := hsel p .all _ hp heq
  obtain ⟨hcode, hdoc⟩ := hmis h
  have hlevel : (deviceAt f.level hw i j k h).level = f.toSpec.level := by
    cases f <;> rfl
  -- the code selects the device ...
  have hin : deviceAt f.level hw i j k h ∈ codeSelection (.single ['*'] [s]) p .all := by
    unfold codeSelection
    rw [hacc]
    exact mem_sweep.mpr ⟨List.mem_filter.mpr ⟨hd, rfl⟩, _, List.mem_singleton.mpr rfl,
      filterAt_iff.mpr ⟨hlevel, hcode⟩⟩
  -- ... so the documented list would have to hold its handle, and thus the device
  have hhandle : (deviceAt f.level hw i j k h).urDeviceHandle
      ∈ documentedSelection (.single ['*'] [s]) p .all := by
    rw [← hlist]
    exact List.mem_map_of_mem hin
  unfold documentedSelection at hhandle
  rw [hacc, List.flatMap_cons, List.flatMap_nil, List.append_nil] at hhandle
  obtain ⟨d', hd', hsame⟩ := List.mem_map.mp hhandle
  obtain ⟨hd'mem, hmatch⟩ := List.mem_filter.mp (List.mem_eraseDups.mp hd')
  have hdd := List.inj_on_of_nodup_map (devicePools_handles_nodup hp .all) hd'mem hd hsame
  rw [hdd, hdoc] at hmatch
  exact absurd hmatch (by simp)

/-- **Selection against documentation.** A selector of faithful filters selects
exactly what is documented, on every platform and for every device type. And a
selector, together with all the selectors that can be made of its own filter
strings, only ever produces documented lists exactly when each of its filters is
faithful or rejected outright. -/
theorem selectedDevices_documented (b : PlatformBackend) (m : EnvVarMap) (hm : m.Names b) :
    ((∀ s ∈ m.filterStrings, ∀ f, Filter.read s = some f → f.Faithful ∧ ¬ f.Rejected) →
      ∀ (p : Platform) (dt : DeviceType),
        selectedDevices b m p dt = .ok (some (documentedSelection m p dt)) ∧
        (p.Tree → (documentedSelection m p dt).Nodup)) ∧
    ((∀ m' : EnvVarMap, m'.Names b → (∀ s ∈ m'.filterStrings, s ∈ m.filterStrings) →
        SelectsAsDocumented b m') ↔
      ∀ s ∈ m.filterStrings, ∀ f, Filter.read s = some f → f.Faithful ∨ f.Rejected) := by
  refine ⟨fun hf p dt => ?_, ?_, ?_⟩
  · have hsel := selectedDevices_faithful hm hf p dt
    refine ⟨hsel, fun hp => ?_⟩
    have heq := selectedDevices_eq hm (fun s hs f hr => (hf s hs f hr).2) p dt
    rw [hsel] at heq
    rw [Option.some.inj (Except.ok.inj heq)]
    exact codeSelection_handles_nodup hp dt
  · intro hall s hs f hread
    by_contra hbad
    obtain ⟨hf, hr⟩ := not_or.mp hbad
    refine not_selectsAsDocumented (b := b) hread hf hr
      (hall _ (single_names (by rw [hread]; rfl)) fun s' hs' => ?_)
    have : s' = s := by simpa [EnvVarMap.single, EnvVarMap.filterStrings] using hs'
    rw [this]
    exact hs
  · intro hgood m' hm' hsub p dt l hp hl
    by_cases hrej : ∃ s ∈ m'.filterStrings, ∃ f, Filter.read s = some f ∧ f.Rejected
    · obtain ⟨s, hs, f, hread, hr⟩ := hrej
      obtain ⟨err, herr⟩ := selectedDevices_rejected hm' hs hread hr p dt
      rw [herr] at hl
      exact absurd hl (by simp)
    · have hnr : ∀ s ∈ m'.filterStrings, ∀ f, Filter.read s = some f → ¬ f.Rejected :=
        fun s hs f hread hr => hrej ⟨s, hs, f, hread, hr⟩
      have hf : ∀ s ∈ m'.filterStrings, ∀ f, Filter.read s = some f →
          f.Faithful ∧ ¬ f.Rejected :=
        fun s hs f hread => ⟨(hgood s (hsub s hs) f hread).resolve_right (hnr s hs f hread),
          hnr s hs f hread⟩
      have hdoc := selectedDevices_faithful hm' hf p dt
      have hcode := selectedDevices_eq hm' hnr p dt
      refine ⟨Option.some.inj (Except.ok.inj (hl.symm.trans hdoc)), ?_⟩
      rw [Option.some.inj (Except.ok.inj (hl.symm.trans hcode))]
      exact codeSelection_handles_nodup hp dt

/-- One GPU of two tiles, each with one compute sub-sub-device. -/
def twoTilePlatform : Platform where
  roots := [1]
  deviceType := fun _ => .gpu
  partition := fun h =>
    if h = 1 then [10, 20] else if h = 10 then [11] else if h = 20 then [21] else []

/-- `level_zero:0,gpu.*` is a selector of faithful filters. -/
theorem selectedDevices_documented_zero_gpu :
    (EnvVarMap.single "level_zero".toList ["0".toList, "gpu.*".toList]).Names .levelZero ∧
    selectedDevices .levelZero (.single "level_zero".toList ["0".toList, "gpu.*".toList])
      twoTilePlatform .all = .ok (some [1, 10, 20]) := by
  have hm : (EnvVarMap.single "level_zero".toList ["0".toList, "gpu.*".toList]).Names
      .levelZero := ⟨by decide, by decide, by decide, by decide, by decide⟩
  refine ⟨hm, ?_⟩
  refine (((selectedDevices_documented .levelZero _ hm).1 ?_ twoTilePlatform .all).1).trans ?_
  · intro s hs f hf
    have hs' : s = "0".toList ∨ s = "gpu.*".toList := by
      simpa [EnvVarMap.filterStrings, EnvVarMap.single] using hs
    rcases hs' with rfl | rfl
    · obtain rfl : Filter.root (.index 0) = f := Option.some.inj hf
      exact ⟨by simp [Filter.Faithful, Part.Small, deviceIdTypeALL],
        by simp [Filter.Rejected, Part.Overflows]⟩
    · obtain rfl : Filter.sub (.hardware .gpu) .star = f := Option.some.inj hf
      exact ⟨trivial, by simp [Filter.Rejected, Part.BadBelow, Part.Overflows]⟩
  · rfl

/-- `level_zero:0.1.0` names one sub-sub-device of the second tile; the code
selects those of both tiles. -/
theorem selectedDevices_three_parts :
    (EnvVarMap.single "level_zero".toList ["0.1.0".toList]).Names .levelZero ∧
    twoTilePlatform.Tree ∧
    selectedDevices .levelZero (.single "level_zero".toList ["0.1.0".toList])
      twoTilePlatform .all = .ok (some [11, 21]) ∧
    documentedSelection (.single "level_zero".toList ["0.1.0".toList]) twoTilePlatform .all
      = [21] :=
  ⟨⟨by decide, by decide, by decide, by decide, by decide⟩, by unfold Platform.Tree; decide, rfl,
    by decide⟩

end UnifiedRuntime.Loader
