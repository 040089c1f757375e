import UnifiedRuntime.Loader.SelectorCorrect

/-!
# The adapter pre-filter against the device selector

Before any adapter library is loaded, `AdapterRegistry` reads
`ONEAPI_DEVICE_SELECTOR` a first time and leaves out the adapters it believes
the variable excludes (`readPreFilterODS` in
`source/loader/ur_adapter_registry.hpp`). The same variable is read again, by
`urDeviceGetSelected`, on the platforms of the adapters that were loaded.

The pre-filter looks at backend names only. It drops an adapter on any discard
term for its backend, also when the term's filters leave devices over, and it
compares names with `strcmp` before it lowers their case, so an accept term
`LEVEL_ZERO:*` does not save the adapter from a discard term.
`DropsSelectable` is the exact set of selectors for which a dropped adapter had
a device to select (`preFilter_sound_iff`).
-/

namespace UnifiedRuntime.Loader

open Str

/-- `knownAdapterNames`. -/
inductive KnownAdapter where
  | levelZero
  | opencl
  | cuda
  | hip
  | nativeCpu
  deriving DecidableEq

def knownAdapters : List KnownAdapter := [.levelZero, .opencl, .cuda, .hip, .nativeCpu]

/-- `MAKE_LIBRARY_NAME(name, "0")` on Linux. -/
def KnownAdapter.libraryName : KnownAdapter → Str
  | .levelZero => "libur_adapter_level_zero.so.0".toList
  | .opencl => "libur_adapter_opencl.so.0".toList
  | .cuda => "libur_adapter_cuda.so.0".toList
  | .hip => "libur_adapter_hip.so.0".toList
  | .nativeCpu => "libur_adapter_native_cpu.so.0".toList

/-- The backend the adapter's platforms report. -/
def KnownAdapter.backend : KnownAdapter → PlatformBackend
  | .levelZero => .levelZero
  | .opencl => .opencl
  | .cuda => .cuda
  | .hip => .hip
  | .nativeCpu => .nativeCpu

/-- The `strcmp` chain: any other name is an illegal backend and is ignored. -/
def legalBackend (backend : Str) : Bool :=
  backend == "*".toList || backend == "level_zero".toList || backend == "opencl".toList ||
    backend == "cuda".toList || backend == "hip".toList

/-- The loop of `readPreFilterODS` over the terms, from a value of
`acceptLibrary`. -/
def preFilterTerms (libraryName : Str) : List (Str × List Str) → Bool → UrResult
  | [], acceptLibrary => if acceptLibrary then .success else .invalidValue
  | termPair :: terms, acceptLibrary =>
    if termPair.1.isEmpty then preFilterTerms libraryName terms acceptLibrary
    else
      let (discard, backend) := termBackend termPair.1
      if !legalBackend backend then preFilterTerms libraryName terms acceptLibrary
      else
        let backendFound := containsStr (tolower libraryName) (tolower backend)
        if !discard then
          if front backend != '*' && !backendFound then preFilterTerms libraryName terms false
          else .success
        else if backendFound || front backend == '*' then preFilterTerms libraryName terms false
        else preFilterTerms libraryName terms acceptLibrary

/-- `readPreFilterODS`: an exception of `getenv_to_map` keeps the adapter; what
is undefined stays undefined. -/
def readPreFilterODS (env : Option Str) (libraryName : Str) : Except EnvError UrResult :=
  match getenvToMap "ONEAPI_DEVICE_SELECTOR".toList env false with
  | .error (.invalidArgument _) => .ok .success
  | .error .popBackEmpty => .error .popBackEmpty
  | .ok odsEnvMap => .ok (preFilterTerms libraryName (odsEnvMap.getD defaultODS).entries true)

/-- One round of the loop over `knownAdapterNames`. -/
def discoverStep (env : Option Str) (loaderPreFilter : Bool) (kept : List KnownAdapter)
    (a : KnownAdapter) : Except EnvError (List KnownAdapter) :=
  if loaderPreFilter then
    match readPreFilterODS env a.libraryName with
    | .error e => .error e
    | .ok r => .ok (if r == .success then kept ++ [a] else kept)
  else .ok (kept ++ [a])

/-- `discoverKnownAdapters`: the adapters whose paths go on the load list. -/
def discoverKnownAdapters (env : Option Str) (loaderPreFilter : Bool) :
    Except EnvError (List KnownAdapter) :=
  knownAdapters.foldlM (discoverStep env loaderPreFilter) []

/-- The adapter is missing from the load list. -/
def Dropped (env : Option Str) (loaderPreFilter : Bool) (a : KnownAdapter) : Prop :=
  ∃ kept, discoverKnownAdapters env loaderPreFilter = .ok kept ∧ a ∉ kept

/-- No device comes back: an error, the early return, or an empty list. -/
def SelectsNothing (r : Except SelectFailure (Option (List DeviceHandle))) : Prop :=
  ∀ l, r = .ok (some l) → l = []

/-! ## When the loop drops -/

/-- An accept term that keeps the library. -/
def KeepsLibrary (libraryName : Str) (e : Str × List Str) : Prop :=
  (termBackend e.1).1 = false ∧ legalBackend (termBackend e.1).2 = true ∧
    (front (termBackend e.1).2 = '*' ∨
      containsStr (tolower libraryName) (tolower (termBackend e.1).2) = true)

/-- A term that clears `acceptLibrary`: an accept term for another backend, or a
discard term for this one. -/
def ClearsLibrary (libraryName : Str) (e : Str × List Str) : Prop :=
  legalBackend (termBackend e.1).2 = true ∧
    (((termBackend e.1).1 = false ∧ front (termBackend e.1).2 ≠ '*' ∧
        containsStr (tolower libraryName) (tolower (termBackend e.1).2) = false) ∨
      ((termBackend e.1).1 = true ∧ (front (termBackend e.1).2 = '*' ∨
        containsStr (tolower libraryName) (tolower (termBackend e.1).2) = true)))

/-- A library is refused if no term keeps it and it is not accepted to begin with, or a term clears
that. -/
theorem preFilterTerms_iff {libraryName : Str} : ∀ (es : List (Str × List Str)) (acc : Bool),
    preFilterTerms libraryName es acc = .invalidValue ↔
      (∀ e ∈ es, ¬ KeepsLibrary libraryName e) ∧
        (acc = false ∨ ∃ e ∈ es, ClearsLibrary libraryName e) := by
  intro es
  induction es with
  | nil =>
    intro acc
    cases acc <;> simp [preFilterTerms]
  | cons e es ih =>
    intro acc
    unfold preFilterTerms
    -- terms without a legal backend are passed over
    by_cases hnil : e.1 = []
    · have hleg : legalBackend (termBackend e.1).2 = false := by
        rw [hnil]
        rfl
      have hk : ¬ KeepsLibrary libraryName e := by simp [KeepsLibrary, hleg]
      have hc : ¬ ClearsLibrary libraryName e := by simp [ClearsLibrary, hleg]
      rw [if_pos (by simp [hnil]), ih]
      simp [hk, hc]
    rw [if_neg (by simpa using hnil)]
    simp only
    cases hleg : legalBackend (termBackend e.1).2 with
    | false =>
      have hk : ¬ KeepsLibrary libraryName e := by simp [KeepsLibrary, hleg]
      have hc : ¬ ClearsLibrary libraryName e := by simp [ClearsLibrary, hleg]
      rw [if_pos (by simp), ih]
      simp [hk, hc]
    | true =>
      rw [if_neg (by simp)]
      cases hd : (termBackend e.1).1 with
      | false =>
        rw [if_pos (by simp)]
        by_cases hhit : front (termBackend e.1).2 = '*' ∨
            containsStr (tolower libraryName) (tolower (termBackend e.1).2) = true
        · have hk : KeepsLibrary libraryName e := ⟨hd, hleg, hhit⟩
          rw [if_neg (by rcases hhit with h | h <;> simp [h])]
          simp [hk]
        · obtain ⟨hstar, hfound⟩ := not_or.mp hhit
          have hk : ¬ KeepsLibrary libraryName e := fun h => hhit h.2.2
          have hc : ClearsLibrary libraryName e :=
            ⟨hleg, .inl ⟨hd, hstar, by simpa using hfound⟩⟩
          rw [if_pos (by simp [hstar, hfound]), ih]
          simp [hk, hc]
      | true =>
        rw [if_neg (by simp)]
        have hk : ¬ KeepsLibrary libraryName e := by simp [KeepsLibrary, hd]
        by_cases hhit : front (termBackend e.1).2 = '*' ∨
            containsStr (tolower libraryName) (tolower (termBackend e.1).2) = true
        · have hc : ClearsLibrary libraryName e := ⟨hleg, .inr ⟨hd, hhit⟩⟩
          rw [if_pos (by rcases hhit with h | h <;> simp [h]), ih]
          simp [hk, hc]
        · have hc : ¬ ClearsLibrary libraryName e := by
            rintro ⟨-, ⟨h, -⟩ | ⟨-, h⟩⟩
            · rw [hd] at h; exact absurd h (by simp)
            · exact hhit h
          obtain ⟨hstar, hfound⟩ := not_or.mp hhit
          rw [if_neg (by simp [hstar, hfound]), ih]
          simp [hk, hc]

theorem legalBackend_cases {b : Str} (h : legalBackend b = true) :
    b = "*".toList ∨ b = "level_zero".toList ∨ b = "opencl".toList ∨ b = "cuda".toList ∨
      b = "hip".toList := by
  simpa [legalBackend, or_assoc] using h

variable {a : KnownAdapter} {lists : DeviceLists} {e : Str × List Str} {m : EnvVarMap}
  {b : PlatformBackend}

/-- A legal name hits an adapter's library exactly when it is `*` or the
adapter's own backend name. -/
theorem legal_hit_iff {b : Str} (h : legalBackend b = true) :
    (front b = '*' ∨ containsStr (tolower a.libraryName) (tolower b) = true) ↔
      b = "*".toList ∨ b = platformBackendName a.backend := by
  rcases legalBackend_cases h with rfl | rfl | rfl | rfl | rfl <;> cases a <;> decide

/-- A legal name of another backend is no name the selector accepts here. -/
theorem legal_miss_backendMatches {b : Str} (h : legalBackend b = true)
    (hmiss : ¬ (b = "*".toList ∨ b = platformBackendName a.backend)) :
    backendMatches (platformBackendName a.backend) b = false := by
  revert hmiss
  rcases legalBackend_cases h with rfl | rfl | rfl | rfl | rfl <;> cases a <;> decide

theorem legal_of_exact {b : Str}
    (h : b = "*".toList ∨ b = platformBackendName a.backend) : legalBackend b = true := by
  rcases h with rfl | rfl
  · decide
  · cases a <;> decide

/-- A term whose key is spelled exactly as the adapter's backend, or `*`. -/
def ExactTerm (a : KnownAdapter) (discard : Bool) (e : Str × List Str) : Prop :=
  (termBackend e.1).1 = discard ∧
    ((termBackend e.1).2 = "*".toList ∨ (termBackend e.1).2 = platformBackendName a.backend)

theorem keepsLibrary_iff : KeepsLibrary a.libraryName e ↔ ExactTerm a false e := by
  constructor
  · rintro ⟨hd, hleg, hhit⟩
    exact ⟨hd, (legal_hit_iff hleg).mp hhit⟩
  · rintro ⟨hd, hex⟩
    have hleg := legal_of_exact hex
    exact ⟨hd, hleg, (legal_hit_iff hleg).mpr hex⟩

/-- A term that clears the library is an exact discard term, or one the selector
refuses on the adapter's platforms. -/
theorem clearsLibrary_cases (h : ClearsLibrary a.libraryName e) : ExactTerm a true e ∨
      backendMatches (platformBackendName a.backend) (termBackend e.1).2 = false := by
  obtain ⟨hleg, ⟨hd, hstar, hfound⟩ | ⟨hd, hhit⟩⟩ := h
  · refine .inr (legal_miss_backendMatches hleg fun hex => ?_)
    rcases (legal_hit_iff hleg).mpr hex with h | h
    · exact hstar h
    · rw [hfound] at h
      exact absurd h (by simp)
  · exact .inl ⟨hd, (legal_hit_iff hleg).mp hhit⟩

theorem clearsLibrary_of_exact (h : ExactTerm a true e) : ClearsLibrary a.libraryName e := by
  have hleg := legal_of_exact h.2
  exact ⟨hleg, .inr ⟨h.1, (legal_hit_iff hleg).mpr h.2⟩⟩

/-! ## What a discard filter covers -/

/-- Every device the filter `f` matches is matched by the discard filter `d`. -/
def Covers (d f : DeviceSpec) : Prop :=
  d.level = f.level ∧
    ((d.rootId = deviceIdTypeALL ∧
        (d.hwType = .all ∨ (f.rootId = deviceIdTypeALL ∧ f.hwType = d.hwType))) ∨
      (d.rootId ≠ deviceIdTypeALL ∧ d.rootId = f.rootId ∧
        (d.level = .root ∨ d.subId = deviceIdTypeALL ∨
          (d.subId = f.subId ∧
            (d.level = .sub ∨ d.subsubId = deviceIdTypeALL ∨ d.subsubId = f.subsubId)))))

/-- `applyFilter` as a proposition. -/
theorem applyFilter_iff {f d : DeviceSpec} :
    applyFilter f d = true ↔
      (f.rootId = deviceIdTypeALL ∧ (f.hwType = d.hwType ∨ f.hwType = .all)) ∨
      (f.rootId ≠ deviceIdTypeALL ∧ f.rootId = d.rootId ∧
        (f.level = .root ∨ f.subId = deviceIdTypeALL ∨
          (f.subId = d.subId ∧
            (f.level = .sub ∨ f.subsubId = deviceIdTypeALL ∨ f.subsubId = d.subsubId)))) := by
  unfold applyFilter
  by_cases h1 : f.rootId = deviceIdTypeALL
  · simp [h1]
  rw [if_neg h1]
  by_cases h2 : f.rootId = d.rootId
  · rw [if_neg (not_not.mpr h2)]
    by_cases h3 : f.level = .root
    · rw [if_pos h3]
      exact iff_of_true rfl (.inr ⟨h1, h2, .inl h3⟩)
    rw [if_neg h3]
    by_cases h4 : f.subId = deviceIdTypeALL
    · rw [if_pos h4]
      exact iff_of_true rfl (.inr ⟨h1, h2, .inr (.inl h4)⟩)
    rw [if_neg h4]
    by_cases h5 : f.subId = d.subId
    · rw [if_neg (not_not.mpr h5)]
      by_cases h6 : f.level = .sub
      · rw [if_pos h6]
        exact iff_of_true rfl (.inr ⟨h1, h2, .inr (.inr ⟨h5, .inl h6⟩)⟩)
      rw [if_neg h6]
      by_cases h7 : f.subsubId = deviceIdTypeALL
      · rw [if_pos h7]
        exact iff_of_true rfl (.inr ⟨h1, h2, .inr (.inr ⟨h5, .inr (.inl h7)⟩)⟩)
      rw [if_neg h7, beq_iff_eq]
      constructor
      · intro h8
        exact .inr ⟨h1, h2, .inr (.inr ⟨h5, .inr (.inr h8)⟩)⟩
      · rintro (⟨h, -⟩ | ⟨-, -, h | h | ⟨-, h | h | h⟩⟩)
        · exact absurd h h1
        · exact absurd h h3
        · exact absurd h h4
        · exact absurd h h6
        · exact absurd h h7
        · exact h
    · simp [h1, h3, h4, h5]
  · simp [h1]

/-- A covered filter matches nothing that its cover does not match. -/
theorem applyFilter_of_covers {d f x : DeviceSpec} (hc : Covers d f)
    (h : applyFilter f x = true) : applyFilter d x = true := by
  rw [applyFilter_iff] at h ⊢
  obtain ⟨hl, ⟨hd, hhw⟩ | ⟨hd, hroot, hrest⟩⟩ := hc
  · refine .inl ⟨hd, ?_⟩
    rcases hhw with hhw | ⟨hf, hhw⟩
    · exact .inr hhw
    · rcases h with ⟨-, h⟩ | ⟨hf', -⟩
      · rw [← hhw]
        exact h
      · exact absurd hf hf'
  · obtain ⟨hf, -⟩ | ⟨-, hroot', hsub⟩ := h
    · exact absurd (hroot.trans hf) hd
    refine .inr ⟨hd, hroot.trans hroot', ?_⟩
    rcases hrest with hr | hr | ⟨hs, hrest⟩
    · exact .inl hr
    · exact .inr (.inl hr)
    by_cases hall : d.subId = deviceIdTypeALL
    · exact .inr (.inl hall)
    rcases hsub with h | h | ⟨hsub, h⟩
    · exact .inl (hl.trans h)
    · exact absurd (hs.trans h) hall
    refine .inr (.inr ⟨hs.trans hsub, ?_⟩)
    rcases hrest with hr | hr | hr
    · exact .inl hr
    · exact .inr (.inl hr)
    rcases h with h | h | h
    · exact .inl (hl.trans h)
    · exact .inr (.inl (hr.trans h))
    · exact .inr (.inr (hr.trans h))

/-- A number above every identifier in the list. -/
def freshId (ds : List DeviceSpec) : Nat :=
  (ds.map fun d => d.rootId + d.subId + d.subsubId).sum + 1

theorem lt_freshId {ds : List DeviceSpec} {d : DeviceSpec} (h : d ∈ ds) :
    d.rootId < freshId ds ∧ d.subId < freshId ds ∧ d.subsubId < freshId ds := by
  have hle := List.le_sum_of_mem
    (List.mem_map_of_mem (f := fun d : DeviceSpec => d.rootId + d.subId + d.subsubId) h)
  unfold freshId
  omega

/-- A filter's own choice at one part, or a fresh one where it leaves it open. -/
def pick (id fresh : Nat) : Nat := if id = deviceIdTypeALL then fresh else id

theorem pick_eq_or (id fresh : Nat) : id = deviceIdTypeALL ∨ id = pick id fresh := by
  unfold pick
  split
  · next h => exact .inl h
  · exact .inr rfl

/-- An identifier below the fresh one that is picked is the filter's own. -/
theorem eq_of_eq_pick {d f fresh : Nat} (h : d = pick f fresh) (hlt : d < fresh) : d = f := by
  unfold pick at h
  split at h
  · omega
  · exact h

/-- The device a filter matches and, if no discard covers it, no discard does. -/
def leftOver (f : DeviceSpec) (ds : List DeviceSpec) : DeviceHandle → DeviceSpec :=
  deviceAt f.level
    (if f.rootId = deviceIdTypeALL ∧ f.hwType ≠ .all then f.hwType else .mca)
    (pick f.rootId (freshId ds)) (pick f.subId (freshId ds)) (pick f.subsubId (freshId ds))

/-- What a filter sees of a device of its own depth. -/
theorem applyFilter_deviceAt {f : DeviceSpec} {l : DevicePartLevel} {hw : DeviceType}
    {i j k : Nat} {x : DeviceHandle} (hl : f.level = l) :
    applyFilter f (deviceAt l hw i j k x) = true ↔
      (f.rootId = deviceIdTypeALL ∧ (f.hwType = hw ∨ f.hwType = .all)) ∨
      (f.rootId ≠ deviceIdTypeALL ∧ f.rootId = i ∧
        (l = .root ∨ f.subId = deviceIdTypeALL ∨
          (f.subId = j ∧ (l = .sub ∨ f.subsubId = deviceIdTypeALL ∨ f.subsubId = k)))) := by
  rw [applyFilter_iff, hl]
  cases l <;> simp [deviceAt]

theorem applyFilter_leftOver (f : DeviceSpec) (ds : List DeviceSpec) (x : DeviceHandle) :
    applyFilter f (leftOver f ds x) = true := by
  unfold leftOver
  rw [applyFilter_deviceAt rfl]
  by_cases hroot : f.rootId = deviceIdTypeALL
  · refine .inl ⟨hroot, ?_⟩
    by_cases hhw : f.hwType = .all
    · exact .inr hhw
    · exact .inl (if_pos ⟨hroot, hhw⟩).symm
  · refine .inr ⟨hroot, (pick_eq_or ..).resolve_left hroot, .inr ?_⟩
    refine (pick_eq_or f.subId _).imp_right fun hsub => ⟨hsub, .inr ?_⟩
    exact pick_eq_or ..

/-- **A filter no discard covers matches a device that all discards leave.** The
device has a type no selector names, unless the filter itself asks for one, and
fresh positions where the filter leaves them open. -/
theorem filterAt_leftOver {f d : DeviceSpec} {ds : List DeviceSpec} (hd : d ∈ ds)
    (hhw : d.hwType ≠ .mca) (hc : ¬ Covers d f) (x : DeviceHandle) :
    filterAt d (leftOver f ds x) = false := by
  rw [← Bool.not_eq_true, filterAt_iff]
  rintro ⟨hl, h⟩
  have hl' : d.level = f.level := by
    rw [← hl]
    exact deviceAt_level ..
  obtain ⟨hlt1, hlt2, hlt3⟩ := lt_freshId hd
  unfold leftOver at h
  rw [applyFilter_deviceAt hl'] at h
  refine hc ⟨hl', ?_⟩
  rcases h with ⟨hroot, h⟩ | ⟨hroot, h1, h⟩
  · refine .inl ⟨hroot, ?_⟩
    rcases h with h | h
    · split at h
      · next hf => exact .inr ⟨hf.1, h.symm⟩
      · exact absurd h hhw
    · exact .inl h
  · refine .inr ⟨hroot, eq_of_eq_pick h1 hlt1, ?_⟩
    rw [hl']
    exact h.imp_right (Or.imp_right (And.imp (fun h => eq_of_eq_pick h hlt2)
      (Or.imp_right (Or.imp_right fun h => eq_of_eq_pick h hlt3))))

/-! ## What the selector reads -/

/-- The accept filters in force, the implicit `"*:*"` included. -/
def DeviceLists.accepts (lists : DeviceLists) : List DeviceSpec :=
  if lists.accept.isEmpty then
    if lists.discard.isEmpty then [] else [acceptAllRoots]
  else lists.accept

/-- The selection, once the terms are read. -/
theorem selectedDevices_lists
    (h : readTerms (platformBackendName b) m = .ok lists) (p : Platform) (dt : DeviceType)
    {l : List DeviceHandle} (hl : selectedDevices b m p dt = .ok (some l)) :
    l = (sweep (lists.accepts.map filterAt) ((devicePools p dt).all.filter fun d =>
      !lists.discard.any (filterAt · d))).map (·.urDeviceHandle) := by
  have hlev := devicePools_levelled p dt
  unfold selectedDevices at hl
  rw [h] at hl
  change (if _ then _ else _) = _ at hl
  split at hl
  · exact absurd (Except.ok.inj hl) (by simp)
  · next hne =>
    have hl' := (Option.some.inj (Except.ok.inj hl)).symm
    rw [hl', applyAccepts_eq_sweep _ (applyDiscards_levelled _ hlev), applyDiscards_all _ hlev]
    unfold DeviceLists.accepts
    cases hacc : lists.accept.isEmpty with
    | false => rfl
    | true =>
      have hdis : lists.discard.isEmpty = false := by simpa [hacc] using hne
      simp [hdis]

/-- A selector that reads some filter produces a list. -/
theorem selectedDevices_isSome
    (h : readTerms (platformBackendName b) m = .ok lists) {f : DeviceSpec}
    (hf : f ∈ lists.accepts) (p : Platform) (dt : DeviceType) :
    ∃ l, selectedDevices b m p dt = .ok (some l) := by
  have hne : ¬ (lists.accept.isEmpty && lists.discard.isEmpty) = true := by
    intro he
    rw [Bool.and_eq_true] at he
    unfold DeviceLists.accepts at hf
    rw [if_pos he.1, if_pos he.2] at hf
    exact absurd hf List.not_mem_nil
  refine ⟨(applyAccepts (if lists.accept.isEmpty then [acceptAllRoots] else lists.accept)
    (applyDiscards lists.discard (devicePools p dt))).2, ?_⟩
  unfold selectedDevices
  rw [h]
  change (if _ then _ else _) = _
  rw [if_neg hne]
  rfl

/-- The types a filter can hold. -/
theorem getRootHardwareType_ne_mca (s : Str) : getRootHardwareType s ≠ .mca := by
  unfold getRootHardwareType
  simp only
  split
  · decide
  split
  · decide
  split <;> decide

theorem readFilterString_hwType {s : Str} {spec : DeviceSpec}
    (h : readFilterString s = .ok spec) : spec.hwType ≠ .mca := by
  unfold readFilterString at h
  split at h
  · obtain ⟨i, -, h⟩ := except_bind_ok h
    obtain ⟨j, -, h⟩ := except_bind_ok h
    split at h
    · obtain ⟨k, -, h⟩ := except_bind_ok h
      obtain rfl := Except.ok.inj h
      exact getRootHardwareType_ne_mca _
    · obtain rfl := Except.ok.inj h
      exact getRootHardwareType_ne_mca _
  · obtain ⟨i, -, h⟩ := except_bind_ok h
    obtain rfl := Except.ok.inj h
    exact getRootHardwareType_ne_mca _

theorem pushFilters_hwType {discard : Bool} {lists lists' : DeviceLists} {s : Str}
    (h : pushFilters discard lists s = .ok lists') (hl : ∀ d ∈ lists.discard, d.hwType ≠ .mca) :
    ∀ d ∈ lists'.discard, d.hwType ≠ .mca := by
  unfold pushFilters at h
  split at h
  · next spec hspec =>
    obtain rfl := Except.ok.inj h
    intro d hd
    unfold DeviceLists.push at hd
    split at hd
    · rcases List.mem_append.mp hd with hd | hd
      · exact hl d hd
      · rw [List.mem_singleton.mp hd]
        exact readFilterString_hwType hspec
    · exact hl d hd
  · exact absurd h (by simp)

theorem readTerm_hwType {name : Str} {lists lists' : DeviceLists}
    (h : readTerm name lists e = .ok lists') (hl : ∀ d ∈ lists.discard, d.hwType ≠ .mca) :
    ∀ d ∈ lists'.discard, d.hwType ≠ .mca := by
  unfold readTerm at h
  split at h
  · obtain rfl := Except.ok.inj h
    exact hl
  · obtain ⟨r, -, h⟩ := except_bind_ok h
    split at h
    · obtain rfl := Except.ok.inj h
      exact hl
    · exact foldlM_invariant (P := fun lists => ∀ d ∈ lists.discard, d.hwType ≠ .mca)
        (fun _ _ _ => pushFilters_hwType) h hl

theorem readTerms_hwType {name : Str}
    (h : readTerms name m = .ok lists) : ∀ d ∈ lists.discard, d.hwType ≠ .mca :=
  foldlM_invariant (P := fun lists => ∀ d ∈ lists.discard, d.hwType ≠ .mca)
    (fun _ _ _ => readTerm_hwType) h (by simp)

/-- A term for another backend makes the selector refuse the whole variable. -/
theorem readTerms_error {name : Str} (he : e ∈ m.entries)
    (hk : e.1 ≠ []) (hb : backendMatches name (termBackend e.1).2 = false) :
    ∃ err, readTerms name m = .error err := by
  refine foldlM_error _ _ he fun lists => ⟨.result .invalidValue, ?_⟩
  unfold readTerm
  rw [if_neg (by simpa using hk)]
  simp only
  unfold checkTerm
  rw [if_pos (by simp [hb])]
  rfl

/-! ## Soundness of the pre-filter -/

/-- The selectors for which the pre-filter drops an adapter that has a device to
select: every term is for its backend, no accept term is spelled exactly as the
backend's name or `*`, some discard term is, and one of the filters that accept
is not covered by a discard filter of its depth. -/
def DropsSelectable (env : Option Str) (a : KnownAdapter) : Prop :=
  ∃ m lists, getenvToMap "ONEAPI_DEVICE_SELECTOR".toList env false = .ok (some m) ∧
    (∀ e ∈ m.entries, ¬ ExactTerm a false e) ∧ (∃ e ∈ m.entries, ExactTerm a true e) ∧
    readTerms (platformBackendName a.backend) m = .ok lists ∧
    ∃ f ∈ lists.accepts, ∀ d ∈ lists.discard, ¬ Covers d f

theorem mem_knownAdapters (a : KnownAdapter) : a ∈ knownAdapters := by
  cases a <;> decide

theorem preFilterTerms_ne_success_iff {lib : Str} : ∀ (es : List (Str × List Str)) (acc : Bool),
    preFilterTerms lib es acc ≠ .success ↔ preFilterTerms lib es acc = .invalidValue := by
  intro es
  induction es with
  | nil => intro acc; cases acc <;> simp [preFilterTerms]
  | cons e es ih =>
    intro acc
    unfold preFilterTerms
    split
    · exact ih acc
    simp only
    split
    · exact ih acc
    split
    · split
      · exact ih false
      · simp
    · split
      · exact ih false
      · exact ih acc

/-- Once the variable is read, discovery keeps the adapters the loop lets pass. -/
theorem discoverKnownAdapters_of_read {env : Option Str} {r : KnownAdapter → UrResult}
    (h : ∀ a, readPreFilterODS env a.libraryName = .ok (r a)) :
    discoverKnownAdapters env true = .ok (knownAdapters.filter fun a => r a == .success) := by
  have hstep : discoverStep env true
      = fun kept a => .ok (if r a == .success then kept ++ [a] else kept) := by
    funext kept a
    unfold discoverStep
    rw [if_pos rfl, h]
  unfold discoverKnownAdapters
  rw [hstep, foldlM_append_filter]
  rfl

/-- An adapter is dropped exactly when the pre-filter runs, the variable parses
and the loop over its terms ends with the library refused. -/
theorem dropped_iff {env : Option Str} {pre : Bool} : Dropped env pre a ↔ pre = true ∧ ∃ odsEnvMap,
      getenvToMap "ONEAPI_DEVICE_SELECTOR".toList env false = .ok odsEnvMap ∧
      preFilterTerms a.libraryName (odsEnvMap.getD defaultODS).entries true = .invalidValue := by
  cases pre with
  | false =>
    have hall : discoverKnownAdapters env false = .ok knownAdapters := rfl
    constructor
    · rintro ⟨kept, hkept, ha⟩
      rw [Except.ok.inj (hkept.symm.trans hall)] at ha
      exact absurd (mem_knownAdapters a) ha
    · rintro ⟨h, -⟩
      exact absurd h (by simp)
  | true =>
    cases hmap : getenvToMap "ONEAPI_DEVICE_SELECTOR".toList env false with
    | error e =>
      constructor
      · rintro ⟨kept, hkept, ha⟩
        cases e with
        | invalidArgument what =>
          have hread : ∀ a : KnownAdapter,
              readPreFilterODS env a.libraryName = .ok .success := by
            intro a
            unfold readPreFilterODS
            rw [hmap]
          rw [Except.ok.inj (hkept.symm.trans (discoverKnownAdapters_of_read hread))] at ha
          exact absurd (List.mem_filter.mpr ⟨mem_knownAdapters a, rfl⟩) ha
        | popBackEmpty =>
          have hread : discoverStep env true [] .levelZero = .error .popBackEmpty := by
            unfold discoverStep readPreFilterODS
            rw [hmap]
            rfl
          unfold discoverKnownAdapters knownAdapters at hkept
          rw [List.foldlM_cons, hread] at hkept
          exact absurd hkept (by simp [bind, Except.bind])
      · rintro ⟨-, m, hm, -⟩
        exact absurd hm (by simp)
    | ok m =>
      have hread : ∀ a : KnownAdapter, readPreFilterODS env a.libraryName
          = .ok (preFilterTerms a.libraryName (m.getD defaultODS).entries true) := by
        intro a
        unfold readPreFilterODS
        rw [hmap]
      have hall := discoverKnownAdapters_of_read hread
      constructor
      · rintro ⟨kept, hkept, ha⟩
        rw [Except.ok.inj (hkept.symm.trans hall), List.mem_filter] at ha
        refine ⟨rfl, m, rfl, (preFilterTerms_ne_success_iff ..).mp fun hs => ?_⟩
        exact ha ⟨mem_knownAdapters a, by simp [hs]⟩
      · rintro ⟨-, m', hm', hinv⟩
        obtain rfl := Except.ok.inj hm'
        refine ⟨_, hall, ?_⟩
        rw [List.mem_filter]
        rintro ⟨-, hs⟩
        exact (preFilterTerms_ne_success_iff ..).mpr hinv (by simpa using hs)

/-- Where every accepting filter is covered, nothing is selected. -/
theorem selectsNothing_of_covers (h : readTerms (platformBackendName b) m = .ok lists)
    (hcov : ∀ f ∈ lists.accepts, ∃ d ∈ lists.discard, Covers d f) (p : Platform)
    (dt : DeviceType) : SelectsNothing (selectedDevices b m p dt) := by
  intro l hl
  rw [selectedDevices_lists h p dt hl, List.map_eq_nil_iff, List.eq_nil_iff_forall_not_mem]
  intro x hx
  obtain ⟨hpool, q, hq, hqx⟩ := mem_sweep.mp hx
  obtain ⟨f, hf, rfl⟩ := List.mem_map.mp hq
  obtain ⟨d, hd, hc⟩ := hcov f hf
  obtain ⟨hlev, hfx⟩ := filterAt_iff.mp hqx
  have hdx : filterAt d x = true :=
    filterAt_iff.mpr ⟨hlev.trans hc.1.symm, applyFilter_of_covers hc hfx⟩
  have hno := (List.mem_filter.mp hpool).2
  rw [Bool.not_eq_true', List.any_eq_false] at hno
  exact hno d hd hdx

/-- An accepting filter that is not covered selects a device of some tree. -/
theorem not_selectsNothing (h : readTerms (platformBackendName b) m = .ok lists) {f : DeviceSpec}
    (hf : f ∈ lists.accepts) (hcov : ∀ d ∈ lists.discard, ¬ Covers d f) :
    ∃ p : Platform, p.Tree ∧ ¬ SelectsNothing (selectedDevices b m p .all) := by
  obtain ⟨p, hp, x, hx⟩ := exists_tree_with_device f.level
    (if f.rootId = deviceIdTypeALL ∧ f.hwType ≠ .all then f.hwType else .mca)
    (pick f.rootId (freshId lists.discard)) (pick f.subId (freshId lists.discard))
    (pick f.subsubId (freshId lists.discard))
  refine ⟨p, hp, fun hnone => ?_⟩
  obtain ⟨l, hl⟩ := selectedDevices_isSome h hf _ .all
  have hempty := (selectedDevices_lists h _ _ hl).symm.trans (hnone l hl)
  rw [List.map_eq_nil_iff] at hempty
  refine List.eq_nil_iff_forall_not_mem.mp hempty _ (mem_sweep.mpr ⟨List.mem_filter.mpr ⟨hx, ?_⟩,
    filterAt f, List.mem_map_of_mem hf, filterAt_iff.mpr ⟨deviceAt_level .., ?_⟩⟩)
  · rw [Bool.not_eq_true', List.any_eq_false]
    intro d hd
    rw [Bool.not_eq_true]
    exact filterAt_leftOver hd (readTerms_hwType h d hd) (hcov d hd) x
  · exact applyFilter_leftOver f lists.discard x

/-- **The pre-filter is sound exactly outside `DropsSelectable`.** -/
theorem preFilter_sound_iff (env : Option Str) (loaderPreFilter : Bool) (a : KnownAdapter) :
    (Dropped env loaderPreFilter a → ∀ (p : Platform) (dt : DeviceType),
      SelectsNothing (urDeviceGetSelected env a.backend p dt)) ↔
    ¬ (loaderPreFilter = true ∧ DropsSelectable env a) := by
  constructor
  · rintro hsound ⟨hpre, m, lists, hmap, hacc, ⟨e, he, hex⟩, hread, f, hf, hcov⟩
    have hdrop : Dropped env loaderPreFilter a := by
      refine dropped_iff.mpr ⟨hpre, some m, hmap, (preFilterTerms_iff ..).mpr ⟨?_, .inr ⟨e, he, ?_⟩⟩⟩
      · intro e' he' hk
        exact hacc e' he' (keepsLibrary_iff.mp hk)
      · exact clearsLibrary_of_exact hex
    obtain ⟨p, -, hp⟩ := not_selectsNothing hread hf hcov
    refine hp fun l hl => hsound hdrop p .all l ?_
    unfold urDeviceGetSelected
    rw [hmap]
    exact hl
  · intro hnot hdrop p dt
    obtain ⟨hpre, odsEnvMap, hmap, hinv⟩ := dropped_iff.mp hdrop
    obtain ⟨hkeep, hclear⟩ := (preFilterTerms_iff ..).mp hinv
    have hacc : ∀ e ∈ (odsEnvMap.getD defaultODS).entries, ¬ ExactTerm a false e :=
      fun e he hex => hkeep e he (keepsLibrary_iff.mpr hex)
    cases odsEnvMap with
    | none =>
      -- an unset variable is `"*:*"`, an exact accept term
      exact absurd ⟨rfl, .inl rfl⟩ (hacc ("*".toList, ["*".toList]) (List.mem_singleton.mpr rfl))
    | some m =>
      obtain ⟨e, he, hce⟩ := hclear.resolve_left (by simp)
      change e ∈ m.entries at he
      intro l hl
      unfold urDeviceGetSelected at hl
      rw [hmap] at hl
      change selectedDevices a.backend m p dt = _ at hl
      cases hread : readTerms (platformBackendName a.backend) m with
      | error err =>
        unfold selectedDevices at hl
        rw [hread] at hl
        exact absurd hl (by simp [bind, Except.bind])
      | ok lists =>
        have hex : ExactTerm a true e := by
          refine (clearsLibrary_cases hce).resolve_right fun hb => ?_
          have hk : e.1 ≠ [] := by
            intro hk
            have hleg := hce.1
            rw [hk] at hleg
            exact absurd hleg (by decide)
          obtain ⟨err, herr⟩ := readTerms_error he hk hb
          rw [hread] at herr
          exact absurd herr (by simp)
        refine selectsNothing_of_covers hread (fun f hf => ?_) p dt l hl
        by_contra hcov
        simp only [not_exists, not_and] at hcov
        exact hnot ⟨hpre, m, lists, hmap, hacc, ⟨e, he, hex⟩, hread, f, hf, hcov⟩

/-- The partial discard `!level_zero:0` drops the Level Zero adapter, although
the selector leaves its second device selected, and `!level_zero:1;LEVEL_ZERO:0`
drops the adapter of the device it accepts. -/
theorem preFilter_drops_selectable :
    (Dropped (some "!level_zero:0".toList) true .levelZero ∧
      urDeviceGetSelected (some "!level_zero:0".toList) KnownAdapter.levelZero.backend
        ⟨[1, 2], fun _ => .gpu, fun _ => []⟩ .all = .ok (some [2])) ∧
    (Dropped (some "!level_zero:1;LEVEL_ZERO:0".toList) true .levelZero ∧
      urDeviceGetSelected (some "!level_zero:1;LEVEL_ZERO:0".toList)
        KnownAdapter.levelZero.backend ⟨[1, 2], fun _ => .gpu, fun _ => []⟩ .all
          = .ok (some [1])) :=
  ⟨⟨⟨[.opencl, .cuda, .hip, .nativeCpu], rfl, by decide⟩, rfl⟩,
    ⟨⟨[.opencl, .cuda, .hip, .nativeCpu], rfl, by decide⟩, rfl⟩⟩

end UnifiedRuntime.Loader
