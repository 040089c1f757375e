import UnifiedRuntime.Sanitizer.AsanRuns

/-!
# Shadow memory page by page

The shadow of a GPU is reserved address space: `EnqueuePoisonShadow` maps the
pages it needs and has new ones filled with zeros. That of the CPU is there from
the start. Seen as a shadow that is zero where nothing is mapped, both set the
bytes of one call and no others, so that what is known of the calls for one
chunk holds of the pages too.
-/

namespace UnifiedRuntime.Sanitizer

/-- `VirtualMemMaps` has the addresses of the pages that are mapped. -/
structure ShadowPages where
  shadowBegin : Nat
  virtualMemMaps : Nat → Bool
  bytes : Nat → UInt8

/-- `RoundDownTo`. -/
def roundDownTo (x boundary : Nat) : Nat := x / boundary * boundary

namespace ShadowPages

variable (t : DeviceType) (pageSize : Nat)

/-- A byte of the shadow, or `none` where nothing is mapped. -/
def read (s : ShadowPages) (a : Nat) : Option UInt8 :=
  if t = .cpu ∨ s.virtualMemMaps (roundDownTo a pageSize) = true then some (s.bytes a) else none

/-- A page that is mapped if it was not, and filled with zeros then. -/
def mapPage (s : ShadowPages) (mappedPtr : Nat) : ShadowPages :=
  if s.virtualMemMaps mappedPtr then s
  else
    { s with
      virtualMemMaps := fun p => p = mappedPtr || s.virtualMemMaps p
      bytes := fun a => if roundDownTo a pageSize = mappedPtr then 0 else s.bytes a }

/-- The loop over the pages of `[mappedPtr, shadowEnd]`. -/
def mapShadow (s : ShadowPages) (mappedPtr shadowEnd : Nat) : ShadowPages :=
  if _h : mappedPtr ≤ shadowEnd ∧ 0 < pageSize then
    mapShadow (s.mapPage pageSize mappedPtr) (mappedPtr + pageSize) shadowEnd
  else s
termination_by shadowEnd + 1 - mappedPtr

def set (s : ShadowPages) (shadowBegin shadowEnd : Nat) (value : UInt8) : ShadowPages :=
  { s with bytes := fun a => if shadowBegin ≤ a ∧ a ≤ shadowEnd then value else s.bytes a }

/-- `EnqueuePoisonShadow` of the CPU and of the GPUs. -/
def enqueuePoisonShadow (s : ShadowPages) (p : Poison) : ShadowPages :=
  if p.size = 0 then s
  else
    let shadowBegin := s.shadowBegin + memToShadow t p.ptr
    let shadowEnd := s.shadowBegin + memToShadow t (sub64 (add64 p.ptr p.size) 1)
    if t = .cpu then s.set shadowBegin shadowEnd p.value
    else (s.mapShadow pageSize (roundDownTo shadowBegin pageSize) shadowEnd).set shadowBegin
      shadowEnd p.value

/-- `enqueueAllocInfo`, when every call succeeds. -/
def enqueueAllocInfo (s : ShadowPages) (ai : AllocInfo) : ShadowPages :=
  ai.enqueueAllocInfo.foldl (enqueuePoisonShadow t pageSize) s

/-- The shadow with zeros where nothing is mapped, from its begin on. -/
def view (s : ShadowPages) : Nat → UInt8 :=
  fun n => (s.read t pageSize (s.shadowBegin + n)).getD 0

variable {t : DeviceType} {pageSize : Nat}

/-! ## Mapping pages -/

/-- What mapping does to a byte: it stays, or it was not mapped and is 0 now. -/
def Kept (t : DeviceType) (pageSize : Nat) (s s' : ShadowPages) (a : Nat) : Prop :=
  s'.read t pageSize a = s.read t pageSize a ∨
    s.read t pageSize a = none ∧ s'.read t pageSize a = some 0

theorem Kept.trans {s s' s'' : ShadowPages} {a : Nat} (h : Kept t pageSize s s' a)
    (h' : Kept t pageSize s' s'' a) : Kept t pageSize s s'' a := by
  rcases h with h | ⟨hn, h⟩
  · rcases h' with h' | ⟨hn, h'⟩
    · exact .inl (h'.trans h)
    · exact .inr ⟨h.symm.trans hn, h'⟩
  · rcases h' with h' | ⟨hn', -⟩
    · exact .inr ⟨hn, h'.trans h⟩
    · rw [h] at hn'
      cases hn'

theorem Kept.mapped {s s' : ShadowPages} {a : Nat} (h : Kept t pageSize s s' a)
    (hm : (s.read t pageSize a).isSome) : (s'.read t pageSize a).isSome := by
  rcases h with h | ⟨hn, -⟩
  · rwa [h]
  · rw [hn] at hm
    cases hm

theorem mapPage_kept (ht : t ≠ .cpu) (s : ShadowPages) (p a : Nat) :
    Kept t pageSize s (s.mapPage pageSize p) a := by
  unfold mapPage
  split
  next => exact .inl rfl
  next hnew =>
    by_cases hp : roundDownTo a pageSize = p
    · right
      unfold read
      simp only [hp]
      rw [if_neg fun h => h.elim ht hnew]
      simp
    · left
      unfold read
      simp [hp]

theorem mapPage_maps (s : ShadowPages) (p q : Nat) :
    (s.mapPage pageSize p).virtualMemMaps q = true ↔ q = p ∨ s.virtualMemMaps q = true := by
  unfold mapPage
  split
  next hm =>
    constructor
    · exact .inr
    · rintro (rfl | h)
      · exact hm
      · exact h
  next => simp

theorem mapPage_shadowBegin (s : ShadowPages) (p : Nat) :
    (s.mapPage pageSize p).shadowBegin = s.shadowBegin := by
  unfold mapPage
  split
  next => rfl
  next => rfl

theorem mapShadow_kept (ht : t ≠ .cpu) (s : ShadowPages) (p e a : Nat) :
    Kept t pageSize s (s.mapShadow pageSize p e) a := by
  fun_induction mapShadow pageSize s p e with
  | case1 s p h ih => exact (mapPage_kept ht s p a).trans ih
  | case2 s p h => exact .inl rfl

theorem mapShadow_shadowBegin (s : ShadowPages) (p e : Nat) :
    (s.mapShadow pageSize p e).shadowBegin = s.shadowBegin := by
  fun_induction mapShadow pageSize s p e with
  | case1 s p h ih => exact ih.trans (mapPage_shadowBegin s p)
  | case2 s p h => rfl

/-- The loop maps the pages from the first on up to the end, and no others. -/
theorem mapShadow_maps (s : ShadowPages) (p e q : Nat) (hp : pageSize ∣ p)
    (hq : pageSize ∣ q) (hpos : 0 < pageSize) :
    (s.mapShadow pageSize p e).virtualMemMaps q = true ↔
      p ≤ q ∧ q ≤ e ∨ s.virtualMemMaps q = true := by
  fun_induction mapShadow pageSize s p e with
  | case1 s p h ih =>
    rw [ih (Nat.dvd_add hp (Nat.dvd_refl _)), mapPage_maps]
    -- two pages are a page size apart
    have hnext : q ≠ p → p ≤ q → p + pageSize ≤ q := by
      intro hne hle
      obtain ⟨k, hk⟩ := (Nat.dvd_sub hq hp : pageSize ∣ q - p)
      have hk₀ : k ≠ 0 := by
        rintro rfl
        omega
      have hle' : pageSize ≤ pageSize * k := Nat.le_mul_of_pos_right _ (Nat.pos_of_ne_zero hk₀)
      omega
    constructor
    · rintro (⟨h₁, h₂⟩ | rfl | h₃)
      · exact .inl ⟨by omega, h₂⟩
      · exact .inl ⟨Nat.le_refl _, h.1⟩
      · exact .inr h₃
    · rintro (⟨h₁, h₂⟩ | h₃)
      · by_cases heq : q = p
        · exact .inr (.inl heq)
        · exact .inl ⟨hnext heq h₁, h₂⟩
      · exact .inr (.inr h₃)
  | case2 s p h =>
    constructor
    · exact .inr
    · rintro (⟨h₁, h₂⟩ | h₃)
      · exact absurd ⟨h₁.trans h₂, hpos⟩ h
      · exact h₃

/-! ## One call -/

theorem roundDownTo_le (x boundary : Nat) : roundDownTo x boundary ≤ x := Nat.div_mul_le_self _ _

theorem dvd_roundDownTo (x boundary : Nat) : boundary ∣ roundDownTo x boundary :=
  Nat.dvd_mul_left _ _

theorem roundDownTo_mono {x y : Nat} (boundary : Nat) (h : x ≤ y) :
    roundDownTo x boundary ≤ roundDownTo y boundary :=
  Nat.mul_le_mul_right _ (Nat.div_le_div_right h)

/-- The shadow bytes of a call, as addresses. -/
theorem covers_address {p : Poison} {b n : Nat} :
    p.covers t n = true ↔ p.size ≠ 0 ∧ b + memToShadow t p.ptr ≤ b + n ∧
      b + n ≤ b + memToShadow t (sub64 (add64 p.ptr p.size) 1) := by
  unfold Poison.covers
  by_cases hsize : p.size = 0
  · simp [hsize]
  · simp [hsize]

theorem enqueuePoisonShadow_shadowBegin (s : ShadowPages) (p : Poison) :
    (s.enqueuePoisonShadow t pageSize p).shadowBegin = s.shadowBegin := by
  unfold enqueuePoisonShadow
  split
  next => rfl
  next =>
    split
    next => rfl
    next => exact mapShadow_shadowBegin s _ _

/-- **A byte that a call covers** is mapped and has its value. -/
theorem enqueuePoisonShadow_covered (hpos : 0 < pageSize) (s : ShadowPages) (p : Poison) {n : Nat}
    (hc : p.covers t n = true) :
    (s.enqueuePoisonShadow t pageSize p).read t pageSize (s.shadowBegin + n) = some p.value := by
  obtain ⟨hsize, hlo, hhi⟩ := (covers_address (b := s.shadowBegin)).mp hc
  unfold enqueuePoisonShadow
  rw [if_neg hsize]
  split
  next hcpu =>
    unfold read
    rw [if_pos (.inl hcpu)]
    exact congrArg some (if_pos ⟨hlo, hhi⟩)
  next hgpu =>
    have hmapped := (mapShadow_maps s (roundDownTo (s.shadowBegin + memToShadow t p.ptr) pageSize)
      (s.shadowBegin + memToShadow t (sub64 (add64 p.ptr p.size) 1))
      (roundDownTo (s.shadowBegin + n) pageSize) (dvd_roundDownTo _ _) (dvd_roundDownTo _ _)
      hpos).mpr (.inl ⟨roundDownTo_mono _ hlo, (roundDownTo_le _ _).trans hhi⟩)
    unfold read
    rw [if_pos (.inr hmapped)]
    exact congrArg some (if_pos ⟨hlo, hhi⟩)

/-- **A byte that a call does not cover** is kept. -/
theorem enqueuePoisonShadow_kept (s : ShadowPages) (p : Poison) {a : Nat}
    (hc : ∀ n, a = s.shadowBegin + n → p.covers t n = false) :
    Kept t pageSize s (s.enqueuePoisonShadow t pageSize p) a := by
  unfold enqueuePoisonShadow
  split
  next => exact .inl rfl
  next hsize =>
    have hout : ¬ (s.shadowBegin + memToShadow t p.ptr ≤ a ∧
        a ≤ s.shadowBegin + memToShadow t (sub64 (add64 p.ptr p.size) 1)) := by
      rintro ⟨hlo, hhi⟩
      have ha : a = s.shadowBegin + (a - s.shadowBegin) := by omega
      have hf := hc _ ha
      have ht := (covers_address (t := t) (p := p) (b := s.shadowBegin)
        (n := a - s.shadowBegin)).mpr ⟨hsize, by omega, by omega⟩
      rw [ht] at hf
      cases hf
    have hset : ∀ s₀ : ShadowPages, (s₀.set (s.shadowBegin + memToShadow t p.ptr)
        (s.shadowBegin + memToShadow t (sub64 (add64 p.ptr p.size) 1)) p.value).read t pageSize a
          = s₀.read t pageSize a := by
      intro s₀
      unfold read set
      simp [if_neg hout]
    split
    next => exact .inl (hset s)
    next hgpu =>
      have hk : Kept t pageSize _ _ a := mapShadow_kept hgpu s
        (roundDownTo (s.shadowBegin + memToShadow t p.ptr) pageSize)
        (s.shadowBegin + memToShadow t (sub64 (add64 p.ptr p.size) 1)) a
      unfold Kept at hk ⊢
      rwa [hset]

/-- A call in terms of the shadow with zeros. -/
theorem view_enqueuePoisonShadow (hpos : 0 < pageSize) (s : ShadowPages) (p : Poison) :
    (s.enqueuePoisonShadow t pageSize p).view t pageSize = p.apply t (s.view t pageSize) := by
  funext n
  unfold view Poison.apply
  rw [enqueuePoisonShadow_shadowBegin]
  split
  next hc => rw [enqueuePoisonShadow_covered hpos s p hc]; rfl
  next hc =>
    have hk : Kept t pageSize s (s.enqueuePoisonShadow t pageSize p) (s.shadowBegin + n) :=
      enqueuePoisonShadow_kept s p fun m hm => by
        obtain rfl : n = m := by omega
        exact Bool.eq_false_iff.mpr hc
    rcases hk with hk | ⟨hn, hk⟩
    · rw [hk]
    · rw [hk]
      simp only [hn]
      rfl

/-! ## The calls for a chunk -/

theorem view_foldl (hpos : 0 < pageSize) (ps : List Poison) (s : ShadowPages) :
    (ps.foldl (enqueuePoisonShadow t pageSize) s).view t pageSize
      = poisoned t (s.view t pageSize) ps := by
  induction ps generalizing s with
  | nil => rfl
  | cons p ps ih =>
    rw [List.foldl_cons, ih, view_enqueuePoisonShadow hpos]
    rfl

theorem foldl_shadowBegin (ps : List Poison) (s : ShadowPages) :
    (ps.foldl (enqueuePoisonShadow t pageSize) s).shadowBegin = s.shadowBegin := by
  induction ps generalizing s with
  | nil => rfl
  | cons p ps ih => rw [List.foldl_cons, ih, enqueuePoisonShadow_shadowBegin]

theorem foldl_kept (ps : List Poison) (s : ShadowPages) {a : Nat}
    (hc : ∀ p ∈ ps, ∀ n, a = s.shadowBegin + n → p.covers t n = false) :
    Kept t pageSize s (ps.foldl (enqueuePoisonShadow t pageSize) s) a := by
  induction ps generalizing s with
  | nil => exact .inl rfl
  | cons p ps ih =>
    refine (enqueuePoisonShadow_kept s p (hc p List.mem_cons_self)).trans (ih _ ?_)
    rw [enqueuePoisonShadow_shadowBegin]
    exact fun q hq => hc q (List.mem_cons_of_mem _ hq)

/-- A mapped byte stays mapped, whatever is poisoned. -/
theorem foldl_mapped (hpos : 0 < pageSize) (ps : List Poison) (s : ShadowPages) {n : Nat}
    (hm : (s.read t pageSize (s.shadowBegin + n)).isSome) :
    ((ps.foldl (enqueuePoisonShadow t pageSize) s).read t pageSize (s.shadowBegin + n)).isSome := by
  induction ps generalizing s with
  | nil => exact hm
  | cons p ps ih =>
    have hone : ((s.enqueuePoisonShadow t pageSize p).read t pageSize
        (s.shadowBegin + n)).isSome := by
      by_cases hc : p.covers t n = true
      · rw [enqueuePoisonShadow_covered hpos s p hc]
        rfl
      · refine (enqueuePoisonShadow_kept s p fun m hm => ?_).mapped hm
        obtain rfl : n = m := by omega
        exact Bool.eq_false_iff.mpr hc
    have hb : (s.enqueuePoisonShadow t pageSize p).shadowBegin = s.shadowBegin :=
      enqueuePoisonShadow_shadowBegin s p
    have h := ih (s.enqueuePoisonShadow t pageSize p) (by rwa [hb])
    rwa [hb] at h

/-- A shadow byte of a call for a part of a chunk is that of an address in the part. -/
theorem covers_exists {b e n : Nat} (h : Canonical t b e) {p : Poison} (hb : b ≤ p.ptr)
    (he : p.ptr + p.size ≤ e) (hc : p.covers t n = true) :
    ∃ x, p.ptr ≤ x ∧ x < p.ptr + p.size ∧ memToShadow t x = n := by
  obtain ⟨hsize, hlo, hhi⟩ := (covers_address (b := 0)).mp hc
  have hle := h.le
  rw [sub64_add64 (by omega) (by omega)] at hhi
  rcases memToShadow_pair h h with ⟨k, hk, -⟩ | hlt | hgt
  · have h₁ := hk p.ptr hb (by omega)
    have h₂ := hk (p.ptr + p.size - 1) (by omega) (by omega)
    by_cases hfirst : n = memToShadow t p.ptr
    · exact ⟨p.ptr, Nat.le_refl _, by omega, hfirst.symm⟩
    · -- the granule that belongs to the byte starts inside the part
      have h₃ := hk ((n + k) * 16) (by omega) (by omega)
      exact ⟨(n + k) * 16, by omega, by omega, by omega⟩
  · have := (hlt p.ptr p.ptr hb (by omega) hb (by omega)).2
    omega
  · have := (hgt p.ptr p.ptr hb (by omega) hb (by omega)).2
    omega

/-- **The encoding of a chunk is exact.** -/
theorem enqueueAllocInfo_exact (t : DeviceType) (pageSize : Nat) (s : ShadowPages)
    (ai : AllocInfo) (hpos : 0 < pageSize) (h : InChunk ai) (hc : ai.Canonical t)
    (hr : ai.isReleased = false) :
    (∀ x, ai.allocBegin ≤ x → x < ai.allocBegin + ai.allocSize →
      ∃ v, (s.enqueueAllocInfo t pageSize ai).read t pageSize (s.shadowBegin + memToShadow t x)
          = some v ∧ (Accessible v (x % 16) ↔ ai.userBegin ≤ x ∧ x < ai.userEnd)) ∧
      ∀ a, (∀ x, ai.allocBegin ≤ x → x < ai.allocBegin + ai.allocSize →
          a ≠ s.shadowBegin + memToShadow t x) →
        Kept t pageSize s (s.enqueueAllocInfo t pageSize ai) a := by
  constructor
  · intro x hx hx'
    have hall : Decodes t (poisoned t (s.view t pageSize) ai.enqueueAllocInfo) ai :=
      h.decodes hc hr
    have hdec := hall x hx hx'
    rw [← view_foldl hpos] at hdec
    unfold view at hdec
    rw [foldl_shadowBegin] at hdec
    -- the first call maps the whole chunk
    have hmapped : ((s.enqueueAllocInfo t pageSize ai).read t pageSize
        (s.shadowBegin + memToShadow t x)).isSome := by
      unfold enqueueAllocInfo AllocInfo.enqueueAllocInfo
      simp only [hr, Bool.false_eq_true, if_false]
      rw [List.append_assoc, List.foldl_append, List.foldl_cons, List.foldl_nil]
      have hcov : Poison.covers t ⟨ai.allocBegin, ai.allocSize, 0⟩ (memToShadow t x) = true :=
        (covers_iff hc hc (Nat.le_refl _) (Nat.le_refl _) hx hx').mpr
          ⟨by simp only; omega, by simp only; omega, by simp only; omega⟩
      have hfirst := enqueuePoisonShadow_covered hpos s _ hcov
      have hb : (s.enqueuePoisonShadow t pageSize ⟨ai.allocBegin, ai.allocSize, 0⟩).shadowBegin
          = s.shadowBegin := enqueuePoisonShadow_shadowBegin s _
      rw [← hb]
      refine foldl_mapped hpos _ _ ?_
      rw [hb, hfirst]
      rfl
    obtain ⟨v, hv⟩ := Option.isSome_iff_exists.mp hmapped
    refine ⟨v, hv, ?_⟩
    unfold enqueueAllocInfo at hv
    rwa [hv] at hdec
  · intro a ha
    refine foldl_kept _ s fun p hp n hn => ?_
    rw [Bool.eq_false_iff]
    intro hcov
    rcases h.inside hp with hzero | ⟨hb, he⟩
    · exact ((covers_address (b := 0)).mp hcov).1 hzero
    · obtain ⟨x, hx, hx', rfl⟩ := covers_exists hc hb he hcov
      exact ha x (by omega) (by omega) hn

/-- What `allocateMemory` makes of a chunk is such an `AllocInfo`. -/
theorem info_inChunk {m : AsanSetup} {r : AllocRequest} (ha : r.Aligned) (hf : r.Fits m)
    {allocBegin : Nat} (halign : allocBegin % 16 = 0)
    (hrange : allocBegin + r.neededSize m ≤ 2 ^ 64) : InChunk (r.info m allocBegin) :=
  (AllocRequest.info_laid ha hf halign hrange).inChunk

/-- The shadow of a PVC with nothing mapped. -/
def nothingMapped : ShadowPages := ⟨2 ^ 56, fun _ => false, fun _ => 0⟩

/-- Sixteen bytes for the user at 4112, in a chunk at 4096. -/
theorem enqueueAllocInfo_exact_sixteen :
    ∃ v, (nothingMapped.enqueueAllocInfo .gpuPvc 65536
        ((sixteenBytes 0).info oneCpu 4096)).read .gpuPvc 65536
          (2 ^ 56 + memToShadow .gpuPvc 4112) = some v ∧ Accessible v (4112 % 16) := by
  have hsize : (sixteenBytes 0).neededSize oneCpu = 48 := by decide +kernel
  have hbegin : (sixteenBytes 0).userBegin oneCpu 4096 = 4112 := by decide +kernel
  have hinfo : InChunk ((sixteenBytes 0).info oneCpu 4096) :=
    info_inChunk (show (sixteenBytes 0).Aligned from rfl) (sixteenBytes_fits 0) rfl (by rw [hsize]; norm_num)
  have hcanon : ((sixteenBytes 0).info oneCpu 4096).Canonical .gpuPvc := by
    left
    show 4096 + (sixteenBytes 0).neededSize oneCpu ≤ 2 ^ 47
    rw [hsize]
    norm_num
  have hlt : 4112 < 4096 + (sixteenBytes 0).neededSize oneCpu := by
    rw [hsize]
    norm_num
  obtain ⟨v, hv, hiff⟩ := (enqueueAllocInfo_exact .gpuPvc 65536 nothingMapped
    ((sixteenBytes 0).info oneCpu 4096) (by decide) hinfo hcanon rfl).1 4112
      (by show 4096 ≤ 4112; norm_num) hlt
  refine ⟨v, hv, hiff.mpr ⟨?_, ?_⟩⟩
  · show (sixteenBytes 0).userBegin oneCpu 4096 ≤ 4112
    omega
  · show 4112 < add64 ((sixteenBytes 0).userBegin oneCpu 4096) 16
    decide

/-- Every page is mapped and says that nothing is accessible. -/
def allPoisoned : ShadowPages := ⟨2 ^ 56, fun _ => true, fun _ => 0xff⟩

/-- Half of the addresses below `2 ^ 48`, less what the redzones take. -/
def halfOfHost : AllocRequest where
  context := 0
  device := none
  align := 0
  size := 2 ^ 47 - 2048
  type := .hostUsm
  host := by simp

/-- A chunk of host USM across `2 ^ 47`: the shadow of its end is that of its begin, so none of
the calls reaches the shadow of the user's first byte, which stays as it was. -/
theorem enqueueAllocInfo_across :
    halfOfHost.Aligned ∧ halfOfHost.Fits oneCpu ∧
      InChunk (halfOfHost.info oneCpu (2 ^ 47 - 2048)) ∧
      (halfOfHost.info oneCpu (2 ^ 47 - 2048)).userBegin = 2 ^ 47 ∧
      2 ^ 47 < (halfOfHost.info oneCpu (2 ^ 47 - 2048)).userEnd ∧
      (allPoisoned.enqueueAllocInfo .gpuPvc 65536 (halfOfHost.info oneCpu (2 ^ 47 - 2048))).read
        .gpuPvc 65536 (2 ^ 56 + memToShadow .gpuPvc (2 ^ 47)) = some 0xff ∧
      ¬ Accessible 0xff (2 ^ 47 % 16) := by
  have hsize : halfOfHost.neededSize oneCpu = 2 ^ 47 + 2048 := by decide +kernel
  have hfits : halfOfHost.Fits oneCpu := by
    unfold AllocRequest.Fits
    decide +kernel
  have hkept : Kept .gpuPvc 65536 allPoisoned
      (allPoisoned.enqueueAllocInfo .gpuPvc 65536 (halfOfHost.info oneCpu (2 ^ 47 - 2048)))
      (2 ^ 56 + memToShadow .gpuPvc (2 ^ 47)) := by
    refine foldl_kept _ allPoisoned fun p hp n hn => ?_
    obtain rfl : memToShadow .gpuPvc (2 ^ 47) = n := Nat.add_left_cancel hn
    revert p
    decide +kernel
  have hinfo : InChunk (halfOfHost.info oneCpu (2 ^ 47 - 2048)) :=
    info_inChunk (show halfOfHost.Aligned from rfl) hfits (by decide) (by rw [hsize]; norm_num)
  refine ⟨rfl, hfits, hinfo, by decide +kernel, by decide +kernel, ?_, by decide⟩
  rcases hkept with h | ⟨h, -⟩
  · exact h.trans rfl
  · cases h

end ShadowPages

end UnifiedRuntime.Sanitizer
