import Mathlib.Data.List.ReduceOption
import UnifiedRuntime.Lib.GuardedRuns

/-!
# Lazy allocation of memory objects in the CUDA adapter

A memory object gets its block, or its array and surface, on a device when it is first asked for
them there. The driver keeps what it has given out, and how often it was taken back. An array is
recorded before its surface is there, so that it stays recorded when the surface fails and the
array is destroyed; a registration of the host pointer is left behind likewise; the release stops
at the first object that the driver does not take back.

- `getOn_right`: one request.
- `clear_right`: the release.
- `allocation_all_or_nothing`: runs that meet no defect.
-/

namespace UnifiedRuntime.Cuda.LazyAllocation

/-- A handle of the driver; none is the null handle. -/
abbrev Handle := Nat

/-- `CUresult`: `CUDA_ERROR_DEINITIALIZED` is let pass. -/
inductive CuResult where
  | success
  | deinitialized
  | error (code : Nat)
deriving DecidableEq

/-- `checkErrorUR`. -/
def checkErrorUR : CuResult → Except Nat Unit
  | .error code => .error code
  | _ => .ok ()

/-- `CUDA_ERROR_HOST_MEMORY_ALREADY_REGISTERED`. -/
def alreadyRegistered : CuResult := .error 712

/-- `UR_RESULT_ERROR_OUT_OF_DEVICE_MEMORY`, for what the memory provider returns. -/
def outOfMemory : Nat := 2

/-! ## The driver -/

/-- Device blocks, host blocks and registrations are memory. -/
inductive Kind where
  | memory
  | array
  | surface

/-- What was given out, to this object or to the buffer it is a part of. -/
structure Resource where
  kind : Kind
  parents : Bool := false
  released : Nat := 0

/-- `registered` is the registration of the host pointer; `faults` counts the releases of what was
never given out. -/
structure Driver where
  resources : List Resource := []
  registered : Option Handle := none
  faults : Nat := 0

namespace Driver

def give (driver : Driver) (kind : Kind) : Driver :=
  { driver with resources := driver.resources ++ [{ kind := kind }] }

def next (driver : Driver) : Handle := driver.resources.length

def release (driver : Driver) (h : Handle) : Driver :=
  if h < driver.resources.length then
    { driver with resources := driver.resources.modify h fun r =>
        { r with released := r.released + 1 } }
  else { driver with faults := driver.faults + 1 }

/-- `cuMemHostRegister`: the pointer can be registered once. -/
def hostRegister (driver : Driver) (r : CuResult) : CuResult × Driver :=
  match driver.registered, r with
  | some _, _ => (alreadyRegistered, driver)
  | none, .success => (.success, { driver.give .memory with registered := some driver.next })
  | none, r => (r, driver)

/-- `cuMemHostUnregister`. -/
def hostUnregister (driver : Driver) : Driver :=
  match driver.registered with
  | none => { driver with faults := driver.faults + 1 }
  | some h => { driver.release h with registered := none }

end Driver

/-! ## Memory objects -/

/-- `BufferMem::AllocMode`. -/
inductive AllocMode where
  | Classic
  | UseHostPtr
  | CopyIn
  | AllocHostPtr

/-- A buffer, which may be part of another, or an image. -/
inductive MemKind where
  | buffer (mode : AllocMode) (parent : Bool)
  | image

/-- `ur_mem_handle_t_`: the handles for each device, and the memory behind a host pointer of the
adapter's own. -/
structure MemObject where
  kind : MemKind
  ptrs : List (Option Handle)
  arrays : List (Option Handle)
  surfObjs : List (Option Handle)
  hostPtr : Option Handle

/-- What the driver says to the calls of a request, of which `active` makes the device's context the
current one; `stale` is what an unset `Surface` holds. -/
structure Answers where
  active : CuResult := .success
  first : CuResult := .success
  second : CuResult := .success
  destroy : CuResult := .success
  stale : Option Handle := none

/-- `cuMemHostGetDevicePointer`, for the memory behind the host pointer. -/
def getDevicePointer (o : MemObject) (d : Nat) (target : Option Handle) (r : CuResult) : MemObject :=
  if r = .success then { o with ptrs := o.ptrs.set d target } else o

/-- The buffers. -/
def allocateBuffer (mode : AllocMode) (o : MemObject) (d : Nat) (a : Answers) (driver : Driver) :
    Except Nat Unit × MemObject × Driver :=
  match o.ptrs.getD d none, mode with
  | some _, _ => (.ok (), o, driver)
  | none, .AllocHostPtr => (checkErrorUR a.first, getDevicePointer o d o.hostPtr a.first, driver)
  | none, .UseHostPtr =>
    match driver.hostRegister a.first with
    | (.error code, driver') => (.error code, o, driver')
    | (_, driver') =>
      (checkErrorUR a.second, getDevicePointer o d driver'.registered a.second, driver')
  | none, .Classic | none, .CopyIn =>
    if a.first = .success then
      (.ok (), { o with ptrs := o.ptrs.set d (some driver.next) }, driver.give .memory)
    else (.error outOfMemory, o, driver)

/-- The surface of an array, and the handler of its errors. -/
def createSurface (o : MemObject) (d : Nat) (array : Option Handle) (a : Answers) (driver : Driver) :
    Except Nat Unit × MemObject × Driver :=
  match a.second with
  | .success =>
    (.ok (), { o with surfObjs := o.surfObjs.set d (some driver.next) }, driver.give .surface)
  | .deinitialized => (.ok (), { o with surfObjs := o.surfObjs.set d a.stale }, driver)
  | .error code =>
    match array with
    | none => (.error code, o, driver)
    | some h =>
      match a.destroy with
      | .error code' => (.error code', o, driver.release h)
      | _ => (.error code, o, driver.release h)

/-- The images. -/
def allocateImage (o : MemObject) (d : Nat) (a : Answers) (driver : Driver) :
    Except Nat Unit × MemObject × Driver :=
  match o.arrays.getD d none, a.first with
  | some _, _ => (.ok (), o, driver)
  | none, .error code => (.error code, o, driver)
  | none, .deinitialized =>
    createSurface { o with arrays := o.arrays.set d none } d none a driver
  | none, .success =>
    createSurface { o with arrays := o.arrays.set d (some driver.next) } d (some driver.next) a
      (driver.give .array)

def allocateMemObjOnDeviceIfNeeded (o : MemObject) (d : Nat) (a : Answers) (driver : Driver) :
    Except Nat Unit × MemObject × Driver :=
  match checkErrorUR a.active with
  | .error code => (.error code, o, driver)
  | .ok _ =>
    match o.kind with
    | .buffer mode _ => allocateBuffer mode o d a driver
    | .image => allocateImage o d a driver

/-- `getPtr`, `getArray` and `getSurface`. -/
def getOn (kind : Kind) (o : MemObject) (d : Nat) (a : Answers) (driver : Driver) :
    Except Nat (Option Handle) × MemObject × Driver :=
  match allocateMemObjOnDeviceIfNeeded o d a driver with
  | (.error code, o', driver') => (.error code, o', driver')
  | (.ok _, o', driver') =>
    match kind with
    | .memory => (.ok (o'.ptrs.getD d none), o', driver')
    | .array => (.ok (o'.arrays.getD d none), o', driver')
    | .surface => (.ok (o'.surfObjs.getD d none), o', driver')

/-! ## The release -/

/-- Each handle but null is released, until the driver does not take one back. -/
def releaseEach (answer : Handle → CuResult) : List (Option Handle) → Driver →
    Except Nat Unit × Driver
  | [], driver => (.ok (), driver)
  | none :: rest, driver => releaseEach answer rest driver
  | some h :: rest, driver =>
    match answer h with
    | .error code => (.error code, driver.release h)
    | _ => releaseEach answer rest (driver.release h)

/-- `ur_mem_handle_t_::clear`. -/
def clear (answer : Handle → CuResult) (o : MemObject) (driver : Driver) : Driver :=
  match o.kind with
  | .buffer _ true => driver
  | .buffer .Classic false | .buffer .CopyIn false => (releaseEach answer o.ptrs driver).2
  | .buffer .UseHostPtr false => driver.hostUnregister
  | .buffer .AllocHostPtr false => (releaseEach answer [o.hostPtr] driver).2
  | .image =>
    match releaseEach answer o.arrays driver with
    | (.error _, driver') => driver'
    | (.ok _, driver') => (releaseEach answer o.surfObjs driver').2

/-! ## Requests and allocations -/

structure State where
  object : MemObject
  driver : Driver

/-- A request, with the driver's answers. -/
structure Call where
  kind : Kind
  device : Nat
  answers : Answers

def State.call (s : State) (c : Call) : Except Nat (Option Handle) × State :=
  match getOn c.kind s.object c.device c.answers s.driver with
  | (r, o', driver') => (r, ⟨o', driver'⟩)

/-- What can be used. -/
def Driver.Live (driver : Driver) (kind : Kind) (h : Handle) : Prop :=
  ∃ r, driver.resources[h]? = some r ∧ r.kind = kind ∧ r.released = 0

/-- **A request is right**: it returns what can be used, or leaves the object and what is there as
they were, and nothing is released twice. -/
structure CallRight (s : State) (c : Call) : Prop where
  success : ∀ r, (s.call c).1 = .ok r → ∃ h, r = some h ∧ (s.call c).2.driver.Live c.kind h
  failure : ∀ code, (s.call c).1 = .error code → (s.call c).2.object = s.object ∧
    ∀ kind h, (s.call c).2.driver.Live kind h ↔ s.driver.Live kind h
  once : (s.call c).2.driver.faults = 0 ∧
    ∀ (h : Handle) (r : Resource), (s.call c).2.driver.resources[h]? = some r →
      r.released ≤ if r.parents then 0 else 1

/-- **The release is right**: everything was released once, but for what is the parent's. -/
def ReleaseRight (driver : Driver) : Prop :=
  driver.faults = 0 ∧ ∀ (h : Handle) (r : Resource), driver.resources[h]? = some r →
    r.released = if r.parents then 0 else 1

/-- Buffers are asked for pointers and images for arrays and surfaces, on the devices there are. -/
def Allowed (s : State) (c : Call) : Prop :=
  match s.object.kind with
  | .buffer _ _ => c.kind = .memory ∧ c.device < s.object.ptrs.length
  | .image => c.kind ≠ .memory ∧ c.device < s.object.arrays.length

/-- The second call fails only where the first has given nothing, and neither is let pass. -/
def BothOrNone (a : Answers) : Prop :=
  match a.first, a.second with
  | .error _, _ | .success, .success | .deinitialized, .error _ => True
  | _, _ => False

/-- **No request meets a defect**: one that has its context. -/
def Careful (s : State) (c : Call) : Prop :=
  (∀ code, c.answers.active ≠ .error code) →
  match s.object.kind with
  | .buffer .AllocHostPtr _ => s.object.ptrs.getD c.device none = none →
      c.answers.first ≠ .deinitialized
  | .buffer .UseHostPtr _ => s.object.ptrs.getD c.device none = none →
      s.driver.registered = none → BothOrNone c.answers
  | .buffer _ _ => True
  | .image => s.object.arrays.getD c.device none = none → BothOrNone c.answers

/-- What the object has recorded, in the order of its release. -/
def recorded (o : MemObject) (driver : Driver) : List (Option Handle) :=
  match o.kind with
  | .buffer _ true => []
  | .buffer .Classic false | .buffer .CopyIn false => o.ptrs
  | .buffer .UseHostPtr false => [driver.registered]
  | .buffer .AllocHostPtr false => [o.hostPtr]
  | .image => o.arrays ++ o.surfObjs

/-- The driver takes back all that comes before the last, and a pointer that is to be unregistered
was registered. -/
def ReleaseCareful (answer : Handle → CuResult) (o : MemObject) (driver : Driver) : Prop :=
  (∀ h ∈ (recorded o driver).reduceOption.dropLast, ∀ code, answer h ≠ .error code) ∧
    (o.kind = .buffer .UseHostPtr false → driver.registered ≠ none)

/-- A buffer of its own that is made for `n` devices; the host pointer may be registered. -/
def newBuffer (mode : AllocMode) (registered : Bool) (n : Nat) : State :=
  match mode with
  | .AllocHostPtr => ⟨⟨.buffer mode false, List.replicate n none, [], [], some 0⟩,
      { resources := [{ kind := .memory }] }⟩
  | .UseHostPtr => ⟨⟨.buffer mode false, List.replicate n none, [], [], none⟩,
      if registered then { resources := [{ kind := .memory }], registered := some 0 } else {}⟩
  | _ => ⟨⟨.buffer mode false, List.replicate n none, [], [], none⟩, {}⟩

/-- A part of a buffer, which has its pointers into what the buffer was given. -/
def newSubBuffer (mode : AllocMode) (ptrs : List Handle) (given : Nat) : State :=
  ⟨⟨.buffer mode true, ptrs.map some, [], [], none⟩,
    { resources := List.replicate given { kind := .memory, parents := true } }⟩

def newImage (n : Nat) : State :=
  ⟨⟨.image, [], List.replicate n none, List.replicate n none, none⟩, {}⟩

/-- The memory objects that can be made. -/
inductive New : State → Prop where
  | buffer (mode : AllocMode) (registered : Bool) (n : Nat) : New (newBuffer mode registered n)
  | subBuffer (mode : AllocMode) (ptrs : List Handle) (given : Nat)
      (h : ∀ x ∈ ptrs, x < given) : New (newSubBuffer mode ptrs given)
  | image (n : Nat) : New (newImage n)

/-! ## The invariant -/

variable {driver driver' : Driver} {kind : Kind} {held held' : Handle → Nat} {o : MemObject}
  {d : Nat} {a : Answers} {h : Handle}

/-- What is held was given out and not released, and the rest was released once. -/
structure Balanced (driver : Driver) (held : Handle → Nat) : Prop where
  faults : driver.faults = 0
  once : ∀ (h : Handle) (r : Resource), driver.resources[h]? = some r →
    r.released + held h = if r.parents then 0 else 1
  there : ∀ h, driver.resources.length ≤ h → held h = 0

/-- **The invariant**: what is recorded is live, an array together with its surface. -/
structure Sound (s : State) : Prop where
  balanced : Balanced s.driver fun h => (recorded s.object s.driver).count (some h)
  ptrs : ∀ h, some h ∈ s.object.ptrs → s.driver.Live .memory h
  arrays : ∀ h, some h ∈ s.object.arrays → s.driver.Live .array h
  surfObjs : ∀ h, some h ∈ s.object.surfObjs → s.driver.Live .surface h
  both : ∀ d, s.object.arrays.getD d none = none ↔ s.object.surfObjs.getD d none = none
  length : s.object.surfObjs.length = s.object.arrays.length
  hostPtr : s.object.kind = .buffer .AllocHostPtr false →
    ∃ h, s.object.hostPtr = some h ∧ s.driver.Live .memory h
  registered : ∀ h, s.driver.registered = some h → s.driver.Live .memory h
  parent : ∀ mode, s.object.kind = .buffer mode true → none ∉ s.object.ptrs

theorem Driver.Live.give {kind' : Kind} (hlive : driver.Live kind h) :
    (driver.give kind').Live kind h := by
  obtain ⟨r, hr, hrest⟩ := hlive
  refine ⟨r, ?_, hrest⟩
  unfold Driver.give
  rw [List.getElem?_append_left (List.getElem?_eq_some_iff.mp hr).1]
  exact hr

theorem live_next : (driver.give kind).Live kind driver.next :=
  ⟨{ kind := kind }, List.getElem?_concat_length, rfl, rfl⟩

/-- What is given out is held. -/
theorem Balanced.give (hb : Balanced driver held)
    (hheld : ∀ h, held' h = held h + if h = driver.resources.length then 1 else 0) :
    Balanced (driver.give kind) held' := by
  refine ⟨hb.faults, fun h r hr => ?_, fun h hh => ?_⟩
  · unfold Driver.give at hr
    rcases Nat.lt_trichotomy h driver.resources.length with hlt | heq | hgt
    · rw [List.getElem?_append_left hlt] at hr
      rw [hheld, if_neg (Nat.ne_of_lt hlt)]
      exact hb.once h r hr
    · subst heq
      rw [List.getElem?_concat_length] at hr
      obtain rfl := Option.some.inj hr
      rw [hheld, hb.there _ (Nat.le_refl _), if_pos rfl]
      rfl
    · rw [List.getElem?_eq_none (by rw [List.length_append]; exact hgt)] at hr
      cases hr
  · have hlength : driver.resources.length + 1 ≤ h := by
      unfold Driver.give at hh
      rw [List.length_append] at hh
      exact hh
    rw [hheld, hb.there h (Nat.le_of_succ_le hlength), if_neg (Nat.ne_of_gt hlength)]

/-- A list with a handle where there was none. -/
theorem count_set_none (xs : List (Option Handle)) {n : Handle} (hd : d < xs.length)
    (hnone : xs.getD d none = none) :
    (xs.set d (some n)).count (some h) = xs.count (some h) + if h = n then 1 else 0 := by
  have hget : xs[d] = none := by
    rw [List.getD_eq_getElem?_getD, List.getElem?_eq_getElem hd] at hnone
    exact hnone
  rw [List.count_set hd, hget]
  by_cases hn : h = n
  · subst hn
    simp
  · simp [hn, Ne.symm hn]

theorem mem_of_getD {xs : List (Option Handle)} (hget : xs.getD d none = some h) :
    some h ∈ xs := by
  rw [List.getD_eq_getElem?_getD] at hget
  cases hx : xs[d]? with
  | none =>
    rw [hx] at hget
    cases hget
  | some x =>
    rw [hx] at hget
    exact hget ▸ List.mem_of_getElem? hx

theorem getD_set {xs : List (Option Handle)} {x : Option Handle} {d' : Nat} (hd : d < xs.length) :
    (xs.set d x).getD d' none = if d' = d then x else xs.getD d' none := by
  rw [List.getD_eq_getElem?_getD, List.getD_eq_getElem?_getD]
  by_cases heq : d' = d
  · subst heq
    rw [List.getElem?_set_self hd, if_pos rfl, Option.getD_some]
  · rw [List.getElem?_set_ne (Ne.symm heq), if_neg heq]

/-- The list of the live handles, with one more. -/
theorem live_set {xs : List (Option Handle)} {x : Option Handle}
    (hxs : ∀ h, some h ∈ xs → driver.Live kind h) (hx : ∀ h, x = some h → driver.Live kind h) :
    ∀ h, some h ∈ xs.set d x → driver.Live kind h := by
  intro h hmem
  rcases List.mem_or_eq_of_mem_set hmem with hold | hnew
  · exact hxs h hold
  · exact hx h hnew.symm

/-! ## Requests -/

/-- What a request comes to: nothing has happened, or the handle is there. -/
inductive Settled (s : State) (d : Nat) : Except Nat Unit × MemObject × Driver → Prop where
  | failed (code : Nat) : Settled s d (.error code, s.object, s.driver)
  | there (s' : State) (hsound : Sound s') (hkind : s'.object.kind = s.object.kind)
      (hptr : ∀ mode parent, s.object.kind = .buffer mode parent →
        s'.object.ptrs.getD d none ≠ none)
      (himage : s.object.kind = .image → s'.object.arrays.getD d none ≠ none) :
      Settled s d (.ok (), s'.object, s'.driver)

variable {s : State}

/-- A buffer gets a pointer for a device. -/
theorem Settled.pointer {mode : AllocMode} {x : Handle} (hs : Sound s)
    (hkind : s.object.kind = .buffer mode false) (hd : d < s.object.ptrs.length)
    (hlive : ∀ {kind h}, s.driver.Live kind h → driver'.Live kind h)
    (hx : driver'.Live .memory x)
    (hregistered : ∀ h, driver'.registered = some h → driver'.Live .memory h)
    (hbalanced : Balanced driver' fun h => (recorded
      { s.object with ptrs := s.object.ptrs.set d (some x) } driver').count (some h)) :
    Settled s d (.ok (), { s.object with ptrs := s.object.ptrs.set d (some x) }, driver') := by
  refine Settled.there (s := s)
    ⟨{ s.object with ptrs := s.object.ptrs.set d (some x) }, driver'⟩
    { balanced := hbalanced
      ptrs := live_set (fun h hh => hlive (hs.ptrs h hh)) fun h hh => Option.some.inj hh ▸ hx
      arrays := fun h hh => hlive (hs.arrays h hh)
      surfObjs := fun h hh => hlive (hs.surfObjs h hh)
      both := hs.both
      length := hs.length
      hostPtr := fun hmode => ?_
      registered := hregistered
      parent := fun _ hp => (nomatch hkind.symm.trans hp) }
    rfl (fun _ _ _ => ?_) fun himage => nomatch hkind.symm.trans himage
  · obtain ⟨h, hhost, hh⟩ := hs.hostPtr hmode
    exact ⟨h, hhost, hlive hh⟩
  · rw [getD_set hd, if_pos rfl]
    nofun

/-- **The buffers.** -/
theorem allocateBuffer_settled {mode : AllocMode} {parent : Bool} (hs : Sound s)
    (hkind : s.object.kind = .buffer mode parent) (hd : d < s.object.ptrs.length)
    (hcareful : Careful s ⟨.memory, d, a⟩) (hactive : ∀ code, a.active ≠ .error code) :
    Settled s d (allocateBuffer mode s.object d a s.driver) := by
  unfold allocateBuffer
  replace hcareful := hcareful hactive
  cases hptr : s.object.ptrs.getD d none with
  | some h =>
    refine Settled.there s hs rfl (fun _ _ _ => ?_) fun himage => nomatch hkind.symm.trans himage
    rw [hptr]
    nofun
  | none =>
    -- a part of a buffer has all its pointers
    obtain rfl : parent = false := by
      cases parent with
      | false => rfl
      | true =>
        refine absurd ?_ (hs.parent mode hkind)
        rw [List.getD_eq_getElem?_getD, List.getElem?_eq_getElem hd] at hptr
        exact hptr ▸ List.getElem_mem hd
    have hb := hs.balanced
    unfold recorded at hb
    rw [hkind] at hb hcareful
    cases mode with
    | AllocHostPtr =>
      obtain ⟨host, hhost, hlive⟩ := hs.hostPtr hkind
      cases hfirst : a.first with
      | error code => exact Settled.failed code
      | deinitialized => exact absurd hfirst (hcareful hptr)
      | success =>
        have hsettled := Settled.pointer hs hkind hd id hlive hs.registered
          (by unfold recorded; rw [hkind]; exact hb)
        rw [← hhost] at hsettled
        exact hsettled
    | UseHostPtr =>
      unfold Driver.hostRegister
      cases hregistered : s.driver.registered with
      | some h => exact Settled.failed 712
      | none =>
        have hboth := hcareful hptr hregistered
        unfold BothOrNone at hboth
        cases hfirst : a.first with
        | error code => exact Settled.failed code
        | deinitialized =>
          rw [hfirst] at hboth
          cases hsecond : a.second with
          | error code => exact Settled.failed code
          | success | deinitialized =>
            rw [hsecond] at hboth
            exact hboth.elim
        | success =>
          rw [hfirst] at hboth
          cases hsecond : a.second with
          | error code | deinitialized =>
            rw [hsecond] at hboth
            exact hboth.elim
          | success =>
            refine Settled.pointer hs hkind hd (fun hl => hl.give) live_next
              (fun h hh => Option.some.inj hh ▸ live_next) ?_
            rw [hregistered] at hb
            have hgiven : Balanced (s.driver.give .memory) _ := hb.give fun h =>
              count_set_none [none] Nat.zero_lt_one rfl
            unfold recorded
            rw [hkind]
            exact ⟨hgiven.faults, hgiven.once, hgiven.there⟩
    | Classic | CopyIn =>
      dsimp only
      split
      · refine Settled.pointer hs hkind hd (fun hl => hl.give) live_next
          (fun h hh => (hs.registered h hh).give) (hs.balanced.give fun h => ?_)
        unfold recorded
        rw [hkind]
        exact count_set_none _ hd hptr
      · exact Settled.failed outOfMemory

/-- **The images.** -/
theorem allocateImage_settled (hs : Sound s) (hkind : s.object.kind = .image)
    (hd : d < s.object.arrays.length)
    (hcareful : s.object.arrays.getD d none = none → BothOrNone a) :
    Settled s d (allocateImage s.object d a s.driver) := by
  have hbuffer : ∀ mode parent {s' : State}, s.object.kind = .buffer mode parent →
      s'.object.ptrs.getD d none ≠ none :=
    fun _ _ _ hp => nomatch hkind.symm.trans hp
  unfold allocateImage
  cases harray : s.object.arrays.getD d none with
  | some h =>
    refine Settled.there s hs rfl (fun _ _ hp => hbuffer _ _ hp) fun _ => ?_
    rw [harray]
    nofun
  | none =>
    have hboth := hcareful harray
    unfold BothOrNone at hboth
    cases hfirst : a.first with
    | error code => exact Settled.failed code
    | deinitialized =>
      rw [hfirst] at hboth
      cases hsecond : a.second with
      | success | deinitialized =>
        rw [hsecond] at hboth
        exact hboth.elim
      | error code =>
        -- null is written over null
        have hsame : s.object.arrays.set d none = s.object.arrays := by
          rw [List.getD_eq_getElem?_getD, List.getElem?_eq_getElem hd] at harray
          exact harray ▸ List.set_getElem_self hd
        rw [hsame]
        unfold createSurface
        rw [hsecond]
        exact Settled.failed code
    | success =>
      rw [hfirst] at hboth
      cases hsecond : a.second with
      | error code | deinitialized =>
        rw [hsecond] at hboth
        exact hboth.elim
      | success =>
        have hd' : d < s.object.surfObjs.length := by rw [hs.length]; exact hd
        have hsurf := (hs.both d).mp harray
        unfold createSurface
        rw [hsecond]
        refine Settled.there (s := s) ⟨{ s.object with
              arrays := s.object.arrays.set d (some s.driver.next)
              surfObjs := s.object.surfObjs.set d (some (s.driver.give .array).next) },
            (s.driver.give .array).give .surface⟩
          { balanced := ?_
            ptrs := fun h hh => ((hs.ptrs h hh).give).give
            arrays := live_set (fun h hh => ((hs.arrays h hh).give).give)
              fun h hh => Option.some.inj hh ▸ live_next.give
            surfObjs := live_set (fun h hh => ((hs.surfObjs h hh).give).give)
              fun h hh => Option.some.inj hh ▸ live_next
            both := fun d' => ?_
            length := by rw [List.length_set, List.length_set]; exact hs.length
            hostPtr := fun hp => (nomatch hkind.symm.trans hp)
            registered := fun h hh => ((hs.registered h hh).give).give
            parent := fun _ hp => (nomatch hkind.symm.trans hp) }
          rfl (fun _ _ hp => hbuffer _ _ hp) fun _ => ?_
        · have hgiven : Balanced (s.driver.give .array) (fun h =>
              (s.object.arrays.set d (some s.driver.next) ++ s.object.surfObjs).count (some h)) := by
            refine hs.balanced.give fun h => ?_
            unfold recorded
            rw [hkind]
            rw [List.count_append, List.count_append, count_set_none _ hd harray]
            exact Nat.add_right_comm _ _ _
          refine hgiven.give fun h => ?_
          · unfold recorded
            rw [hkind]
            rw [List.count_append, List.count_append, count_set_none _ hd' hsurf]
            exact (Nat.add_assoc _ _ _).symm
        · rw [getD_set hd, getD_set hd']
          split
          · exact iff_of_false nofun nofun
          · exact hs.both d'
        · rw [getD_set hd, if_pos rfl]
          nofun

/-- **One request.** -/
theorem getOn_right {c : Call} (hs : Sound s) (hallowed : Allowed s c) (hcareful : Careful s c) :
    CallRight s c ∧ Sound (s.call c).2 := by
  have hsettled : Settled s c.device
      (allocateMemObjOnDeviceIfNeeded s.object c.device c.answers s.driver) := by
    unfold allocateMemObjOnDeviceIfNeeded
    unfold Allowed at hallowed
    cases hactive : c.answers.active with
    | error code => exact Settled.failed code
    | success | deinitialized =>
      have hnot : ∀ code, c.answers.active ≠ .error code := by
        rw [hactive]
        nofun
      cases hkind : s.object.kind with
      | buffer mode parent =>
        rw [hkind] at hallowed
        exact allocateBuffer_settled hs hkind hallowed.2 hcareful hnot
      | image =>
        rw [hkind] at hallowed
        replace hcareful := hcareful hnot
        rw [hkind] at hcareful
        exact allocateImage_settled hs hkind hallowed.2 hcareful
  have honce : ∀ {s' : State}, Sound s' → s'.driver.faults = 0 ∧
      ∀ (h : Handle) (r : Resource), s'.driver.resources[h]? = some r →
        r.released ≤ if r.parents then 0 else 1 :=
    fun hs' => ⟨hs'.balanced.faults, fun h r hr => (hs'.balanced.once h r hr) ▸ Nat.le_add_right ..⟩
  generalize hresult : allocateMemObjOnDeviceIfNeeded s.object c.device c.answers s.driver = result
    at hsettled
  -- a request that fails changes nothing
  cases hsettled with
  | failed code =>
    have hcall : s.call c = (.error code, s) := by
      unfold State.call getOn
      rw [hresult]
    rw [hcall]
    refine ⟨⟨?_, ?_, ?_⟩, hs⟩
    · rw [hcall]; nofun
    · rw [hcall]
      exact fun _ _ => ⟨rfl, fun _ _ => Iff.rfl⟩
    · rw [hcall]
      exact honce hs
  | there s' hs' hkind' hptr himage =>
    obtain ⟨h, hcall, hlive⟩ : ∃ h, s.call c = (.ok (some h), s') ∧ s'.driver.Live c.kind h := by
      unfold State.call getOn
      rw [hresult]
      unfold Allowed at hallowed
      cases hkind : s.object.kind with
      | buffer mode parent =>
        rw [hkind] at hallowed
        obtain ⟨h, hh⟩ := Option.ne_none_iff_exists'.mp (hptr mode parent hkind)
        rw [hallowed.1]
        exact ⟨h, congrArg (fun x => (Except.ok x, s')) hh, hs'.ptrs h (mem_of_getD hh)⟩
      | image =>
        rw [hkind] at hallowed
        have harray := himage hkind
        cases hk : c.kind with
        | memory => exact absurd hk hallowed.1
        | array =>
          obtain ⟨h, hh⟩ := Option.ne_none_iff_exists'.mp harray
          exact ⟨h, congrArg (fun x => (Except.ok x, s')) hh, hs'.arrays h (mem_of_getD hh)⟩
        | surface =>
          obtain ⟨h, hh⟩ := Option.ne_none_iff_exists'.mp
            fun hnone => harray ((hs'.both c.device).mpr hnone)
          exact ⟨h, congrArg (fun x => (Except.ok x, s')) hh, hs'.surfObjs h (mem_of_getD hh)⟩
    rw [hcall]
    refine ⟨⟨?_, ?_, ?_⟩, hs'⟩
    · rw [hcall]
      exact fun r hr => ⟨h, (Except.ok.inj hr).symm, hlive⟩
    · rw [hcall]; nofun
    · rw [hcall]
      exact honce hs'

/-! ## The release -/

variable {answer : Handle → CuResult}

/-- The driver takes back all but maybe the last, which is asked for all the same. -/
theorem releaseEach_all : ∀ (xs : List (Option Handle)) {driver : Driver},
    (∀ h ∈ xs.reduceOption.dropLast, ∀ code, answer h ≠ .error code) →
      (releaseEach answer xs driver).2 = xs.reduceOption.foldl Driver.release driver
  | [], _, _ => rfl
  | none :: rest, driver, h => releaseEach_all rest h
  | some x :: rest, driver, h => by
    rw [List.reduceOption_cons_of_some] at h ⊢
    rw [releaseEach]
    have hrest : ∀ h' ∈ rest.reduceOption.dropLast, ∀ code, answer h' ≠ .error code := by
      intro h' hmem
      cases hnil : rest.reduceOption with
      | nil =>
        rw [hnil] at hmem
        exact absurd hmem List.not_mem_nil
      | cons y ys =>
        rw [hnil] at h hmem
        exact h h' (List.mem_cons_of_mem x hmem)
    cases hx : answer x with
    | success | deinitialized => exact releaseEach_all rest hrest
    | error code =>
      -- the driver may refuse the last only
      cases hnil : rest.reduceOption with
      | nil => rfl
      | cons y ys =>
        rw [hnil] at h
        exact absurd hx (h x List.mem_cons_self code)

theorem releaseEach_append : ∀ (xs ys : List (Option Handle)) (driver : Driver),
    releaseEach answer (xs ++ ys) driver =
      match releaseEach answer xs driver with
      | (.error code, driver') => (.error code, driver')
      | (.ok _, driver') => releaseEach answer ys driver'
  | [], _, _ => rfl
  | none :: xs, ys, driver => releaseEach_append xs ys driver
  | some x :: xs, ys, driver => by
    rw [List.cons_append, releaseEach, releaseEach]
    cases answer x with
    | error code => rfl
    | success | deinitialized => exact releaseEach_append xs ys (driver.release x)

theorem count_reduceOption : ∀ (xs : List (Option Handle)) (h : Handle),
    xs.reduceOption.count h = xs.count (some h)
  | [], _ => rfl
  | none :: rest, h => by
    rw [List.reduceOption_cons_of_none, count_reduceOption]
    exact (Nat.add_zero _).symm
  | some x :: rest, h => by
    rw [List.reduceOption_cons_of_some, List.count_cons, List.count_cons, count_reduceOption]
    simp

/-- What many releases do to each. -/
theorem release_all : ∀ (hs : List Handle) (driver : Driver),
    (∀ h ∈ hs, h < driver.resources.length) →
      (hs.foldl Driver.release driver).faults = driver.faults ∧
        ∀ h : Handle, (hs.foldl Driver.release driver).resources[h]? =
          (driver.resources[h]?).map fun r => { r with released := r.released + hs.count h }
  | [], _, _ => ⟨rfl, fun _ => Option.map_id'.symm⟩
  | x :: hs, driver, hthere => by
    have hrelease : driver.release x = { driver with resources := driver.resources.modify x fun r =>
        { r with released := r.released + 1 } } := if_pos (hthere x List.mem_cons_self)
    obtain ⟨hfaults, hall⟩ := release_all hs (driver.release x) fun h hh => by
      rw [hrelease, List.length_modify]
      exact hthere h (List.mem_cons_of_mem x hh)
    rw [List.foldl_cons]
    refine ⟨hfaults.trans (by rw [hrelease]), fun h => ?_⟩
    rw [hall, hrelease, List.getElem?_modify]
    cases driver.resources[h]? with
    | none => rfl
    | some r =>
      refine congrArg some ?_
      by_cases hx : x = h
      · subst hx
        simp [Nat.add_comm, Nat.add_left_comm]
      · simp [hx]

/-- **The release.** -/
theorem clear_right {o : MemObject}
    (hb : Balanced driver fun h => (recorded o driver).count (some h))
    (hcareful : ReleaseCareful answer o driver) : ReleaseRight (clear answer o driver) := by
  obtain ⟨hanswers, hregistered⟩ := hcareful
  have hclear : (clear answer o driver).faults =
      ((recorded o driver).reduceOption.foldl Driver.release driver).faults ∧
      (clear answer o driver).resources =
        ((recorded o driver).reduceOption.foldl Driver.release driver).resources := by
    unfold recorded at hanswers ⊢
    unfold clear
    cases hkind : o.kind with
    | image =>
      rw [hkind] at hanswers
      rw [← releaseEach_all _ hanswers, releaseEach_append]
      rcases releaseEach answer o.arrays driver with ⟨_ | _, driver'⟩ <;> exact ⟨rfl, rfl⟩
    | buffer mode parent =>
      rw [hkind] at hanswers hregistered
      cases parent with
      | true => cases mode <;> exact ⟨rfl, rfl⟩
      | false =>
        cases mode with
        | Classic | CopyIn | AllocHostPtr =>
          rw [← releaseEach_all _ hanswers]
          exact ⟨rfl, rfl⟩
        | UseHostPtr =>
          obtain ⟨h, hh⟩ := Option.ne_none_iff_exists'.mp (hregistered rfl)
          unfold Driver.hostUnregister
          rw [hh]
          exact ⟨rfl, rfl⟩
  obtain ⟨hfaults, hall⟩ := release_all (recorded o driver).reduceOption driver
    fun h hh => by
      refine Nat.lt_of_not_le fun hle => ?_
      have hcount := List.count_pos_iff.mpr hh
      rw [count_reduceOption, hb.there h hle] at hcount
      exact Nat.lt_irrefl 0 hcount
  refine ⟨hclear.1.trans (hfaults.trans hb.faults), fun h r hr => ?_⟩
  rw [hclear.2, hall] at hr
  obtain ⟨old, hold, rfl⟩ := Option.map_eq_some_iff.mp hr
  rw [← hb.once h old hold, count_reduceOption]

/-! ## Runs -/

theorem none_of_replicate {n : Nat} :
    ∀ x, some x ∈ List.replicate n none → driver.Live kind x :=
  fun _ hh => nomatch List.eq_of_mem_replicate hh

theorem balanced_nothing : Balanced {} fun h => (List.replicate d none).count (some h) :=
  ⟨rfl, nofun, fun _ _ => List.count_eq_zero.mpr fun hh => nomatch List.eq_of_mem_replicate hh⟩

theorem balanced_one : Balanced ((Driver.give {} .memory)) fun h => [some 0].count (some h) :=
  Balanced.give ⟨rfl, nofun, fun _ _ => rfl⟩
    fun _ => count_set_none [none] (d := 0) Nat.zero_lt_one rfl

/-- What is made for a buffer of its own, and for an image. -/
theorem New.sound (hnew : New s) : Sound s := by
  cases hnew with
  | buffer mode registered n =>
    have hboth : ∀ d, ([] : List (Option Handle)).getD d none = none ↔
        ([] : List (Option Handle)).getD d none = none := fun _ => Iff.rfl
    have hlive : ((Driver.give {} .memory)).Live .memory 0 := live_next
    cases mode with
    | AllocHostPtr =>
      exact ⟨balanced_one, none_of_replicate, nofun, nofun, hboth, rfl,
        fun _ => ⟨0, rfl, hlive⟩, nofun, nofun⟩
    | UseHostPtr =>
      cases registered with
      | true =>
        exact ⟨⟨rfl, balanced_one.once, balanced_one.there⟩, none_of_replicate, nofun, nofun, hboth,
          rfl, nofun, fun h hh => Option.some.inj hh ▸ hlive, nofun⟩
      | false =>
        exact ⟨⟨rfl, nofun, fun _ _ => rfl⟩, none_of_replicate, nofun, nofun, hboth, rfl, nofun,
          nofun, nofun⟩
    | Classic | CopyIn =>
      exact ⟨balanced_nothing, none_of_replicate, nofun, nofun, hboth, rfl, nofun, nofun, nofun⟩
  | subBuffer mode ptrs given hptrs =>
    refine ⟨⟨rfl, fun h r hr => ?_, fun _ _ => rfl⟩, fun h hh => ?_, nofun, nofun,
      fun _ => Iff.rfl, rfl, nofun, nofun, fun _ _ hnone => ?_⟩
    · have hparents : r = { kind := .memory, parents := true } :=
        List.eq_of_mem_replicate (List.mem_of_getElem? hr)
      rw [hparents]
      rfl
    · obtain ⟨x, hx, hsome⟩ := List.mem_map.mp hh
      obtain rfl := Option.some.inj hsome
      exact ⟨_, List.getElem?_replicate_of_lt (hptrs x hx), rfl, rfl⟩
    · obtain ⟨x, hx, hsome⟩ := List.mem_map.mp hnone
      cases hsome
  | image n =>
    refine ⟨?_, nofun, none_of_replicate, none_of_replicate, fun _ => Iff.rfl, rfl, nofun, nofun,
      nofun⟩
    have hb := balanced_nothing (d := n + n)
    rw [List.replicate_add] at hb
    exact hb

/-- **Lazy allocation is all or nothing** in every run that meets no defect, and its release takes
back what there is. -/
theorem allocation_all_or_nothing (s : State) (calls : List Call) (answer : Handle → CuResult)
    (hnew : New s)
    (h : Along (fun s c => (s.call c).2) (fun s c => Allowed s c ∧ Careful s c) s calls)
    (hrelease : ReleaseCareful answer (calls.foldl (fun s c => (s.call c).2) s).object
      (calls.foldl (fun s c => (s.call c).2) s).driver) :
    Along (fun s c => (s.call c).2) CallRight s calls ∧
      ReleaseRight (clear answer (calls.foldl (fun s c => (s.call c).2) s).object
        (calls.foldl (fun s c => (s.call c).2) s).driver) := by
  have hstep : ∀ s c, Sound s → Allowed s c ∧ Careful s c → Sound (s.call c).2 :=
    fun s c hs hc => (getOn_right hs hc.1 hc.2).2
  have hinv := Along.invariant hstep hnew.sound h
  refine ⟨Along.mono ?_ (h.and hinv.1), clear_right hinv.2.balanced hrelease⟩
  intro s c hc
  exact (getOn_right hc.2 hc.1.1 hc.1.2).1

/-- An image whose array is made, asked for again and released. -/
theorem allocation_image_again :
    Along (fun s c => (s.call c).2) CallRight (newImage 1) [⟨.array, 0, {}⟩, ⟨.surface, 0, {}⟩] ∧
      ReleaseRight (clear (fun _ => .success)
        ([(⟨.array, 0, {}⟩ : Call), ⟨.surface, 0, {}⟩].foldl (fun s c => (s.call c).2)
          (newImage 1)).object
        ([(⟨.array, 0, {}⟩ : Call), ⟨.surface, 0, {}⟩].foldl (fun s c => (s.call c).2)
          (newImage 1)).driver) :=
  allocation_all_or_nothing (newImage 1) [⟨.array, 0, {}⟩, ⟨.surface, 0, {}⟩] (fun _ => .success)
    (.image 1) ⟨⟨⟨nofun, Nat.zero_lt_one⟩, fun _ _ => trivial⟩,
      ⟨⟨nofun, Nat.zero_lt_one⟩, fun _ _ => trivial⟩, trivial⟩
    ⟨fun _ _ _ => nofun, nofun⟩

/-- The surface fails: the array is destroyed, and returned at the next request. -/
theorem destroyed_array_returned : ¬ ∀ (s : State) (calls : List Call), New s →
    Along (fun s c => (s.call c).2) Allowed s calls →
      Along (fun s c => (s.call c).2) CallRight s calls := by
  intro h
  have hright := h (newImage 1) [⟨.array, 0, { second := .error 2 }⟩, ⟨.array, 0, {}⟩] (.image 1)
    ⟨⟨nofun, Nat.zero_lt_one⟩, ⟨nofun, Nat.zero_lt_one⟩, trivial⟩
  obtain ⟨x, hx, r, hr, -, hreleased⟩ := hright.2.1.success _ rfl
  obtain rfl := Option.some.inj hx
  obtain rfl := Option.some.inj hr
  exact absurd hreleased (by decide)

end UnifiedRuntime.Cuda.LazyAllocation
