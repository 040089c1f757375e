import UnifiedRuntime.Buffers.Coherence

/-!
# What the commands keep

For each step of a command, the condition under which it keeps the memory
`Coherent`, reads the latest writes (`Faithful`) and stays within the regions:
a migration copies only through a handle of the whole buffer and from where the
contents are; bytes are read on a current device; bytes are written on a current
device that is alone.
-/

namespace UnifiedRuntime.Buffers

open Function (update update_of_ne update_self)
open Streams (Adapter)

namespace World

variable {w w' w'' : World} {h r d q : Nat} {a : Adapter}

/-! ## Conditions -/

/-- The handle's region is the whole buffer. -/
def Whole (w : World) (h : Nat) : Prop :=
  (w.mems h).offset = 0 ∧ (w.mems h).region = (w.mems h).size

/-- The bytes lie in the handle's region. -/
def InRegion (w : World) (h : Nat) (offsets : List Nat) : Prop :=
  ∀ o ∈ offsets, (w.mems h).Within o

/-- A copy that a migration makes is of the whole buffer, from where its contents
are. -/
def SourceSafe (w : World) (h d : Nat) : Option Nat → Prop
  | none => (w.mems h).hostPtr = true → w.Whole h ∧ ((w.mems h).pinned = true ∨
      w.Unwritten (w.mems h).root ∧
        ∀ i, i < (w.mems h).size → w.host (w.mems h).root i = w.initial (w.mems h).root i)
  | some q => w.device q = d ∨ w.Whole h ∧ w.Current (w.mems h).root (w.device q)

/-- The migration of a handle to a device copies nothing, or makes a safe copy. -/
def MigrateSafe (w : World) (h d : Nat) : Prop :=
  (w.mems h).migrated d = true ∨ w.SourceSafe h d (w.mems h).lastQueue

/-- Bytes are read on a device that is current. -/
def ReadSafe (w : World) (h d : Nat) (offsets : List Nat) : Prop :=
  w.InRegion h offsets ∧ w.Current (w.mems h).root d

/-- Bytes are written on a device that is current, or the whole buffer is. -/
def WriteSafe (w : World) (h d : Nat) (offsets : List Nat) : Prop :=
  w.InRegion h offsets ∧ (w.Current (w.mems h).root d ∨
    ∀ i, i < (w.mems h).size → ∃ o ∈ offsets, wrap ((w.mems h).offset + o) = i)

/-! ## What has been read -/

/-- Every byte that has been written was read as it was written last. -/
def Faithful (w : World) : Prop := ∀ p ∈ w.observed, ∀ v, p.2 = some v → p.1 = v

/-- Nothing was read and no stray byte touched. -/
structure Quiet (w w' : World) : Prop where
  observed : w'.observed = w.observed
  strays : w'.strays = w.strays
  pending : w'.pending = w.pending
  missed : w'.missed = w.missed

namespace Quiet

theorem refl (w : World) : Quiet w w := ⟨rfl, rfl, rfl, rfl⟩

theorem trans (h₁ : Quiet w w') (h₂ : Quiet w' w'') : Quiet w w'' :=
  ⟨h₂.observed.trans h₁.observed, h₂.strays.trans h₁.strays, h₂.pending.trans h₁.pending,
    h₂.missed.trans h₁.missed⟩

/-- Where nothing is read, what was read so far stays right. -/
theorem faithful (hq : Quiet w w') (hf : w.Faithful) : w'.Faithful := by
  intro p hp
  rw [hq.observed] at hp
  exact hf p hp

end Quiet

theorem device_lt (w : World) (q : Nat) : w.device q < w.context.devices := w.context.device_lt q

/-- Accesses inside the handle's region are no strays. -/
theorem touch_strays {offsets : List Nat} (hin : w.InRegion h offsets) :
    (w.touch h offsets).strays = w.strays := by
  show w.strays + _ = _
  rw [List.filter_eq_nil_iff.mpr fun o ho => by simpa using hin o ho]
  rfl

theorem quiet_poke (cs : List (Nat × Byte)) (hin : w.InRegion h (cs.map (·.1))) :
    Quiet w (w.poke h d cs) := ⟨rfl, touch_strays hin, rfl, rfl⟩

theorem quiet_setLastQueue (a : Adapter) (w : World) (h q : Nat) :
    Quiet w (setLastQueueWritingToMemObj a w h q) := by
  obtain ⟨refs, heq⟩ := setLastQueue_eq a w h q
  rw [heq]
  exact ⟨rfl, rfl, rfl, rfl⟩

/-! ## Migration -/

/-- Only the handle's flag for the device and the device's allocation change. -/
theorem coherentAt_migrated (hs : SameHandles h w w') (hok : w.MemOk h)
    (hflags : w'.mems h = { w.mems h with migrated := update (w.mems h).migrated d true })
    (hlat : w'.latest = w.latest) (hini : w'.initial = w.initial)
    (hmem : ∀ p, p ≠ (w.mems h).place d →
      w'.memory (w.mems h).root p = w.memory (w.mems h).root p)
    (hat : w'.Current (w.mems h).root d → w'.Holding (w.mems h).root d)
    (hco : w.CoherentAt (w.mems h).root) : w'.CoherentAt (w.mems h).root := by
  have hpin : (w'.mems (w.mems h).root).pinned = (w.mems h).pinned := by
    rw [hs.pinned_eq, hok.root_pinned]
  refine ⟨fun d' hd' hcur => ?_, fun hdev hp hun => ?_⟩
  · by_cases hp : (w.mems h).pinned = true
    · have hhold := hat (.inl (hpin.trans hp))
      unfold Holding Mem.place at hhold ⊢
      rw [hpin, hp] at hhold ⊢
      exact hhold
    by_cases heq : d' = d
    · subst heq
      exact hat hcur
    have hcur' : w.Current (w.mems h).root d' := by
      rcases hcur with hp' | hall
      · rw [hpin] at hp'
        exact absurd hp' hp
      · refine .inr fun h' hlt hroot => ?_
        have := hall h' (hs.count ▸ hlt) ((hs.root_eq h').trans hroot)
        by_cases hh' : h' = h
        · subst hh'
          rw [hflags] at this
          rcases this with hn | hm
          · exact .inl hn
          · right
            simp only [update_of_ne heq] at hm
            exact hm
        · rwa [hs.others h' hh'] at this
    have hhold := hco.current d' (hs.context ▸ hd') hcur'
    unfold Holding at hhold ⊢
    rw [hs.bytes_eq, hs.place_eq, hlat, hmem]
    · exact hhold
    · unfold Mem.place
      rw [hok.root_pinned, if_neg hp, if_neg hp]
      exact heq
  · rw [hs.bytes_eq, hlat, hini]
    refine hco.initial (hs.context ▸ hdev) ((hs.pinned_eq _).symm.trans hp) fun h' hlt hroot => ?_
    have := hun h' (hs.count ▸ hlt) ((hs.root_eq h').trans hroot)
    by_cases hh' : h' = h
    · subst hh'
      rwa [hflags] at this
    · rwa [hs.others h' hh'] at this

theorem wrap_le (n : Nat) : wrap n ≤ n := Nat.mod_le n _

/-- The copy of a whole buffer replaces every byte of it. -/
theorem copyTo_apply (hw : w.Whole h) (source : Contents) {i : Nat}
    (hi : i < (w.mems h).size) :
    (w.copyTo h d source).memory (w.mems h).root ((w.mems h).place d) i = source i := by
  show update w.memory _ (update _ _ _) _ _ _ = _
  rw [update_self, update_self]
  refine if_pos ?_
  rw [hw.1, Nat.sub_zero, wrap, Nat.add_mod_right]
  exact Nat.lt_of_le_of_lt (wrap_le i) hi

/-- A migration writes to no other device of the buffer. -/
theorem copyTo_others (source : Contents) {p : Nat} (hp : p ≠ (w.mems h).place d) :
    (w.copyTo h d source).memory (w.mems h).root p = w.memory (w.mems h).root p := by
  show update w.memory _ (update _ _ _) _ _ = _
  rw [update_self, update_of_ne hp]

/-- The copy of a whole buffer stays inside its region. -/
theorem quiet_copyTo (hw : w.Whole h) (source : Contents) : Quiet w (w.copyTo h d source) := by
  refine ⟨rfl, touch_strays fun o ho => ?_, rfl, rfl⟩
  have ho := List.mem_range.mp ho
  refine ⟨hw.2 ▸ ho, ?_⟩
  rw [hw.1, Nat.zero_add]
  exact Nat.lt_of_le_of_lt (wrap_le o) ho

/-- What a migration leaves alone. -/
structure Migrated (h d : Nat) (w w' : World) : Prop where
  context : w'.context = w.context
  count : w'.count = w.count
  mems : w'.mems = w.mems
  latest : w'.latest = w.latest
  initial : w'.initial = w.initial
  quiet : Quiet w w'
  others : ∀ r, r ≠ (w.mems h).root → w'.memory r = w.memory r
  places : ∀ p, p ≠ (w.mems h).place d → w'.memory (w.mems h).root p = w.memory (w.mems h).root p

theorem Migrated.refl (h d : Nat) (w : World) : Migrated h d w w :=
  ⟨rfl, rfl, rfl, rfl, rfl, Quiet.refl w, fun _ _ => rfl, fun _ _ => rfl⟩

theorem migrated_copyTo (hw : w.Whole h) (source : Contents) :
    Migrated h d w (w.copyTo h d source) :=
  ⟨rfl, rfl, rfl, rfl, rfl, quiet_copyTo hw source,
    fun _ hr => update_of_ne hr .., fun _ hp => copyTo_others source hp⟩

/-- **After a migration the device holds the contents**, if the handle was all that
kept it from being current. -/
theorem Coherent.migrateBuffer (hco : w.Coherent) (hh : h < w.count) (hd : d < w.context.devices)
    (hdev : 1 < w.context.devices) (hm : (w.mems h).migrated d ≠ true) (hsafe : w.MigrateSafe h d) :
    Migrated h d w (w.enqueueMigrateBufferToDevice h d) ∧
      ((∀ h', h' < w.count → h' ≠ h → (w.mems h').root = (w.mems h).root →
          (w.mems h').Current d) ∨ (w.mems h).pinned = true →
        Holds (w.bytes (w.mems h).root) (w.latest (w.mems h).root)
          ((w.enqueueMigrateBufferToDevice h d).memory (w.mems h).root ((w.mems h).place d))) := by
  have hok := hco.mems h hh
  have hat := hco.buffers _ hok.root_lt hok.root_root
  have hplace : ∀ d', (w.mems (w.mems h).root).place d' = (w.mems h).place d' := by
    intro d'
    unfold Mem.place
    rw [hok.root_pinned]
  have hbytes : ∀ i, i ∈ w.bytes (w.mems h).root → i < (w.mems h).size := by
    intro i hi
    exact hok.root_size ▸ hi
  rcases hsafe with hm' | hsafe
  · exact absurd hm' hm
  unfold enqueueMigrateBufferToDevice
  dsimp only
  -- the source is the host before the first command, and then the device of the last one
  cases hlast : (w.mems h).lastQueue with
  | none =>
    rw [hlast] at hsafe
    by_cases hp : (w.mems h).hostPtr = true
    · rw [if_pos hp]
      obtain ⟨hw, hsrc⟩ := hsafe hp
      refine ⟨migrated_copyTo hw _, fun _ i hi v hv => ?_⟩
      rw [copyTo_apply hw _ (hbytes i hi)]
      rcases hsrc with hpin | ⟨hun, hhost⟩
      · -- pinned memory is copied onto itself
        rw [if_pos hpin]
        have hhold := hat.current d hd (.inl (hok.root_pinned.trans hpin)) i hi v hv
        rw [hplace, Mem.place, if_pos hpin] at hhold
        exact hhold
      · by_cases hpin : (w.mems h).pinned = true
        · rw [if_pos hpin]
          have hhold := hat.current d hd (.inl (hok.root_pinned.trans hpin)) i hi v hv
          rw [hplace, Mem.place, if_pos hpin] at hhold
          exact hhold
        · rw [if_neg hpin, hhost i (hbytes i hi)]
          exact hat.initial hdev (by rw [hok.root_pinned]; simpa using hpin) hun i hi v hv
    · rw [if_neg hp]
      refine ⟨Migrated.refl h d w, fun hcur => ?_⟩
      rw [← hplace]
      refine hat.current d hd ?_
      rcases hcur with hcur | hpin
      · refine .inr fun h' hlt hroot => ?_
        by_cases heq : h' = h
        · subst heq
          exact .inl hlast
        · exact hcur h' hlt heq hroot
      · exact .inl (hok.root_pinned.trans hpin)
  | some q =>
    rw [hlast] at hsafe
    dsimp only
    by_cases hq : w.device q = d
    · exact absurd (hq ▸ hok.writer q hlast) hm
    · rw [if_pos hq]
      rcases hsafe with hq' | ⟨hw, hcur⟩
      · exact absurd hq' hq
      refine ⟨migrated_copyTo hw _, fun _ i hi v hv => ?_⟩
      rw [copyTo_apply hw _ (hbytes i hi)]
      have hhold := hat.current _ (w.device_lt q) hcur i hi v hv
      rw [hplace] at hhold
      exact hhold

/-- **What a migration keeps.** -/
theorem Coherent.migrate (hco : w.Coherent) (hh : h < w.count) (hd : d < w.context.devices)
    (hdev : 1 < w.context.devices) (hsafe : w.MigrateSafe h d) :
    (w.enqueueMigrateMemoryToDeviceIfNeeded h d).Coherent ∧
      SameHandles h w (w.enqueueMigrateMemoryToDeviceIfNeeded h d) ∧
      Quiet w (w.enqueueMigrateMemoryToDeviceIfNeeded h d) := by
  unfold enqueueMigrateMemoryToDeviceIfNeeded
  split
  next => exact ⟨hco, .of_mems rfl rfl rfl, Quiet.refl w⟩
  next hm =>
    have hok := hco.mems h hh
    obtain ⟨hmig, hhold⟩ := hco.migrateBuffer hh hd hdev hm hsafe
    generalize w.enqueueMigrateBufferToDevice h d = w₁ at hmig hhold
    dsimp only
    rw [hmig.mems]
    have hs : SameHandles h w (w₁.setMem h
        { w.mems h with migrated := update (w.mems h).migrated d true }) := by
      refine sameHandles_setMem (m := { w.mems h with
        migrated := update (w.mems h).migrated d true }) rfl rfl rfl rfl rfl
        hmig.context hmig.count ?_
      show update w₁.mems h _ = _
      rw [hmig.mems]
    have hflags : (w₁.setMem h { w.mems h with
        migrated := update (w.mems h).migrated d true }).mems h =
        { w.mems h with migrated := update (w.mems h).migrated d true } :=
      update_self ..
    refine ⟨⟨fun h' hlt => hs.memOk (hco.mems h' (hs.count ▸ hlt)) fun _ q hq => ?_,
      fun r hlt hroot => ?_⟩, hs, hmig.quiet.trans ⟨rfl, rfl, rfl, rfl⟩⟩
    · rw [hflags] at hq ⊢
      by_cases hq' : w.device q = d
      · simp [hq']
      · simp only [update_of_ne hq']
        exact hok.writer q hq
    · rw [hs.count] at hlt
      rw [hs.root_eq] at hroot
      by_cases hr : (w.mems h).root = r
      · subst hr
        refine coherentAt_migrated hs hok hflags hmig.latest hmig.initial hmig.places
          (fun hcur => ?_) (hco.buffers _ hlt hroot)
        unfold Holding
        rw [hs.bytes_eq, hs.place_eq]
        show Holds _ (w₁.latest _) (w₁.memory _ _)
        rw [hmig.latest, Mem.place, hok.root_pinned]
        refine hhold ?_
        rcases hcur with hp | hall
        · rw [hs.pinned_eq, hok.root_pinned] at hp
          exact .inr hp
        · refine .inl fun h' hlt' hne hroot' => ?_
          have := hall h' (by rw [hs.count]; exact hlt') (by rw [hs.root_eq]; exact hroot')
          rwa [hs.others h' hne] at this
      · refine hs.coherentAt hr ?_ ?_ ?_ (hco.buffers r hlt hroot)
        · exact hmig.others r (Ne.symm hr)
        · exact congrFun hmig.latest r
        · exact congrFun hmig.initial r

/-! ## Reading and writing -/

/-- What holds in every state of a run. -/
structure Good (w : World) : Prop where
  coherent : w.Coherent
  faithful : w.Faithful
  strays : w.strays = 0

/-- The handles are the same. -/
structure SameMems (w w' : World) : Prop where
  context : w'.context = w.context
  count : w'.count = w.count
  mems : w'.mems = w.mems

namespace SameMems

theorem refl (w : World) : SameMems w w := ⟨rfl, rfl, rfl⟩

theorem trans (h₁ : SameMems w w') (h₂ : SameMems w' w'') : SameMems w w'' :=
  ⟨h₂.context.trans h₁.context, h₂.count.trans h₁.count, h₂.mems.trans h₁.mems⟩

theorem current (hs : SameMems w w') (r d : Nat) : w'.Current r d ↔ w.Current r d := by
  unfold Current
  rw [hs.mems, hs.count]

theorem alone (hs : SameMems w w') (ha : w.Alone r d) : w'.Alone r d := by
  unfold Alone at ha ⊢
  rw [hs.mems, hs.context]
  simpa only [hs.current] using ha

/-- Conditions on the handles survive whatever leaves the handles alone. -/
theorem readSafe (hs : SameMems w w') {offsets : List Nat} (hr : w.ReadSafe h d offsets) :
    w'.ReadSafe h d offsets := by
  unfold ReadSafe InRegion at hr ⊢
  rw [hs.mems, hs.current]
  exact hr

theorem writeSafe (hs : SameMems w w') {offsets : List Nat} (hr : w.WriteSafe h d offsets) :
    w'.WriteSafe h d offsets := by
  unfold WriteSafe InRegion at hr ⊢
  rw [hs.mems, hs.current]
  exact hr

/-- The invariant is about handles and memory only. -/
theorem coherent (hs : SameMems w w') (hmem : w'.memory = w.memory) (hlat : w'.latest = w.latest)
    (hini : w'.initial = w.initial) (hco : w.Coherent) : w'.Coherent := by
  have hsame : SameHandles 0 w w' := .of_mems hs.context hs.count hs.mems
  refine ⟨fun h' hlt => hsame.memOk (hco.mems h' (hs.count ▸ hlt)) fun heq q hq => ?_,
    fun r hlt hroot => ⟨fun d hd hcur => ?_, fun hdev hpin hun => ?_⟩⟩
  · subst heq
    rw [hs.mems] at hq ⊢
    exact (hco.mems _ (hs.count ▸ hlt)).writer q hq
  · have hhold := (hco.buffers r (hs.count ▸ hlt) (hsame.root_eq r ▸ hroot)).current d
      (hs.context ▸ hd) ((hs.current r d).mp hcur)
    unfold Holding at hhold ⊢
    rw [hsame.bytes_eq, hlat, hmem, hsame.place_eq]
    exact hhold
  · rw [hsame.bytes_eq, hlat, hini]
    refine (hco.buffers r (hs.count ▸ hlt) (hsame.root_eq r ▸ hroot)).initial
      (hs.context ▸ hdev) (hsame.pinned_eq r ▸ hpin) ?_
    unfold Unwritten at hun ⊢
    rwa [hs.mems, hs.count] at hun

end SameMems

theorem sameMems_peek (w : World) (h d : Nat) (offsets : List Nat) :
    SameMems w (w.peek h d offsets) := ⟨rfl, rfl, rfl⟩

theorem sameMems_poke (w : World) (h d : Nat) (cs : List (Nat × Byte)) :
    SameMems w (w.poke h d cs) := ⟨rfl, rfl, rfl⟩

/-- **Bytes read on a current device are the ones written last.** -/
theorem Good.peek (hg : w.Good) (hh : h < w.count) (hd : d < w.context.devices)
    {offsets : List Nat} (hsafe : w.ReadSafe h d offsets) : (w.peek h d offsets).Good := by
  obtain ⟨hin, hcur⟩ := hsafe
  have hok := hg.coherent.mems h hh
  refine ⟨(sameMems_peek w h d offsets).coherent rfl rfl rfl hg.coherent, fun p hp => ?_,
    (touch_strays hin).trans hg.strays⟩
  rcases List.mem_append.mp hp with hp | hp
  · obtain ⟨o, ho, rfl⟩ := List.mem_map.mp hp
    intro v hv
    have hhold := (hg.coherent.buffers _ hok.root_lt hok.root_root).current d hd hcur
    have hlt : wrap ((w.mems h).offset + o) < (w.mems (w.mems h).root).size := by
      rw [hok.root_size]
      exact (hin o ho).2
    have := hhold _ hlt v hv
    rw [Mem.place, hok.root_pinned] at this
    exact this
  · exact hg.faithful p hp

/-- The offsets of the cells decide what they write. -/
theorem covers_of_offsets {r base : Nat} {cs : List (Nat × Byte)}
    (hall : ∀ i, i < (w.mems r).size → ∃ o ∈ cs.map (·.1), wrap (base + o) = i) :
    w.Covers r base cs := by
  intro i hi
  obtain ⟨o, ho, heq⟩ := hall i hi
  obtain ⟨c, hc, rfl⟩ := List.mem_map.mp ho
  rw [writesOf, Option.isSome_map, List.find?_isSome]
  exact ⟨c, hc, by simpa using heq⟩

theorem map_fst_cells (offsets : List Nat) (source : Nat → Byte) :
    (cells offsets source).map (·.1) = offsets := by
  unfold cells
  rw [List.map_map]
  exact List.zipIdx_map_fst 0 offsets

/-- **Bytes are written on a device that has the contents and is alone.** -/
theorem Good.poke (hg : w.Good) (hh : h < w.count) (hd : d < w.context.devices)
    {cs : List (Nat × Byte)} (hsafe : w.WriteSafe h d (cs.map (·.1)))
    (halone : w.Alone (w.mems h).root d) : (w.poke h d cs).Good := by
  obtain ⟨hin, hat⟩ := hsafe
  have hok := hg.coherent.mems h hh
  refine ⟨coherent_poke hg.coherent.mems (fun r hlt hroot _ => hg.coherent.buffers r hlt hroot) hh hd
    ?_ halone, hg.faithful, (touch_strays hin).trans hg.strays⟩
  rcases hat with hcur | hall
  · exact .inl ((hg.coherent.buffers _ hok.root_lt hok.root_root).current d hd hcur)
  · exact .inr (covers_of_offsets fun i hi => hall i (hok.root_size ▸ hi))

/-- The queue is recorded first; the bytes go to its device afterwards. -/
theorem Good.enqueueWrite (hg : w.Good) (a : Adapter) (hh : h < w.count) {offsets : List Nat}
    (source : Nat → Byte) (hsafe : w.WriteSafe h (w.device q) offsets) :
    (w.enqueueWrite a q h offsets source).Good := by
  obtain ⟨hin, hat⟩ := hsafe
  have hok := hg.coherent.mems h hh
  have hq := (quiet_setLastQueue a w h q).trans
    (quiet_poke (d := w.device q) (h := h) (cells offsets source) (by
      rw [map_fst_cells]
      intro o ho
      exact (sameHandles_setLastQueue a w h q).within h (hin o ho)))
  refine ⟨hg.coherent.enqueueWrite a hh offsets source ?_, hq.faithful hg.faithful,
    hq.strays.trans hg.strays⟩
  rcases hat with hcur | hall
  · exact .inl hcur
  · refine .inr (covers_of_offsets fun i hi => ?_)
    rw [map_fst_cells]
    exact hall i (hok.root_size ▸ hi)

/-- A read that does not block only adds to what is in flight. -/
theorem Good.enqueueRead (hg : w.Good) (hh : h < w.count) {offsets : List Nat} {blocking : Bool}
    (hsafe : w.ReadSafe h (w.device (w.readQueue q h)) offsets) :
    (w.enqueueRead q h offsets blocking).Good := by
  have hp := hg.peek hh (w.device_lt _) hsafe
  unfold World.enqueueRead
  split
  · exact hp
  · have hs : SameMems (w.peek h (w.device (w.readQueue q h)) offsets)
        { w.peek h (w.device (w.readQueue q h)) offsets with
          pending := (q, w.readQueue q h) :: w.pending } := ⟨rfl, rfl, rfl⟩
    exact ⟨hs.coherent rfl rfl rfl hp.coherent, hp.faithful, hp.strays⟩

/-- A copy reads and writes on the queue's device and records nothing. -/
theorem Good.enqueueCopy (hg : w.Good) {src dst : Nat} (hs : src < w.count) (hd : dst < w.count)
    {srcOffsets dstOffsets : List Nat} (hr : w.ReadSafe src (w.device q) srcOffsets)
    (hw : w.WriteSafe dst (w.device q) dstOffsets)
    (halone : w.Alone (w.mems dst).root (w.device q)) :
    (w.enqueueCopy q src dst srcOffsets dstOffsets).Good := by
  have hsame := sameMems_peek w src (w.device q) srcOffsets
  refine (hg.peek hs (w.device_lt q) hr).poke hd (w.device_lt q) ?_
    (hsame.alone halone)
  rw [map_fst_cells]
  exact hsame.writeSafe hw

/-! ## Kernels -/

/-- The loop over the memory arguments finds each buffer where it expects it. -/
def PrepareSafe (a : Adapter) (q : Nat) : World → List Arg → Prop
  | _, [] => True
  | w, arg :: rest =>
    w.MigrateSafe arg.mem (w.device q) ∧
      (arg.access.writes a = true →
        (w.enqueueMigrateMemoryToDeviceIfNeeded arg.mem (w.device q)).Current
          (w.mems arg.mem).root (w.device q)) ∧
      PrepareSafe a q (w.prepareArg a q arg) rest

/-- The kernel accesses what is current, and writes where it is alone. -/
def RunSafe (w : World) (d : Nat) (args : List Arg) : Prop :=
  ∀ arg ∈ args, w.ReadSafe arg.mem d arg.reads ∧
    (arg.writes ≠ [] → w.WriteSafe arg.mem d (arg.writes.map (·.1)) ∧
      w.Alone (w.mems arg.mem).root d)

def LaunchSafe (a : Adapter) (w : World) (q : Nat) (args : List Arg) : Prop :=
  (1 < w.context.devices → PrepareSafe a q w args) ∧
    (w.prepareArgs a q args).RunSafe (w.device q) args

/-- One argument is prepared. -/
theorem Good.prepareArg (hg : w.Good) (hdev : 1 < w.context.devices) {arg : Arg}
    (hh : arg.mem < w.count) (hm : w.MigrateSafe arg.mem (w.device q))
    (hcur : arg.access.writes a = true →
      (w.enqueueMigrateMemoryToDeviceIfNeeded arg.mem (w.device q)).Current
        (w.mems arg.mem).root (w.device q)) :
    (w.prepareArg a q arg).Good ∧ SameHandles arg.mem w (w.prepareArg a q arg) := by
  obtain ⟨hco, hs, hq⟩ := hg.coherent.migrate hh (w.device_lt q) hdev hm
  have hg₁ : (w.enqueueMigrateMemoryToDeviceIfNeeded arg.mem (w.device q)).Good :=
    ⟨hco, hq.faithful hg.faithful, hq.strays.trans hg.strays⟩
  have hdevice : (w.enqueueMigrateMemoryToDeviceIfNeeded arg.mem (w.device q)).device q =
      w.device q := congrArg (fun c => c.device q) hs.context
  unfold World.prepareArg
  generalize w.enqueueMigrateMemoryToDeviceIfNeeded arg.mem (w.device q) = w₁ at *
  split
  next hacc =>
    have hq₂ := quiet_setLastQueue a w₁ arg.mem q
    have hs₂ := sameHandles_setLastQueue a w₁ arg.mem q
    refine ⟨⟨hg₁.coherent.setLastQueue a (hs.count ▸ hh) ?_, hq₂.faithful hg₁.faithful,
      hq₂.strays.trans hg₁.strays⟩, hs.trans hs₂⟩
    rw [hs.root_eq, hdevice]
    exact hcur hacc
  next => exact ⟨hg₁, hs⟩

/-- Induction on the arguments: each is prepared in the world that those before it leave. -/
theorem Good.prepareArgs {args : List Arg} (hg : w.Good) (hh : ∀ arg ∈ args, arg.mem < w.count)
    (hsafe : 1 < w.context.devices → PrepareSafe a q w args) :
    (w.prepareArgs a q args).Good ∧ (w.prepareArgs a q args).context = w.context ∧
      (w.prepareArgs a q args).count = w.count := by
  unfold World.prepareArgs
  split
  next hdev =>
    replace hsafe := hsafe hdev
    induction args generalizing w with
    | nil => exact ⟨hg, rfl, rfl⟩
    | cons arg rest ih =>
      obtain ⟨hm, hcur, hrest⟩ := hsafe
      obtain ⟨hg₁, hs⟩ := hg.prepareArg hdev (hh arg List.mem_cons_self) hm hcur
      obtain ⟨hg₂, hc, hn⟩ := ih hg₁
        (fun x hx => by rw [hs.count]; exact hh x (List.mem_cons_of_mem arg hx))
        (by rw [hs.context]; exact hdev) hrest
      exact ⟨hg₂, hc.trans hs.context, hn.trans hs.count⟩
  next => exact ⟨hg, rfl, rfl⟩

/-- Writing nothing does nothing. -/
theorem poke_nil (w : World) (h d : Nat) : w.poke h d [] = w := by
  have hwrites : overlay (writesOf (w.mems h).offset []) (w.memory (w.mems h).root
      ((w.mems h).place d)) = w.memory (w.mems h).root ((w.mems h).place d) := rfl
  have hlatest : overwrite (writesOf (w.mems h).offset []) (w.latest (w.mems h).root) =
      w.latest (w.mems h).root := rfl
  unfold World.poke
  dsimp only
  rw [hwrites, hlatest, Function.update_eq_self, Function.update_eq_self, Function.update_eq_self]
  rfl

/-- No read moves a handle and no write moves one either, so the condition still holds when the
kernel comes to an argument. -/
theorem Good.runKernel {args : List Arg} (hg : w.Good) (hd : d < w.context.devices)
    (hh : ∀ arg ∈ args, arg.mem < w.count) (hsafe : w.RunSafe d args) :
    (w.runKernel d args).Good := by
  -- first all reads, none of which moves a handle
  have hreads : ∀ (l : List Arg), (∀ arg ∈ l, arg ∈ args) → ∀ w₁, SameMems w w₁ → w₁.Good →
      SameMems w (l.foldl (fun w arg => w.peek arg.mem d arg.reads) w₁) ∧
        (l.foldl (fun w arg => w.peek arg.mem d arg.reads) w₁).Good := by
    intro l
    induction l with
    | nil => exact fun _ w₁ hs hg₁ => ⟨hs, hg₁⟩
    | cons arg rest ih =>
      intro hl w₁ hs hg₁
      have hmem := hl arg List.mem_cons_self
      refine ih (fun x hx => hl x (List.mem_cons_of_mem arg hx)) _ (hs.trans (sameMems_peek ..))
        (hg₁.peek (hs.count ▸ hh arg hmem) (hs.context ▸ hd) (hs.readSafe (hsafe arg hmem).1))
  have hwrites : ∀ (l : List Arg), (∀ arg ∈ l, arg ∈ args) → ∀ w₁, SameMems w w₁ → w₁.Good →
      (l.foldl (fun w arg => w.poke arg.mem d arg.writes) w₁).Good := by
    intro l
    induction l with
    | nil => exact fun _ w₁ _ hg₁ => hg₁
    | cons arg rest ih =>
      intro hl w₁ hs hg₁
      have hmem := hl arg List.mem_cons_self
      refine ih (fun x hx => hl x (List.mem_cons_of_mem arg hx)) _ (hs.trans (sameMems_poke ..)) ?_
      by_cases hnil : arg.writes = []
      · show (w₁.poke arg.mem d arg.writes).Good
        rw [hnil, poke_nil]
        exact hg₁
      · obtain ⟨hw, halone⟩ := (hsafe arg hmem).2 hnil
        refine hg₁.poke (hs.count ▸ hh arg hmem) (hs.context ▸ hd) (hs.writeSafe hw) ?_
        rw [hs.mems]
        exact hs.alone halone
  obtain ⟨hs, hg₁⟩ := hreads args (fun _ h => h) w (SameMems.refl w) hg
  exact hwrites args (fun _ h => h) _ hs hg₁

/-- **A kernel reads the latest writes, and keeps them coherent.** -/
theorem Good.urEnqueueKernelLaunch {args : List Arg} (hg : w.Good)
    (hh : ∀ arg ∈ args, arg.mem < w.count) (hsafe : w.LaunchSafe a q args) :
    (w.urEnqueueKernelLaunch a q args).Good := by
  obtain ⟨hg₁, hc, hn⟩ := hg.prepareArgs hh hsafe.1
  exact hg₁.runKernel (hc ▸ w.device_lt q) (fun arg harg => hn ▸ hh arg harg) hsafe.2

end World

end UnifiedRuntime.Buffers
