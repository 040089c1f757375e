import UnifiedRuntime.LevelZeroV2.CommandListCache

/-!
# Whose list is it

Each list of the driver is held by one caller or stored once, whatever the layouts
(`OwnedOnce`): a request moves a list from the cache to the caller or takes a new one, a
release moves it back. Where `operator==` tells the keys apart, the lists under a key
and the lists out for a descriptor are the driver's lists for it (`Matched`).
-/

namespace UnifiedRuntime.LevelZeroV2

open Function (update update_of_ne update_self)
open CommandLists

/-! ## Descriptors -/

/-- The driver is given every part of a descriptor. -/
theorem createCommandList_injective {d d' : CommandListDesc}
    (h : createCommandList d = createCommandList d') : d = d' := by
  cases d with
  | immediate d =>
    cases d' with
    | immediate d' =>
      obtain ⟨dev, ino, ord, off, mode, prio, idx⟩ := d
      obtain ⟨dev', ino', ord', off', mode', prio', idx'⟩ := d'
      simp only [createCommandList, ZeCreate.immediate.injEq, ZeQueueDesc.mk.injEq] at h
      obtain ⟨rfl, rfl, hi, rfl, hs, rfl, rfl, rfl⟩ := h
      -- an index 0 is told from no index by the flag
      have hidx : idx = idx' := by
        cases idx <;> cases idx' <;> simp_all
      rw [hidx]
    | regular d' => cases h
  | regular d =>
    cases d' with
    | immediate d' => cases h
    | regular d' =>
      obtain ⟨dev, ino, ord, off⟩ := d
      obtain ⟨rfl, rfl, rfl, rfl⟩ := h
      rfl

theorem equal_self (d : CommandListDesc) : d.equal d = true := by
  cases d <;> simp [CommandListDesc.equal, ImmediateDesc.equal, RegularDesc.equal]

theorem finds_self (L : Layout) (desc : CommandListDesc) (stack : List Nat) :
    L.finds desc (desc, stack) = true := by
  simp [Layout.finds, equal_self]

/-! ## What the map does -/

section Map

variable {s s' : CommandLists} {desc : CommandListDesc} {L : Layout}

theorem mem_of_find {e : CacheEntry} (h : (L.arrange s.cache).find? (L.finds desc) = some e) :
    e ∈ s.cache ∧ L.finds desc e = true :=
  ⟨(L.perm s.cache).mem_iff.mp (List.mem_of_find?_eq_some h), List.find?_some h⟩

theorem not_found (h : (L.arrange s.cache).find? (L.finds desc) = none) {e : CacheEntry}
    (he : e ∈ s.cache) : ¬ L.finds desc e = true :=
  List.find?_eq_none.mp h e ((L.perm s.cache).mem_iff.mpr he)

/-- The lists of an entry and of the others are the lists of the cache. -/
theorem stored_perm {e : CacheEntry} (he : e ∈ s.cache) :
    s.stored.Perm (e.2 ++ (s.cache.erase e).flatMap fun e => e.2) :=
  (List.perm_cons_erase he).flatMap_right fun e : CacheEntry => e.2

/-- A request without a list in the cache, with the driver's list or its failure. -/
structure Created (s s' : CommandLists) (desc : CommandListDesc) (L : Layout) (got : Got) :
    Prop where
  miss : (L.arrange s.cache).find? (L.finds desc) = none
  created : got.created = true
  cache : s'.cache = s.cache
  lists : (got.list = none ∧ s' = s) ∨ ∃ l, got.list = some l ∧ s.zeLists l = none ∧
    s'.held = (l, desc) :: s.held ∧
    s'.zeLists = update s.zeLists l (some ⟨createCommandList desc, true, []⟩)

/-- A request that takes the top of a stack. -/
structure Taken (s s' : CommandLists) (desc : CommandListDesc) (L : Layout) (got : Got) : Prop where
  created : got.created = false
  zeLists : s'.zeLists = s.zeLists
  top : ∃ key l rest, (key, l :: rest) ∈ s.cache ∧ L.finds desc (key, l :: rest) = true ∧
    got.list = some l ∧ s'.held = (l, desc) :: s.held ∧
    s'.cache = if rest.isEmpty then s.cache.erase (key, l :: rest)
      else (key, rest) :: s.cache.erase (key, l :: rest)

theorem getCommandList_cases {fresh : Option Nat} {got : Got}
    (h : s.getCommandList desc L fresh = some (s', got)) :
    Created s s' desc L got ∨ Taken s s' desc L got := by
  unfold getCommandList at h
  split at h
  · next hfind =>
    split at h
    · obtain ⟨⟩ := Option.some.inj h
      exact .inl ⟨hfind, rfl, rfl, .inl ⟨rfl, rfl⟩⟩
    · next l =>
      obtain ⟨hl, ⟨⟩⟩ := Option.ite_none_left_eq_some.mp h
      have hnew : s.zeLists l = none := by simpa using hl
      exact .inl ⟨hfind, rfl, rfl, .inr ⟨l, rfl, hnew, rfl, rfl⟩⟩
  · cases h
  · next key l rest hfind =>
    obtain ⟨⟩ := Option.some.inj h
    obtain ⟨hmem, hkey⟩ := mem_of_find hfind
    exact .inr ⟨rfl, rfl, key, l, rest, hmem, hkey, rfl, rfl, rfl⟩

/-- A list that is given back is on the stack of a key of the cache, or of its own. -/
theorem addCommandList_cases (s : CommandLists) (desc : CommandListDesc) (L : Layout) (l : Nat) :
    (s.addCommandList desc L l).zeLists = s.zeLists ∧
    (s.addCommandList desc L l).held = s.held ∧
    ((s.addCommandList desc L l).cache = (desc, [l]) :: s.cache ∨
      ∃ key stack, (key, stack) ∈ s.cache ∧ L.finds desc (key, stack) = true ∧
        (s.addCommandList desc L l).cache = (key, l :: stack) :: s.cache.erase (key, stack)) := by
  unfold addCommandList
  split
  · exact ⟨rfl, rfl, .inl rfl⟩
  · next key stack hfind =>
    obtain ⟨hmem, hkey⟩ := mem_of_find hfind
    exact ⟨rfl, rfl, .inr ⟨key, stack, hmem, hkey, rfl⟩⟩

theorem held_of_find {l : Nat} {h : Nat × CommandListDesc}
    (hf : s.held.find? (fun h => h.1 == l) = some h) : h ∈ s.held ∧ h.1 = l :=
  ⟨List.mem_of_find?_eq_some hf, by simpa using List.find?_some hf⟩

theorem release_cases {l : Nat} (h : s.release l L = some s') :
    ∃ desc, (l, desc) ∈ s.held ∧
      s' = { s with held := s.held.erase (l, desc) }.addCommandList desc L l := by
  unfold release at h
  split at h
  · cases h
  · next l' desc hfind =>
    obtain ⟨hmem, hl⟩ := held_of_find hfind
    obtain rfl : l' = l := hl
    exact ⟨desc, hmem, (Option.some.inj h).symm⟩

/-- Holders change the commands of their lists and close them. -/
structure Touched (s s' : CommandLists) (l : Nat) : Prop where
  held : s'.held = s.held ∧ s'.cache = s.cache
  mem : l ∈ s.out
  lists : s' = s ∨ ∃ z z', s.zeLists l = some z ∧ z'.create = z.create ∧
    s'.zeLists = update s.zeLists l (some z')

theorem append_touched {l command : Nat} (h : s.append l command = some s') : Touched s s' l := by
  unfold append at h
  split at h
  · next e z hfind hz =>
    obtain ⟨hmem, rfl⟩ := held_of_find hfind
    have hout : e.1 ∈ s.out := List.mem_map_of_mem hmem
    split at h
    · obtain rfl := Option.some.inj h
      exact ⟨⟨rfl, rfl⟩, hout, .inl rfl⟩
    · split at h
      · obtain rfl := Option.some.inj h
        exact ⟨⟨rfl, rfl⟩, hout,
          .inr ⟨z, { z with commands := z.commands ++ [command] }, hz, rfl, rfl⟩⟩
      · obtain rfl := Option.some.inj h
        exact ⟨⟨rfl, rfl⟩, hout, .inl rfl⟩
  · cases h

theorem close_touched {l : Nat} (h : s.close l = some s') : Touched s s' l := by
  unfold close at h
  split at h
  · next e z hfind hz =>
    obtain ⟨hmem, rfl⟩ := held_of_find hfind
    obtain rfl := Option.some.inj h
    exact ⟨⟨rfl, rfl⟩, List.mem_map_of_mem hmem,
      .inr ⟨z, { z with isOpen := false }, hz, rfl, rfl⟩⟩
  · cases h

/-- The requests of a step. -/
theorem step_cases {op : CacheOp} {o : Option Got} (h : s.step op = some (s', o)) :
    (∃ desc L fresh got, op.desc = some desc ∧ o = some got ∧ (op.Meets s ↔ s.Distinguished desc L) ∧
      s.getCommandList desc L fresh = some (s', got)) ∨
    (op.desc = none ∧ ∃ l L, op = .release l L ∧ s.release l L = some s') ∨
    (op.desc = none ∧ ∃ l, Touched s s' l) := by
  cases op with
  | getImmediate d L fresh =>
    obtain ⟨r, hr, ⟨⟩⟩ := Option.map_eq_some_iff.mp h
    exact .inl ⟨.immediate d, L, fresh, r.2, rfl, rfl, .rfl, hr⟩
  | getRegular d L fresh =>
    obtain ⟨r, hr, ⟨⟩⟩ := Option.map_eq_some_iff.mp h
    exact .inl ⟨.regular d, L, fresh, r.2, rfl, rfl, .rfl, hr⟩
  | release l L =>
    obtain ⟨r, hr, ⟨⟩⟩ := Option.map_eq_some_iff.mp h
    exact .inr (.inl ⟨rfl, l, L, rfl, hr⟩)
  | append l command =>
    obtain ⟨r, hr, ⟨⟩⟩ := Option.map_eq_some_iff.mp h
    exact .inr (.inr ⟨rfl, l, append_touched hr⟩)
  | close l =>
    obtain ⟨r, hr, ⟨⟩⟩ := Option.map_eq_some_iff.mp h
    exact .inr (.inr ⟨rfl, l, close_touched hr⟩)

end Map

/-! ## Each list once -/

section Owned

variable {s s' : CommandLists} {desc : CommandListDesc} {L : Layout}

theorem CommandLists.OwnedOnce.init : CommandLists.init.OwnedOnce :=
  ⟨List.nodup_nil, fun _ => by simp [CommandLists.init, stored, out]⟩

/-- Lists that only change hands. -/
theorem CommandLists.OwnedOnce.of_perm (h : s.OwnedOnce) (hp : (s'.stored ++ s'.out).Perm (s.stored ++ s.out))
    (hz : ∀ l, (s'.zeLists l).isSome = (s.zeLists l).isSome) : s'.OwnedOnce :=
  ⟨hp.symm.nodup h.nodup, fun l => by rw [hz l, h.owned l, hp.mem_iff]⟩

/-- The cache without the top of a stack. -/
theorem stored_pop {key : CommandListDesc} {l : Nat} {rest : List Nat}
    (hmem : (key, l :: rest) ∈ s.cache)
    (hc : s'.cache = if rest.isEmpty then s.cache.erase (key, l :: rest)
      else (key, rest) :: s.cache.erase (key, l :: rest)) :
    s.stored.Perm (l :: s'.stored) := by
  have hs : s'.stored = rest ++ (s.cache.erase (key, l :: rest)).flatMap fun e => e.2 := by
    unfold stored
    rw [hc]
    cases rest <;> rfl
  rw [hs]
  exact stored_perm hmem

theorem CommandLists.OwnedOnce.getCommandList (h : s.OwnedOnce) {fresh : Option Nat} {got : Got}
    (hg : s.getCommandList desc L fresh = some (s', got)) : s'.OwnedOnce := by
  rcases getCommandList_cases hg with hc | ht
  · rcases hc.lists with ⟨-, rfl⟩ | ⟨l, -, hnew, hheld, hze⟩
    · exact h
    · have hl : l ∉ s.stored ++ s.out := fun hin => by
        have hsome := (h.owned l).mpr hin
        rw [hnew] at hsome
        cases hsome
      have hstored : s'.stored = s.stored := by
        unfold stored
        rw [hc.cache]
      have hp : (s'.stored ++ s'.out).Perm (l :: (s.stored ++ s.out)) := by
        rw [hstored, out, hheld]
        exact List.perm_middle
      refine ⟨hp.symm.nodup (List.nodup_cons.mpr ⟨hl, h.nodup⟩), fun l' => ?_⟩
      rw [hp.mem_iff, hze]
      by_cases he : l' = l
      · simp [he]
      · simpa [he] using h.owned l'
  · obtain ⟨key, l, rest, hmem, -, -, hheld, hcache⟩ := ht.top
    refine h.of_perm ?_ fun l' => by rw [ht.zeLists]
    rw [out, hheld]
    calc s'.stored ++ l :: s.out
        _ |>.Perm (l :: (s'.stored ++ s.out)) := List.perm_middle
        _ |>.Perm (s.stored ++ s.out) := ((stored_pop hmem hcache).append_right _).symm

/-- A list that is added is stored once more. -/
theorem stored_addCommandList (s : CommandLists) (desc : CommandListDesc) (L : Layout) (l : Nat) :
    (s.addCommandList desc L l).stored.Perm (l :: s.stored) := by
  obtain ⟨-, -, hc | ⟨key, stack, hmem, -, hc⟩⟩ := addCommandList_cases s desc L l
  · unfold stored
    rw [hc]
    exact .refl _
  · have hs : (s.addCommandList desc L l).stored
        = l :: (stack ++ (s.cache.erase (key, stack)).flatMap fun e => e.2) := by
      unfold stored
      rw [hc]
      rfl
    rw [hs]
    exact (stored_perm hmem).symm.cons l

theorem CommandLists.OwnedOnce.release (h : s.OwnedOnce) {l : Nat} (hr : s.release l L = some s') :
    s'.OwnedOnce := by
  obtain ⟨desc, hmem, rfl⟩ := release_cases hr
  obtain ⟨hz, hheld, -⟩ := addCommandList_cases { s with held := s.held.erase (l, desc) } desc L l
  refine h.of_perm ?_ fun l' => by rw [hz]
  have hout : s.out.Perm (l :: (s.held.erase (l, desc)).map fun h => h.1) :=
    (List.perm_cons_erase hmem).map Prod.fst
  rw [out, hheld]
  refine ((stored_addCommandList _ desc L l).append_right _).trans ?_
  exact List.perm_middle.symm.trans (hout.symm.append_left s.stored)

theorem CommandLists.OwnedOnce.touched (h : s.OwnedOnce) {l : Nat} (ht : Touched s s' l) : s'.OwnedOnce := by
  obtain ⟨hheld, hcache⟩ := ht.held
  have hstored : s'.stored = s.stored := by
    unfold stored
    rw [hcache]
  have hout : s'.out = s.out := by
    unfold out
    rw [hheld]
  refine h.of_perm (by rw [hstored, hout]) fun l' => ?_
  rcases ht.lists with rfl | ⟨z, z', hz, -, hze⟩
  · rfl
  · rw [hze]
    by_cases he : l' = l
    · simp [he, hz]
    · rw [update_of_ne he]

theorem CommandLists.OwnedOnce.step (h : s.OwnedOnce) {op : CacheOp} {o : Option Got}
    (hs : s.step op = some (s', o)) : s'.OwnedOnce := by
  rcases step_cases hs with ⟨desc, L, fresh, got, -, -, -, hg⟩ | ⟨-, l, L, -, hr⟩ | ⟨-, l, ht⟩
  · exact h.getCommandList hg
  · exact h.release hr
  · exact h.touched ht

end Owned

/-! ## The lists of a descriptor -/

/-- The list is one for the descriptor; a regular one is open and empty. -/
def ReadyFor (s : CommandLists) (desc : CommandListDesc) (l : Nat) : Prop :=
  ∃ z, s.zeLists l = some z ∧ z.create = createCommandList desc ∧
    ((∃ d, desc = .regular d) → z.isOpen = true ∧ z.commands = [])

/-- What is stored under a key is ready for it, what is out is for its descriptor. -/
structure Matched (s : CommandLists) : Prop where
  nonempty : ∀ e ∈ s.cache, e.2 ≠ []
  stored : ∀ e ∈ s.cache, ∀ l ∈ e.2, ReadyFor s e.1 l
  held : ∀ h ∈ s.held, ∃ z, s.zeLists h.1 = some z ∧ z.create = createCommandList h.2

section Matched

variable {s s' : CommandLists} {desc : CommandListDesc} {L : Layout}

theorem Matched.init : Matched CommandLists.init :=
  ⟨fun _ h => (by cases h), fun _ h => (by cases h), fun _ h => (by cases h)⟩

theorem ReadyFor.congr {l : Nat} (h : ReadyFor s desc l) (hz : s'.zeLists l = s.zeLists l) :
    ReadyFor s' desc l := by
  unfold ReadyFor
  rw [hz]
  exact h

theorem Matched.getCommandList (h : Matched s) (hd : s.Distinguished desc L)
    {fresh : Option Nat} {got : Got} (hg : s.getCommandList desc L fresh = some (s', got)) :
    Matched s' := by
  rcases getCommandList_cases hg with hc | ht
  · rcases hc.lists with ⟨-, rfl⟩ | ⟨l, -, hnew, hheld, hze⟩
    · exact h
    · -- the new list is none of the others
      have hother : ∀ l', (s.zeLists l').isSome → s'.zeLists l' = s.zeLists l' := fun l' hl' => by
        rw [hze, update_of_ne]
        rintro rfl
        rw [hnew] at hl'
        cases hl'
      refine ⟨fun e he => ?_, fun e he l' hl' => ?_, fun x hx => ?_⟩
      · rw [hc.cache] at he
        exact h.nonempty e he
      · rw [hc.cache] at he
        have hr := h.stored e he l' hl'
        obtain ⟨z, hz, -⟩ := id hr
        exact hr.congr (hother l' (by rw [hz]; rfl))
      · rw [hheld] at hx
        rcases List.mem_cons.mp hx with rfl | hx
        · exact ⟨_, by rw [hze]; exact update_self .., rfl⟩
        · obtain ⟨z, hz, hzc⟩ := h.held x hx
          exact ⟨z, by rw [hother x.1 (by rw [hz]; rfl), hz], hzc⟩
  · obtain ⟨key, l, rest, hmem, hkey, -, hheld, hcache⟩ := ht.top
    obtain rfl : key = desc := hd _ hmem hkey
    have hsub : ∀ e ∈ s'.cache, e ∈ s.cache ∨ (e = (key, rest) ∧ rest ≠ []) := by
      intro e he
      rw [hcache] at he
      split at he
      · exact .inl (List.mem_of_mem_erase he)
      · next hr =>
        rcases List.mem_cons.mp he with rfl | he
        · exact .inr ⟨rfl, by simpa using hr⟩
        · exact .inl (List.mem_of_mem_erase he)
    refine ⟨fun e he => ?_, fun e he l' hl' => ?_, fun x hx => ?_⟩
    · rcases hsub e he with he | ⟨rfl, hr⟩
      · exact h.nonempty e he
      · exact hr
    · rcases hsub e he with he | ⟨rfl, -⟩
      · exact (h.stored e he l' hl').congr (by rw [ht.zeLists])
      · exact (h.stored _ hmem l' (List.mem_cons_of_mem _ hl')).congr (by rw [ht.zeLists])
    · rw [hheld] at hx
      rw [ht.zeLists]
      rcases List.mem_cons.mp hx with rfl | hx
      · obtain ⟨z, hz, hzc, -⟩ := h.stored _ hmem l List.mem_cons_self
        exact ⟨z, hz, hzc⟩
      · exact h.held x hx

theorem Matched.release (h : Matched s) {l : Nat} (hr : s.release l L = some s')
    (hm : (CacheOp.release l L).Meets s) : Matched s' := by
  obtain ⟨desc, hmem, rfl⟩ := release_cases hr
  obtain ⟨hd, hback⟩ := hm desc hmem
  obtain ⟨z, hz, hzc⟩ := h.held _ hmem
  have hready : ReadyFor s desc l := ⟨z, hz, hzc, fun hreg => hback hreg z hz⟩
  obtain ⟨hze, hheld, hc⟩ := addCommandList_cases { s with held := s.held.erase (l, desc) } desc L l
  have hcongr : ∀ {d : CommandListDesc} {l' : Nat}, ReadyFor s d l' →
      ReadyFor (({ s with held := s.held.erase (l, desc) } : CommandLists).addCommandList desc L l)
        d l' := fun hr => hr.congr (by rw [hze])
  refine ⟨fun e he => ?_, fun e he l' hl' => ?_, fun x hx => ?_⟩
  · rcases hc with hc | ⟨key, stack, hin, -, hc⟩
    all_goals
      rw [hc] at he
      rcases List.mem_cons.mp he with rfl | he
    · exact List.cons_ne_nil _ _
    · exact h.nonempty e he
    · exact List.cons_ne_nil _ _
    · exact h.nonempty e (List.mem_of_mem_erase he)
  · rcases hc with hc | ⟨key, stack, hin, hkey, hc⟩
    · rw [hc] at he
      rcases List.mem_cons.mp he with rfl | he
      · obtain rfl := List.mem_singleton.mp hl'
        exact hcongr hready
      · exact hcongr (h.stored e he l' hl')
    · rw [hc] at he
      obtain rfl : key = desc := hd _ hin hkey
      rcases List.mem_cons.mp he with rfl | he
      · rcases List.mem_cons.mp hl' with rfl | hl'
        · exact hcongr hready
        · exact hcongr (h.stored _ hin l' hl')
      · exact hcongr (h.stored e (List.mem_of_mem_erase he) l' hl')
  · rw [hheld] at hx
    rw [hze]
    exact h.held x (List.mem_of_mem_erase hx)

/-- A holder's list is not in the cache. -/
theorem Matched.touched (h : Matched s) (ho : s.OwnedOnce) {l : Nat} (ht : Touched s s' l) :
    Matched s' := by
  obtain ⟨hheld, hcache⟩ := ht.held
  rcases ht.lists with rfl | ⟨z, z', hz, hzc, hze⟩
  · exact h
  · refine ⟨by rw [hcache]; exact h.nonempty, fun e he l' hl' => ?_, fun x hx => ?_⟩
    · rw [hcache] at he
      refine (h.stored e he l' hl').congr ?_
      rw [hze, update_of_ne]
      rintro rfl
      have hin : l' ∈ s.stored := List.mem_flatMap.mpr ⟨e, he, hl'⟩
      exact (List.nodup_append.mp ho.nodup).2.2 l' hin l' ht.mem rfl
    · rw [hheld] at hx
      obtain ⟨w, hw, hwc⟩ := h.held x hx
      by_cases he : x.1 = l
      · obtain rfl : w = z := Option.some.inj (hw.symm.trans (he ▸ hz))
        exact ⟨z', by rw [hze, he]; exact update_self .., hzc.trans hwc⟩
      · exact ⟨w, by rw [hze, update_of_ne he]; exact hw, hwc⟩

theorem Matched.step (h : Matched s) (ho : s.OwnedOnce) {op : CacheOp} {o : Option Got}
    (hm : op.Meets s) (hs : s.step op = some (s', o)) : Matched s' := by
  rcases step_cases hs with ⟨desc, L, fresh, got, -, -, hmeets, hg⟩ | ⟨-, l, L, rfl, hr⟩ |
    ⟨-, l, ht⟩
  · exact h.getCommandList (hmeets.mp hm) hg
  · exact h.release hr hm
  · exact h.touched ho ht

/-- A request with matched lists is served exactly. -/
theorem Matched.served (h : Matched s) (hd : s.Distinguished desc L) {fresh : Option Nat}
    {got : Got} (hg : s.getCommandList desc L fresh = some (s', got)) :
    s.ServedExactly desc s' got := by
  rcases getCommandList_cases hg with hc | ht
  · refine ⟨fun l hl => ?_, fun _ l hl z hz hzc => ?_, fun _ l hl => ?_⟩
    · rcases hc.lists with ⟨hno, -⟩ | ⟨l', hl', -, -, hze⟩
      · rw [hno] at hl
        cases hl
      · obtain rfl : l' = l := Option.some.inj (hl'.symm.trans hl)
        exact ⟨_, by rw [hze]; exact update_self .., rfl⟩
    · -- a list for the descriptor is under its key, which is found
      obtain ⟨e, he, hle⟩ := List.mem_flatMap.mp hl
      obtain ⟨w, hw, hwc, -⟩ := h.stored e he l hle
      obtain rfl : w = z := Option.some.inj (hw.symm.trans hz)
      have hkey : e.1 = desc := createCommandList_injective (hwc.symm.trans hzc)
      have hfinds : L.finds desc e = true := by
        obtain ⟨key, stack⟩ := e
        obtain rfl : key = desc := hkey
        exact finds_self L key stack
      exact not_found hc.miss he hfinds
    · rcases hc.lists with ⟨hno, -⟩ | ⟨l', hl', -, -, hze⟩
      · rw [hno] at hl
        cases hl
      · obtain rfl : l' = l := Option.some.inj (hl'.symm.trans hl)
        exact ⟨_, by rw [hze]; exact update_self .., rfl, rfl⟩
  · obtain ⟨key, l, rest, hmem, hkey, hl, -, -⟩ := ht.top
    obtain rfl : key = desc := hd _ hmem hkey
    obtain ⟨z, hz, hzc, hready⟩ := h.stored _ hmem l List.mem_cons_self
    refine ⟨fun l' hl' => ?_, fun hno => ?_, fun hreg l' hl' => ?_⟩
    · obtain rfl : l = l' := Option.some.inj (hl.symm.trans hl')
      exact ⟨z, by rw [ht.zeLists, hz], hzc⟩
    · rw [ht.created] at hno
      cases hno
    · obtain rfl : l = l' := Option.some.inj (hl.symm.trans hl')
      exact ⟨z, by rw [ht.zeLists, hz], hready hreg⟩

end Matched

/-! ## Runs -/

theorem ownedOnce_run {s s' : CommandLists} (h : s.OwnedOnce) (ops : List CacheOp)
    (hr : s.run ops = some s') : s'.OwnedOnce := by
  induction ops generalizing s with
  | nil =>
    obtain rfl := Option.some.inj hr
    exact h
  | cons op ops ih =>
    obtain ⟨r, hstep, hr⟩ := Option.bind_eq_some_iff.mp hr
    exact ih (h.step hstep) hr

theorem matched_run {s s' : CommandLists} (h : Matched s) (ho : s.OwnedOnce) (ops : List CacheOp)
    (hm : s.AllMeet ops) (hr : s.run ops = some s') : Matched s' := by
  induction ops generalizing s with
  | nil =>
    obtain rfl := Option.some.inj hr
    exact h
  | cons op ops ih =>
    obtain ⟨r, hstep, hr⟩ := Option.bind_eq_some_iff.mp hr
    exact ih (h.step ho hm.1 hstep) (ho.step hstep) (hm.2 r hstep) hr

/-- **The command list cache.** After every run each list is held by one caller or stored
once; and where every step of the run and the request after it meet the condition, the
request is served exactly. -/
theorem command_list_cache_exact (ops : List CacheOp) (s : CommandLists)
    (hr : CommandLists.init.run ops = some s) :
    s.OwnedOnce ∧ (CommandLists.init.AllMeet ops → ∀ op desc s' got, op.desc = some desc →
      op.Meets s → s.step op = some (s', some got) → s.ServedExactly desc s' got) := by
  refine ⟨ownedOnce_run .init ops hr, fun hm op desc s' got hdesc hop hstep => ?_⟩
  have hmatched := matched_run .init .init ops hm hr
  rcases step_cases hstep with ⟨desc', L, fresh, got', hd, hg', hmeets, hg⟩ | ⟨hno, -⟩ | ⟨hno, -⟩
  · obtain rfl : desc' = desc := Option.some.inj (hd.symm.trans hdesc)
    obtain rfl : got = got' := Option.some.inj hg'
    exact hmatched.served (hmeets.mp hop) hg
  · rw [hno] at hdesc
    cases hdesc
  · rw [hno] at hdesc
    cases hdesc

/-- All descriptors in one bucket. -/
def oneBucket : Layout := .ofBucket fun _ => 0

/-- The list of a command-buffer on device 0. -/
def bufferDesc : RegularDesc := ⟨0, true, 0, true⟩

/-- A list that comes back as it was is served again. -/
theorem command_list_cache_exact_unused :
    ∃ s s', CommandLists.init.run
        [.getRegular bufferDesc oneBucket (some 1), .release 1 oneBucket] = some s ∧
      s.step (.getRegular bufferDesc oneBucket none) = some (s', some ⟨false, some 1⟩) ∧
      s.ServedExactly (.regular bufferDesc) s' ⟨false, some 1⟩ := by
  have hdist : ∀ s : CommandLists, (∀ e ∈ s.cache, e.1 = .regular bufferDesc) →
      s.Distinguished (.regular bufferDesc) oneBucket := fun s h e he _ => h e he
  have hr : CommandLists.init.run
      [.getRegular bufferDesc oneBucket (some 1), .release 1 oneBucket]
      = some ⟨update (fun _ => none) 1
          (some ⟨createCommandList (.regular bufferDesc), true, []⟩),
        [(.regular bufferDesc, [1])], []⟩ := rfl
  refine ⟨_, _, hr, rfl, (command_list_cache_exact _ _ hr).2 ⟨hdist _ ?_, fun r hr' => ?_⟩
    (.getRegular bufferDesc oneBucket none) _ _ _ rfl (hdist _ ?_) rfl⟩
  · intro e he
    cases he
  · obtain rfl := Option.some.inj hr'
    refine ⟨fun desc hd => ?_, fun r _ => trivial⟩
    obtain ⟨⟩ := List.mem_singleton.mp hd
    refine ⟨hdist _ fun e he => (by cases he), fun _ z hz => ?_⟩
    obtain rfl := Option.some.inj hz
    exact ⟨rfl, rfl⟩
  · intro e he
    rw [List.mem_singleton.mp he]

/-- A command-buffer with command 7 is finalized and released. -/
def finalizedBuffer : List CacheOp :=
  [.getRegular bufferDesc oneBucket (some 1), .append 1 7, .close 1, .release 1 oneBucket]

/-- A list without copy offload is given back. -/
def withoutOffload : List CacheOp :=
  [.getRegular ⟨0, true, 0, false⟩ oneBucket (some 1), .release 1 oneBucket]

def immediateDesc (ordinal : Nat) : ImmediateDesc :=
  ⟨0, true, ordinal, true, .asynchronous, .normal, none⟩

/-- Immediate lists of two ordinals are given back while their descriptors share a bucket. -/
def twoOrdinals : List CacheOp :=
  [.getImmediate (immediateDesc 0) oneBucket (some 1),
    .getImmediate (immediateDesc 1) oneBucket (some 2), .release 1 oneBucket, .release 2 oneBucket]

/-- A layout that has the second ordinal alone in its bucket. -/
def ownBucket : Layout :=
  .ofBucket fun f => if f = (CommandListDesc.immediate (immediateDesc 1)).hashed then 1 else 0

def requestAfter (ops : List CacheOp) (op : CacheOp) : Option (CommandLists × Option Got) :=
  (CommandLists.init.run ops).bind fun s => s.step op

/-- The next command-buffer gets a closed list with command 7; a request with copy offload
gets the list without; a request for the first ordinal gets the list of the second; a
request for the second has a list created although its own is in the cache. -/
theorem command_list_cache_inexact :
    (requestAfter finalizedBuffer (.getRegular bufferDesc oneBucket none)).map
      (fun r => (r.2, r.1.zeLists 1))
      = some (some ⟨false, some 1⟩,
          some ⟨createCommandList (.regular bufferDesc), false, [7]⟩) ∧
    (requestAfter withoutOffload (.getRegular bufferDesc oneBucket none)).map
      (fun r => (r.2, r.1.zeLists 1))
      = some (some ⟨false, some 1⟩,
          some ⟨createCommandList (.regular ⟨0, true, 0, false⟩), true, []⟩) ∧
    (requestAfter twoOrdinals (.getImmediate (immediateDesc 0) oneBucket none)).map
      (fun r => (r.2, r.1.zeLists 2))
      = some (some ⟨false, some 2⟩,
          some ⟨createCommandList (.immediate (immediateDesc 1)), true, []⟩) ∧
    (requestAfter twoOrdinals (.getImmediate (immediateDesc 1) ownBucket none)).map
      (fun r => (r.2, r.1.stored, r.1.zeLists 2))
      = some (some ⟨true, none⟩, [2, 1],
          some ⟨createCommandList (.immediate (immediateDesc 1)), true, []⟩) ∧
    ¬ ∀ ops s, CommandLists.init.run ops = some s → ∀ op desc s' got, op.desc = some desc →
      s.step op = some (s', some got) → s.ServedExactly desc s' got := by
  refine ⟨by decide, by decide, by decide, by decide, fun h => ?_⟩
  obtain ⟨z, hz, hopen, -⟩ := (h finalizedBuffer _ rfl
    (.getRegular bufferDesc oneBucket none) _ _ _ rfl rfl).fresh ⟨_, rfl⟩ 1 rfl
  obtain rfl := Option.some.inj hz
  cases hopen

end UnifiedRuntime.LevelZeroV2
