import UnifiedRuntime.Loader.Singleton

/-!
# Runs of the loader's functions

The retain and release functions change the factory whatever the adapter returned,
where the functions that put handles out return first. In runs in which no retain
and no release fails, a loader object is there exactly while its native handle is
held, and it stays the same object that long (`loader_handles_counted`).
-/

namespace UnifiedRuntime.Loader

open LoaderState

/-- The native handles are counted as they were acquired and dropped. -/
structure Matched (s : LoaderState) (t : Tally) : Prop where
  linked : s.Linked
  counted : ∀ k, t.dropped k + s.held k = t.acquired k

theorem Matched.init : Matched .init .init :=
  ⟨linked_init, fun k => by simp [Tally.init, held, LoaderState.init]⟩

variable {s : LoaderState} {c : LoaderCall} {o : Outcome}

/-- A function that counts a handle got as far as the factory, or found no adapter
function. -/
theorem countHandle_cases {factory : LoaderState → Nat → Option LoaderState}
    {h : Nat} {pfn : Option CallResult} (hc : s.countHandle factory h pfn = some o) :
    ∃ native, s.objects h = some native ∧ o.handed = [] ∧
      ((pfn = none ∧ o.state = s) ∨ (pfn ≠ none ∧ factory s native = some o.state)) := by
  unfold countHandle at hc
  split at hc
  · cases hc
  · next native hn =>
    refine ⟨native, hn, ?_⟩
    split at hc
    · cases hc
      exact ⟨rfl, .inl ⟨rfl, rfl⟩⟩
    · obtain ⟨s', hs', rfl⟩ := Option.map_eq_some_iff.mp hc
      exact ⟨rfl, .inr ⟨by simp, hs'⟩⟩

theorem outputs_spec (hs : s.Linked) (rule : WrapRule)
    (pfn : Option CallResult) (outs : List (Nat × Option Nat)) :
    (s.outputs rule pfn outs).state.Linked ∧ s.Keeps (s.outputs rule pfn outs).state ∧
      (∀ k, (s.outputs rule pfn outs).state.held k
        = s.held k + ((s.outputs rule pfn outs).handed.map Prod.fst).count k) ∧
      ∀ x ∈ (s.outputs rule pfn outs).handed,
        ∃ e, (s.outputs rule pfn outs).state.map x.1 = some e ∧ e.ptr = x.2 := by
  unfold outputs
  split
  · exact ⟨hs, Keeps.rfl, fun k => by simp, by simp⟩
  · split
    · exact wrap_spec hs
    · exact ⟨hs, Keeps.rfl, fun k => by simp, by simp⟩

/-! ## A step -/

theorem step_linked (hs : s.Linked) (h : s.step c = some o) : o.state.Linked := by
  cases c with
  | outputs rule pfn outs =>
    cases h
    exact (outputs_spec hs rule pfn outs).1
  | retain p pfn =>
    obtain ⟨native, -, -, ⟨-, he⟩ | ⟨-, he⟩⟩ := countHandle_cases h
    · rwa [he]
    · exact (retain_spec hs he).1
  | release p pfn =>
    obtain ⟨native, -, -, ⟨-, he⟩ | ⟨-, he⟩⟩ := countHandle_cases h
    · rwa [he]
    · exact (release_spec hs he).1

theorem Matched.step {t : Tally} (hm : Matched s t) (hc : c.Succeeds) (h : s.step c = some o) :
    Matched o.state (t.next s c o) := by
  refine ⟨step_linked hm.linked h, fun k => ?_⟩
  have hk := hm.counted k
  cases c with
  | outputs rule pfn outs =>
    cases h
    simp only [Tally.next]
    rw [(outputs_spec hm.linked rule pfn outs).2.2.1 k]
    omega
  | retain p pfn =>
    obtain ⟨native, hn, -, ⟨hp, he⟩ | ⟨hp, he⟩⟩ := countHandle_cases h
    · simp only [Tally.next, hp, he]
      simpa using hk
    · have hs : pfn = some .success := hc.resolve_left hp
      have hcomm : (native = k) = (k = native) := propext eq_comm
      simp only [Tally.next, hs, hn, Option.some.injEq, and_true, hcomm]
      rw [(retain_spec hm.linked he).2.2 k]
      omega
  | release p pfn =>
    obtain ⟨native, hn, -, ⟨hp, he⟩ | ⟨hp, he⟩⟩ := countHandle_cases h
    · simp only [Tally.next, hp, he]
      simpa using hk
    · have hs : pfn = some .success := hc.resolve_left hp
      have hheld := (release_spec hm.linked he).2.2 k
      have hcomm : (native = k) = (k = native) := propext eq_comm
      simp only [Tally.next, hs, hn, Option.some.injEq, and_true, hcomm]
      omega

/-- An entry that is there before and after a call has kept its object. -/
theorem step_keeps (hs : s.Linked)
    (h : s.step c = some o) {k : Nat} {e : Entry} (he : s.map k = some e)
    (hlive : (o.state.map k).isSome) : ∃ e', o.state.map k = some e' ∧ e'.ptr = e.ptr := by
  cases c with
  | outputs rule pfn outs =>
    cases h
    exact (outputs_spec hs rule pfn outs).2.1 k e he
  | retain p pfn =>
    obtain ⟨native, -, -, ⟨-, hp⟩ | ⟨-, hp⟩⟩ := countHandle_cases h
    · exact ⟨e, by rwa [hp], rfl⟩
    · exact (retain_spec hs hp).2.1 k e he
  | release p pfn =>
    obtain ⟨native, -, -, ⟨-, hp⟩ | ⟨-, hp⟩⟩ := countHandle_cases h
    · exact ⟨e, by rwa [hp], rfl⟩
    · exact (release_spec hs hp).2.1 k e (.inr hlive) he

/-- What a call hands out for a handle is the object of its entry. -/
theorem step_handed (hs : s.Linked) (h : s.step c = some o) {x : Nat × Nat} (hx : x ∈ o.handed) :
    ∃ e, o.state.map x.1 = some e ∧ e.ptr = x.2 := by
  cases c with
  | outputs rule pfn outs =>
    cases h
    exact (outputs_spec hs rule pfn outs).2.2.2 x hx
  | retain p pfn | release p pfn =>
    obtain ⟨native, -, he, -⟩ := countHandle_cases h
    rw [he] at hx
    cases hx

/-! ## Runs -/

/-- The states of runs whose calls all meet `ok`, with their tallies. -/
inductive Translated (ok : LoaderCall → Prop) : LoaderState → Tally → Prop where
  | init : Translated ok .init .init
  | step {s : LoaderState} {t : Tally} (c : LoaderCall) (o : Outcome) : Translated ok s t →
      ok c → s.step c = some o → Translated ok o.state (t.next s c o)

theorem Translated.linked {ok : LoaderCall → Prop} {t : Tally}
    (h : Translated ok s t) : s.Linked := by
  induction h with
  | init => exact linked_init
  | step c o _ _ hs ih => exact step_linked ih hs

theorem Translated.matched {t : Tally} (h : Translated LoaderCall.Succeeds s t) : Matched s t := by
  induction h with
  | init => exact .init
  | step c o _ hc hs ih => exact ih.step hc hs

/-- Calls during which the entry of `k` is there. -/
inductive Stays (k : Nat) : LoaderState → LoaderState → Prop where
  | here {s : LoaderState} : (s.map k).isSome → Stays k s s
  | step {s t : LoaderState} (c : LoaderCall) (o : Outcome) : Stays k s t → t.step c = some o →
      (o.state.map k).isSome → Stays k s o.state

theorem Stays.keeps {k : Nat} {s t : LoaderState} (h : Stays k s t) (hs : s.Linked) {e : Entry}
    (he : s.map k = some e) : t.Linked ∧ ∃ e', t.map k = some e' ∧ e'.ptr = e.ptr := by
  induction h with
  | here _ => exact ⟨hs, e, he, rfl⟩
  | step c o _ hstep hlive ih =>
    obtain ⟨hl, e', he', hp⟩ := ih
    obtain ⟨e'', he'', hp'⟩ := step_keeps hl hstep he' hlive
    exact ⟨step_linked hl hstep, e'', he'', hp'.trans hp⟩

/-- What the loader promises about its handles. -/
structure HandlesCounted (s : LoaderState) (t : Tally) : Prop where
  /-- An object is there while its native handle was acquired more often than dropped. -/
  live : ∀ k, t.dropped k ≤ t.acquired k ∧ ((s.map k).isSome ↔ t.dropped k < t.acquired k)
  object : ∀ k e, s.map k = some e → s.objects e.ptr = some k
  /-- Two handles for one native handle are the same as long as the entry is there. -/
  same : ∀ c o u c' o' k p p', s.step c = some o → (k, p) ∈ o.handed → Stays k o.state u →
    u.step c' = some o' → (k, p') ∈ o'.handed → p = p'

theorem Matched.live {t : Tally} (hm : Matched s t) (k : Nat) :
    t.dropped k ≤ t.acquired k ∧ ((s.map k).isSome ↔ t.dropped k < t.acquired k) := by
  have hk := hm.counted k
  have h0 := s.held_eq_zero_iff k
  refine ⟨by omega, ?_⟩
  rw [Option.isSome_iff_ne_none]
  refine (not_congr h0.symm).trans ?_
  omega

theorem same_object (hs : s.Linked) {c c' : LoaderCall} {o o' : Outcome}
    {u : LoaderState} {k p p' : Nat} (h : s.step c = some o) (hx : (k, p) ∈ o.handed)
    (hstay : Stays k o.state u) (h' : u.step c' = some o') (hx' : (k, p') ∈ o'.handed) :
    p = p' := by
  obtain ⟨e, he, hp⟩ := step_handed hs h hx
  obtain ⟨hu, e', he', hp'⟩ := hstay.keeps (step_linked hs h) he
  obtain ⟨e'', he'', hp''⟩ := step_handed hu h' hx'
  obtain ⟨e₃, he₃, hp₃⟩ := step_keeps hu h' he' (by rw [he'']; rfl)
  rw [he''] at he₃
  cases he₃
  omega

/-- A failed retain or release moves the count of the handle. -/
theorem moved_of_failed (hs : s.Linked)
    (h : s.step c = some o) (hc : ¬ c.Succeeds) : o.state ≠ s := by
  intro hsame
  cases c with
  | outputs rule pfn outs => exact hc trivial
  | retain p pfn =>
    obtain ⟨native, -, -, ⟨hp, -⟩ | ⟨-, he⟩⟩ := countHandle_cases h
    · exact hc (.inl hp)
    · have hheld := (retain_spec hs he).2.2 native
      rw [hsame, if_pos rfl] at hheld
      omega
  | release p pfn =>
    obtain ⟨native, -, -, ⟨hp, -⟩ | ⟨-, he⟩⟩ := countHandle_cases h
    · exact hc (.inl hp)
    · have hheld := (release_spec hs he).2.2 native
      rw [hsame, if_pos rfl] at hheld
      omega

/-- **The loader's handles are counted** in runs without a failed retain or release,
and such a call is the one that changes what it should not. -/
theorem loader_handles_counted {s : LoaderState} {t : Tally}
    (h : Translated LoaderCall.Succeeds s t) :
    HandlesCounted s t ∧
    ∀ c o, s.step c = some o → ((¬ c.Succeeds → o.state = s) ↔ c.Succeeds) := by
  refine ⟨⟨h.matched.live, h.linked.object, ?_⟩, fun c o hs => ⟨fun himp => ?_, fun hc hf => ?_⟩⟩
  · intro c o u c' o' k p p' hs hx hstay hs' hx'
    exact same_object h.linked hs hx hstay hs' hx'
  · by_contra hc
    exact moved_of_failed h.linked hs hc (himp hc)
  · exact absurd hc hf

/-- A handle is got, retained and released once. -/
theorem loader_handles_counted_after_get :
    ∃ s t, t.acquired 7 = 2 ∧ t.dropped 7 = 1 ∧ (s.map 7).isSome ∧ HandlesCounted s t ∧
      ∀ c o, s.step c = some o → ((¬ c.Succeeds → o.state = s) ↔ c.Succeeds) := by
  have hget := @Translated.step LoaderCall.Succeeds _ _
    (.outputs .onSuccess (some .success) [(7, some 100)]) _ .init trivial rfl
  have hretained := Translated.step (.retain 100 (some .success)) _ hget (.inr rfl) rfl
  have hreleased := Translated.step (.release 100 (some .success)) _ hretained (.inr rfl) rfl
  exact ⟨_, _, by decide, by decide, by decide, loader_handles_counted hreleased⟩

/-- A release that fails frees the object of a handle that is held once, and after a
retain that fails the object outlives the last release. -/
theorem loader_handles_miscounted :
    (∃ s t, Translated (fun _ => True) s t ∧
      t.dropped 7 = 0 ∧ t.acquired 7 = 1 ∧ s.map 7 = none ∧ s.objects 100 = none) ∧
    (∃ s t, Translated (fun _ => True) s t ∧
      t.dropped 7 = 1 ∧ t.acquired 7 = 1 ∧ (s.map 7).isSome) := by
  have hget := @Translated.step (fun _ => True) _ _
    (.outputs .onSuccess (some .success) [(7, some 100)]) _ .init trivial rfl
  refine ⟨⟨_, _, .step (.release 100 (some (.error 1))) _ hget trivial rfl, ?_⟩,
    ⟨_, _, .step (.release 100 (some .success)) _
      (.step (.retain 100 (some (.error 1))) _ hget trivial rfl) trivial rfl, ?_⟩⟩
  · decide
  · decide

end UnifiedRuntime.Loader
