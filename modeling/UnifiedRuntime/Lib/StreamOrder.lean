import Mathlib

/-!
# Streams, events and what they order

A host puts work on streams. What is put on one stream runs in that order; an
event recorded on a stream fires once everything put there before has run; a
stream that waits for an event runs nothing further before the event's last
recording has fired; and the host can wait for a stream or see that an event has
fired. The host's operations form a log, newest first.

`past log s` collects the launches that everything put on `s` next comes after,
`mark log e` those that `e` stands for, and `known log` those the host has waited
for. They are read off the log alone; `Timed` says which running times the log
allows, and `precedes_of_mem` connects the two: a launch comes after everything
in the past of its stream and everything the host knew of, whatever the times.
-/

namespace UnifiedRuntime

open Function (update update_of_ne update_self)

variable {S E C : Type}

/-- What the host does. -/
inductive StreamOp (S E C : Type)
  /-- Put a piece of work on a stream. -/
  | launch (s : S) (c : C)
  /-- Record an event on a stream. -/
  | record (e : E) (s : S)
  /-- Let a stream wait for an event. -/
  | wait (s : S) (e : E)
  /-- Wait on the host until a stream is empty. -/
  | sync (s : S)
  /-- See on the host that an event has fired. -/
  | observe (e : E)

variable [DecidableEq S] [DecidableEq E]

mutual

/-- What everything put on the stream next comes after. -/
def past : List (StreamOp S E C) → S → List C
  | [], _ => []
  | .launch s' c :: log, s => if s = s' then c :: past log s else past log s
  | .wait s' e :: log, s => if s = s' then mark log e ++ past log s else past log s
  | .record _ _ :: log, s => past log s
  | .sync _ :: log, s => past log s
  | .observe _ :: log, s => past log s

/-- What the event stands for since it was last recorded. -/
def mark : List (StreamOp S E C) → E → List C
  | [], _ => []
  | .record e' s :: log, e => if e = e' then past log s else mark log e
  | .launch _ _ :: log, e => mark log e
  | .wait _ _ :: log, e => mark log e
  | .sync _ :: log, e => mark log e
  | .observe _ :: log, e => mark log e

end

/-- What the host has waited for. -/
def known : List (StreamOp S E C) → List C
  | [] => []
  | .sync s :: log => past log s ++ known log
  | .observe e :: log => mark log e ++ known log
  | .launch _ _ :: log => known log
  | .record _ _ :: log => known log
  | .wait _ _ :: log => known log

/-! ## The log grows -/

variable {log : List (StreamOp S E C)} {op : StreamOp S E C} {s s' : S} {e e' : E} {c x : C}

/-- A stream's past only grows. -/
theorem past_mono (hx : x ∈ past log s) : x ∈ past (op :: log) s := by
  cases op with
  | launch s' c =>
    simp only [past]
    split
    · exact List.mem_cons_of_mem _ hx
    · exact hx
  | wait s' e =>
    simp only [past]
    split
    · exact List.mem_append_right _ hx
    · exact hx
  | record => simpa only [past] using hx
  | sync => simpa only [past] using hx
  | observe => simpa only [past] using hx

/-- So does what the host knows. -/
theorem known_mono (hx : x ∈ known log) : x ∈ known (op :: log) := by
  cases op with
  | sync s => exact List.mem_append_right _ hx
  | observe e => exact List.mem_append_right _ hx
  | launch => exact hx
  | record => exact hx
  | wait => exact hx

/-- Only recording an event changes what it stands for. -/
theorem mark_of_ne (h : ∀ s, op ≠ .record e s) : mark (op :: log) e = mark log e := by
  cases op with
  | record e' s =>
    have hne : e ≠ e' := fun heq => h s (heq ▸ rfl)
    simp [mark, if_neg hne]
  | launch => simp [mark]
  | wait => simp [mark]
  | sync => simp [mark]
  | observe => simp [mark]

theorem mark_record : mark (.record e s :: log) e = past log s := by
  simp [mark]

theorem mem_past_launch : c ∈ past (.launch s c :: log) s := by
  simp [past]

theorem mem_past_wait (hx : x ∈ mark log e) : x ∈ past (.wait s e :: log) s := by
  simp only [past, if_pos]
  exact List.mem_append_left _ hx

theorem mem_known_sync (hx : x ∈ past log s) : x ∈ known (.sync s :: log) :=
  List.mem_append_left _ hx

/-- The same over any number of operations. -/
theorem past_suffix {log' : List (StreamOp S E C)} (h : log <:+ log') (hx : x ∈ past log s) :
    x ∈ past log' s := by
  obtain ⟨front, rfl⟩ := h
  induction front with
  | nil => exact hx
  | cons op front ih => exact past_mono ih

theorem known_suffix {log' : List (StreamOp S E C)} (h : log <:+ log') (hx : x ∈ known log) :
    x ∈ known log' := by
  obtain ⟨front, rfl⟩ := h
  induction front with
  | nil => exact hx
  | cons op front ih => exact known_mono ih

/-! ## Running times -/

/-- The times a log allows. `start` and `stop` are those of the launched work;
`clear s` is when stream `s` has run all it was given, `fired e` when `e` fires,
and `host` is the host's clock after the log. -/
inductive Timed (start stop : C → Nat) :
    List (StreamOp S E C) → (S → Nat) → (E → Nat) → Nat → Prop
  | nil (clear : S → Nat) (fired : E → Nat) (host : Nat) : Timed start stop [] clear fired host
  | launch {log clear fired host} {s : S} {c : C} {t : Nat} :
      Timed start stop log clear fired host → clear s ≤ start c → host ≤ start c →
      start c ≤ stop c → stop c ≤ t →
      Timed start stop (.launch s c :: log) (update clear s t) fired host
  | record {log clear fired host} {s : S} {e : E} {t : Nat} :
      Timed start stop log clear fired host → clear s ≤ t →
      Timed start stop (.record e s :: log) clear (update fired e t) host
  | wait {log clear fired host} {s : S} {e : E} {t : Nat} :
      Timed start stop log clear fired host → clear s ≤ t → fired e ≤ t →
      Timed start stop (.wait s e :: log) (update clear s t) fired host
  | sync {log clear fired host} {s : S} {t : Nat} :
      Timed start stop log clear fired host → host ≤ t → clear s ≤ t →
      Timed start stop (.sync s :: log) clear fired t
  | observe {log clear fired host} {e : E} {t : Nat} :
      Timed start stop log clear fired host → host ≤ t → fired e ≤ t →
      Timed start stop (.observe e :: log) clear fired t

/-- What `past`, `mark` and `known` collect has run by the respective time. -/
structure RunBy (start stop : C → Nat) (log : List (StreamOp S E C)) (clear : S → Nat)
    (fired : E → Nat) (host : Nat) : Prop where
  past : ∀ s, ∀ x ∈ past log s, stop x ≤ clear s
  mark : ∀ e, ∀ x ∈ mark log e, stop x ≤ fired e
  known : ∀ x ∈ known log, stop x ≤ host

theorem Timed.runBy {start stop : C → Nat} {clear : S → Nat} {fired : E → Nat} {host : Nat}
    (h : Timed start stop log clear fired host) : RunBy start stop log clear fired host := by
  induction h with
  | nil =>
    refine ⟨fun s x hx => ?_, fun e x hx => ?_, fun x hx => ?_⟩
    · simp only [UnifiedRuntime.past, List.not_mem_nil] at hx
    · simp only [UnifiedRuntime.mark, List.not_mem_nil] at hx
    · simp only [UnifiedRuntime.known, List.not_mem_nil] at hx
  | @launch log clear fired host s c t _ hclear _ hrun hstop ih =>
    refine ⟨fun s' x hx => ?_, ih.mark, ih.known⟩
    by_cases hs : s' = s
    · subst hs
      rw [update_self]
      simp only [UnifiedRuntime.past, if_pos, List.mem_cons] at hx
      rcases hx with rfl | hx
      · exact hstop
      · have := ih.past s' x hx
        omega
    · rw [update_of_ne hs]
      simp only [UnifiedRuntime.past, if_neg hs] at hx
      exact ih.past s' x hx
  | @record log clear fired host s e t _ hclear ih =>
    refine ⟨ih.past, fun e' x hx => ?_, ih.known⟩
    by_cases he : e' = e
    · subst he
      rw [update_self]
      rw [mark_record] at hx
      exact Nat.le_trans (ih.past s x hx) hclear
    · rw [update_of_ne he]
      simp only [UnifiedRuntime.mark, if_neg he] at hx
      exact ih.mark e' x hx
  | @wait log clear fired host s e t _ hclear hfired ih =>
    refine ⟨fun s' x hx => ?_, ih.mark, ih.known⟩
    by_cases hs : s' = s
    · subst hs
      rw [update_self]
      simp only [UnifiedRuntime.past, if_pos, List.mem_append] at hx
      rcases hx with hx | hx
      · exact Nat.le_trans (ih.mark e x hx) hfired
      · exact Nat.le_trans (ih.past s' x hx) hclear
    · rw [update_of_ne hs]
      simp only [UnifiedRuntime.past, if_neg hs] at hx
      exact ih.past s' x hx
  | @sync log clear fired host s t _ hhost hclear ih =>
    refine ⟨ih.past, ih.mark, fun x hx => ?_⟩
    rcases List.mem_append.mp hx with hx | hx
    · exact Nat.le_trans (ih.past s x hx) hclear
    · exact Nat.le_trans (ih.known x hx) hhost
  | @observe log clear fired host e t _ hhost hfired ih =>
    refine ⟨ih.past, ih.mark, fun x hx => ?_⟩
    rcases List.mem_append.mp hx with hx | hx
    · exact Nat.le_trans (ih.mark e x hx) hfired
    · exact Nat.le_trans (ih.known x hx) hhost

/-- The times of a log are times of what came before. -/
theorem Timed.tail {start stop : C → Nat} {clear : S → Nat} {fired : E → Nat} {host : Nat}
    (h : Timed start stop (op :: log) clear fired host) :
    ∃ clear' fired' host', Timed start stop log clear' fired' host' := by
  cases h with
  | launch h => exact ⟨_, _, _, h⟩
  | record h => exact ⟨_, _, _, h⟩
  | wait h => exact ⟨_, _, _, h⟩
  | sync h => exact ⟨_, _, _, h⟩
  | observe h => exact ⟨_, _, _, h⟩

/-- Whatever the running times, `x` has stopped when `c` starts. -/
def Precedes (log : List (StreamOp S E C)) (x c : C) : Prop :=
  ∀ (start stop : C → Nat) (clear : S → Nat) (fired : E → Nat) (host : Nat),
    Timed start stop log clear fired host → stop x ≤ start c

theorem Precedes.cons (h : Precedes log x c) : Precedes (op :: log) x c := by
  intro start stop clear fired host ht
  obtain ⟨clear', fired', host', ht'⟩ := ht.tail
  exact h _ _ _ _ _ ht'

theorem Precedes.suffix {log' : List (StreamOp S E C)} (hl : log <:+ log')
    (h : Precedes log x c) : Precedes log' x c := by
  obtain ⟨front, rfl⟩ := hl
  induction front with
  | nil => exact h
  | cons op front ih => exact ih.cons

/-- **A launch comes after its stream's past and after what the host knew.** -/
theorem precedes_of_mem (hx : x ∈ past log s ∨ x ∈ known log) :
    Precedes (.launch s c :: log) x c := by
  intro start stop clear fired host ht
  cases ht with
  | launch ht hclear hhost _ _ =>
    rcases hx with hx | hx
    · exact Nat.le_trans (ht.runBy.past s x hx) hclear
    · exact Nat.le_trans (ht.runBy.known x hx) hhost

/-! ## What a launch waits for -/

variable [DecidableEq C]

/-- What the last launch of `c` comes after. -/
def behind : List (StreamOp S E C) → C → List C
  | [], _ => []
  | .launch s c' :: log, c => if c = c' then past log s ++ known log else behind log c
  | .record _ _ :: log, c => behind log c
  | .wait _ _ :: log, c => behind log c
  | .sync _ :: log, c => behind log c
  | .observe _ :: log, c => behind log c

theorem behind_launch : behind (.launch s c :: log) c = past log s ++ known log := by
  simp [behind]

theorem precedes_of_mem_behind (h : x ∈ behind log c) : Precedes log x c := by
  induction log with
  | nil => exact absurd h List.not_mem_nil
  | cons op log ih =>
    cases op with
    | launch s c' =>
      simp only [behind] at h
      split at h
      next heq =>
        subst heq
        exact precedes_of_mem (List.mem_append.mp h)
      next => exact (ih h).cons
    | record => exact (ih h).cons
    | wait => exact (ih h).cons
    | sync => exact (ih h).cons
    | observe => exact (ih h).cons

end UnifiedRuntime
