import Mathlib

/-!
# Loops that can fail

`List.foldlM` in `Except` is a loop with early error returns. The rules here are
the ones the models use: an element on which every state fails makes the loop
fail, what each successful round preserves holds of the result, a size that no
round makes smaller tells whether a round made it larger, and a loop that appends
what it keeps is a filter.
-/

namespace UnifiedRuntime

variable {α β ε : Type}

theorem except_bind_ok {x : Except ε α} {f : α → Except ε β} {r : β} (h : (x >>= f) = .ok r) :
    ∃ a, x = .ok a ∧ f a = .ok r := by
  cases x with
  | error e => exact absurd h (by simp [bind, Except.bind])
  | ok a => exact ⟨a, rfl, h⟩

theorem except_bind_error {x : Except ε α} {f : α → Except ε β} {e : ε}
    (h : (x >>= f) = .error e) : x = .error e ∨ ∃ a, x = .ok a ∧ f a = .error e := by
  cases x with
  | error e' => exact Or.inl (congrArg Except.error (Except.error.inj h))
  | ok a => exact Or.inr ⟨a, rfl, h⟩

theorem except_map_ok {x : Except ε α} {f : α → β} {r : β} (h : x.map f = .ok r) :
    ∃ a, x = .ok a ∧ f a = r := by
  cases x with
  | error e => cases h
  | ok a => exact ⟨a, rfl, Except.ok.inj h⟩

variable {step : β → α → Except ε β}

/-- What fails a loop failed one of its rounds. -/
theorem foldlM_error_of {P : ε → Prop} (hstep : ∀ b a e, step b a = .error e → P e) :
    ∀ {l : List α} {b : β} {e : ε}, l.foldlM step b = .error e → P e := by
  intro l
  induction l with
  | nil => intro b e h; cases h
  | cons x l ih =>
    intro b e h
    rcases except_bind_error h with hx | ⟨b', -, hrest⟩
    · exact hstep b x e hx
    · exact ih hrest

/-- One element that always fails stops the loop. -/
theorem foldlM_error (step : β → α → Except ε β) : ∀ {l : List α} (b : β) {a : α},
    a ∈ l → (∀ b, ∃ e, step b a = .error e) → ∃ e, l.foldlM step b = .error e := by
  intro l
  induction l with
  | nil => intro b a ha; exact absurd ha List.not_mem_nil
  | cons x l ih =>
    intro b a ha hstep
    rw [List.foldlM_cons]
    cases hx : step b x with
    | error e => exact ⟨e, rfl⟩
    | ok b' =>
      rcases List.mem_cons.mp ha with rfl | ha
      · obtain ⟨e, he⟩ := hstep b
        rw [he] at hx
        exact absurd hx (by simp)
      · exact ih b' ha hstep

/-- The invariant rule for a loop that can fail. -/
theorem foldlM_invariant {P : β → Prop} (hstep : ∀ b a b', step b a = .ok b' → P b → P b') :
    ∀ {l : List α} {b r : β}, l.foldlM step b = .ok r → P b → P r := by
  intro l
  induction l with
  | nil =>
    intro b r h hb
    exact Except.ok.inj h ▸ hb
  | cons x l ih =>
    intro b r h hb
    obtain ⟨b', hx, hrest⟩ := except_bind_ok h
    exact ih hrest (hstep b x b' hx hb)

/-- A loop all of whose rounds are passed by. -/
theorem foldlM_skip {b : β} : ∀ {l : List α},
    (∀ a ∈ l, step b a = .ok b) → l.foldlM step b = .ok b := by
  intro l
  induction l with
  | nil => intro _; rfl
  | cons x l ih =>
    intro h
    rw [List.foldlM_cons, h x List.mem_cons_self]
    exact ih fun a ha => h a (List.mem_cons_of_mem _ ha)

/-- A size that each round keeps or makes larger is kept by the loop exactly if every round
keeps it. -/
theorem foldlM_size {size : β → Nat} {q : α → Prop} (hstep : ∀ b a b', step b a = .ok b' →
      (q a ∧ size b' = size b) ∨ (¬ q a ∧ size b < size b')) :
    ∀ {l : List α} {b r : β}, l.foldlM step b = .ok r →
      size b ≤ size r ∧ (size r = size b ↔ ∀ a ∈ l, q a) := by
  intro l
  induction l with
  | nil =>
    intro b r h
    obtain rfl := Except.ok.inj h
    exact ⟨le_rfl, fun _ a ha => absurd ha List.not_mem_nil, fun _ => rfl⟩
  | cons x l ih =>
    intro b r h
    obtain ⟨b', hx, hrest⟩ := except_bind_ok h
    obtain ⟨hle, hiff⟩ := ih hrest
    rw [List.forall_mem_cons]
    rcases hstep b x b' hx with ⟨hq, heq⟩ | ⟨hq, hlt⟩
    · rw [← hiff, heq]
      exact ⟨by omega, fun h => ⟨hq, h⟩, fun h => h.2⟩
    · exact ⟨by omega, fun h => by omega, fun h => absurd h.1 hq⟩

/-- A loop that appends what it keeps is a filter. -/
theorem foldlM_append_filter {p : α → Bool} : ∀ (l kept : List α),
    l.foldlM (m := Except ε) (fun kept a => .ok (if p a then kept ++ [a] else kept)) kept
      = .ok (kept ++ l.filter p) := by
  intro l
  induction l with
  | nil => intro kept; rw [List.filter_nil, List.append_nil]; rfl
  | cons x l ih =>
    intro kept
    change l.foldlM _ _ = _
    rw [ih]
    cases hp : p x <;> simp [hp]

end UnifiedRuntime
