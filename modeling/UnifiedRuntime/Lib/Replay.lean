import Mathlib

/-!
# Replaying a list of pending updates

Updates wait in lists and are applied later, in order. An update of `a` brings
about `Good a`; an update that clashes with `a` may destroy it. A list is
`Settled` for `a` when each entry that clashes with `a` is `a` itself or is
followed by it: replaying the list then leaves `a` good.
-/

namespace UnifiedRuntime

variable {ε σ : Type} {Clash : ε → ε → Prop} {a x : ε} {l : List ε}

/-- Every entry that clashes with `a` is `a`, or `a` stands after it. -/
def Settled (Clash : ε → ε → Prop) (a : ε) : List ε → Prop
  | [] => True
  | e :: l => (Clash e a → e = a ∨ a ∈ l) ∧ Settled Clash a l

theorem settled_of_forall : ∀ {l : List ε}, (∀ e ∈ l, ¬ Clash e a) → Settled Clash a l
  | [], _ => trivial
  | e :: _, h =>
    ⟨fun hc => absurd hc (h e List.mem_cons_self),
      settled_of_forall fun e' he => h e' (List.mem_cons_of_mem _ he)⟩

/-- Entries that do not clash may be added. -/
theorem Settled.append {l' : List ε} (hx : ∀ x ∈ l', ¬ Clash x a) : ∀ {l : List ε},
    Settled Clash a l → Settled Clash a (l ++ l')
  | [], _ => settled_of_forall hx
  | _ :: _, h =>
    ⟨fun hc => (h.1 hc).imp_right (List.mem_append_left _), Settled.append hx h.2⟩

/-- The entry of `a` settles whatever stands before it. -/
theorem settled_append_of_mem {l' : List ε} (ha : a ∈ l') (h : Settled Clash a l') :
    ∀ l : List ε, Settled Clash a (l ++ l')
  | [] => h
  | _ :: l => ⟨fun _ => .inr (List.mem_append_right _ ha), settled_append_of_mem ha h l⟩

theorem settled_replicate : ∀ n : Nat, Settled Clash a (List.replicate n a)
  | 0 => trivial
  | n + 1 => ⟨fun _ => .inl rfl, settled_replicate n⟩

theorem Settled.mono {Clash' : ε → ε → Prop} : ∀ {l : List ε},
    (∀ e ∈ l, Clash' e a → Clash e a) → Settled Clash a l → Settled Clash' a l
  | [], _, _ => trivial
  | e :: _, h, hs =>
    ⟨fun hc => hs.1 (h e List.mem_cons_self hc),
      hs.2.mono fun e' he => h e' (List.mem_cons_of_mem _ he)⟩

/-- What stands before an entry does not matter. -/
theorem Settled.split : ∀ {l l' : List ε} {e : ε}, Settled Clash a (l ++ e :: l') → Clash e a →
    e = a ∨ a ∈ l'
  | [], _, _, h, hc => h.1 hc
  | _ :: _, _, _, h, hc => h.2.split hc

/-- A settled list without `a` does not clash with it. -/
theorem Settled.not_clash : ∀ {l : List ε}, Settled Clash a l → a ∉ l → ∀ e ∈ l, ¬ Clash e a
  | e :: l, h, ha, e', he', hc => by
    have hl : a ∉ l := fun hm => ha (List.mem_cons_of_mem _ hm)
    rcases List.mem_cons.mp he' with rfl | he'
    · rcases h.1 hc with rfl | hm
      · exact ha List.mem_cons_self
      · exact hl hm
    · exact h.2.not_clash hl e' he' hc

/-- **Replay.** -/
theorem Settled.replay {apply : σ → ε → σ} (Good : σ → Prop) :
    ∀ {l : List ε} {s : σ}, Settled Clash a l → (∀ s, Good (apply s a)) →
      (∀ e ∈ l, ∀ s, ¬ Clash e a → Good s → Good (apply s e)) → (a ∈ l ∨ Good s) →
      Good (l.foldl apply s)
  | [], s, _, _, _, h => h.elim (fun hm => absurd hm List.not_mem_nil) id
  | e :: l, s, hs, hself, hother, h => by
    refine hs.2.replay Good hself (fun e' he' => hother e' (List.mem_cons_of_mem _ he')) ?_
    by_cases hl : a ∈ l
    · exact .inl hl
    · right
      by_cases he : e = a
      · rw [he]
        exact hself s
      · -- the entry does not clash, and `a` was good before it
        have hc : ¬ Clash e a := fun hc => (hs.1 hc).elim he hl
        refine hother e List.mem_cons_self s hc (h.resolve_left fun hm => ?_)
        rcases List.mem_cons.mp hm with rfl | hm
        · exact he rfl
        · exact hl hm

end UnifiedRuntime
