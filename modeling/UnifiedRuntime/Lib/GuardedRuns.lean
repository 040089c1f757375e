/-!
# Runs with a condition on every call

A run is a list of calls from a state. A property of the calls holds along a run if it holds of
every call in the state the call is made in.

- `Along.invariant`: what the calls keep.
- `along_iff`: where every call is right exactly under a condition that keeps the invariant, a
  run is right exactly if all its calls meet the condition.
-/

namespace UnifiedRuntime

variable {σ ι : Type} {step : σ → ι → σ} {P Q : σ → ι → Prop} {Inv : σ → Prop}

/-- Every call of the run meets `P`. -/
def Along (step : σ → ι → σ) (P : σ → ι → Prop) : σ → List ι → Prop
  | _, [] => True
  | s, call :: calls => P s call ∧ Along step P (step s call) calls

instance decidableAlong [∀ s call, Decidable (P s call)] :
    (s : σ) → (calls : List ι) → Decidable (Along step P s calls)
  | _, [] => .isTrue trivial
  | s, call :: calls =>
    have := decidableAlong (step s call) calls
    inferInstanceAs (Decidable (P s call ∧ Along step P (step s call) calls))

theorem Along.mono (hPQ : ∀ s call, P s call → Q s call) : ∀ {calls : List ι} {s : σ},
    Along step P s calls → Along step Q s calls
  | [], _, _ => trivial
  | call :: _, s, h => ⟨hPQ s call h.1, Along.mono hPQ h.2⟩

theorem Along.and : ∀ {calls : List ι} {s : σ}, Along step P s calls → Along step Q s calls →
    Along step (fun s call => P s call ∧ Q s call) s calls
  | [], _, _, _ => trivial
  | _ :: _, _, hP, hQ => ⟨⟨hP.1, hQ.1⟩, Along.and hP.2 hQ.2⟩

/-- The invariant holds before every call and at the end. -/
theorem Along.invariant (hstep : ∀ s call, Inv s → P s call → Inv (step s call)) :
    ∀ {calls : List ι} {s : σ}, Inv s → Along step P s calls →
      Along step (fun s _ => Inv s) s calls ∧ Inv (calls.foldl step s)
  | [], _, hs, _ => ⟨trivial, hs⟩
  | call :: _, s, hs, h =>
    have hrest := Along.invariant hstep (hstep s call hs h.1) h.2
    ⟨⟨hs, hrest.1⟩, hrest.2⟩

/-- **A run is right exactly if its calls meet the condition.** -/
theorem along_iff {Allowed Right Fine : σ → ι → Prop}
    (hright : ∀ s call, Inv s → Allowed s call → (Right s call ↔ Fine s call))
    (hstep : ∀ s call, Inv s → Allowed s call → Fine s call → Inv (step s call)) :
    ∀ {calls : List ι} {s : σ}, Inv s → Along step Allowed s calls →
      (Along step Right s calls ↔ Along step Fine s calls)
  | [], _, _, _ => Iff.rfl
  | call :: calls, s, hs, hallowed => by
    have hcall := hright s call hs hallowed.1
    -- the invariant is there for the rest of the run only where the call meets the condition
    have hrest : Fine s call → (Along step Right (step s call) calls ↔
        Along step Fine (step s call) calls) := fun hfine =>
      along_iff hright hstep (hstep s call hs hallowed.1 hfine) hallowed.2
    constructor
    · intro h
      have hfine := hcall.mp h.1
      exact ⟨hfine, (hrest hfine).mp h.2⟩
    · intro h
      exact ⟨hcall.mpr h.1, (hrest h.1).mpr h.2⟩

end UnifiedRuntime
