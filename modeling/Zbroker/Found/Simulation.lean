import Zbroker.Found.Transition

/-!
# Simulation with silent steps

A system simulates another one if each step of the other is matched by some steps of its own, or by
none, and both let see the same.

* `observed_append` — what a run lets see is seen on its parts.
* `exists_simulating_run` — **the simulation rule**: what is matched step by step is matched run by
  run.
-/

namespace Zbroker.Found.Transition

variable {σ α τ β ω : Type*} {stepS : σ → α → Option σ} {stepT : τ → β → Option τ}

/-- What is seen on the parts of a run. -/
theorem observed_append {see : σ → α → σ → Option ω} {s t : σ} {as : List α}
    (h : run stepS s as = some t) (bs : List α) :
    observed stepS see s (as ++ bs) = observed stepS see s as ++ observed stepS see t bs := by
  induction as generalizing s with
  | nil =>
      cases h
      rfl
  | cons a as ih =>
      obtain ⟨u, hu, hrest⟩ := (run_cons_eq_some _).mp h
      rw [List.cons_append, observed_cons hu, observed_cons hu, ih hrest, List.append_assoc]

/-- **The simulation rule.** -/
theorem exists_simulating_run {R : σ → τ → Prop} {C : σ → α → Prop}
    {seeS : σ → α → σ → Option ω} {seeT : τ → β → τ → Option ω}
    (hstep : ∀ s a s' t, R s t → C s a → stepS s a = some s' →
      ∃ bs t', run stepT t bs = some t' ∧ observed stepT seeT t bs = (seeS s a s').toList ∧ R s' t')
    {s s' : σ} {t : τ} {as : List α} (hR : R s t) (hC : Guarded stepS C s as)
    (hrun : run stepS s as = some s') :
    ∃ bs t', run stepT t bs = some t' ∧
      observed stepT seeT t bs = observed stepS seeS s as ∧ R s' t' := by
  induction as generalizing s t with
  | nil =>
      cases hrun
      exact ⟨[], t, rfl, rfl, hR⟩
  | cons a as ih =>
      obtain ⟨u, hu, hrest⟩ := (run_cons_eq_some _).mp hrun
      obtain ⟨bs, v, hv, hsee, hR'⟩ := hstep s a u t hR hC.1 hu
      obtain ⟨cs, w, hw, hsees, hRw⟩ := ih hR' (hC.2 u hu) hrest
      refine ⟨bs ++ cs, w, ?_, ?_, hRw⟩
      · rw [run_append, hv]
        exact hw
      · rw [observed_append hv, hsee, hsees, observed_cons hu]

end Zbroker.Found.Transition
