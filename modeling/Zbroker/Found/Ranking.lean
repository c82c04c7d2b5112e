import Mathlib.Algebra.GroupWithZero.Nat
import Zbroker.Found.Transition

/-!
# Runs that come to an end

A rank that every step lowers bounds the length of every run. Where some actions come from outside
and may raise it, each by no more than it grants, the bound grows by what the actions of the run
grant.

* `Ranked step C I rank grant` — the steps that meet `C` keep `I`, and lower the rank up to what they
  grant.
* `Ranked.length_le` — **the bound**: a run is at most as long as its rank at the start and its
  grants together.
* `Ranked.countP_le` — when some actions lower the rank and the others do not raise it, the rank bounds
  the number of the former.
-/

namespace Zbroker.Found.Transition

variable {σ α : Type*}

/-- Every step that meets `C` keeps `I`, and lowers the rank, up to what its action grants. -/
structure Ranked (step : σ → α → Option σ) (C : σ → α → Prop) (I : σ → Prop) (rank : σ → ℕ)
    (grant : α → ℕ) : Prop where
  keeps : ∀ s a t, I s → C s a → step s a = some t → I t
  pays : ∀ s a t, I s → C s a → step s a = some t → rank t < rank s + grant a

section ranked

variable {step : σ → α → Option σ} {C : σ → α → Prop} {I : σ → Prop} {rank : σ → ℕ} {grant : α → ℕ}

/-- **The bound.** The length of a run and what is left of the rank are paid by the rank at the start
and by the grants. -/
theorem Ranked.length_le (h : Ranked step C I rank grant) {s t : σ} {as : List α} (hs : I s)
    (hC : Guarded step C s as) (hrun : run step s as = some t) :
    as.length + rank t ≤ rank s + (as.map grant).sum := by
  induction as generalizing s with
  | nil =>
      cases hrun
      simp
  | cons a as ih =>
      obtain ⟨u, hu, hrest⟩ := (run_cons_eq_some step).mp hrun
      have hrest' := ih (h.keeps s a u hs hC.1 hu) (hC.2 u hu) hrest
      have hpays := h.pays s a u hs hC.1 hu
      rw [List.length_cons, List.map_cons, List.sum_cons]
      omega

/-- **The bound on some actions.** When these lower the rank, and no other action raises it, their number
and what is left of the rank are paid by the rank at the start. -/
theorem Ranked.countP_le {p : α → Bool} (h : Ranked step C I rank fun a => if p a then 0 else 1)
    {s t : σ} {as : List α} (hs : I s) (hC : Guarded step C s as) (hrun : run step s as = some t) :
    as.countP p + rank t ≤ rank s := by
  have hle := h.length_le hs hC hrun
  have hgrants : ∀ as : List α,
      (as.map fun a => if p a then 0 else 1).sum + as.countP p = as.length := by
    intro as
    induction as with
    | nil => rfl
    | cons a as ih =>
        rw [List.map_cons, List.sum_cons, List.countP_cons, List.length_cons]
        split_ifs <;> omega
  have hall := hgrants as
  omega

end ranked

end Zbroker.Found.Transition
