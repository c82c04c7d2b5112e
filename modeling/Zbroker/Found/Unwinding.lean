import Zbroker.Found.Transition

/-!
# A run without the actions that do not concern

One component of a system is not disturbed by the others if leaving out the actions that do not
concern it changes nothing that it can see. `keep` tells the actions that do, and `R t t'` says that
the states `t` and `t'` look the same to the component.

* `exists_run_filter` — **the unwinding rule**: when a kept action can be taken on both sides and
  keeps `R`, and one that is left out keeps it with the other side standing still, the schedule
  without the latter can be run, and leads to a state that looks the same.

What is asked of a step may use the schedule before it, as whether an action concerns the component
is often settled by an earlier one.
-/

namespace Zbroker.Found.Transition

variable {σ α : Type*} {step : σ → α → Option σ}

/-- **The unwinding rule.** -/
theorem exists_run_filter {R : σ → σ → Prop} (keep : α → Bool) {s s' u : σ} {as : List α}
    (hkeep : ∀ bs a t t' v, bs ++ [a] <+: as → run step s bs = some t → step t a = some v →
      R t t' → keep a = true → ∃ v', step t' a = some v' ∧ R v v')
    (hdrop : ∀ bs a t t' v, bs ++ [a] <+: as → run step s bs = some t → step t a = some v →
      R t t' → keep a = false → R v t')
    (hs : R s s') (hrun : run step s as = some u) :
    ∃ u', run step s' (as.filter keep) = some u' ∧ R u u' := by
  suffices h : ∀ bs, bs <+: as → ∀ t, run step s bs = some t →
      ∃ t', run step s' (bs.filter keep) = some t' ∧ R t t' from
    h as List.prefix_rfl u hrun
  intro bs
  induction bs using List.reverseRecOn with
  | nil =>
      intro _ t ht
      cases ht
      exact ⟨s', rfl, hs⟩
  | append_singleton bs a ih =>
      intro hprefix v hv
      obtain ⟨t, ht, hstep⟩ := run_concat_eq_some.mp hv
      obtain ⟨t', ht', hR⟩ := ih ((List.prefix_append bs [a]).trans hprefix) t ht
      rw [List.filter_append]
      rcases hka : keep a with _ | _
      · refine ⟨t', ?_, hdrop bs a t t' v hprefix ht hstep hR hka⟩
        rw [List.filter_cons_of_neg (by simp [hka]), List.filter_nil, List.append_nil]
        exact ht'
      · obtain ⟨v', hstep', hR'⟩ := hkeep bs a t t' v hprefix ht hstep hR hka
        refine ⟨v', ?_, hR'⟩
        rw [List.filter_cons_of_pos hka, List.filter_nil]
        exact run_concat ht' hstep'

end Zbroker.Found.Transition
