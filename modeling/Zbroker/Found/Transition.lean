import Mathlib.Data.List.Induction

/-!
# Runs of a labelled partial step function

A system is given by `step : σ → α → Option σ`: the state reached when the action `a` is taken
in `s`, or `none` when `a` is not enabled there. A schedule is a list of actions.

* `run step s as` — the state after the schedule `as`, if every action of it is enabled.
* `Guarded step C s as` — every action of the schedule is taken in a state where `C` holds of
  the two. A statement "in every run whose steps all meet `C`" is a statement about guarded
  runs.
* `run_invariant` — **the induction rule**: what one guarded step preserves, a guarded run
  preserves. Every safety theorem about a system is an instance of it, or of
  `run_history_invariant`, where the invariant speaks of the schedule so far.
* `forall_prefix_iff_guarded` — when one step keeps the property exactly if it meets `C`, a run
  has the property all along exactly if it is guarded by `C`.
* `observed step see s as` — what the steps of a run let see; `observed_concat` adds a step.
* `exists_run_of_progress` — **the progress rule**: when some steps make a measure smaller until
  a state is done, a run leads there.
-/

namespace Zbroker.Found.Transition

variable {σ α : Type*} (step : σ → α → Option σ)

/-! ## Runs -/

/-- The state after a schedule, if all its actions are enabled. -/
def run : σ → List α → Option σ
  | s, [] => some s
  | s, a :: as => (step s a).bind fun t => run t as

@[simp] theorem run_nil (s : σ) : run step s [] = some s := rfl

/-- The first action, and then the others. -/
theorem run_cons (s : σ) (a : α) (as : List α) :
    run step s (a :: as) = (step s a).bind fun t => run step t as := rfl

/-- A nonempty run is a step and a run. -/
theorem run_cons_eq_some {s u : σ} {a : α} {as : List α} :
    run step s (a :: as) = some u ↔ ∃ t, step s a = some t ∧ run step t as = some u := by
  rw [run_cons, Option.bind_eq_some_iff]

/-- A run splits at every point of its schedule. -/
theorem run_append (s : σ) (as bs : List α) :
    run step s (as ++ bs) = (run step s as).bind fun t => run step t bs := by
  induction as generalizing s with
  | nil => rfl
  | cons a as ih =>
      rw [List.cons_append, run_cons, run_cons, Option.bind_assoc]
      exact congrArg _ (funext fun t => ih t)

/-- A run that can be evaluated, up to a property of its last state that can be decided. -/
theorem exists_run_of_any {s : σ} {as : List α} {P : σ → Prop} [DecidablePred P]
    (h : (run step s as).any (fun t => decide (P t)) = true) :
    ∃ t, run step s as = some t ∧ P t := by
  obtain ⟨t, ht, hP⟩ := (Option.any_eq_true _ _).mp h
  exact ⟨t, ht, of_decide_eq_true hP⟩

/-! ## Guarded runs -/

variable (C : σ → α → Prop)

/-- Every action of the schedule is taken in a state where the guard holds. -/
def Guarded : σ → List α → Prop
  | _, [] => True
  | s, a :: as => C s a ∧ ∀ t, step s a = some t → Guarded t as

@[simp] theorem guarded_nil (s : σ) : Guarded step C s [] := trivial

/-- The guard of the first step and of the rest. -/
theorem guarded_cons_of_step {s t : σ} {a : α} {as : List α} (h : step s a = some t) :
    Guarded step C s (a :: as) ↔ C s a ∧ Guarded step C t as := by
  constructor
  · rintro ⟨hC, hrest⟩
    exact ⟨hC, hrest t h⟩
  · rintro ⟨hC, hrest⟩
    refine ⟨hC, ?_⟩
    intro t' h'
    rw [h] at h'
    cases h'
    exact hrest

/-- A guarded run splits at every point of its schedule. -/
theorem guarded_append {s t : σ} {as bs : List α} (h : run step s as = some t) :
    Guarded step C s (as ++ bs) ↔ Guarded step C s as ∧ Guarded step C t bs := by
  induction as generalizing s with
  | nil =>
      cases h
      simp
  | cons a as ih =>
      obtain ⟨u, hu, hrest⟩ := (run_cons_eq_some step).mp h
      rw [List.cons_append, guarded_cons_of_step step C hu, guarded_cons_of_step step C hu,
        ih hrest, and_assoc]

/-- One step more at the end of a guarded run. -/
theorem guarded_concat {s t : σ} {as : List α} {a : α} (h : run step s as = some t) :
    Guarded step C s (as ++ [a]) ↔ Guarded step C s as ∧ C t a := by
  rw [guarded_append step C h]
  exact and_congr_right fun _ => ⟨fun hg => hg.1, fun hC => ⟨hC, fun _ _ => trivial⟩⟩

/-- A weaker guard is met by every run that meets the stronger one. -/
theorem Guarded.mono {C D : σ → α → Prop} (hCD : ∀ s a, C s a → D s a) {s : σ} {as : List α}
    (h : Guarded step C s as) : Guarded step D s as := by
  induction as generalizing s with
  | nil => trivial
  | cons a as ih => exact ⟨hCD s a h.1, fun t ht => ih (h.2 t ht)⟩

/-- A run that meets two guards meets both at once. -/
theorem Guarded.and {C D : σ → α → Prop} {s : σ} {as : List α} (hC : Guarded step C s as)
    (hD : Guarded step D s as) : Guarded step (fun s a => C s a ∧ D s a) s as := by
  induction as generalizing s with
  | nil => trivial
  | cons a as ih => exact ⟨⟨hC.1, hD.1⟩, fun t ht => ih (hC.2 t ht) (hD.2 t ht)⟩

/-- A guard that always holds guards every run. -/
theorem guarded_of_forall (hC : ∀ s a, C s a) (s : σ) (as : List α) : Guarded step C s as := by
  induction as generalizing s with
  | nil => trivial
  | cons a as ih => exact ⟨hC s a, fun t _ => ih t⟩

/-- A guard on the actions alone is a condition on the schedule. -/
theorem guarded_of_forall_mem {P : α → Prop} {s : σ} {as : List α} (h : ∀ a ∈ as, P a) :
    Guarded step (fun _ a => P a) s as := by
  induction as generalizing s with
  | nil => trivial
  | cons a as ih =>
      exact ⟨h a List.mem_cons_self, fun t _ => ih fun b hb => h b (List.mem_cons_of_mem _ hb)⟩

/-- A guard that can be decided can be decided along a run. -/
instance decidableGuarded [∀ s a, Decidable (C s a)] : (s : σ) → (as : List α) →
    Decidable (Guarded step C s as)
  | _, [] => isTrue trivial
  | s, a :: as =>
      match h : step s a with
      | none =>
          decidable_of_iff (C s a)
            ⟨fun hC => ⟨hC, fun t ht => by cases h.symm.trans ht⟩, And.left⟩
      | some t =>
          have := decidableGuarded t as
          decidable_of_iff (C s a ∧ Guarded step C t as) (guarded_cons_of_step step C h).symm

variable {step C}

/-- **The invariant rule.** What every guarded step preserves holds after every guarded run. -/
theorem run_invariant {I : σ → Prop}
    (hstep : ∀ s a t, I s → C s a → step s a = some t → I t) {s t : σ} {as : List α}
    (hI : I s) (hC : Guarded step C s as) (hrun : run step s as = some t) : I t := by
  induction as generalizing s with
  | nil =>
      cases hrun
      exact hI
  | cons a as ih =>
      obtain ⟨u, hu, hrest⟩ := (run_cons_eq_some step).mp hrun
      exact ih (hstep s a u hI hC.1 hu) (hC.2 u hu) hrest

/-- The invariant rule for runs without a guard. -/
theorem run_invariant_of_step {I : σ → Prop} (hstep : ∀ s a t, I s → step s a = some t → I t)
    {s t : σ} {as : List α} (hI : I s) (hrun : run step s as = some t) : I t :=
  have hstep' : ∀ s a t, I s → (fun _ _ => True : σ → α → Prop) s a → step s a = some t → I t :=
    fun s a t hs _ h => hstep s a t hs h
  run_invariant hstep' hI (guarded_of_forall step _ (fun _ _ => trivial) s as) hrun

/-- One step more at the end of a run. -/
theorem run_concat_eq_some {s u : σ} {as : List α} {a : α} :
    run step s (as ++ [a]) = some u ↔ ∃ t, run step s as = some t ∧ step t a = some u := by
  rw [run_append, Option.bind_eq_some_iff]
  constructor
  · rintro ⟨t, ht, hrest⟩
    obtain ⟨v, hv, hnil⟩ := (run_cons_eq_some step).mp hrest
    cases hnil
    exact ⟨t, ht, hv⟩
  · rintro ⟨t, ht, hu⟩
    exact ⟨t, ht, (run_cons_eq_some step).mpr ⟨u, hu, rfl⟩⟩

/-- **The history rule.** An invariant may speak of the schedule so far: what holds at the start
of the empty one, and is preserved when a step extends it, holds after every run. -/
theorem run_history_invariant {I : List α → σ → Prop} {s : σ}
    (hstep : ∀ as t a u, run step s as = some t → I as t → step t a = some u → I (as ++ [a]) u)
    (hI : I [] s) {t : σ} {as : List α} (hrun : run step s as = some t) : I as t := by
  induction as using List.reverseRecOn generalizing t with
  | nil =>
      cases hrun
      exact hI
  | append_singleton as a ih =>
      obtain ⟨u, hu, ht⟩ := run_concat_eq_some.mp hrun
      exact hstep as u a t hu (ih hu) ht

/-- **The exact guard.** Let `I` hold along the run as long as `P` does, and let a step that meets
`D` from a state with `I` and `P` lead to `P` exactly when it meets `C`. Then `P` holds in every
state of a run whose steps meet `D` exactly when its steps meet `C`. -/
theorem forall_prefix_iff_guarded {D : σ → α → Prop} {I P : σ → Prop}
    (hI : ∀ s a t, I s → P s → D s a → step s a = some t → P t → I t)
    (hP : ∀ s a t, I s → P s → D s a → step s a = some t → (P t ↔ C s a)) {s u : σ} {as : List α}
    (hs : I s) (hPs : P s) (hD : Guarded step D s as) (hrun : run step s as = some u) :
    (∀ bs, bs <+: as → ∀ t, run step s bs = some t → P t) ↔ Guarded step C s as := by
  induction as generalizing s with
  | nil =>
      refine ⟨fun _ => trivial, ?_⟩
      intro _ bs hbs t ht
      rw [List.prefix_nil.mp hbs] at ht
      cases ht
      exact hPs
  | cons a as ih =>
      obtain ⟨t, ht, hrest⟩ := (run_cons_eq_some step).mp hrun
      have hDa : D s a := hD.1
      have hDt : Guarded step D t as := hD.2 t ht
      rw [guarded_cons_of_step step C ht]
      constructor
      · intro h
        have hPt : P t := h [a] ⟨as, rfl⟩ t (by rw [run_cons, ht]; rfl)
        have hIt : I t := hI s a t hs hPs hDa ht hPt
        refine ⟨(hP s a t hs hPs hDa ht).mp hPt, (ih hIt hPt hDt hrest).mp ?_⟩
        intro bs hbs v hv
        apply h (a :: bs) ((List.prefix_cons_inj a).mpr hbs) v
        rw [run_cons, ht]
        exact hv
      · rintro ⟨hC, hG⟩ bs hbs v hv
        have hPt : P t := (hP s a t hs hPs hDa ht).mpr hC
        cases bs with
        | nil =>
            cases hv
            exact hPs
        | cons b bs =>
            obtain ⟨rfl, hbs'⟩ := List.cons_prefix_cons.mp hbs
            obtain ⟨w, hw, hv'⟩ := (run_cons_eq_some step).mp hv
            rw [ht] at hw
            cases hw
            exact (ih (hI s b t hs hPs hDa ht hPt) hPt hDt hrest).mpr hG bs hbs' v hv'

/-- Two guards that are the same wherever a run can be guard the same runs. -/
theorem guarded_iff_of_run {D : σ → α → Prop} {I : σ → Prop}
    (hI : ∀ s a t, I s → step s a = some t → I t)
    (hCD : ∀ s a t, I s → step s a = some t → (C s a ↔ D s a)) {s u : σ} {as : List α} (hs : I s)
    (hrun : run step s as = some u) : Guarded step C s as ↔ Guarded step D s as := by
  induction as generalizing s with
  | nil => exact Iff.rfl
  | cons a as ih =>
      obtain ⟨t, ht, hrest⟩ := (run_cons_eq_some step).mp hrun
      rw [guarded_cons_of_step step C ht, guarded_cons_of_step step D ht, hCD s a t hs ht,
        ih (hI s a t hs ht) hrest]

/-! ## What is observed -/

/-- What the steps of a run let see, in their order. -/
def observed {ω : Type*} (step : σ → α → Option σ) (see : σ → α → σ → Option ω) :
    σ → List α → List ω
  | _, [] => []
  | s, a :: as =>
      match step s a with
      | none => []
      | some t => (see s a t).toList ++ observed step see t as

section observed

variable {ω : Type*} {see : σ → α → σ → Option ω}

/-- The first step of a run and the rest. -/
theorem observed_cons {s t : σ} {a : α} {as : List α} (h : step s a = some t) :
    observed step see s (a :: as) = (see s a t).toList ++ observed step see t as := by
  rw [observed, h]

/-- One step more at the end of a run. -/
theorem observed_concat {s t u : σ} {as : List α} {a : α} (h : run step s as = some t)
    (ha : step t a = some u) :
    observed step see s (as ++ [a]) = observed step see s as ++ (see t a u).toList := by
  induction as generalizing s with
  | nil =>
      cases h
      rw [List.nil_append, observed_cons ha, observed, observed, List.append_nil, List.nil_append]
  | cons b as ih =>
      obtain ⟨v, hv, hrest⟩ := (run_cons_eq_some step).mp h
      rw [List.cons_append, observed_cons hv, observed_cons hv, ih hrest, List.append_assoc]

/-- What one step lets see is seen in every run. -/
theorem forall_mem_observed {P : ω → Prop}
    (hstep : ∀ s a t x, step s a = some t → see s a t = some x → P x) (s : σ) (as : List α) :
    ∀ x ∈ observed step see s as, P x := by
  induction as generalizing s with
  | nil =>
      intro x hx
      cases hx
  | cons a as ih =>
      intro x hx
      rcases ht : step s a with _ | t
      · rw [observed, ht] at hx
        cases hx
      · rw [observed_cons ht, List.mem_append, Option.mem_toList] at hx
        rcases hx with hsee | hrest
        · exact hstep s a t x ht hsee
        · exact ih t x hrest

end observed

/-! ## Runs that exist -/

/-- A run that is continued by a step. -/
theorem run_concat {s t u : σ} {as : List α} {a : α} (h : run step s as = some t)
    (ha : step t a = some u) : run step s (as ++ [a]) = some u :=
  run_concat_eq_some.mpr ⟨t, h, ha⟩

/-- **The progress rule.** If from every state with `I` that is not done some steps lead to one
with a smaller measure, a run leads to a state that is done. -/
theorem exists_run_of_progress {P : α → Prop} {I Done : σ → Prop} (μ : σ → ℕ)
    (hprogress : ∀ s, I s → Done s ∨
      ∃ as t, (∀ a ∈ as, P a) ∧ run step s as = some t ∧ I t ∧ μ t < μ s) {s : σ} (hs : I s) :
    ∃ as t, (∀ a ∈ as, P a) ∧ run step s as = some t ∧ I t ∧ Done t := by
  induction hn : μ s using Nat.strongRecOn generalizing s with
  | ind n ih =>
      rcases hprogress s hs with hdone | ⟨as, t, has, ht, hI, hlt⟩
      · exact ⟨[], s, fun a ha => absurd ha List.not_mem_nil, rfl, hs, hdone⟩
      · obtain ⟨bs, u, hbs, hu, hI', hdone⟩ := ih (μ t) (hn ▸ hlt) hI rfl
        refine ⟨as ++ bs, u, ?_, ?_, hI', hdone⟩
        · intro a ha
          rcases List.mem_append.mp ha with hleft | hright
          · exact has a hleft
          · exact hbs a hright
        · rw [run_append, ht]
          exact hu

end Zbroker.Found.Transition
