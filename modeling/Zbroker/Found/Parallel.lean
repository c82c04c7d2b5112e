import Zbroker.Found.Transition

/-!
# Machines side by side

Machines of one kind, numbered, that share nothing but their end: an action is an action of one of
them, and when one has halted, none goes on.

* `sideStep` — the step of all of them; `ownOf i as` — the actions of the machine `i` in a schedule.
* `getElem_of_sideStep` — a step is a step of its machine, and the others stand still.
* **`getElem_of_run`**: a run of all of them is a run of each, on its own actions.
-/

namespace Zbroker.Found.Transition

variable {σ α : Type*} {step : σ → α → Option σ} {halted : σ → Prop} [DecidablePred halted]

/-- A step of one of the machines, unless one of them has halted. -/
def sideStep (step : σ → α → Option σ) (halted : σ → Prop) [DecidablePred halted] (p : List σ)
    (a : Nat × α) : Option (List σ) :=
  if ∃ s ∈ p, halted s then none
  else (p[a.1]?).bind fun s => (step s a.2).map fun t => p.set a.1 t

/-- The actions of the machine `i`. -/
def ownOf (i : Nat) (as : List (Nat × α)) : List α :=
  as.filterMap fun a => if a.1 = i then some a.2 else none

/-- The first event is of this side, or it is not. -/
theorem ownOf_cons (i : Nat) (a : Nat × α) (as : List (Nat × α)) :
    ownOf i (a :: as) = if a.1 = i then a.2 :: ownOf i as else ownOf i as := by
  rw [ownOf, List.filterMap_cons]
  split_ifs <;> rfl

/-- The machine `i` after a step: it has taken the step if it is its own, and else stood still. -/
theorem getElem_of_sideStep {p q : List σ} {a : Nat × α} (h : sideStep step halted p a = some q)
    (i : Nat) : q[i]? = if a.1 = i then (p[i]?).bind fun s => step s a.2 else p[i]? := by
  unfold sideStep at h
  split_ifs at h
  obtain ⟨s, hs, hmap⟩ := Option.bind_eq_some_iff.mp h
  obtain ⟨t, ht, rfl⟩ := Option.map_eq_some_iff.mp hmap
  obtain ⟨hlt, -⟩ := List.getElem?_eq_some_iff.mp hs
  split_ifs with hown
  · subst hown
    rw [List.getElem?_set_self hlt, hs, Option.bind_some, ht]
  · rw [List.getElem?_set_ne hown]

/-- **A run of all is a run of each.** By induction on the schedule: a step goes to the front of the run
of its own machine. -/
theorem getElem_of_run {p q : List σ} {as : List (Nat × α)}
    (h : run (sideStep step halted) p as = some q) (i : Nat) :
    q[i]? = (p[i]?).bind fun s => run step s (ownOf i as) := by
  induction as generalizing p with
  | nil =>
      cases h
      rcases q[i]? with _ | s
      · rfl
      · rfl
  | cons a as ih =>
      obtain ⟨p', hstep, hrun⟩ := (run_cons_eq_some _).mp h
      rw [ih hrun, getElem_of_sideStep hstep i, ownOf_cons]
      split_ifs
      · rw [Option.bind_assoc]
        rfl
      · rfl

end Zbroker.Found.Transition
