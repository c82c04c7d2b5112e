import Zbroker.Found.Transition
import Mathlib.Logic.Function.Basic

/-!
# Threads that share a store

Each thread of the system is at a position of its program. What a step of it does depends on the
position, on the store, and on what comes from outside; it leads to a position, a store, and
something to be seen. A thread that is idle can be given a call.

* `State`, `Action`, `step` — the system, for a given `advance` of one thread.
* `alone`, `run_replicate_go` — a thread that runs alone.
* `Lockstep R Apart s t` — two states with the same threads that have shown the same. Their stores
  are the same, or related by `R` with every thread at a position that `Apart` holds of.
* **`lockstep_run`**: when threads at such positions do the same with related stores, two states in
  lockstep stay so under every schedule. `R` can be the equality up to a part of the store that
  every program writes before it reads it; `Apart` says that it is not about to read it.
-/

namespace Zbroker.Found.Shared

open Transition

/-- The store, the position of each thread, and what was seen so far. -/
structure State (ι σ π ω : Type*) where
  store : σ
  threads : ι → π
  seen : List (ι × ω)

/-- What happens next: a call for a thread, or a step of one. -/
inductive Action (ι κ ε : Type*) where
  | call (i : ι) (c : κ)
  | go (i : ι) (e : ε)

variable {ι κ ε σ π ω : Type*}

section step

variable (advance : ε → π → σ → Option (π × σ × List ω))

/-- The steps of a thread that runs alone. -/
def alone (e : ε) : ℕ → π → σ → Option (π × σ × List ω)
  | 0, p, a => some (p, a, [])
  | n + 1, p, a =>
      (advance e p a).bind fun r => (alone e n r.1 r.2.1).map fun q => (q.1, q.2.1, r.2.2 ++ q.2.2)

variable {advance} in
/-- The first step of a thread that runs alone. -/
theorem alone_succ {e : ε} {n : ℕ} {p q p' : π} {a b a' : σ} {os os' : List ω}
    (h : advance e p a = some (q, b, os)) (hrest : alone advance e n q b = some (p', a', os')) :
    alone advance e (n + 1) p a = some (p', a', os ++ os') := by
  rw [alone, h, Option.bind_some, hrest]
  rfl

variable [DecidableEq ι] [DecidableEq π] (start : κ → π) (idle : π)

/-- A step of the system. -/
def step (s : State ι σ π ω) : Action ι κ ε → Option (State ι σ π ω)
  | .call i c =>
      if s.threads i = idle then
        some { s with threads := Function.update s.threads i (start c) }
      else none
  | .go i e =>
      (advance e (s.threads i) s.store).map fun r =>
        ⟨r.2.1, Function.update s.threads i r.1, s.seen ++ r.2.2.map (Prod.mk i)⟩

variable {advance start idle}

/-- A thread that runs alone leaves the others where they are. -/
theorem run_replicate_go {e : ε} {n : ℕ} {s : State ι σ π ω} {i : ι} {p : π} {a : σ} {os : List ω}
    (h : alone advance e n (s.threads i) s.store = some (p, a, os)) :
    run (step advance start idle) s (List.replicate n (.go i e)) =
      some ⟨a, Function.update s.threads i p, s.seen ++ os.map (Prod.mk i)⟩ := by
  induction n generalizing s os with
  | zero =>
      cases h
      simp
  | succ n ih =>
      obtain ⟨⟨q, b, os₁⟩, hadvance, hmap⟩ := Option.bind_eq_some_iff.mp h
      obtain ⟨⟨p', a', os₂⟩, hrest, heq⟩ := Option.map_eq_some_iff.mp hmap
      simp only [Prod.mk.injEq] at heq
      obtain ⟨rfl, rfl, rfl⟩ := heq
      rw [List.replicate_succ, run_cons, step, hadvance, Option.map_some, Option.bind_some]
      have hself : alone advance e n (Function.update s.threads i q i) b = some (p', a', os₂) := by
        rw [Function.update_self]
        exact hrest
      rw [ih (s := ⟨b, Function.update s.threads i q, s.seen ++ os₁.map (Prod.mk i)⟩) hself]
      simp

end step

/-! ## Two systems in lockstep -/

/-- Two ways to go on lead to the same position and show the same; the stores are the same again, or
still related with the thread apart from the difference. -/
structure Alike (R : σ → σ → Prop) (Apart : π → Prop) (x y : π × σ × List ω) : Prop where
  position : x.1 = y.1
  seen : x.2.2 = y.2.2
  store : x.2.1 = y.2.1 ∨ R x.2.1 y.2.1 ∧ Apart x.1

/-- The threads are the same and have shown the same; the stores are the same, or related with every
thread apart from the difference. -/
structure Lockstep (R : σ → σ → Prop) (Apart : π → Prop) (s t : State ι σ π ω) : Prop where
  threads : s.threads = t.threads
  seen : s.seen = t.seen
  store : s.store = t.store ∨ R s.store t.store ∧ ∀ i, Apart (s.threads i)

section lockstep

variable {advance : ε → π → σ → Option (π × σ × List ω)} {start : κ → π} {idle : π}
  {R : σ → σ → Prop} {Apart : π → Prop} {s t : State ι σ π ω}

/-- A state is in lockstep with itself. -/
theorem Lockstep.refl (s : State ι σ π ω) : Lockstep R Apart s s := ⟨rfl, rfl, Or.inl rfl⟩

/-- States in lockstep with the same store are the same. -/
theorem Lockstep.eq_of_store_eq (h : Lockstep R Apart s t) (hstore : s.store = t.store) : s = t := by
  obtain ⟨store, threads, seen⟩ := s
  obtain ⟨store', threads', seen'⟩ := t
  cases h.threads
  cases h.seen
  cases hstore
  rfl

/-- What is related is related by a weaker relation. -/
theorem rel_mono {α β : Type*} {r r' : α → β → Prop} (hr : ∀ a b, r a b → r' a b) {x : Option α}
    {y : Option β} (h : Option.Rel r x y) : Option.Rel r' x y := by
  cases h with
  | some hxy => exact .some (hr _ _ hxy)
  | none => exact .none

/-- What comes of the same is in lockstep with itself. -/
theorem rel_lockstep_refl (o : Option (State ι σ π ω)) : Option.Rel (Lockstep R Apart) o o := by
  cases o with
  | none => exact .none
  | some s => exact .some (.refl s)

variable [DecidableEq ι] [DecidableEq π]

/-- A step of two states in lockstep. -/
theorem lockstep_step
    (hadvance : ∀ e p a b, R a b → Apart p →
      Option.Rel (Alike R Apart) (advance e p a) (advance e p b))
    (hstart : ∀ c, Apart (start c)) (h : Lockstep R Apart s t) (a : Action ι κ ε) :
    Option.Rel (Lockstep R Apart) (step advance start idle s a) (step advance start idle t a) := by
  rcases h.store with hstore | ⟨hrel, hapart⟩
  · rw [h.eq_of_store_eq hstore]
    exact rel_lockstep_refl _
  · have hupdate (i : ι) {p : π} (hp : Apart p) (j : ι) :
        Apart (Function.update s.threads i p j) :=
      (Function.forall_update_iff s.threads fun _ q => Apart q).mpr
        ⟨hp, fun k _ => hapart k⟩ j
    cases a with
    | call i c =>
        simp only [step, ← h.threads]
        split_ifs
        · exact .some ⟨rfl, h.seen, Or.inr ⟨hrel, hupdate i (hstart c)⟩⟩
        · exact .none
    | go i e =>
        have halike := hadvance e (s.threads i) _ _ hrel (hapart i)
        simp only [step, ← h.threads, ← h.seen]
        generalize advance e (s.threads i) s.store = x at halike ⊢
        generalize advance e (s.threads i) t.store = y at halike ⊢
        cases halike with
        | none => exact .none
        | some hxy =>
            refine .some ⟨congrArg (fun p => Function.update s.threads i p) hxy.position,
              congrArg (fun o => s.seen ++ o.map (Prod.mk i)) hxy.seen, ?_⟩
            rcases hxy.store with hstore | ⟨hrel', hapart'⟩
            · exact Or.inl hstore
            · exact Or.inr ⟨hrel', hupdate i hapart'⟩

/-- **The lockstep rule.** Threads that do the same with related stores, as long as they are apart
from the difference, do the same in every schedule. -/
theorem lockstep_run
    (hadvance : ∀ e p a b, R a b → Apart p →
      Option.Rel (Alike R Apart) (advance e p a) (advance e p b))
    (hstart : ∀ c, Apart (start c)) (h : Lockstep R Apart s t) (as : List (Action ι κ ε)) :
    Option.Rel (Lockstep R Apart) (run (step advance start idle) s as)
      (run (step advance start idle) t as) := by
  induction as generalizing s t with
  | nil => exact .some h
  | cons a as ih =>
      rw [run_cons, run_cons]
      have hstep : Option.Rel (Lockstep R Apart) (step advance start idle s a)
          (step advance start idle t a) := lockstep_step hadvance hstart h a
      generalize step advance start idle s a = x at hstep ⊢
      generalize step advance start idle t a = y at hstep ⊢
      cases hstep with
      | some hxy => exact ih hxy
      | none => exact .none

end lockstep

end Zbroker.Found.Shared
