import Mathlib.Tactic.NormNum

/-!
# Threads that wait for units of something

Threads wait on a condition for units of something, items or free places: each looks once, sleeps
if it finds none, and takes what it wants when it is awake, without looking again. Who adds
units wakes one sleeper.

* `Waiters` — how many threads sleep, how many were woken and have not gone on, and how many units
  there are.
* `Step` — the moves: `notify` leaves some units and wakes a sleeper if there is one, `take` is
  a woken thread that goes on, `pass` any other thread that takes units.
* `Served w` — nobody sleeps, or there are no more units than woken threads.
* **`served_step_iff`**: a move keeps the waiters served exactly when it `Pays`: a notification
  adds at most one unit to those that the woken threads will take, or leaves nobody asleep, and a
  woken thread takes its unit.
-/

namespace Zbroker.Found

/-- The threads on a condition, and the units of what they wait for. -/
structure Waiters where
  sleeping : ℕ
  woken : ℕ
  units : ℕ

namespace Waiters

/-- What can happen; `units` are those that it leaves. -/
inductive Move where
  | quiet
  | sleep
  | notify (units : ℕ)
  | leave
  | pass (units : ℕ)
  | take (units : ℕ)

/-- One of the sleepers is woken, if there is one. -/
def notifyOne (w : Waiters) : Waiters :=
  if w.sleeping = 0 then w else { w with sleeping := w.sleeping - 1, woken := w.woken + 1 }

/-- The moves of the waiters. -/
inductive Step (w : Waiters) : Move → Waiters → Prop
  | quiet : Step w .quiet w
  /-- A thread finds nothing, and sleeps. -/
  | sleep (hunits : w.units = 0) : Step w .sleep { w with sleeping := w.sleeping + 1 }
  | notify (units : ℕ) : Step w (.notify units) { w.notifyOne with units := units }
  /-- A sleeper gives up, or wakes without having been woken. -/
  | leave (hsleeping : 0 < w.sleeping) : Step w .leave { w with sleeping := w.sleeping - 1 }
  | pass (units : ℕ) (hunits : units ≤ w.units) : Step w (.pass units) { w with units := units }
  | take (units : ℕ) (hwoken : 0 < w.woken) :
      Step w (.take units) { w with woken := w.woken - 1, units := units }

/-- Nobody sleeps in front of a unit that no woken thread is to take. -/
def Served (w : Waiters) : Prop := 0 < w.sleeping → w.units ≤ w.woken

/-- What the moves must do so that nobody is left asleep. -/
def Pays (w : Waiters) : Move → Prop
  | .notify units => 1 < w.sleeping → units ≤ w.woken + 1
  | .take units => 0 < w.sleeping → units < w.woken
  | _ => True

/-- **What one move does.** -/
theorem served_step_iff {w w' : Waiters} {m : Move} (hs : Served w) (h : Step w m w') :
    Served w' ↔ Pays w m := by
  unfold Served at *
  cases h with
  | quiet => exact iff_of_true hs trivial
  | sleep hunits =>
      apply iff_of_true _ trivial
      intro _
      show w.units ≤ w.woken
      omega
  | notify units =>
      unfold notifyOne Pays
      by_cases hzero : w.sleeping = 0
      · rw [if_pos hzero]
        show (0 < w.sleeping → units ≤ w.woken) ↔ _
        omega
      · rw [if_neg hzero]
        show (0 < w.sleeping - 1 → units ≤ w.woken + 1) ↔ _
        omega
  | leave hsleeping =>
      apply iff_of_true _ trivial
      intro _
      exact hs hsleeping
  | pass units hunits =>
      apply iff_of_true _ trivial
      intro hsleeping
      exact hunits.trans (hs hsleeping)
  | take units hwoken =>
      show (0 < w.sleeping → units ≤ w.woken - 1) ↔ (0 < w.sleeping → units < w.woken)
      apply imp_congr_right
      intro _
      omega

/-- Where nobody was woken, nobody sleeps in front of a unit. -/
theorem Served.units_eq_zero {w : Waiters} (h : Served w) (hsleeping : 0 < w.sleeping)
    (hwoken : w.woken = 0) : w.units = 0 := by
  have hle := h hsleeping
  omega

end Waiters

end Zbroker.Found
