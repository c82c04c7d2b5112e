import Mathlib.Data.List.Perm.Basic
import Mathlib.Tactic.NormNum

/-!
# `sized_queue`: the critical sections of the bounded queue

* `SizedQueue T` — `m_queue` and `m_limit_size`. The monitor and the two conditions are not
  part of it: every definition below is one critical section of the code, and the threads that
  use the queue carry the status of their own waits.
* `fill` — the loop of `push(vector<T>&)`: it moves elements from the back of the caller's
  vector to the back of the queue until the vector is empty or the queue is full.
  **`queue_fill_append`** is what everything about order rests on: the queue followed by the
  reversed rest of the vector is what it was before.
* `Wait` — the status of a thread inside `zbroker::wait`: still waiting, notified, or past its
  deadline. A notification and an expiry each end the waiting, whichever comes first; the
  thread goes on only when it has the monitor again, and other threads may enter before that.
-/

namespace Zbroker

/-- The data of a `sized_queue<T>`.
Source: `sized_queue.hpp`, `m_limit_size` and `m_queue` -/
structure SizedQueue (T : Type) where
  /-- `m_limit_size`. -/
  limitSize : Nat
  /-- `m_queue`, front first. -/
  queue : List T
  deriving DecidableEq, Repr

namespace SizedQueue

variable {T : Type}

/-- The default constructor: room for 100 elements. -/
def default : SizedQueue T := ⟨100, []⟩

/-- `set_size`. -/
def setSize (q : SizedQueue T) (size : Nat) : SizedQueue T := { q with limitSize := size }

/-- `clear`. -/
def clear (q : SizedQueue T) : SizedQueue T := { q with queue := [] }

/-- The test `m_queue.size() >= m_limit_size`, under which `push` waits. -/
def isFull (q : SizedQueue T) : Bool := decide (q.limitSize ≤ q.queue.length)

/-- The loop of `push(vector<T>&)` on the vector read from its back. -/
def fillBack (q : SizedQueue T) : List T → SizedQueue T × List T
  | [] => (q, [])
  | x :: xs =>
      if q.queue.length < q.limitSize then fillBack { q with queue := q.queue ++ [x] } xs
      else (q, x :: xs)

/-- The loop of `push(vector<T>&)`: the queue and the caller's vector after it.
Source: `sized_queue.cc`, `while( items.size() > 0 && m_queue.size() < m_limit_size )` -/
def fill (q : SizedQueue T) (items : List T) : SizedQueue T × List T :=
  let r := q.fillBack items.reverse
  (r.1, r.2.reverse)

/-! ### What the loop does -/

@[simp] theorem limitSize_fillBack (q : SizedQueue T) (xs : List T) :
    (q.fillBack xs).1.limitSize = q.limitSize := by
  induction xs generalizing q with
  | nil => rfl
  | cons x xs ih =>
      rw [fillBack]
      split_ifs
      · rw [ih]
      · rfl

/-- What was moved and what was not are what there was. -/
theorem queue_fillBack_append (q : SizedQueue T) (xs : List T) :
    (q.fillBack xs).1.queue ++ (q.fillBack xs).2 = q.queue ++ xs := by
  induction xs generalizing q with
  | nil => rfl
  | cons x xs ih =>
      rw [fillBack]
      split_ifs
      · rw [ih]
        simp
      · rfl

/-- Nothing is added. -/
theorem length_fillBack_le (q : SizedQueue T) (xs : List T) :
    (q.fillBack xs).2.length ≤ xs.length := by
  induction xs generalizing q with
  | nil => exact le_rfl
  | cons x xs ih =>
      rw [fillBack]
      split_ifs
      · exact (ih _).trans (Nat.le_succ _)
      · exact le_rfl

@[simp] theorem limitSize_fill (q : SizedQueue T) (items : List T) :
    (q.fill items).1.limitSize = q.limitSize :=
  limitSize_fillBack q _

/-- **The loop keeps the order**: the queue followed by the reversed rest of the vector does not
change. -/
theorem queue_fill_append (q : SizedQueue T) (items : List T) :
    (q.fill items).1.queue ++ (q.fill items).2.reverse = q.queue ++ items.reverse := by
  rw [fill, List.reverse_reverse]
  exact queue_fillBack_append q items.reverse

/-- A queue that is not full takes an element of a nonempty vector. -/
theorem length_fill_lt {q : SizedQueue T} {items : List T} (hq : q.isFull = false)
    (hitems : items ≠ []) : (q.fill items).2.length < items.length := by
  unfold fill
  rcases h : items.reverse with _ | ⟨x, xs⟩
  · exact absurd (List.reverse_eq_nil_iff.mp h) hitems
  · have hroom : q.queue.length < q.limitSize := by simpa [isFull] using hq
    have hlen : items.length = xs.length + 1 := by
      rw [← List.length_reverse, h, List.length_cons]
    simp only [fillBack, if_pos hroom, List.length_reverse, hlen]
    exact Nat.lt_succ_of_le (length_fillBack_le _ _)

/-- The loop stops at the limit. -/
theorem length_fill_le {q : SizedQueue T} {items : List T} (hq : q.queue.length ≤ q.limitSize) :
    (q.fill items).1.queue.length ≤ (q.fill items).1.limitSize := by
  have hback (xs : List T) (q : SizedQueue T) (hq : q.queue.length ≤ q.limitSize) :
      (q.fillBack xs).1.queue.length ≤ q.limitSize := by
    induction xs generalizing q with
    | nil => exact hq
    | cons x xs ih =>
        rw [fillBack]
        split_ifs with hroom
        · apply ih
          rw [List.length_append]
          exact hroom
        · exact hq
  rw [limitSize_fill]
  exact hback items.reverse q hq

/-- The loop takes nothing out of the queue. -/
theorem length_le_fill (q : SizedQueue T) (items : List T) :
    q.queue.length ≤ (q.fill items).1.queue.length := by
  have happend := congrArg List.length (queue_fill_append q items)
  have hrest : (q.fill items).2.length ≤ items.length := by
    simpa [fill] using length_fillBack_le q items.reverse
  simp only [List.length_append, List.length_reverse] at happend
  omega

/-- The queue gets longer exactly if it is not full and there is something to push. -/
theorem length_lt_fill_iff {q : SizedQueue T} {items : List T} :
    q.queue.length < (q.fill items).1.queue.length ↔ items ≠ [] ∧ q.isFull = false := by
  have happend := congrArg List.length (queue_fill_append q items)
  simp only [List.length_append, List.length_reverse] at happend
  constructor
  · intro hlt
    refine ⟨?_, ?_⟩
    · intro hnil
      subst hnil
      simp only [List.length_nil] at happend
      omega
    · by_contra hfull
      have hroom : ¬ q.queue.length < q.limitSize := by simpa [isFull] using hfull
      have hsame : q.fillBack items.reverse = (q, items.reverse) := by
        rcases items.reverse with _ | ⟨x, xs⟩
        · rfl
        · rw [fillBack, if_neg hroom]
      rw [fill, hsame] at hlt
      exact lt_irrefl _ hlt
  · rintro ⟨hitems, hfull⟩
    have hrest := length_fill_lt hfull hitems
    omega

/-- The loop adds as many elements as there are and as there is room for. -/
theorem length_fill (q : SizedQueue T) (items : List T) :
    (q.fill items).1.queue.length =
      q.queue.length + min items.length (q.limitSize - q.queue.length) := by
  have hback (xs : List T) (q : SizedQueue T) : (q.fillBack xs).1.queue.length =
      q.queue.length + min xs.length (q.limitSize - q.queue.length) := by
    induction xs generalizing q with
    | nil => simp [fillBack]
    | cons x xs ih =>
        rw [fillBack]
        split_ifs with hroom
        · rw [ih]
          simp only [List.length_append, List.length_cons, List.length_nil]
          omega
        · simp only [List.length_cons]
          omega
  rw [← @List.length_reverse T items]
  exact hback items.reverse q

/-- **The loop splits the vector**: its back goes behind the queue, from the back. -/
theorem exists_fill (q : SizedQueue T) (items : List T) :
    ∃ moved, items = (q.fill items).2 ++ moved ∧
      (q.fill items).1.queue = q.queue ++ moved.reverse := by
  have happend := queue_fill_append q items
  have hprefix : q.queue <+: (q.fill items).1.queue :=
    List.prefix_of_prefix_length_le (happend ▸ List.prefix_append q.queue items.reverse)
      (List.prefix_append _ _) (length_le_fill q items)
  obtain ⟨moved, hmoved⟩ := hprefix
  rw [← hmoved, List.append_assoc, List.append_cancel_left_eq] at happend
  refine ⟨moved.reverse, ?_, ?_⟩
  · have hitems := congrArg List.reverse happend
    simpa using hitems.symm
  · rw [List.reverse_reverse, hmoved]

/-- Vectors that are pushed one after the other, each from its back, bring the elements they
have. -/
theorem flatten_map_reverse_perm (vectors : List (List T)) :
    (vectors.map List.reverse).flatten.Perm vectors.flatten := by
  rw [← List.flatMap_def, ← List.flatMap_id]
  exact List.Perm.flatMap_left _ fun v _ => List.reverse_perm v

end SizedQueue

/-! ## Waiting -/

/-- The status of a thread inside `zbroker::wait`.
Source: `sized_queue.cc`, `zbroker::wait` -/
inductive Wait where
  /-- On the condition, neither notified nor past the deadline. -/
  | waiting
  /-- Notified, and not yet in the monitor again. -/
  | notified
  /-- Past the deadline, and not yet in the monitor again: `timed_wait` will return `false`. -/
  | expired
  deriving DecidableEq, Repr

namespace Wait

/-- `notify_one` at the only thread on the condition. -/
def notify : Wait → Wait
  | .waiting => .notified
  | w => w

/-- The deadline passes. -/
def expire : Wait → Option Wait
  | .waiting => some .expired
  | _ => none

end Wait

end Zbroker
