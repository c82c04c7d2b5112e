import Zbroker.Base.Machine
import Zbroker.Found.Transition
import Zbroker.Queue.SizedQueue

/-!
# `sized_queue` with any number of threads

Each of a list of threads calls `pop`, `push(T)` and `push(vector<T>&)` as it likes. A step is one
critical section, or what happens to a thread that waits; all conditions are tested with `if`, so
a thread that has waited does not look again.

* `Call`, `Thread` — a call, and where a thread stands in it.
* `Action`, `step` — a thread calls, gets the monitor, or has it again after its wait; a deadline
  passes; a wait ends without a notification. `notify_one` reaches any one of the threads on the
  condition, which the action names.
* `Effect`, **`step_effect`** — what a step can do, each with the place it is taken from.
* `State.sleepers`, `State.wokenOn` — how many threads sleep on a condition, and how many were
  woken from it and do not have the monitor again. **`counts_notifyOne`**: a notification turns
  a sleeper into a woken thread, and touches nothing else.
-/

namespace Zbroker.SharedQueue

open Found.Transition

variable {T : Type}

/-- The conditions of the queue. -/
inductive Cond where
  | canPush
  | canPop
  deriving DecidableEq, Repr

/-- A call; the vector of `pushAll` is read from its back. Source: `sized_queue.hpp` -/
inductive Call (T : Type) where
  | pop (seconds : Nat)
  | push (item : T) (seconds : Nat)
  | pushAll (items : List T) (seconds : Nat)
  deriving DecidableEq, Repr

/-- A thread. -/
inductive Thread (T : Type) where
  /-- Outside of the queue. -/
  | idle
  /-- In front of the monitor. -/
  | entering (k : Call T)
  /-- In the `wait` of the call. -/
  | waiting (k : Call T) (w : Wait)
  deriving DecidableEq, Repr

/-- A queue and its threads. -/
structure State (T : Type) where
  queue : SizedQueue T
  threads : List (Thread T)
  fault : Option Exn
  deriving DecidableEq, Repr

/-- What happens next. -/
inductive Action (T : Type) where
  | call (i : Nat) (k : Call T)
  /-- The thread gets the monitor; its `notify_one` reaches the thread `n`. -/
  | enter (i : Nat) (n : Option Nat)
  /-- The thread has the monitor again. -/
  | resume (i : Nat) (n : Option Nat)
  | wake (i : Nat)
  | expire (i : Nat)
  deriving DecidableEq, Repr

/-! ## The calls -/

/-- The condition a call waits on. -/
def Call.waitsOn : Call T → Cond
  | .pop _ => .canPop
  | .push _ _ | .pushAll _ _ => .canPush

/-- The condition a call notifies, before it waits and when it is done. -/
def Call.notifies : Call T → Cond
  | .pop _ => .canPush
  | .push _ _ | .pushAll _ _ => .canPop

/-- The timeout of a call. -/
def Call.seconds : Call T → Nat
  | .pop seconds => seconds
  | .push _ seconds => seconds
  | .pushAll _ seconds => seconds

/-- The test in front of the wait. -/
def Call.mustWait (q : SizedQueue T) : Call T → Bool
  | .pop _ => q.queue.isEmpty
  | .push _ _ | .pushAll _ _ => q.isFull

/-- On the condition, neither notified nor past the deadline. -/
def Thread.waitsOn (c : Cond) : Thread T → Bool
  | .waiting k .waiting => k.waitsOn = c
  | _ => false

/-! ## The steps -/

namespace State

/-- `threads` of them, outside of a queue. -/
def start (q : SizedQueue T) (threads : Nat) : State T :=
  ⟨q, List.replicate threads .idle, none⟩

/-- A thread goes on. -/
def setThread (i : Nat) (t : Thread T) (s : State T) : State T :=
  { s with threads := s.threads.set i t }

/-- The items change. -/
def setQueue (q : SizedQueue T) (s : State T) : State T := { s with queue := q }

/-- `notify_one`: one of the threads on the condition is notified, if there is one. -/
def notifyOne (c : Cond) (n : Option Nat) (s : State T) : Option (State T) :=
  match n with
  | none => if s.threads.any (Thread.waitsOn c) then none else some s
  | some j =>
      match s.threads[j]? with
      | some (.waiting k .waiting) =>
          if k.waitsOn = c then some (s.setThread j (.waiting k .notified)) else none
      | _ => none

/-- The part of a call behind the test and the wait. -/
def finish (i : Nat) (n : Option Nat) (s : State T) : Call T → Option (State T)
  | .pop _ =>
      match s.queue.queue with
      | [] => some { s with fault := some (.outOfBounds "m_queue.front()") }
      | _ :: rest =>
          ((s.setThread i .idle).setQueue { s.queue with queue := rest }).notifyOne .canPush n
  | .push item _ =>
      ((s.setThread i .idle).setQueue
        { s.queue with queue := s.queue.queue ++ [item] }).notifyOne .canPop n
  | .pushAll items _ =>
      ((s.setThread i .idle).setQueue (s.queue.fill items).1).notifyOne .canPop n

/-- The critical section of a call, on entering it.
Source: `sized_queue.cc`, `sized_queue::pop` and `sized_queue::push` -/
def enter (i : Nat) (n : Option Nat) (k : Call T) (s : State T) : Option (State T) :=
  if k.mustWait s.queue then
    (s.notifyOne k.notifies n).map fun t => t.setThread i (.waiting k .waiting)
  else s.finish i n k

end State

/-- A step; a deadline needs `seconds > 0`, and a call that timed out throws. -/
def step (s : State T) (a : Action T) : Option (State T) :=
  if s.fault.isSome then none
  else
    match a with
    | .call i k =>
        match s.threads[i]? with
        | some .idle => some (s.setThread i (.entering k))
        | _ => none
    | .enter i n =>
        match s.threads[i]? with
        | some (.entering k) => s.enter i n k
        | _ => none
    | .resume i n =>
        match s.threads[i]? with
        | some (.waiting k .notified) => s.finish i n k
        | some (.waiting _ .expired) => if n = none then some (s.setThread i .idle) else none
        | _ => none
    | .wake i =>
        match s.threads[i]? with
        | some (.waiting k .waiting) => some (s.setThread i (.waiting k .notified))
        | _ => none
    | .expire i =>
        match s.threads[i]? with
        | some (.waiting k .waiting) =>
            if 0 < k.seconds then some (s.setThread i (.waiting k .expired)) else none
        | _ => none

/-! ## What a step can do -/

/-- The queue behind the test and the wait of a call. -/
def Call.apply (q : SizedQueue T) : Call T → SizedQueue T
  | .pop _ => { q with queue := q.queue.tail }
  | .push item _ => { q with queue := q.queue ++ [item] }
  | .pushAll items _ => (q.fill items).1

/-- The call of the thread ends, with its change of the queue and its notification. -/
structure Finishes (i : Nat) (n : Option Nat) (k : Call T) (s t : State T) : Prop where
  front : k.waitsOn = .canPop → s.queue.queue ≠ []
  notified : ((s.setThread i .idle).setQueue (k.apply s.queue)).notifyOne k.notifies n = some t

/-- What a step does. -/
inductive Effect (s : State T) : Action T → State T → Prop
  | call (i : Nat) (k : Call T) (hi : s.threads[i]? = some .idle) :
      Effect s (.call i k) (s.setThread i (.entering k))
  /-- The thread begins to wait. -/
  | wait (i : Nat) (n : Option Nat) (k : Call T) (u : State T)
      (hi : s.threads[i]? = some (.entering k)) (hmust : k.mustWait s.queue = true)
      (hu : s.notifyOne k.notifies n = some u) :
      Effect s (.enter i n) (u.setThread i (.waiting k .waiting))
  | enter (i : Nat) (n : Option Nat) (k : Call T) (t : State T)
      (hi : s.threads[i]? = some (.entering k)) (hmust : k.mustWait s.queue = false)
      (ht : Finishes i n k s t) : Effect s (.enter i n) t
  | resume (i : Nat) (n : Option Nat) (k : Call T) (t : State T)
      (hi : s.threads[i]? = some (.waiting k .notified)) (ht : Finishes i n k s t) :
      Effect s (.resume i n) t
  /-- `front()` of an empty queue. -/
  | fault (i : Nat) (n : Option Nat) (seconds : Nat)
      (hi : s.threads[i]? = some (.waiting (.pop seconds) .notified))
      (hqueue : s.queue.queue = []) :
      Effect s (.resume i n) { s with fault := some (.outOfBounds "m_queue.front()") }
  | timeOut (i : Nat) (k : Call T) (hi : s.threads[i]? = some (.waiting k .expired)) :
      Effect s (.resume i none) (s.setThread i .idle)
  | wake (i : Nat) (k : Call T) (hi : s.threads[i]? = some (.waiting k .waiting)) :
      Effect s (.wake i) (s.setThread i (.waiting k .notified))
  | expire (i : Nat) (k : Call T) (hi : s.threads[i]? = some (.waiting k .waiting)) :
      Effect s (.expire i) (s.setThread i (.waiting k .expired))

section effect

variable {s t : State T} {a : Action T} {i : Nat} {n : Option Nat} {k : Call T}

/-- The end of a call: `front()` of an empty queue, or the end of the critical section. -/
theorem finish_cases (h : s.finish i n k = some t) :
    (∃ seconds, k = .pop seconds) ∧ s.queue.queue = [] ∧
        t = { s with fault := some (.outOfBounds "m_queue.front()") } ∨ Finishes i n k s t := by
  rcases k with seconds | ⟨item, seconds⟩ | ⟨items, seconds⟩
  · rcases hqueue : s.queue.queue with _ | ⟨d, rest⟩
    · simp only [State.finish, hqueue, Option.some.injEq] at h
      exact Or.inl ⟨⟨seconds, rfl⟩, rfl, h.symm⟩
    · refine Or.inr ⟨fun _ => by rw [hqueue]; exact List.cons_ne_nil d rest, ?_⟩
      simp only [State.finish, hqueue] at h
      rw [Call.apply, hqueue]
      exact h
  · refine Or.inr ⟨?_, h⟩
    rintro ⟨⟩
  · refine Or.inr ⟨?_, h⟩
    rintro ⟨⟩

/-- A step is taken where nothing has gone wrong. -/
theorem fault_of_step (h : step s a = some t) : s.fault = none := by
  unfold step at h
  split_ifs at h with hsome
  simpa using hsome

/-- **What a step can do.** -/
theorem step_effect (h : step s a = some t) : Effect s a t := by
  unfold step at h
  split_ifs at h
  cases a with
  | call i k =>
      simp only at h
      split at h
      · cases h
        exact .call i k (by assumption)
      · cases h
  | enter i n =>
      simp only at h
      split at h
      · rename_i k hi
        unfold State.enter at h
        split_ifs at h with hmust
        · obtain ⟨u, hu, rfl⟩ := Option.map_eq_some_iff.mp h
          exact .wait i n k u hi hmust hu
        · have hnot : k.mustWait s.queue = false := by simpa using hmust
          rcases finish_cases h with ⟨⟨seconds, rfl⟩, hqueue, -⟩ | ht
          · simp [Call.mustWait, hqueue] at hnot
          · exact .enter i n k t hi hnot ht
      · cases h
  | resume i n =>
      simp only at h
      split at h
      · rename_i k hi
        rcases finish_cases h with ⟨⟨seconds, rfl⟩, hqueue, rfl⟩ | ht
        · exact .fault i n seconds hi hqueue
        · exact .resume i n k t hi ht
      · rename_i k hi
        split_ifs at h with hn
        cases h
        subst hn
        exact .timeOut i k hi
      · cases h
  | wake i =>
      simp only at h
      split at h
      · rename_i k hi
        cases h
        exact .wake i k hi
      · cases h
  | expire i =>
      simp only at h
      split at h
      · rename_i k hi
        split_ifs at h
        cases h
        exact .expire i k hi
      · cases h

end effect

/-! ## Sleepers and woken threads -/

/-- Notified on the condition, and not back in the monitor. -/
def Thread.wokenOn (c : Cond) : Thread T → Bool
  | .waiting k .notified => k.waitsOn = c
  | _ => false

/-- The number of threads that sleep on the condition. -/
def State.sleepers (c : Cond) (s : State T) : Nat := s.threads.countP (Thread.waitsOn c)

/-- The number of threads that were woken from it. -/
def State.wokenOn (c : Cond) (s : State T) : Nat := s.threads.countP (Thread.wokenOn c)

section counts

variable {s t : State T} {i : Nat} {n : Option Nat} {k : Call T} {c c' : Cond}

@[simp] theorem waitsOn_idle : (Thread.idle : Thread T).waitsOn c = false := rfl
@[simp] theorem waitsOn_entering : (Thread.entering k).waitsOn c = false := rfl
@[simp] theorem waitsOn_waiting : (Thread.waiting k .waiting).waitsOn c = decide (k.waitsOn = c) := rfl
@[simp] theorem waitsOn_notified : (Thread.waiting k .notified).waitsOn c = false := rfl
@[simp] theorem waitsOn_expired : (Thread.waiting k .expired).waitsOn c = false := rfl
@[simp] theorem wokenOn_idle : (Thread.idle : Thread T).wokenOn c = false := rfl
@[simp] theorem wokenOn_entering : (Thread.entering k).wokenOn c = false := rfl
@[simp] theorem wokenOn_waiting : (Thread.waiting k .waiting).wokenOn c = false := rfl
@[simp] theorem wokenOn_notified :
    (Thread.waiting k .notified).wokenOn c = decide (k.waitsOn = c) := rfl
@[simp] theorem wokenOn_expired : (Thread.waiting k .expired).wokenOn c = false := rfl

@[simp] theorem sleepers_setQueue (q : SizedQueue T) : (s.setQueue q).sleepers c = s.sleepers c := rfl
@[simp] theorem wokenOn_setQueue (q : SizedQueue T) : (s.setQueue q).wokenOn c = s.wokenOn c := rfl

/-- What a call notifies is not what it waits on. -/
theorem notifies_ne_waitsOn (k : Call T) : k.notifies ≠ k.waitsOn := by
  rcases k with seconds | ⟨item, seconds⟩ | ⟨items, seconds⟩
  · rintro ⟨⟩
  · rintro ⟨⟩
  · rintro ⟨⟩

/-- A count of threads before and after one of them has gone on. -/
theorem countP_setThread (p : Thread T → Bool) {x y : Thread T} (hi : s.threads[i]? = some x) :
    (s.setThread i y).threads.countP p + (if p x then 1 else 0) =
      s.threads.countP p + if p y then 1 else 0 := by
  obtain ⟨hlt, hget⟩ := List.getElem?_eq_some_iff.mp hi
  rw [State.setThread]
  dsimp only
  rw [List.countP_set hlt, hget]
  by_cases hx : p x = true
  · have hpos : 0 < s.threads.countP p :=
      List.countP_pos_iff.mpr ⟨x, List.mem_of_getElem? hi, hx⟩
    simp only [hx, if_true]
    omega
  · simp [hx]

/-- A notification reaches a thread on the condition, or there is none. -/
theorem notifyOne_cases (h : s.notifyOne c n = some t) :
    t = s ∧ s.sleepers c = 0 ∨ ∃ j k, n = some j ∧ s.threads[j]? = some (.waiting k .waiting) ∧
      k.waitsOn = c ∧ t = s.setThread j (.waiting k .notified) := by
  unfold State.notifyOne at h
  rcases n with _ | j
  · simp only at h
    split_ifs at h with hany
    cases h
    refine Or.inl ⟨rfl, ?_⟩
    rw [State.sleepers, List.countP_eq_zero]
    intro x hx hwaits
    exact hany (List.any_eq_true.mpr ⟨x, hx, hwaits⟩)
  · simp only at h
    split at h
    · rename_i k hj
      split_ifs at h with hk
      cases h
      exact Or.inr ⟨j, k, rfl, hj, hk, rfl⟩
    · cases h

/-- A notification reaches some thread, or there is none on the condition. -/
theorem State.exists_notifyOne (c : Cond) (s : State T) : ∃ n t, s.notifyOne c n = some t := by
  by_cases hany : s.threads.any (Thread.waitsOn c) = true
  · obtain ⟨x, hx, hwaits⟩ := List.any_eq_true.mp hany
    obtain ⟨j, hj⟩ := List.getElem?_of_mem hx
    rcases x with _ | k | ⟨k, _ | _ | _⟩
    · cases hwaits
    · cases hwaits
    · have hk : k.waitsOn = c := by simpa [Thread.waitsOn] using hwaits
      refine ⟨some j, s.setThread j (.waiting k .notified), ?_⟩
      simp [State.notifyOne, hj, hk]
    · cases hwaits
    · cases hwaits
  · refine ⟨none, s, ?_⟩
    simp [State.notifyOne, hany]

/-- A thread that is not on the condition is not notified. -/
theorem State.getElem?_notifyOne {x : Thread T} (h : s.notifyOne c n = some t)
    (hi : s.threads[i]? = some x) (hx : x.waitsOn c = false) : t.threads[i]? = some x := by
  rcases notifyOne_cases h with ⟨rfl, -⟩ | ⟨j, k, -, hj, hk, rfl⟩
  · exact hi
  · have hij : j ≠ i := by
      rintro rfl
      rw [hi] at hj
      cases hj
      simp [hk] at hx
    rw [State.setThread, List.getElem?_set_ne hij]
    exact hi

/-- **What a notification does**: a sleeper of its condition becomes a woken thread, if there is
one. -/
theorem counts_notifyOne (h : s.notifyOne c n = some t) :
    t.queue = s.queue ∧ t.fault = s.fault ∧
      (∀ c', c' ≠ c → t.sleepers c' = s.sleepers c' ∧ t.wokenOn c' = s.wokenOn c') ∧
      (s.sleepers c = 0 ∧ t.sleepers c = 0 ∧ t.wokenOn c = s.wokenOn c ∨
        s.sleepers c = t.sleepers c + 1 ∧ t.wokenOn c = s.wokenOn c + 1) := by
  rcases notifyOne_cases h with ⟨rfl, hzero⟩ | ⟨j, k, -, hj, hk, rfl⟩
  · exact ⟨rfl, rfl, fun _ _ => ⟨rfl, rfl⟩, Or.inl ⟨hzero, hzero, rfl⟩⟩
  · have hsleepers (c' : Cond) := @countP_setThread T s j (Thread.waitsOn c') _
      (.waiting k .notified) hj
    have hwoken (c' : Cond) := @countP_setThread T s j (Thread.wokenOn c') _
      (.waiting k .notified) hj
    refine ⟨rfl, rfl, ?_, Or.inr ⟨?_, ?_⟩⟩
    · intro c' hne
      have hkc : k.waitsOn ≠ c' := fun heq => hne (heq.symm.trans hk)
      refine ⟨?_, ?_⟩
      · simpa [hkc, State.sleepers] using hsleepers c'
      · simpa [hkc, State.wokenOn] using hwoken c'
    · simpa [hk, State.sleepers] using (hsleepers c).symm
    · simpa [hk, State.wokenOn] using hwoken c

/-- A call that ends leaves the queue as `apply` does. -/
theorem Finishes.queue_eq (h : Finishes i n k s t) : t.queue = k.apply s.queue :=
  (counts_notifyOne h.notified).1

/-- A call that ends leaves no fault. -/
theorem Finishes.fault_eq (h : Finishes i n k s t) : t.fault = s.fault :=
  (counts_notifyOne h.notified).2.1

end counts

end Zbroker.SharedQueue
