import Zbroker.Queue.Threads

/-!
# When no pop reads an empty queue

* `Covered s` — the queue has an item for every pop that was woken and is not back in the monitor;
  `Spare s` — and one item more.
* `Kept` — a pop that has not waited takes an item, and a step that adds no item wakes a pop, only
  if there is a spare one. This is what one step needs to keep the state covered.
* `PopsGoOn` — a woken pop has the monitor again.
* **`frontNonempty_iff`**: no pop reaches `front()` on an empty queue in a run, whichever of its
  woken pops go on at whichever of its states, exactly when all of its steps are `Kept`.
A state that is covered stays so while woken pops go on, and one that is not has a run in which they find
the queue empty (`covered_iff_forall_goOn`); which steps keep it covered is `covered_step_iff`, one case for
each thing a step can do.
-/

namespace Zbroker.SharedQueue

open Found.Transition

variable {T : Type}

/-! ## Woken pops -/

/-- A pop that was woken and is not back in the monitor. -/
def Thread.isWoken : Thread T → Bool
  | .waiting (.pop _) .notified => true
  | _ => false

@[simp] theorem Thread.isWoken_idle : (Thread.idle : Thread T).isWoken = false := rfl

@[simp] theorem Thread.isWoken_entering (k : Call T) : (Thread.entering k).isWoken = false := rfl

/-- The number of woken pops. -/
def State.woken (s : State T) : Nat := s.threads.countP Thread.isWoken

/-- There is an item for every woken pop. -/
def Covered (s : State T) : Prop := s.woken ≤ s.queue.queue.length

instance (s : State T) : Decidable (Covered s) := inferInstanceAs (Decidable (_ ≤ _))

/-- There is an item for every woken pop, and one more. -/
def Spare (s : State T) : Prop := s.woken < s.queue.queue.length

/-- The notification reaches a pop. -/
def Reaches (s : State T) (n : Option Nat) : Prop :=
  ∃ j seconds, n = some j ∧ s.threads[j]? = some (.waiting (.pop seconds) .waiting)

/-- Behind the test and the wait, the push adds an item. -/
def Call.Brings (q : SizedQueue T) : Call T → Prop
  | .pop _ => False
  | .push _ _ => True
  | .pushAll items _ => items ≠ [] ∧ q.isFull = false

/-- What a step needs so that there still is an item for every woken pop. -/
def Kept (s : State T) : Action T → Prop
  | .call _ _ | .expire _ => True
  | .enter i n => ∀ k, s.threads[i]? = some (.entering k) →
      match k.waitsOn with
      | .canPop => s.queue.queue ≠ [] → Spare s
      | .canPush =>
          -- a push that finds the queue full notifies before it has added anything
          Reaches s n → (k.mustWait s.queue = false ∧ k.Brings s.queue) ∨ Spare s
  | .resume i n => ∀ k, s.threads[i]? = some (.waiting k .notified) → k.waitsOn = .canPush →
      Reaches s n → k.Brings s.queue ∨ Spare s
  | .wake i => Reaches s (some i) → Spare s

/-- A woken pop has the monitor again. -/
def PopsGoOn (s : State T) (a : Action T) : Prop :=
  ∃ i n seconds, a = .resume i n ∧ s.threads[i]? = some (.waiting (.pop seconds) .notified)

namespace State

variable {s t : State T} {i : Nat} {n : Option Nat} {k : Call T}

@[simp] theorem woken_setQueue (q : SizedQueue T) : (s.setQueue q).woken = s.woken := rfl

@[simp] theorem reaches_setQueue (q : SizedQueue T) (n : Option Nat) :
    Reaches (s.setQueue q) n ↔ Reaches s n := Iff.rfl

/-- The woken pops are the threads woken from the condition of the pops. -/
theorem woken_eq (s : State T) : s.woken = s.wokenOn .canPop := by
  have hwoken : (Thread.isWoken : Thread T → Bool) = Thread.wokenOn .canPop := by
    funext x
    rcases x with _ | k | ⟨⟨seconds⟩ | ⟨item, seconds⟩ | ⟨items, seconds⟩, _ | _ | _⟩ <;> rfl
  rw [woken, hwoken]
  rfl

/-- The woken pops before and after a thread has gone on. -/
theorem woken_setThread {x y : Thread T} (hi : s.threads[i]? = some x) :
    (s.setThread i y).woken + (if x.isWoken then 1 else 0) =
      s.woken + if y.isWoken then 1 else 0 :=
  countP_setThread Thread.isWoken hi

/-- A notification of the pushes wakes no pop, and touches nothing else. -/
theorem notifyOne_canPush (h : s.notifyOne .canPush n = some t) :
    t.woken = s.woken ∧ t.queue = s.queue ∧ t.fault = s.fault := by
  obtain ⟨hqueue, hfault, hother, -⟩ := counts_notifyOne h
  refine ⟨?_, hqueue, hfault⟩
  rw [woken_eq, woken_eq]
  exact (hother .canPop (by decide)).2

/-- A notification of the pops wakes the pop it reaches, and touches nothing else. -/
theorem notifyOne_canPop (h : s.notifyOne .canPop n = some t) :
    t.queue = s.queue ∧ t.fault = s.fault ∧
      (Reaches s n ∧ t.woken = s.woken + 1 ∨ ¬ Reaches s n ∧ t.woken = s.woken) := by
  rcases notifyOne_cases h with ⟨rfl, hzero⟩ | ⟨j, k, rfl, hj, hk, rfl⟩
  · refine ⟨rfl, rfl, Or.inr ⟨?_, rfl⟩⟩
    intro ⟨j, seconds, _, hj⟩
    exact List.countP_eq_zero.mp hzero _ (List.mem_of_getElem? hj) rfl
  · refine ⟨rfl, rfl, Or.inl ?_⟩
    have hwoken := woken_setThread (y := .waiting k .notified) hj
    rcases k with seconds | ⟨item, seconds⟩ | ⟨items, seconds⟩
    · exact ⟨⟨j, seconds, rfl, hj⟩, by simpa [Thread.isWoken] using hwoken⟩
    · cases hk
    · cases hk

/-- A thread that is not a waiting pop can go on; a notification reaches the same pops. -/
theorem reaches_setThread {x y : Thread T} (hi : s.threads[i]? = some x)
    (hx : ∀ seconds, x ≠ .waiting (.pop seconds) .waiting)
    (hy : ∀ seconds, y ≠ .waiting (.pop seconds) .waiting) :
    Reaches (s.setThread i y) n ↔ Reaches s n := by
  obtain ⟨hlt, hget⟩ := List.getElem?_eq_some_iff.mp hi
  refine exists_congr fun j => exists_congr fun seconds => and_congr_right fun _ => ?_
  rw [setThread, List.getElem?_set]
  by_cases hij : i = j
  · subst hij
    simp [hlt, hget, hx, hy]
  · simp [hij]

end State

/-! ## The ends of calls -/

section Finishes

variable {s t : State T} {i : Nat} {n : Option Nat} {k : Call T}

/-- A push that gets behind the wait: it adds what it brings, and then notifies the pops. -/
theorem Finishes.push {x : Thread T} (h : Finishes i n k s t) (hk : k.waitsOn = .canPush)
    (hi : s.threads[i]? = some x) (hwoken : x.isWoken = false)
    (hx : ∀ seconds, x ≠ .waiting (.pop seconds) .waiting) :
    s.queue.queue.length ≤ t.queue.queue.length ∧
      (s.queue.queue.length < t.queue.queue.length ↔ k.Brings s.queue) ∧
      (Reaches s n ∧ t.woken = s.woken + 1 ∨ ¬ Reaches s n ∧ t.woken = s.woken) := by
  have hset := State.woken_setThread (y := .idle) hi
  have hreaches : Reaches (s.setThread i .idle) n ↔ Reaches s n :=
    State.reaches_setThread hi hx fun _ hidle => by cases hidle
  simp only [hwoken, Thread.isWoken_idle, Bool.false_eq_true, if_false, Nat.add_zero] at hset
  have hnotified := h.notified
  rcases k with seconds | ⟨item, seconds⟩ | ⟨items, seconds⟩
  · cases hk
  · obtain ⟨hqueue, -, hwakes⟩ := State.notifyOne_canPop hnotified
    rw [State.reaches_setQueue, State.woken_setQueue, hreaches, hset] at hwakes
    refine ⟨?_, ?_, hwakes⟩
    · simp [hqueue, State.setQueue, Call.apply]
    · simp [hqueue, State.setQueue, Call.apply, Call.Brings]
  · obtain ⟨hqueue, -, hwakes⟩ := State.notifyOne_canPop hnotified
    rw [State.reaches_setQueue, State.woken_setQueue, hreaches, hset] at hwakes
    refine ⟨?_, ?_, hwakes⟩
    · rw [hqueue]
      exact SizedQueue.length_le_fill s.queue items
    · rw [hqueue]
      exact SizedQueue.length_lt_fill_iff

/-- A pop that gets behind the wait takes an item. -/
theorem Finishes.pop {x : Thread T} (h : Finishes i n k s t) (hk : k.waitsOn = .canPop)
    (hi : s.threads[i]? = some x) :
    t.woken + (if x.isWoken then 1 else 0) = s.woken ∧
      t.queue.queue.length + 1 = s.queue.queue.length := by
  have hfront := List.length_pos_iff.mpr (h.front hk)
  have hset := State.woken_setThread (y := .idle) hi
  have hnotified := h.notified
  rcases k with seconds | ⟨item, seconds⟩ | ⟨items, seconds⟩
  · obtain ⟨hwoken, hqueue, -⟩ := State.notifyOne_canPush hnotified
    refine ⟨?_, ?_⟩
    · rw [hwoken, State.woken_setQueue]
      simpa [Thread.isWoken] using hset
    · rw [hqueue]
      show s.queue.queue.tail.length + 1 = s.queue.queue.length
      rw [List.length_tail]
      omega
  · cases hk
  · cases hk

end Finishes

/-! ## One step -/

section Step

variable {s t : State T} {a : Action T} {i : Nat} {n : Option Nat} {k : Call T}

/-- What a thread with a new call, or past its deadline, does to the queue and the woken pops. -/
theorem covered_setThread {x y : Thread T} (hi : s.threads[i]? = some x)
    (hx : x.isWoken = false) (hy : y.isWoken = false) :
    Covered (s.setThread i y) ↔ Covered s := by
  have hset := State.woken_setThread (y := y) hi
  simp only [hx, hy, Bool.false_eq_true, if_false, Nat.add_zero] at hset
  unfold Covered
  rw [hset]
  exact Iff.rfl

/-- Only a notified thread was woken. -/
theorem isWoken_of_ne_notified {w : Wait} (hw : w ≠ .notified) :
    (Thread.waiting k w).isWoken = false := by
  rcases k with seconds | ⟨item, seconds⟩ | ⟨items, seconds⟩
  · rcases w with _ | _ | _
    · rfl
    · exact absurd rfl hw
    · rfl
  · rfl
  · rfl

/-- A push behind the wait keeps the state covered, exactly if it adds an item or there was a
spare one for the pop it wakes. -/
theorem covered_push_iff {x : Thread T} (hc : Covered s) (h : Finishes i n k s t)
    (hk : k.waitsOn = .canPush) (hi : s.threads[i]? = some x) (hwoken : x.isWoken = false)
    (hx : ∀ seconds, x ≠ .waiting (.pop seconds) .waiting) :
    Covered t ↔ (Reaches s n → k.Brings s.queue ∨ Spare s) := by
  obtain ⟨hle, hbrings, ⟨hreaches, hw⟩ | ⟨hreaches, hw⟩⟩ := h.push hk hi hwoken hx
  · rw [← hbrings]
    unfold Covered Spare at *
    simp only [hreaches, true_implies]
    omega
  · unfold Covered at *
    simp only [hreaches, false_implies, iff_true]
    omega

/-- A call that starts its wait: what counts is the pop that its notification reaches. -/
theorem covered_wait_iff {u : State T} (hc : Covered s) (hi : s.threads[i]? = some (.entering k))
    (hmust : k.mustWait s.queue = true) (h : s.notifyOne k.notifies n = some u) :
    u.fault = s.fault ∧ (Covered (u.setThread i (.waiting k .waiting)) ↔ Kept s (.enter i n)) := by
  have hui : u.threads[i]? = some (.entering k) := State.getElem?_notifyOne h hi rfl
  have hwait : Covered (u.setThread i (.waiting k .waiting)) ↔ Covered u :=
    covered_setThread hui rfl (isWoken_of_ne_notified (by decide))
  rw [hwait]
  simp only [Kept, hi, Option.some.injEq, Thread.entering.injEq, forall_eq']
  rcases hk : k.waitsOn with _ | _
  · have hnotifies : k.notifies = .canPop := by
      rcases k with seconds | ⟨item, seconds⟩ | ⟨items, seconds⟩
      · cases hk
      · rfl
      · rfl
    rw [hnotifies] at h
    obtain ⟨hqueue, hfault, hwakes⟩ := State.notifyOne_canPop h
    refine ⟨hfault, ?_⟩
    simp only [hmust, Bool.true_eq_false, false_and, false_or]
    unfold Covered Spare at *
    rw [hqueue]
    rcases hwakes with ⟨hreaches, hw⟩ | ⟨hreaches, hw⟩
    · simp only [hreaches, true_implies]
      omega
    · simp only [hreaches, false_implies, iff_true]
      omega
  · rcases k with seconds | ⟨item, seconds⟩ | ⟨items, seconds⟩
    · obtain ⟨hwoken, hqueue, hfault⟩ := State.notifyOne_canPush h
      have hempty : s.queue.queue = [] := by simpa [Call.mustWait] using hmust
      refine ⟨hfault, iff_of_true ?_ fun hne => absurd hempty hne⟩
      unfold Covered at *
      rw [hwoken, hqueue]
      exact hc
    · cases hk
    · cases hk

/-- A call that enters and does not wait: a pop takes an item, whoever was woken for it. -/
theorem covered_enter_iff (hc : Covered s) (hi : s.threads[i]? = some (.entering k))
    (hmust : k.mustWait s.queue = false) (h : Finishes i n k s t) :
    t.fault = s.fault ∧ (Covered t ↔ Kept s (.enter i n)) := by
  simp only [Kept, hi, Option.some.injEq, Thread.entering.injEq, forall_eq']
  rcases hk : k.waitsOn with _ | _
  · have hx : ∀ seconds, Thread.entering k ≠ .waiting (.pop seconds) .waiting :=
      fun _ hentering => by cases hentering
    refine ⟨h.fault_eq, ?_⟩
    rw [covered_push_iff hc h hk hi rfl hx]
    simp only [hmust, true_and]
  · obtain ⟨hwoken, hlength⟩ := h.pop hk hi
    simp only [Thread.isWoken_entering, Bool.false_eq_true, if_false, Nat.add_zero] at hwoken
    have hfront : s.queue.queue ≠ [] := h.front hk
    refine ⟨h.fault_eq, ?_⟩
    unfold Covered Spare
    simp only [hfront, ne_eq, not_false_eq_true, true_implies]
    omega

/-- A pop or a push that has waited has the monitor again: a woken pop takes the item there is for
it. -/
theorem covered_resume_iff (hc : Covered s) (hi : s.threads[i]? = some (.waiting k .notified))
    (h : Finishes i n k s t) : t.fault = s.fault ∧ (Covered t ↔ Kept s (.resume i n)) := by
  simp only [Kept, hi, Option.some.injEq, Thread.waiting.injEq, and_true, forall_eq']
  rcases hk : k.waitsOn with _ | _
  · have hx : ∀ seconds, Thread.waiting k .notified ≠ .waiting (.pop seconds) .waiting :=
      fun _ hwait => by cases hwait
    have hwoken : (Thread.waiting k .notified).isWoken = false := by
      rcases k with seconds | ⟨item, seconds⟩ | ⟨items, seconds⟩
      · cases hk
      · rfl
      · rfl
    refine ⟨h.fault_eq, ?_⟩
    rw [covered_push_iff hc h hk hi hwoken hx]
    simp only [true_implies]
  · obtain ⟨hwoken, hlength⟩ := h.pop hk hi
    have hone : (Thread.waiting k .notified).isWoken = true := by
      rcases k with seconds | ⟨item, seconds⟩ | ⟨items, seconds⟩
      · rfl
      · cases hk
      · cases hk
    rw [hone] at hwoken
    refine ⟨h.fault_eq, iff_of_true ?_ fun hpush => by cases hpush⟩
    unfold Covered at *
    simp only [if_true] at hwoken
    omega

/-- A wait that ends without a notification. -/
theorem covered_wake_iff (hc : Covered s) (hi : s.threads[i]? = some (.waiting k .waiting)) :
    Covered (s.setThread i (.waiting k .notified)) ↔ Kept s (.wake i) := by
  have hwoken := State.woken_setThread (y := .waiting k .notified) hi
  unfold Covered at *
  rcases k with seconds | ⟨item, seconds⟩ | ⟨items, seconds⟩
  · have hreaches : Reaches s (some i) := ⟨i, seconds, rfl, hi⟩
    have hone : (s.setThread i (.waiting (.pop seconds) .notified)).woken = s.woken + 1 := hwoken
    rw [hone]
    exact ⟨fun hle _ => hle, fun hkept => hkept hreaches⟩
  all_goals
    have hsame : (s.setThread i _).woken = s.woken := hwoken
    rw [hsame]
    apply iff_of_true hc
    rintro ⟨j, seconds', hj, hpop⟩
    cases hj
    rw [hi] at hpop
    cases hpop

/-- A woken pop is one of the woken pops. -/
theorem woken_pos {x : Thread T} (hi : s.threads[i]? = some x) (hx : x.isWoken = true) :
    0 < s.woken :=
  List.countP_pos_iff.mpr ⟨x, List.mem_of_getElem? hi, hx⟩

/-- **What one step does.** From a covered state every step but a step that is not `Kept` leads to
a covered state, and none to `front()` on an empty queue. -/
theorem covered_step_iff (hc : Covered s) (h : step s a = some t) :
    t.fault = none ∧ (Covered t ↔ Kept s a) := by
  have hnone : s.fault = none := fault_of_step h
  rw [← hnone]
  cases step_effect h with
  | call i k hi => exact ⟨rfl, iff_of_true ((covered_setThread hi rfl rfl).mpr hc) trivial⟩
  | wait i n k u hi hmust hu => exact covered_wait_iff hc hi hmust hu
  | enter i n k t hi hmust ht => exact covered_enter_iff hc hi hmust ht
  | resume i n k t hi ht => exact covered_resume_iff hc hi ht
  | fault i n seconds hi hqueue =>
      have hpos : 0 < s.woken := woken_pos hi rfl
      have hzero : s.woken ≤ 0 := by simpa [Covered, hqueue] using hc
      omega
  | timeOut i k hi =>
      have hwoken : (Thread.waiting k .expired).isWoken = false :=
        isWoken_of_ne_notified (by decide)
      refine ⟨rfl, iff_of_true ((covered_setThread hi hwoken rfl).mpr hc) ?_⟩
      intro k' hk'
      rw [hi] at hk'
      cases hk'
  | wake i k hi => exact ⟨rfl, covered_wake_iff hc hi⟩
  | expire i k hi =>
      have hsame := @covered_setThread T s i _ (.waiting k .expired) hi
        (isWoken_of_ne_notified (by decide)) (isWoken_of_ne_notified (by decide))
      exact ⟨rfl, iff_of_true (hsame.mpr hc) trivial⟩

end Step

/-! ## Runs -/

/-- A woken pop that goes on is a step that keeps the state covered. -/
theorem PopsGoOn.kept {s : State T} {a : Action T} (h : PopsGoOn s a) : Kept s a := by
  obtain ⟨i, n, seconds, rfl, hi⟩ := h
  intro k hk hpush
  rw [hi] at hk
  cases hk
  cases hpush

/-- Woken pops are pops that were notified. -/
theorem exists_woken {s : State T} (h : 0 < s.woken) :
    ∃ (i seconds : Nat), s.threads[i]? = some (.waiting (.pop seconds) .notified) := by
  obtain ⟨x, hx, hwoken⟩ := List.countP_pos_iff.mp h
  obtain ⟨i, hi⟩ := List.getElem?_of_mem hx
  unfold Thread.isWoken at hwoken
  split at hwoken
  · exact ⟨i, _, hi⟩
  · cases hwoken

/-- Where a woken pop has no item, the woken pops can go on up to `front()` on an empty queue. -/
theorem exists_fault_of_not_covered {s : State T} (hs : s.fault = none) (hc : ¬ Covered s) :
    ∃ as t, Guarded step PopsGoOn s as ∧ run step s as = some t ∧ t.fault ≠ none := by
  -- Each woken pop takes one item, so one of them is left when the queue is empty.
  induction hqueue : s.queue.queue generalizing s with
  | nil =>
      have hpos : 0 < s.woken := by
        simpa [Covered, hqueue, Nat.pos_iff_ne_zero] using hc
      obtain ⟨i, seconds, hi⟩ := exists_woken hpos
      let t : State T := { s with fault := some (.outOfBounds "m_queue.front()") }
      have hstep : step s (.resume i none) = some t := by
        simp [step, hs, hi, State.finish, hqueue, t]
      refine ⟨[.resume i none], t, ?_, ?_, by simp [t]⟩
      · rw [guarded_cons_of_step step PopsGoOn hstep]
        exact ⟨⟨i, none, seconds, rfl, hi⟩, trivial⟩
      · rw [run_cons, hstep]
        rfl
  | cons d rest ih =>
      have hlt : rest.length + 1 < s.woken := by simpa [Covered, hqueue] using hc
      obtain ⟨i, seconds, hi⟩ := exists_woken (show 0 < s.woken by omega)
      obtain ⟨n, t, ht⟩ : ∃ n t, s.finish i n (.pop seconds) = some t := by
        simp only [State.finish, hqueue]
        exact State.exists_notifyOne .canPush _
      have hfinishes : Finishes i n (.pop seconds) s t := by
        rcases finish_cases ht with ⟨-, hempty, -⟩ | hfinishes
        · rw [hqueue] at hempty
          cases hempty
        · exact hfinishes
      obtain ⟨hwoken, -⟩ := hfinishes.pop rfl hi
      have hone : t.woken + 1 = s.woken := hwoken
      have htqueue : t.queue.queue = rest := by
        rw [hfinishes.queue_eq, Call.apply, hqueue]
        rfl
      have hstep : step s (.resume i n) = some t := by
        simp [step, hs, hi, ht]
      have hcovered : ¬ Covered t := by
        unfold Covered
        rw [htqueue]
        omega
      obtain ⟨as, u, hguarded, hrun, hu⟩ := ih (hfinishes.fault_eq.trans hs) hcovered htqueue
      refine ⟨.resume i n :: as, u, ?_, ?_, hu⟩
      · rw [guarded_cons_of_step step PopsGoOn hstep]
        exact ⟨⟨i, n, seconds, rfl, hi⟩, hguarded⟩
      · rw [run_cons, hstep]
        exact hrun

/-- What the woken pops do from a state depends on whether it is covered. -/
theorem covered_iff_forall_goOn {s : State T} (hs : s.fault = none) :
    Covered s ↔ ∀ as t, Guarded step PopsGoOn s as → run step s as = some t → t.fault = none := by
  constructor
  · intro hc as t hguarded hrun
    have hstep : ∀ (u : State T) a v, Covered u ∧ u.fault = none → PopsGoOn u a → step u a = some v →
        Covered v ∧ v.fault = none := by
      rintro u a v ⟨hu, -⟩ hgo hv
      obtain ⟨hfault, hcovered⟩ := covered_step_iff hu hv
      exact ⟨hcovered.mpr hgo.kept, hfault⟩
    exact (run_invariant hstep ⟨hc, hs⟩ hguarded hrun).2
  · intro hall
    by_contra hc
    obtain ⟨as, t, hguarded, hrun, ht⟩ := exists_fault_of_not_covered hs hc
    exact ht (hall as t hguarded hrun)

/-- At the start no pop has been woken. -/
theorem covered_start (q : SizedQueue T) (threads : Nat) : Covered (State.start q threads) := by
  have hzero : (State.start q threads).woken = 0 := by
    rw [State.woken, List.countP_eq_zero]
    intro x hx
    rw [List.eq_of_mem_replicate hx]
    exact Bool.false_ne_true
  rw [Covered, hzero]
  exact Nat.zero_le _

/-- **When no pop reads an empty queue.** For every queue and any number of threads: in a run, and
wherever in it woken pops go on, no pop reaches `front()` on an empty queue, exactly when every
step of the run leaves an item for each woken pop. -/
theorem frontNonempty_iff (q : SizedQueue T) (threads : Nat) {as : List (Action T)} {s : State T}
    (hrun : run step (State.start q threads) as = some s) :
    (∀ bs, bs <+: as → ∀ t, run step (State.start q threads) bs = some t →
      ∀ cs u, Guarded step PopsGoOn t cs → run step t cs = some u → u.fault = none) ↔
    Guarded step Kept (State.start q threads) as := by
  let Good (t : State T) : Prop := t.fault = none ∧ Covered t
  have hgood (t : State T) : Good t ↔
      ∀ cs u, Guarded step PopsGoOn t cs → run step t cs = some u → u.fault = none := by
    constructor
    · rintro ⟨hfault, hc⟩
      exact (covered_iff_forall_goOn hfault).mp hc
    · intro hall
      have hfault : t.fault = none := hall [] t trivial rfl
      exact ⟨hfault, (covered_iff_forall_goOn hfault).mpr hall⟩
  have hstart : Good (State.start q threads) := ⟨rfl, covered_start q threads⟩
  have hany : Guarded step (fun _ _ => True) (State.start q threads) as :=
    guarded_of_forall step _ (fun _ _ => trivial) _ _
  have hstep : ∀ (u : State T) a v, True → Good u → True → step u a = some v → (Good v ↔ Kept u a) := by
    rintro u a v - ⟨-, hc⟩ - hv
    obtain ⟨hfault, hcovered⟩ := covered_step_iff hc hv
    exact ⟨fun hgoodv => hcovered.mp hgoodv.2, fun hkept => ⟨hfault, hcovered.mpr hkept⟩⟩
  rw [← forall_prefix_iff_guarded (I := fun _ => True) (fun _ _ _ _ _ _ _ _ => trivial) hstep
    trivial hstart hany hrun]
  exact forall_congr' fun bs => forall_congr' fun _ => forall_congr' fun t =>
    forall_congr' fun _ => (hgood t).symm

/-- A pop that waits, the push that wakes it, and the pop again. -/
theorem frontNonempty_pushed :
    ∃ s, run step (State.start (⟨1, []⟩ : SizedQueue Nat) 2)
        [.call 0 (.pop 1), .enter 0 none, .call 1 (.push 7 0), .enter 1 (some 0),
          .resume 0 none] = some s ∧
      ∀ bs, bs <+: [.call 0 (.pop 1), .enter 0 none, .call 1 (.push 7 0), .enter 1 (some 0),
          .resume 0 none] →
        ∀ t, run step (State.start (⟨1, []⟩ : SizedQueue Nat) 2) bs = some t →
          ∀ cs u, Guarded step PopsGoOn t cs → run step t cs = some u → u.fault = none := by
  refine ⟨_, rfl, (frontNonempty_iff ⟨1, []⟩ 2 rfl).mpr ?_⟩
  -- the pop finds the queue empty, and the push brings the item that it is woken for
  refine (guarded_cons_of_step _ _ rfl).mpr ⟨trivial, ?_⟩
  refine (guarded_cons_of_step _ _ rfl).mpr ⟨(by intro _ hi; cases hi; exact absurd rfl), ?_⟩
  refine (guarded_cons_of_step _ _ rfl).mpr ⟨trivial, ?_⟩
  refine (guarded_cons_of_step _ _ rfl).mpr
    ⟨(by intro _ hi; cases hi; exact fun _ => Or.inl ⟨rfl, trivial⟩), ?_⟩
  exact (guarded_cons_of_step _ _ rfl).mpr ⟨(by intro _ hi hpush; cases hi; cases hpush), trivial⟩

/-- With room for no item, which `queue_size: 0` asks for, a push finds the queue full at once and
wakes the pop without having added anything. -/
theorem not_frontNonempty_noRoom :
    ¬ ∀ (q : SizedQueue Nat) threads as s, run step (State.start q threads) as = some s →
      s.fault = none := by
  intro hall
  have hfault := hall ⟨0, []⟩ 2
    [.call 0 (.pop 1), .enter 0 none, .call 1 (.pushAll [7] 0), .enter 1 (some 0),
      .resume 0 none] _ rfl
  cases hfault

end Zbroker.SharedQueue
