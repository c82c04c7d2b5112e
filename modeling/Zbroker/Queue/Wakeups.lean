import Zbroker.Found.Waiters
import Zbroker.Queue.Threads

/-!
# Lost wake-ups

Pops wait for items, pushes for free places. A push of a vector may bring many items and sends one
notification, while a pop takes one item and frees one place.

* `Tracked` — a queue and its threads, and which of the threads that are awake were not notified.
  `run_tracked`: its runs are those of the queue.
* `waiters c g` — the threads on a condition of the queue, as waiters for its units: the sleepers,
  the notified threads that do not have the monitor again, and the items or free places.
  **`served_step_iff`** is what a step does to them.
* `Matched` — a push of a vector leaves no more items than there are notified pops, or no pop
  asleep.
* `PopServed` — when no notified pop is left to go on, a pop sleeps only at an empty queue.
  **`popServed_iff`**: in a run, and when its notified pops go on at whichever of its states, this
  holds exactly when all steps of the run are `Matched`.
* **`freeSlots_le`**: while a push sleeps, the free places are no more than the notified pushes,
  if no vector is empty.
Every step is a move of the waiters of each condition, and which moves keep them served is said once for
both (`served_step_iff`). When a pop sleeps at a queue with items and is not served, the notified pops can
go on until none is left (`served_iff_forall_goOn`).
-/

namespace Zbroker.SharedQueue

open Found Found.Transition

variable {T : Type}

/-! ## Who was notified -/

/-- A queue with its threads. -/
structure Tracked (T : Type) where
  state : State T
  /-- The threads that are awake and were not notified. -/
  startled : List Nat

namespace Tracked

/-- No thread is awake. -/
def start (q : SizedQueue T) (threads : Nat) : Tracked T := ⟨State.start q threads, []⟩

/-- The threads that are awake and were not notified, after a step. -/
def after (startled : List Nat) : Action T → List Nat
  | .wake i => i :: startled
  | .resume i _ => startled.filter (· ≠ i)
  | _ => startled

/-- A step of the queue. -/
def step (g : Tracked T) (a : Action T) : Option (Tracked T) :=
  (SharedQueue.step g.state a).map fun t => ⟨t, after g.startled a⟩

/-- The thread was notified on the condition, and does not have the monitor again. -/
def isNotified (c : Cond) (g : Tracked T) (i : Nat) : Bool :=
  (g.state.threads[i]?).any (Thread.wokenOn c) && !g.startled.contains i

/-- The number of notified threads. -/
def notified (c : Cond) (g : Tracked T) : Nat :=
  (List.range g.state.threads.length).countP (g.isNotified c)

/-- Only threads that are awake were startled. -/
def Awake (g : Tracked T) : Prop :=
  ∀ i ∈ g.startled, ∃ k, g.state.threads[i]? = some (.waiting k .notified)

end Tracked

section tracked

variable {s t : State T} {g g' : Tracked T} {a : Action T} {i : Nat} {n : Option Nat} {k : Call T}
  {c : Cond} {startled : List Nat}

/-- A step is one of the queue, and keeps the book. -/
theorem step_eq_some : g.step a = some g' ↔
    step g.state a = some g'.state ∧ g'.startled = Tracked.after g.startled a := by
  unfold Tracked.step
  rw [Option.map_eq_some_iff]
  constructor
  · rintro ⟨t, ht, rfl⟩
    exact ⟨ht, rfl⟩
  · rintro ⟨ht, hstartled⟩
    exact ⟨g'.state, ht, by rw [← hstartled]⟩

/-- **The runs are those of the queue.** -/
theorem run_tracked (g : Tracked T) (as : List (Action T)) :
    (run Tracked.step g as).map Tracked.state = run step g.state as := by
  induction as generalizing g with
  | nil => rfl
  | cons a as ih =>
      rw [run_cons, run_cons, Tracked.step]
      rcases step g.state a with _ | t
      · rfl
      · exact ih ⟨t, Tracked.after g.startled a⟩

/-- A count of numbers before and after one of them has changed. -/
theorem countP_range {p p' : ℕ → Bool} {i m : ℕ} (hi : i < m) (h : ∀ j, j ≠ i → p' j = p j) :
    (List.range m).countP p' + (if p i then 1 else 0) =
      (List.range m).countP p + if p' i then 1 else 0 := by
  induction m with
  | zero => exact absurd hi (Nat.not_lt_zero i)
  | succ m ih =>
      simp only [List.range_succ, List.countP_append, List.countP_singleton]
      rcases Nat.lt_succ_iff_lt_or_eq.mp hi with hlt | rfl
      · rw [h m (Nat.ne_of_gt hlt)]
        have hm := ih hlt
        omega
      · have hsame : (List.range i).countP p' = (List.range i).countP p := by
          apply List.countP_congr
          intro j hj
          rw [h j (Nat.ne_of_lt (List.mem_range.mp hj))]
        rw [hsame]
        omega

/-- The notified threads before and after a thread has gone on. -/
theorem notified_setThread {x y : Thread T} (hi : g.state.threads[i]? = some x)
    (hstartled : ∀ j, j ≠ i → startled.contains j = g.startled.contains j) :
    (⟨g.state.setThread i y, startled⟩ : Tracked T).notified c +
        (if g.isNotified c i then 1 else 0) =
      g.notified c + if y.wokenOn c && !startled.contains i then 1 else 0 := by
  obtain ⟨hlt, -⟩ := List.getElem?_eq_some_iff.mp hi
  have hafter : (⟨g.state.setThread i y, startled⟩ : Tracked T).isNotified c i =
      (y.wokenOn c && !startled.contains i) := by
    simp [Tracked.isNotified, State.setThread, hlt]
  have hcount := @countP_range (g.isNotified c)
    ((⟨g.state.setThread i y, startled⟩ : Tracked T).isNotified c) i g.state.threads.length hlt (by
      intro j hj
      simp only [Tracked.isNotified, State.setThread, List.getElem?_set_ne (Ne.symm hj),
        hstartled j hj])
  have hlength : (g.state.setThread i y).threads.length = g.state.threads.length := by
    simp [State.setThread]
  rw [hafter] at hcount
  unfold Tracked.notified
  dsimp only
  rw [hlength]
  exact hcount

/-- A thread that was notified keeps its place until it has the monitor again. -/
theorem getElem_of_step (h : step s a = some t) (hi : s.threads[i]? = some (.waiting k .notified))
    (ha : ∀ n, a ≠ .resume i n) : t.threads[i]? = some (.waiting k .notified) := by
  have hset {u : State T} {j : Nat} {x y : Thread T} (hj : u.threads[j]? = some x)
      (hui : u.threads[i]? = some (.waiting k .notified))
      (hx : j ≠ i) : (u.setThread j y).threads[i]? = some (.waiting k .notified) := by
    rw [State.setThread, List.getElem?_set_ne hx]
    exact hui
  have hne {u : State T} {j : Nat} {x : Thread T} (hj : u.threads[j]? = some x)
      (hui : u.threads[i]? = some (.waiting k .notified)) (hx : x ≠ .waiting k .notified) :
      j ≠ i := by
    rintro rfl
    rw [hui] at hj
    exact hx (Option.some.inj hj).symm
  have hfinish {j : Nat} {n : Option Nat} {k' : Call T} {x : Thread T}
      (hj : s.threads[j]? = some x) (hji : j ≠ i) (ht : Finishes j n k' s t) :
      t.threads[i]? = some (.waiting k .notified) :=
    State.getElem?_notifyOne ht.notified (hset hj hi hji) rfl
  rcases step_effect h with ⟨j, k', hj⟩ | ⟨j, n, k', u, hj, -, hu⟩ | ⟨j, n, k', t, hj, -, ht⟩ |
    ⟨j, n, k', t, hj, ht⟩ | ⟨j, n, seconds, hj, -⟩ | ⟨j, k', hj⟩ | ⟨j, k', hj⟩ | ⟨j, k', hj⟩
  · exact hset hj hi (hne hj hi (by rintro ⟨⟩))
  · have huj := State.getElem?_notifyOne hu hj rfl
    have hui := State.getElem?_notifyOne hu hi rfl
    exact hset huj hui (hne huj hui (by rintro ⟨⟩))
  · exact hfinish hj (hne hj hi (by rintro ⟨⟩)) ht
  · exact hfinish hj (by rintro rfl; exact ha n rfl) ht
  · exact hi
  · exact hset hj hi (hne hj hi (by rintro ⟨⟩))
  · exact hset hj hi (hne hj hi (by rintro ⟨⟩))
  · exact hset hj hi (hne hj hi (by rintro ⟨⟩))

/-- A thread whose wait ends is awake. -/
theorem getElem_of_wake (h : step s (.wake i) = some t) :
    ∃ k, t.threads[i]? = some (.waiting k .notified) := by
  cases step_effect h with
  | wake _ k hi =>
      obtain ⟨hlt, -⟩ := List.getElem?_eq_some_iff.mp hi
      exact ⟨k, by simp [State.setThread, hlt]⟩

/-- Startled threads are awake in every reachable state. -/
theorem Tracked.Awake.step (h : g.Awake) (hstep : g.step a = some g') : g'.Awake := by
  obtain ⟨ht, hstartled⟩ := step_eq_some.mp hstep
  intro j hj
  rw [hstartled] at hj
  have hold (hmem : j ∈ g.startled) (ha : ∀ n, a ≠ .resume j n) :
      ∃ k, g'.state.threads[j]? = some (.waiting k .notified) := by
    obtain ⟨k, hk⟩ := h j hmem
    exact ⟨k, getElem_of_step ht hk ha⟩
  cases a with
  | call i k => exact hold hj (by rintro n ⟨⟩)
  | enter i n => exact hold hj (by rintro n ⟨⟩)
  | expire i => exact hold hj (by rintro n ⟨⟩)
  | resume i n =>
      rw [Tracked.after, List.mem_filter] at hj
      apply hold hj.1
      rintro n ⟨⟩
      simp at hj
  | wake i =>
      rcases List.mem_cons.mp hj with rfl | hmem
      · exact getElem_of_wake ht
      · exact hold hmem (by rintro n ⟨⟩)

end tracked

/-! ## The waiters of a condition -/

/-- What the threads on a condition wait for: items, or free places. -/
def units (q : SizedQueue T) : Cond → Nat
  | .canPop => q.queue.length
  | .canPush => q.limitSize - q.queue.length

/-- The threads on a condition. -/
def waiters (c : Cond) (g : Tracked T) : Waiters :=
  ⟨g.state.sleepers c, g.notified c, units g.state.queue c⟩

/-- The thread `i` goes on, and is not startled. -/
structure GoesOn (i : Nat) (before after : List Nat) : Prop where
  not_mem : after.contains i = false
  same : ∀ j, j ≠ i → after.contains j = before.contains j

/-- The call of the thread ends with the step. -/
inductive Ends (s : State T) : Action T → Nat → Call T → Prop
  | enter (i : Nat) (n : Option Nat) (k : Call T) (hi : s.threads[i]? = some (.entering k))
      (hmust : k.mustWait s.queue = false) : Ends s (.enter i n) i k
  | resume (i : Nat) (n : Option Nat) (k : Call T)
      (hi : s.threads[i]? = some (.waiting k .notified))
      (hfront : k.waitsOn = .canPop → s.queue.queue ≠ []) : Ends s (.resume i n) i k

section moves

variable {s t : State T} {g g' : Tracked T} {a : Action T} {i : Nat} {n : Option Nat} {k : Call T}
  {c : Cond} {startled before : List Nat} {q : SizedQueue T}

/-- A thread that is not awake is not startled. -/
theorem Tracked.Awake.not_mem {x : Thread T} (h : g.Awake) (hi : g.state.threads[i]? = some x)
    (hx : ∀ k, x ≠ .waiting k .notified) : g.startled.contains i = false := by
  rw [List.contains_eq_mem, decide_eq_false_iff_not]
  intro hmem
  obtain ⟨k, hk⟩ := h i hmem
  rw [hi] at hk
  exact hx k (Option.some.inj hk)

/-- A thread that is not awake goes on. -/
theorem GoesOn.of_not_mem (h : startled.contains i = false) : GoesOn i startled startled :=
  ⟨h, fun _ _ => rfl⟩

/-- A thread that is awake goes on. -/
theorem goesOn_filter : GoesOn i startled (startled.filter (· ≠ i)) := by
  constructor
  · simp
  · intro j hj
    simp [hj]

/-- Startled threads stay awake when another one goes on. -/
theorem Tracked.Awake.goesOn {y : Thread T} (h : (⟨s, before⟩ : Tracked T).Awake)
    (hgo : GoesOn i before startled) :
    (⟨(s.setThread i y).setQueue q, startled⟩ : Tracked T).Awake := by
  intro j hj
  have hmem : startled.contains j = true := by simpa using hj
  have hji : j ≠ i := by
    rintro rfl
    rw [hgo.not_mem] at hmem
    cases hmem
  rw [hgo.same j hji] at hmem
  obtain ⟨k, hk⟩ := h j (by simpa using hmem)
  exact ⟨k, by rw [State.setQueue, State.setThread, List.getElem?_set_ne (Ne.symm hji)]; exact hk⟩

/-- The waiters when a thread that does not sleep goes on. -/
theorem waiters_goesOn {x y : Thread T} (hi : s.threads[i]? = some x) (hx : x.waitsOn c = false)
    (hy : y.wokenOn c = false) (hgo : GoesOn i before startled) :
    waiters c ⟨(s.setThread i y).setQueue q, startled⟩ =
      ⟨s.sleepers c + (if y.waitsOn c then 1 else 0), (⟨s, before⟩ : Tracked T).notified c -
        (if (⟨s, before⟩ : Tracked T).isNotified c i then 1 else 0), units q c⟩ := by
  have hsleepers := countP_setThread (Thread.waitsOn c) (y := y) hi
  have hnotified := @notified_setThread T ⟨s, before⟩ i c startled x y hi hgo.same
  simp only [hx, hy, Bool.false_and, Bool.false_eq_true, if_false, Nat.add_zero]
    at hsleepers hnotified
  unfold waiters
  rw [Waiters.mk.injEq]
  exact ⟨hsleepers, Nat.eq_sub_of_add_eq hnotified, rfl⟩

/-- A notification, as a move of the waiters of its condition and of the other one. -/
theorem waiters_notifyOne (h : s.notifyOne c n = some t)
    (hawake : (⟨s, startled⟩ : Tracked T).Awake) :
    waiters c ⟨t, startled⟩ = (waiters c ⟨s, startled⟩).notifyOne ∧
      ∀ c', c' ≠ c → waiters c' ⟨t, startled⟩ = waiters c' ⟨s, startled⟩ := by
  rcases notifyOne_cases h with ⟨rfl, hzero⟩ | ⟨j, k, -, hj, hk, rfl⟩
  · have hnobody : (waiters c ⟨t, startled⟩).sleeping = 0 := hzero
    refine ⟨?_, fun _ _ => rfl⟩
    rw [Waiters.notifyOne, if_pos hnobody]
  · have hnot : startled.contains j = false := hawake.not_mem hj (by rintro _ ⟨⟩)
    have hbefore (c' : Cond) : (⟨s, startled⟩ : Tracked T).isNotified c' j = false := by
      simp [Tracked.isNotified, hj]
    have hsleepers (c' : Cond) := @countP_setThread T s j (Thread.waitsOn c') _
      (.waiting k .notified) hj
    have hnotified (c' : Cond) := @notified_setThread T ⟨s, startled⟩ j c' startled _
      (.waiting k .notified) hj (fun _ _ => rfl)
    simp only [hbefore, hnot, waitsOn_waiting, waitsOn_notified, wokenOn_notified,
      Bool.false_eq_true, if_false, Nat.add_zero, Bool.not_false, Bool.and_true,
      decide_eq_true_eq] at hsleepers hnotified
    refine ⟨?_, ?_⟩
    · have hone := hsleepers c
      rw [if_pos hk] at hone
      have hpos : (waiters c ⟨s, startled⟩).sleeping ≠ 0 := by
        show s.threads.countP (Thread.waitsOn c) ≠ 0
        omega
      rw [Waiters.notifyOne, if_neg hpos]
      unfold waiters
      rw [Waiters.mk.injEq, hnotified c, if_pos hk]
      exact ⟨Nat.eq_sub_of_add_eq hone, rfl, rfl⟩
    · intro c' hne
      have hkc : k.waitsOn ≠ c' := fun heq => hne (heq.symm.trans hk)
      have hsame := hsleepers c'
      rw [if_neg hkc, Nat.add_zero] at hsame
      unfold waiters
      rw [Waiters.mk.injEq, hnotified c', if_neg hkc]
      exact ⟨hsame, rfl, rfl⟩

/-- A call has two conditions. -/
theorem eq_notifies_or_eq_waitsOn (c : Cond) (k : Call T) : c = k.notifies ∨ c = k.waitsOn := by
  rcases k with seconds | ⟨item, seconds⟩ | ⟨items, seconds⟩
  · rcases c with _ | _
    · exact Or.inl rfl
    · exact Or.inr rfl
  · rcases c with _ | _
    · exact Or.inr rfl
    · exact Or.inl rfl
  · rcases c with _ | _
    · exact Or.inr rfl
    · exact Or.inl rfl

/-- Where a call must wait there is nothing that it waits for. -/
theorem units_eq_zero (h : k.mustWait s.queue = true) : units s.queue k.waitsOn = 0 := by
  have hfull : s.queue.isFull = true → s.queue.limitSize - s.queue.queue.length = 0 := by
    intro hfull
    exact Nat.sub_eq_zero_of_le (of_decide_eq_true hfull)
  rcases k with seconds | ⟨item, seconds⟩ | ⟨items, seconds⟩
  · exact List.length_eq_zero_iff.mpr (List.isEmpty_iff.mp h)
  · exact hfull h
  · exact hfull h

/-- A call adds nothing to what it waits for. -/
theorem units_apply_le (k : Call T) (q : SizedQueue T) :
    units (k.apply q) k.waitsOn ≤ units q k.waitsOn := by
  rcases k with seconds | ⟨item, seconds⟩ | ⟨items, seconds⟩
  · show q.queue.tail.length ≤ q.queue.length
    rw [List.length_tail]
    exact Nat.sub_le _ _
  · show q.limitSize - (q.queue ++ [item]).length ≤ q.limitSize - q.queue.length
    rw [List.length_append]
    omega
  · show (q.fill items).1.limitSize - (q.fill items).1.queue.length ≤
      q.limitSize - q.queue.length
    rw [SizedQueue.limitSize_fill]
    exact Nat.sub_le_sub_left (SizedQueue.length_le_fill q items) _

/-- A thread that is notified, as one of those that are. -/
theorem notified_pos (h : g.isNotified c i = true) : 0 < g.notified c := by
  have hi : i < g.state.threads.length := by
    by_contra hge
    rw [Tracked.isNotified, List.getElem?_eq_none (Nat.le_of_not_lt hge)] at h
    cases h
  exact List.countP_pos_iff.mpr ⟨i, List.mem_range.mpr hi, h⟩

/-- The end of a call notifies the waiters of one condition, and goes on from those of the other. -/
theorem waiters_finishes {x : Thread T} (hawake : g.Awake)
    (hi : g.state.threads[i]? = some x) (hx : ∀ c, x.waitsOn c = false)
    (hnot : g.isNotified k.notifies i = false) (hgo : GoesOn i g.startled startled)
    (ht : Finishes i n k g.state t) :
    waiters k.notifies ⟨t, startled⟩ = { (waiters k.notifies g).notifyOne with
        units := units (k.apply g.state.queue) k.notifies } ∧
      waiters k.waitsOn ⟨t, startled⟩ = ⟨g.state.sleepers k.waitsOn,
        g.notified k.waitsOn - (if g.isNotified k.waitsOn i then 1 else 0),
        units (k.apply g.state.queue) k.waitsOn⟩ := by
  have hset (c : Cond) := @waiters_goesOn T g.state i c startled g.startled (k.apply g.state.queue)
    x .idle hi (hx c) rfl hgo
  have hmid : (⟨(g.state.setThread i .idle).setQueue (k.apply g.state.queue), startled⟩ :
      Tracked T).Awake := Tracked.Awake.goesOn (s := g.state) hawake hgo
  obtain ⟨hsame, hother⟩ := waiters_notifyOne ht.notified hmid
  constructor
  · have hunits (w : Waiters) (u : ℕ) : (⟨w.sleeping, w.woken, u⟩ : Waiters).notifyOne =
        { w.notifyOne with units := u } := by
      unfold Waiters.notifyOne
      split_ifs <;> rfl
    rw [hsame, hset]
    simp only [hnot, waitsOn_idle, Bool.false_eq_true, if_false, Nat.add_zero, Nat.sub_zero]
    exact hunits (waiters k.notifies g) (units (k.apply g.state.queue) k.notifies)
  · rw [hother _ (notifies_ne_waitsOn k).symm, hset]
    simp only [waitsOn_idle, Bool.false_eq_true, if_false, Nat.add_zero]

/-- **The end of a call** keeps the waiters served if it pays for what it adds, and takes what it
was notified for. -/
theorem served_finishes_iff {x : Thread T} (hs : (waiters c g).Served) (hawake : g.Awake)
    (hi : g.state.threads[i]? = some x) (hx : ∀ c, x.waitsOn c = false)
    (hnot : g.isNotified k.notifies i = false) (hgo : GoesOn i g.startled startled)
    (ht : Finishes i n k g.state t) :
    (waiters c ⟨t, startled⟩).Served ↔
      (k.notifies = c → (waiters c g).Pays (.notify (units (k.apply g.state.queue) c))) ∧
      (k.waitsOn = c → g.isNotified c i = true →
        (waiters c g).Pays (.take (units (k.apply g.state.queue) c))) := by
  obtain ⟨hnotifies, hwaitsOn⟩ := waiters_finishes hawake hi hx hnot hgo ht
  have hne := notifies_ne_waitsOn k
  rcases eq_notifies_or_eq_waitsOn c k with rfl | rfl
  · rw [hnotifies, Waiters.served_step_iff hs (.notify _)]
    simp [hne.symm]
  · rw [hwaitsOn]
    simp only [hne, false_implies, true_implies, true_and]
    by_cases hnotified : g.isNotified k.waitsOn i = true
    · have hstep : Waiters.Step (waiters k.waitsOn g)
          (.take (units (k.apply g.state.queue) k.waitsOn)) _ := .take _ (notified_pos hnotified)
      simp only [hnotified, if_true, true_implies]
      exact Waiters.served_step_iff hs hstep
    · have hstep : Waiters.Step (waiters k.waitsOn g)
          (.pass (units (k.apply g.state.queue) k.waitsOn)) _ := .pass _ (units_apply_le k _)
      simp only [hnotified, Bool.false_eq_true, if_false, false_implies, Nat.sub_zero, iff_true]
      exact (Waiters.served_step_iff hs hstep).mpr trivial

/-- A call that begins to wait finds nothing, and its notification leaves what there was. -/
theorem served_wait {u : State T} (hs : (waiters c g).Served) (hawake : g.Awake)
    (hi : g.state.threads[i]? = some (.entering k)) (hmust : k.mustWait g.state.queue = true)
    (hu : g.state.notifyOne k.notifies n = some u) :
    (waiters c ⟨u.setThread i (.waiting k .waiting), g.startled⟩).Served := by
  have hui : u.threads[i]? = some (.entering k) := State.getElem?_notifyOne hu hi rfl
  have hqueue : u.queue = g.state.queue := (counts_notifyOne hu).1
  have hgo := GoesOn.of_not_mem (hawake.not_mem hi (by rintro _ ⟨⟩))
  have hnot : (⟨u, g.startled⟩ : Tracked T).isNotified c i = false := by
    simp [Tracked.isNotified, hui]
  have hset := @waiters_goesOn T u i c g.startled g.startled u.queue _ (.waiting k .waiting) hui rfl
    rfl hgo
  simp only [hnot, Bool.false_eq_true, if_false, Nat.sub_zero, waitsOn_waiting,
    decide_eq_true_eq] at hset
  have hne := notifies_ne_waitsOn k
  rcases eq_notifies_or_eq_waitsOn c k with rfl | rfl
  · -- its notification leaves what there was
    rw [if_neg hne.symm, Nat.add_zero] at hset
    have hsame := (@waiters_notifyOne T _ _ _ _ g.startled hu hawake).1
    have hstep : Waiters.Step (waiters k.notifies g) (.notify (units g.state.queue k.notifies))
        (waiters k.notifies g).notifyOne := by
      have heq : (waiters k.notifies g).notifyOne =
          { (waiters k.notifies g).notifyOne with units := units g.state.queue k.notifies } := by
        unfold Waiters.notifyOne
        split_ifs <;> rfl
      rw [heq]
      exact .notify _
    have hserved := (Waiters.served_step_iff hs hstep).mpr (by
      intro hsleeping
      exact (hs (by omega)).trans (Nat.le_succ _))
    rw [← hsame] at hserved
    exact hset ▸ hserved
  · intro _
    show units u.queue k.waitsOn ≤ _
    rw [hqueue, units_eq_zero hmust]
    exact Nat.zero_le _

/-- A sleeper that leaves, notified or not. -/
theorem served_leave {w : Wait} (hw : w ≠ .waiting) (hs : (waiters c g).Served)
    (hi : g.state.threads[i]? = some (.waiting k .waiting))
    (hstartled : ∀ j, j ≠ i → startled.contains j = g.startled.contains j) :
    (waiters c ⟨g.state.setThread i (.waiting k w), startled⟩).Served := by
  have hsleepers := countP_setThread (Thread.waitsOn c) (y := .waiting k w) hi
  have hnotified := @notified_setThread T g i c startled _ (.waiting k w) hi hstartled
  have hbefore : g.isNotified c i = false := by
    simp [Tracked.isNotified, hi]
  have hy : (Thread.waiting k w).waitsOn c = false := by
    rcases w with _ | _ | _
    · exact absurd rfl hw
    · rfl
    · rfl
  simp only [hbefore, hy, Bool.false_eq_true, if_false, Nat.add_zero] at hsleepers hnotified
  intro hsleeping
  have hsleptBefore : 0 < (waiters c g).sleeping := by
    show 0 < g.state.threads.countP (Thread.waitsOn c)
    exact hsleeping.trans_le (hsleepers ▸ Nat.le_add_right _ _)
  apply (hs hsleptBefore).trans
  show g.notified c ≤ _
  exact (Nat.le_add_right _ _).trans hnotified.ge

/-- **What one step does** to the waiters of a condition: they stay served if a call that ends pays
for what it adds, and takes what it was notified for. -/
theorem served_step_iff (hs : (waiters c g).Served) (hawake : g.Awake) (h : g.step a = some g') :
    (waiters c g').Served ↔ ∀ i k, Ends g.state a i k →
      (k.notifies = c → (waiters c g).Pays (.notify (units (k.apply g.state.queue) c))) ∧
      (k.waitsOn = c → g.isNotified c i = true →
        (waiters c g).Pays (.take (units (k.apply g.state.queue) c))) := by
  obtain ⟨ht, hstartled⟩ := step_eq_some.mp h
  rcases g' with ⟨t, startled⟩
  subst hstartled
  dsimp only at ht
  rcases step_effect ht with ⟨i, k, hi⟩ | ⟨i, n, k, u, hi, hmust, hu⟩ | ⟨i, n, k, t, hi, hmust, ht⟩ |
    ⟨i, n, k, t, hi, ht⟩ | ⟨i, n, seconds, hi, hqueue⟩ | ⟨i, k, hi⟩ | ⟨i, k, hi⟩ | ⟨i, k, hi⟩
  · have hset := @waiters_goesOn T g.state i c g.startled g.startled g.state.queue _ (.entering k)
      hi rfl rfl (GoesOn.of_not_mem (hawake.not_mem hi (by rintro _ ⟨⟩)))
    have hnot : g.isNotified c i = false := by
      simp [Tracked.isNotified, hi]
    simp only [hnot, waitsOn_entering, Bool.false_eq_true, if_false] at hset
    apply iff_of_true (hset ▸ hs)
    rintro i k ⟨⟩
  · apply iff_of_true (served_wait hs hawake hi hmust hu)
    rintro _ k' ⟨_, _, _, hi', hmust'⟩
    rw [hi] at hi'
    cases hi'
    rw [hmust] at hmust'
    cases hmust'
  · have hends (j : Nat) (k' : Call T) : Ends g.state (.enter i n) j k' ↔ j = i ∧ k' = k := by
      constructor
      · rintro ⟨_, _, _, hi', -⟩
        rw [hi] at hi'
        cases hi'
        exact ⟨rfl, rfl⟩
      · rintro ⟨rfl, rfl⟩
        exact .enter j n k' hi hmust
    simp only [hends, and_imp, forall_eq_apply_imp_iff, forall_eq]
    exact served_finishes_iff hs hawake hi (fun _ => rfl) (by simp [Tracked.isNotified, hi])
      (GoesOn.of_not_mem (hawake.not_mem hi (by rintro _ ⟨⟩))) ht
  · have hends (j : Nat) (k' : Call T) : Ends g.state (.resume i n) j k' ↔ j = i ∧ k' = k := by
      constructor
      · rintro (_ | ⟨_, _, _, hi', -⟩)
        rw [hi] at hi'
        cases hi'
        exact ⟨rfl, rfl⟩
      · rintro ⟨rfl, rfl⟩
        exact .resume j n k' hi ht.front
    simp only [hends, and_imp, forall_eq_apply_imp_iff, forall_eq]
    have hne := notifies_ne_waitsOn k
    exact served_finishes_iff hs hawake hi (fun _ => rfl)
      (by simp [Tracked.isNotified, hi, hne.symm]) goesOn_filter ht
  · apply iff_of_true
    · intro hsleeping
      apply (hs hsleeping).trans
      apply List.countP_mono_left
      intro j _ hj
      simp only [Tracked.isNotified, Bool.and_eq_true, Bool.not_eq_true'] at hj ⊢
      refine ⟨hj.1, ?_⟩
      simp only [Tracked.after, List.contains_eq_mem, decide_eq_false_iff_not] at hj ⊢
      exact fun hmem => hj.2 (List.mem_filter.mp hmem).1
    · rintro _ k' (_ | ⟨_, _, _, hi', hfront⟩)
      rw [hi] at hi'
      cases hi'
      exact absurd hqueue (hfront rfl)
  · have hset := @waiters_goesOn T g.state i c (g.startled.filter (· ≠ i)) g.startled g.state.queue _
      .idle hi rfl rfl goesOn_filter
    have hnot : g.isNotified c i = false := by
      simp [Tracked.isNotified, hi]
    simp only [hnot, waitsOn_idle, Bool.false_eq_true, if_false] at hset
    apply iff_of_true (hset ▸ hs)
    rintro _ k' (_ | ⟨_, _, _, hi', -⟩)
    rw [hi] at hi'
    cases hi'
  · apply iff_of_true
    · apply served_leave (by rintro ⟨⟩) hs hi
      intro j hj
      simp [Tracked.after, hj]
    · rintro j k ⟨⟩
  · apply iff_of_true (served_leave (by rintro ⟨⟩) hs hi fun _ _ => rfl)
    rintro j k ⟨⟩

end moves

/-! ## Pops -/

/-- A push of the vector leaves no more items than there are notified pops and the one that it
notifies, or no pop asleep. -/
def FewItems (g : Tracked T) (items : List T) : Prop :=
  1 < g.state.sleepers .canPop →
    g.state.queue.queue.length +
      min items.length (g.state.queue.limitSize - g.state.queue.queue.length) ≤
        g.notified .canPop + 1

instance (g : Tracked T) (items : List T) : Decidable (FewItems g items) :=
  inferInstanceAs (Decidable (_ → _))

/-- What a push of a vector needs, when it gets to its loop, so that all the pops that it leaves
asleep find nothing. -/
def Matched (g : Tracked T) : Action T → Prop
  | .enter i _ => ∀ items seconds, g.state.threads[i]? = some (.entering (.pushAll items seconds)) →
      g.state.queue.isFull = false → FewItems g items
  | .resume i _ => ∀ items seconds,
      g.state.threads[i]? = some (.waiting (.pushAll items seconds) .notified) → FewItems g items
  | .call _ _ | .wake _ | .expire _ => True

/-- When no notified pop is left to go on, a pop sleeps only at an empty queue. -/
def PopServed (g : Tracked T) : Prop :=
  g.notified .canPop = 0 → 0 < g.state.sleepers .canPop → g.state.queue.queue = []

/-- A notified pop has the monitor again. -/
def NotifiedPopsGoOn (g : Tracked T) (a : Action T) : Prop :=
  ∃ i n, a = .resume i n ∧ g.isNotified .canPop i = true

section pops

variable {g g' : Tracked T} {a : Action T}

/-- The pushes of vectors that get to their loop. -/
theorem matched_iff : Matched g a ↔
    ∀ i items seconds, Ends g.state a i (.pushAll items seconds) → FewItems g items := by
  cases a with
  | call i k => exact iff_of_true trivial (by rintro _ _ _ ⟨⟩)
  | enter i n =>
      constructor
      · rintro h _ items seconds ⟨_, _, _, hi, hmust⟩
        exact h items seconds hi hmust
      · intro h items seconds hi hmust
        exact h i items seconds (.enter i n _ hi hmust)
  | resume i n =>
      constructor
      · rintro h _ items seconds (_ | ⟨_, _, _, hi, -⟩)
        exact h items seconds hi
      · intro h items seconds hi
        exact h i items seconds (.resume i n _ hi (by rintro ⟨⟩))
  | wake i => exact iff_of_true trivial (by rintro _ _ _ ⟨⟩)
  | expire i => exact iff_of_true trivial (by rintro _ _ _ ⟨⟩)

/-- **What one step does** to the pops. -/
theorem served_canPop_step_iff (hs : (waiters .canPop g).Served) (hawake : g.Awake)
    (h : g.step a = some g') : (waiters .canPop g').Served ↔ Matched g a := by
  rw [served_step_iff hs hawake h, matched_iff]
  constructor
  · intro hpays i items seconds hends hsleeping
    have hnotify := (hpays i _ hends).1 rfl hsleeping
    change (g.state.queue.fill items).1.queue.length ≤ g.notified .canPop + 1 at hnotify
    rw [SizedQueue.length_fill] at hnotify
    exact hnotify
  · intro hmatched i k hends
    rcases k with seconds | ⟨item, seconds⟩ | ⟨items, seconds⟩
    · refine ⟨by rintro ⟨⟩, ?_⟩
      intro _ hnotified hsleeping
      have hle : g.state.queue.queue.length ≤ g.notified .canPop := hs hsleeping
      have hpos : 0 < g.notified .canPop := notified_pos hnotified
      show g.state.queue.queue.tail.length < g.notified .canPop
      rw [List.length_tail]
      omega
    · refine ⟨?_, by rintro ⟨⟩⟩
      intro _ hsleeping
      have hle : g.state.queue.queue.length ≤ g.notified .canPop := hs (by omega)
      show (g.state.queue.queue ++ [item]).length ≤ g.notified .canPop + 1
      rw [List.length_append]
      exact Nat.succ_le_succ hle
    · refine ⟨?_, by rintro ⟨⟩⟩
      intro _ hsleeping
      show (g.state.queue.fill items).1.queue.length ≤ g.notified .canPop + 1
      rw [SizedQueue.length_fill]
      exact hmatched i items seconds hends hsleeping

/-- A notified pop can go on where there is an item, and takes it. -/
theorem exists_goOn {i : Nat} (hfault : g.state.fault = none) (hawake : g.Awake)
    (hi : g.isNotified .canPop i = true) (hqueue : g.state.queue.queue ≠ []) :
    ∃ n g', g.step (.resume i n) = some g' ∧ g'.state.fault = none ∧
      waiters .canPop g' =
        ⟨g.state.sleepers .canPop, g.notified .canPop - 1, g.state.queue.queue.length - 1⟩ := by
  obtain ⟨seconds, hthread⟩ : ∃ seconds,
      g.state.threads[i]? = some (.waiting (.pop seconds) .notified) := by
    simp only [Tracked.isNotified, Bool.and_eq_true, Option.any_eq_true] at hi
    obtain ⟨⟨x, hx, hwoken⟩, -⟩ := hi
    rcases x with _ | k | ⟨k, _ | _ | _⟩
    · cases hwoken
    · cases hwoken
    · cases hwoken
    · rcases k with seconds | ⟨item, seconds⟩ | ⟨items, seconds⟩
      · exact ⟨seconds, hx⟩
      · cases hwoken
      · cases hwoken
    · cases hwoken
  obtain ⟨n, t, ht⟩ := State.exists_notifyOne .canPush
    ((g.state.setThread i .idle).setQueue ((Call.pop seconds).apply g.state.queue))
  have hfinishes : Finishes i n (.pop seconds) g.state t := ⟨fun _ => hqueue, ht⟩
  have hfinish : g.state.finish i n (.pop seconds) = some t := by
    obtain ⟨d, rest, hcons⟩ := List.exists_cons_of_ne_nil hqueue
    rw [Call.apply, hcons] at ht
    simp only [State.finish, hcons]
    exact ht
  have hstep : step g.state (.resume i n) = some t := by
    simp [step, hfault, hthread, hfinish]
  obtain ⟨-, hwaiters⟩ := waiters_finishes hawake hthread (fun _ => rfl)
    (by simp [Tracked.isNotified, hthread, Call.waitsOn, Call.notifies]) goesOn_filter hfinishes
  have htracked : g.step (.resume i n) = some ⟨t, g.startled.filter (· ≠ i)⟩ :=
    step_eq_some.mpr ⟨hstep, rfl⟩
  refine ⟨n, _, htracked, (counts_notifyOne ht).2.1.trans hfault, hwaiters.trans ?_⟩
  have htail : (g.state.queue.queue.tail).length = g.state.queue.queue.length - 1 :=
    List.length_tail
  change (⟨_, g.notified .canPop - (if g.isNotified .canPop i = true then 1 else 0), _⟩ : Waiters) = _
  rw [if_pos hi, Waiters.mk.injEq]
  exact ⟨rfl, rfl, htail⟩

/-- Where a pop sleeps in front of an item that is not for a notified one, the notified pops can go
on until none of them is left. -/
theorem exists_not_popServed (hfault : g.state.fault = none) (hawake : g.Awake)
    (hs : ¬ (waiters .canPop g).Served) :
    ∃ as g', Guarded Tracked.step NotifiedPopsGoOn g as ∧ run Tracked.step g as = some g' ∧
      ¬ PopServed g' := by
  induction hnotified : g.notified .canPop generalizing g with
  | zero =>
      refine ⟨[], g, trivial, rfl, ?_⟩
      intro hserved
      apply hs
      intro hsleeping
      show g.state.queue.queue.length ≤ g.notified .canPop
      rw [hserved hnotified hsleeping]
      exact Nat.zero_le _
  | succ m ih =>
      obtain ⟨hsleeping, hlt⟩ : 0 < g.state.sleepers .canPop ∧
          g.notified .canPop < g.state.queue.queue.length := by
        simpa [Waiters.Served, waiters, units] using hs
      obtain ⟨i, -, hi⟩ := List.countP_pos_iff.mp (hnotified ▸ Nat.succ_pos m : 0 < g.notified .canPop)
      have hqueue : g.state.queue.queue ≠ [] := List.ne_nil_of_length_pos (by omega)
      obtain ⟨n, g₁, hstep, hfault₁, hwaiters⟩ := exists_goOn hfault hawake hi hqueue
      have hnotified₁ : g₁.notified .canPop = m := by
        have hwoken := congrArg Waiters.woken hwaiters
        change g₁.notified .canPop = g.notified .canPop - 1 at hwoken
        omega
      have hnot : ¬ (waiters .canPop g₁).Served := by
        rw [hwaiters]
        intro hserved
        have hle := hserved hsleeping
        dsimp only at hle
        omega
      obtain ⟨as, g', hguarded, hrun, hbad⟩ := ih hfault₁ (hawake.step hstep) hnot hnotified₁
      refine ⟨.resume i n :: as, g', ?_, ?_, hbad⟩
      · rw [guarded_cons_of_step _ _ hstep]
        exact ⟨⟨i, n, rfl, hi⟩, hguarded⟩
      · rw [run_cons, hstep]
        exact hrun

/-- A notified pop that goes on is no push of a vector. -/
theorem NotifiedPopsGoOn.matched (h : NotifiedPopsGoOn g a) : Matched g a := by
  obtain ⟨i, n, rfl, hi⟩ := h
  intro items seconds hi'
  simp [Tracked.isNotified, hi', Call.waitsOn] at hi

/-- What the notified pops do from a state tells whether the pops are served there. -/
theorem served_iff_forall_goOn (hfault : g.state.fault = none ∨ g.state.queue.queue = [])
    (hawake : g.Awake) : (waiters .canPop g).Served ↔
      ∀ as g', Guarded Tracked.step NotifiedPopsGoOn g as → run Tracked.step g as = some g' →
        PopServed g' := by
  constructor
  · intro hs as g' hguarded hrun
    have hstep : ∀ (u : Tracked T) a v, (waiters .canPop u).Served ∧ u.Awake →
        NotifiedPopsGoOn u a → u.step a = some v → (waiters .canPop v).Served ∧ v.Awake := by
      rintro u a v ⟨hu, hawakeU⟩ hgo hv
      exact ⟨(served_canPop_step_iff hu hawakeU hv).mpr hgo.matched, hawakeU.step hv⟩
    have hserved := (run_invariant hstep ⟨hs, hawake⟩ hguarded hrun).1
    intro hnotified hsleeping
    exact List.length_eq_zero_iff.mp (hserved.units_eq_zero hsleeping hnotified)
  · intro hall
    rcases hfault with hfault | hempty
    · by_contra hs
      obtain ⟨as, g', hguarded, hrun, hbad⟩ := exists_not_popServed hfault hawake hs
      exact hbad (hall as g' hguarded hrun)
    · intro _
      show g.state.queue.queue.length ≤ _
      rw [hempty]
      exact Nat.zero_le _

/-- A step ends in `front()` of an empty queue, or without a fault. -/
theorem fault_or_empty_of_step {s t : State T} (h : step s a = some t) :
    t.fault = none ∨ t.queue.queue = [] := by
  have hfault : s.fault = none := fault_of_step h
  rcases step_effect h with ⟨i, k, hi⟩ | ⟨i, n, k, u, hi, -, hu⟩ | ⟨i, n, k, t, hi, -, ht⟩ |
    ⟨i, n, k, t, hi, ht⟩ | ⟨i, n, seconds, hi, hqueue⟩ | ⟨i, k, hi⟩ | ⟨i, k, hi⟩ | ⟨i, k, hi⟩
  · exact Or.inl hfault
  · exact Or.inl ((counts_notifyOne hu).2.1.trans hfault)
  · exact Or.inl (ht.fault_eq.trans hfault)
  · exact Or.inl (ht.fault_eq.trans hfault)
  · exact Or.inr hqueue
  · exact Or.inl hfault
  · exact Or.inl hfault
  · exact Or.inl hfault

end pops

/-! ## Pushes -/

/-- The call of a thread. -/
def Thread.call? : Thread T → Option (Call T)
  | .idle => none
  | .entering k => some k
  | .waiting k _ => some k

/-- The property holds of the calls that the threads are in. -/
def CallsHave (P : Call T → Prop) (s : State T) : Prop :=
  ∀ (i : Nat) x k, s.threads[i]? = some x → x.call? = some k → P k

/-- If it is a vector, it has an item. -/
def Call.hasItem : Call T → Prop
  | .pushAll items _ => items ≠ []
  | _ => True

section pushes

variable {P : Call T → Prop} {s t : State T} {g g' : Tracked T} {a : Action T} {i : Nat}
  {n : Option Nat} {c : Cond}

/-- A thread goes on in a call of this kind, or in none. -/
theorem CallsHave.setThread {y : Thread T} (h : CallsHave P s) (hy : ∀ k, y.call? = some k → P k) :
    CallsHave P (s.setThread i y) := by
  intro j x k hj hk
  rw [State.setThread, List.getElem?_set] at hj
  split_ifs at hj with hij hlt
  · cases hj
    exact hy k hk
  · exact h j x k hj hk

/-- A notification begins no call. -/
theorem CallsHave.notifyOne (h : CallsHave P s) (ht : s.notifyOne c n = some t) :
    CallsHave P t := by
  rcases notifyOne_cases ht with ⟨rfl, -⟩ | ⟨j, k, -, hj, -, rfl⟩
  · exact h
  · apply h.setThread
    rintro _ ⟨⟩
    exact h j _ k hj rfl

/-- The threads are in calls that were made. -/
theorem CallsHave.step (h : CallsHave P s) (ha : ∀ i k, a = .call i k → P k)
    (hstep : step s a = some t) : CallsHave P t := by
  have hidle {i : Nat} (q : SizedQueue T) : CallsHave P ((s.setThread i .idle).setQueue q) :=
    h.setThread (by rintro _ ⟨⟩)
  have hsame {i : Nat} {x : Thread T} {k : Call T} (hi : s.threads[i]? = some x)
      (hx : x.call? = some k) (w : Wait) : CallsHave P (s.setThread i (.waiting k w)) := by
    apply h.setThread
    rintro _ ⟨⟩
    exact h i x k hi hx
  rcases step_effect hstep with ⟨i, k, hi⟩ | ⟨i, n, k, u, hi, -, hu⟩ | ⟨i, n, k, t, hi, -, ht⟩ |
    ⟨i, n, k, t, hi, ht⟩ | ⟨i, n, seconds, hi, hqueue⟩ | ⟨i, k, hi⟩ | ⟨i, k, hi⟩ | ⟨i, k, hi⟩
  · apply h.setThread
    rintro _ ⟨⟩
    exact ha i k rfl
  · apply (h.notifyOne hu).setThread
    rintro _ ⟨⟩
    exact h i _ k hi rfl
  · exact (hidle _).notifyOne ht.notified
  · exact (hidle _).notifyOne ht.notified
  · exact h
  · exact hidle s.queue
  · exact hsame hi rfl _
  · exact hsame hi rfl _

/-- The calls that end are in the queue before. -/
theorem CallsHave.ends {k : Call T} (h : CallsHave P s) (hends : Ends s a i k) : P k := by
  rcases hends with ⟨_, _, _, hi, -⟩ | ⟨_, _, _, hi, -⟩
  · exact h i _ k hi rfl
  · exact h i _ k hi rfl

/-- **What one step does** to the pushes: while there is an item in every vector, a pop frees one
place, and a push that was notified fills one. -/
theorem served_canPush_step (hs : (waiters .canPush g).Served) (hawake : g.Awake)
    (hitems : CallsHave Call.hasItem g.state) (h : g.step a = some g') :
    (waiters .canPush g').Served := by
  rw [served_step_iff hs hawake h]
  intro i k hends
  have hitem := hitems.ends hends
  rcases k with seconds | ⟨item, seconds⟩ | ⟨items, seconds⟩
  · refine ⟨?_, by rintro ⟨⟩⟩
    intro _ hsleeping
    have hle : g.state.queue.limitSize - g.state.queue.queue.length ≤ g.notified .canPush :=
      hs (by omega)
    show g.state.queue.limitSize - g.state.queue.queue.tail.length ≤ g.notified .canPush + 1
    rw [List.length_tail]
    omega
  · refine ⟨by rintro ⟨⟩, ?_⟩
    intro _ hnotified hsleeping
    have hle : g.state.queue.limitSize - g.state.queue.queue.length ≤ g.notified .canPush :=
      hs hsleeping
    have hpos : 0 < g.notified .canPush := notified_pos hnotified
    show g.state.queue.limitSize - (g.state.queue.queue ++ [item]).length < g.notified .canPush
    simp only [List.length_append, List.length_cons, List.length_nil]
    omega
  · refine ⟨by rintro ⟨⟩, ?_⟩
    intro _ hnotified hsleeping
    have hle : g.state.queue.limitSize - g.state.queue.queue.length ≤ g.notified .canPush :=
      hs hsleeping
    have hpos : 0 < g.notified .canPush := notified_pos hnotified
    have hlength : 0 < items.length := List.length_pos_iff.mpr hitem
    show (g.state.queue.fill items).1.limitSize - (g.state.queue.fill items).1.queue.length <
      g.notified .canPush
    rw [SizedQueue.limitSize_fill, SizedQueue.length_fill]
    omega

end pushes

/-! ## Runs -/

section runs

variable {q : SizedQueue T} {threads : Nat} {g : Tracked T} {as : List (Action T)}

/-- At the start no thread is in the queue. -/
theorem awake_start : (Tracked.start q threads).Awake := by
  intro i hi
  cases hi

/-- At the start no thread sleeps. -/
theorem served_start (c : Cond) : (waiters c (Tracked.start q threads)).Served := by
  have hzero : (State.start q threads).sleepers c = 0 := by
    rw [State.sleepers, List.countP_eq_zero]
    intro x hx
    rw [List.eq_of_mem_replicate hx]
    exact Bool.false_ne_true
  intro hsleeping
  exact absurd hsleeping (by rw [waiters, Tracked.start, hzero]; exact lt_irrefl 0)

end runs

/-- **When a pop sleeps at an empty queue only.** For every queue and any number of threads: in a
run, and wherever in it notified pops go on, a pop sleeps at an empty queue only once no notified
pop is left, exactly when no push of a vector brings more items than there are pops to take them,
while one of them is left asleep. -/
theorem popServed_iff (q : SizedQueue T) (threads : Nat) {as : List (Action T)} {g : Tracked T}
    (hrun : run Tracked.step (Tracked.start q threads) as = some g) :
    (∀ bs, bs <+: as → ∀ t, run Tracked.step (Tracked.start q threads) bs = some t →
      ∀ cs u, Guarded Tracked.step NotifiedPopsGoOn t cs → run Tracked.step t cs = some u →
        PopServed u) ↔
    Guarded Tracked.step Matched (Tracked.start q threads) as := by
  let Sound (t : Tracked T) : Prop := (t.state.fault = none ∨ t.state.queue.queue = []) ∧ t.Awake
  have hstart : Sound (Tracked.start q threads) := ⟨Or.inl rfl, awake_start⟩
  have hsound : ∀ (t : Tracked T) a u, Sound t → t.step a = some u → Sound u := by
    rintro t a u ⟨-, hawake⟩ hu
    exact ⟨fault_or_empty_of_step (step_eq_some.mp hu).1, hawake.step hu⟩
  have hany : Guarded Tracked.step (fun _ _ => True) (Tracked.start q threads) as :=
    guarded_of_forall _ _ (fun _ _ => trivial) _ _
  rw [← forall_prefix_iff_guarded (I := Sound) (P := fun t => (waiters .canPop t).Served)
    (fun t a u ht _ _ hu _ => hsound t a u ht hu)
    (fun t a u ht hs _ hu => served_canPop_step_iff hs ht.2 hu) hstart (served_start .canPop) hany
    hrun]
  apply forall_congr'
  intro bs
  apply forall_congr'
  intro _
  apply forall_congr'
  intro t
  apply forall_congr'
  intro ht
  obtain ⟨hfault, hawake⟩ := run_invariant_of_step hsound hstart ht
  exact (served_iff_forall_goOn hfault hawake).symm

/-- Two pops that wait, a push of one item for each of them, and the pops again. -/
theorem popServed_pushed :
    ∃ g, run Tracked.step (Tracked.start (⟨2, []⟩ : SizedQueue Nat) 3)
        [.call 0 (.pop 0), .enter 0 none, .call 1 (.pop 0), .enter 1 none, .call 2 (.pushAll [7] 0),
          .enter 2 (some 0), .call 2 (.pushAll [8] 0), .enter 2 (some 1), .resume 0 none] = some g ∧
      ∀ bs, bs <+: [.call 0 (.pop 0), .enter 0 none, .call 1 (.pop 0), .enter 1 none,
          .call 2 (.pushAll [7] 0), .enter 2 (some 0), .call 2 (.pushAll [8] 0), .enter 2 (some 1),
          .resume 0 none] →
        ∀ t, run Tracked.step (Tracked.start (⟨2, []⟩ : SizedQueue Nat) 3) bs = some t →
          ∀ cs u, Guarded Tracked.step NotifiedPopsGoOn t cs → run Tracked.step t cs = some u →
            PopServed u := by
  refine ⟨_, rfl, (popServed_iff ⟨2, []⟩ 3 rfl).mpr ?_⟩
  -- only the two pushes get to their loop, each with one item
  refine (guarded_cons_of_step _ _ rfl).mpr ⟨trivial, ?_⟩
  refine (guarded_cons_of_step _ _ rfl).mpr ⟨(by intro _ _ hi; cases hi), ?_⟩
  refine (guarded_cons_of_step _ _ rfl).mpr ⟨trivial, ?_⟩
  refine (guarded_cons_of_step _ _ rfl).mpr ⟨(by intro _ _ hi; cases hi), ?_⟩
  refine (guarded_cons_of_step _ _ rfl).mpr ⟨trivial, ?_⟩
  refine (guarded_cons_of_step _ _ rfl).mpr ⟨(by intro _ _ hi _; cases hi; decide), ?_⟩
  refine (guarded_cons_of_step _ _ rfl).mpr ⟨trivial, ?_⟩
  refine (guarded_cons_of_step _ _ rfl).mpr ⟨(by intro _ _ hi _; cases hi; decide), ?_⟩
  exact (guarded_cons_of_step _ _ rfl).mpr ⟨(by intro _ _ hi; cases hi), trivial⟩

/-- A push of two items wakes one of the two pops that wait; it takes one item, and the other pop
sleeps in front of the second. -/
theorem not_popServed_vector :
    ¬ ∀ (q : SizedQueue Nat) threads as g, 0 < q.limitSize →
      (∀ i items seconds, Action.call i (.pushAll items seconds) ∈ as → items ≠ []) →
      run Tracked.step (Tracked.start q threads) as = some g → PopServed g := by
  intro hall
  have hserved := hall ⟨2, []⟩ 3
    [.call 0 (.pop 0), .enter 0 none, .call 1 (.pop 0), .enter 1 none, .call 2 (.pushAll [7, 8] 0),
      .enter 2 (some 0), .resume 0 none] _ (by decide)
    (by rintro i items seconds h rfl; simp at h) rfl
  have hempty := hserved (by decide) (by decide)
  cases hempty

/-- **No push sleeps in front of a free place that nobody was notified of.** For every queue and any
number of threads, in every run whose vectors have items: while a push sleeps, the free places are
no more than the pushes that were notified and are not back in the monitor. -/
theorem freeSlots_le (q : SizedQueue T) (threads : Nat) {as : List (Action T)} {g : Tracked T}
    (hitems : ∀ i items seconds, Action.call i (.pushAll items seconds) ∈ as → items ≠ [])
    (hrun : run Tracked.step (Tracked.start q threads) as = some g)
    (hsleeping : 0 < g.state.sleepers .canPush) :
    g.state.queue.limitSize - g.state.queue.queue.length ≤ g.notified .canPush ∧
      (g.notified .canPush = 0 → g.state.queue.isFull = true) := by
  let Sound (t : Tracked T) : Prop :=
    (waiters .canPush t).Served ∧ t.Awake ∧ CallsHave Call.hasItem t.state
  have hstart : Sound (Tracked.start q threads) := by
    refine ⟨served_start .canPush, awake_start, ?_⟩
    intro i x k hi hk
    have hidle : x = .idle := List.eq_of_mem_replicate (List.mem_of_getElem? hi)
    rw [hidle] at hk
    cases hk
  have hguarded : Guarded Tracked.step (fun _ a => ∀ i k, a = Action.call i k → k.hasItem)
      (Tracked.start q threads) as := by
    apply guarded_of_forall_mem
    rintro _ ha i k rfl
    rcases k with seconds | ⟨item, seconds⟩ | ⟨items, seconds⟩
    · trivial
    · trivial
    · exact hitems i items seconds ha
  have hstep : ∀ (t : Tracked T) a u, Sound t → (∀ i k, a = Action.call i k → k.hasItem) →
      t.step a = some u → Sound u := by
    rintro t a u ⟨hs, hawake, hcalls⟩ ha hu
    exact ⟨served_canPush_step hs hawake hcalls hu, hawake.step hu,
      hcalls.step ha (step_eq_some.mp hu).1⟩
  have hserved := (run_invariant hstep hstart hguarded hrun).1
  refine ⟨hserved hsleeping, ?_⟩
  intro hnotified
  exact decide_eq_true (Nat.sub_eq_zero_iff_le.mp (hserved.units_eq_zero hsleeping hnotified))

/-- Two pushes that wait at a full queue, and a pop that wakes one of them. -/
theorem freeSlots_le_popped :
    ∃ g, run Tracked.step (Tracked.start (⟨1, []⟩ : SizedQueue Nat) 3)
        [.call 0 (.push 5 0), .enter 0 none, .call 0 (.push 6 0), .enter 0 none,
          .call 1 (.pushAll [7, 8] 0), .enter 1 none, .call 2 (.pop 0), .enter 2 (some 1)] = some g ∧
      0 < g.state.sleepers .canPush ∧
      g.state.queue.limitSize - g.state.queue.queue.length ≤ g.notified .canPush ∧
      (g.notified .canPush = 0 → g.state.queue.isFull = true) := by
  refine ⟨_, rfl, by decide, @freeSlots_le Nat ⟨1, []⟩ 3
    [.call 0 (.push 5 0), .enter 0 none, .call 0 (.push 6 0), .enter 0 none,
      .call 1 (.pushAll [7, 8] 0), .enter 1 none, .call 2 (.pop 0), .enter 2 (some 1)] _ ?_ rfl
    (by decide)⟩
  rintro i items seconds h rfl
  simp at h

end Zbroker.SharedQueue
