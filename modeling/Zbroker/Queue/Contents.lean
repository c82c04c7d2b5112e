import Zbroker.Queue.Threads

/-!
# What is in the queue

* `PushesFindRoom` — a `push(T)` that has waited finds a free place when it has the monitor again.
  **`withinLimit_iff`**: from an empty queue, a run never exceeds the capacity exactly when all of
  its steps do; `push(vector<T>&)` looks for itself.
* `Event` — the end of a call: how it ended, what it left in its caller's vector, and the queue
  before and after. `ended` reads it off a step.
* `Event.Sound` — a pop returned the front, a push appended its item, a push of a vector moved
  a part from its back, and a call that timed out touched nothing.
* **`returned_then_queued`**: in every run all ends of calls are sound, and what the pops returned,
  followed by the queue, is what there was at the start and what the pushes appended.
Both are about single steps: what a step does to the number of the items (`withinLimit_step_iff`), and
which items it moves (`moves_step`). The runs follow by the rules for invariants.
-/

namespace Zbroker.SharedQueue

open Found.Transition

variable {T : Type}

/-! ## The capacity -/

/-- A `push(T)` that has waited finds a free place. -/
def PushesFindRoom (s : State T) : Action T → Prop
  | .resume i _ => ∀ item seconds,
      s.threads[i]? = some (.waiting (.push item seconds) .notified) → s.queue.isFull = false
  | .call _ _ | .enter _ _ | .wake _ | .expire _ => True

/-- The queue has at most as many items as its limit. -/
def WithinLimit (s : State T) : Prop := s.queue.queue.length ≤ s.queue.limitSize

instance (s : State T) : Decidable (WithinLimit s) := inferInstanceAs (Decidable (_ ≤ _))

section limit

variable {s t : State T} {a : Action T} {i : Nat} {n : Option Nat} {k : Call T}

/-- A call keeps the limit, except that a `push(T)` needs a free place. -/
theorem withinLimit_apply_iff {q : SizedQueue T} (hq : q.queue.length ≤ q.limitSize) :
    (k.apply q).queue.length ≤ (k.apply q).limitSize ↔
      ∀ item seconds, k = .push item seconds → q.isFull = false := by
  rcases k with seconds | ⟨item, seconds⟩ | ⟨items, seconds⟩
  · refine iff_of_true ?_ (by rintro _ _ ⟨⟩)
    show q.queue.tail.length ≤ q.limitSize
    rw [List.length_tail]
    exact (Nat.sub_le _ _).trans hq
  · have hfull : q.isFull = false ↔ q.queue.length < q.limitSize := by
      simp [SizedQueue.isFull]
    show (q.queue ++ [item]).length ≤ q.limitSize ↔ _
    rw [List.length_append]
    constructor
    · rintro hle _ _ ⟨⟩
      exact hfull.mpr hle
    · intro hroom
      exact hfull.mp (hroom item seconds rfl)
  · exact iff_of_true (SizedQueue.length_fill_le hq) (by rintro _ _ ⟨⟩)

/-- **What one step does** to the capacity. -/
theorem withinLimit_step_iff (hs : WithinLimit s) (h : step s a = some t) :
    WithinLimit t ↔ PushesFindRoom s a := by
  unfold WithinLimit at *
  rcases step_effect h with ⟨i, k, hi⟩ | ⟨i, n, k, u, hi, -, hu⟩ | ⟨i, n, k, t, hi, hmust, ht⟩ |
    ⟨i, n, k, t, hi, ht⟩ | ⟨i, n, seconds, hi, hqueue⟩ | ⟨i, k, hi⟩ | ⟨i, k, hi⟩ | ⟨i, k, hi⟩
  · exact iff_of_true hs trivial
  · refine iff_of_true ?_ trivial
    have hqueue : (u.setThread i (.waiting k .waiting)).queue = s.queue := (counts_notifyOne hu).1
    rw [hqueue]
    exact hs
  · refine iff_of_true ?_ trivial
    rw [ht.queue_eq, withinLimit_apply_iff hs]
    rintro item seconds rfl
    exact hmust
  · rw [ht.queue_eq, withinLimit_apply_iff hs, PushesFindRoom, hi]
    simp
  · refine iff_of_true hs ?_
    intro item seconds hi'
    rw [hi] at hi'
    cases hi'
  · refine iff_of_true hs ?_
    intro item seconds hi'
    rw [hi] at hi'
    cases hi'
  · exact iff_of_true hs trivial
  · exact iff_of_true hs trivial

end limit

/-- **When the queue keeps to its capacity.** For every limit and any number of threads, a run from
the empty queue never has more items than the limit exactly when every `push(T)` that has waited
finds a free place. -/
theorem withinLimit_iff (limit threads : Nat) {as : List (Action T)} {s : State T}
    (hrun : run step (State.start ⟨limit, []⟩ threads) as = some s) :
    (∀ bs, bs <+: as → ∀ t, run step (State.start ⟨limit, []⟩ threads) bs = some t →
      WithinLimit t) ↔
    Guarded step PushesFindRoom (State.start ⟨limit, []⟩ threads) as := by
  have hany : Guarded step (fun _ _ => True) (State.start (⟨limit, []⟩ : SizedQueue T) threads) as :=
    guarded_of_forall _ _ (fun _ _ => trivial) _ _
  have hstep : ∀ (u : State T) a v, True → WithinLimit u → True → step u a = some v →
      (WithinLimit v ↔ PushesFindRoom u a) := by
    rintro u a v - hu - hv
    exact withinLimit_step_iff hu hv
  exact forall_prefix_iff_guarded (I := fun _ => True) (fun _ _ _ _ _ _ _ _ => trivial) hstep
    trivial (Nat.zero_le limit) hany hrun

/-- A push that waits at a full queue, and a pop that makes room for it. -/
theorem withinLimit_popped :
    ∃ s, run step (State.start (⟨1, []⟩ : SizedQueue Nat) 2)
        [.call 0 (.push 5 0), .enter 0 none, .call 0 (.push 6 0), .enter 0 none, .call 1 (.pop 0),
          .enter 1 (some 0), .resume 0 none] = some s ∧
      ∀ bs, bs <+: [.call 0 (.push 5 0), .enter 0 none, .call 0 (.push 6 0), .enter 0 none,
          .call 1 (.pop 0), .enter 1 (some 0), .resume 0 none] →
        ∀ t, run step (State.start (⟨1, []⟩ : SizedQueue Nat) 2) bs = some t → WithinLimit t := by
  refine ⟨_, rfl, (withinLimit_iff 1 2 rfl).mpr ?_⟩
  -- only the push that has waited gets behind its wait, and finds the place
  refine (guarded_cons_of_step _ _ rfl).mpr ⟨trivial, ?_⟩
  refine (guarded_cons_of_step _ _ rfl).mpr ⟨trivial, ?_⟩
  refine (guarded_cons_of_step _ _ rfl).mpr ⟨trivial, ?_⟩
  refine (guarded_cons_of_step _ _ rfl).mpr ⟨trivial, ?_⟩
  refine (guarded_cons_of_step _ _ rfl).mpr ⟨trivial, ?_⟩
  refine (guarded_cons_of_step _ _ rfl).mpr ⟨trivial, ?_⟩
  exact (guarded_cons_of_step _ _ rfl).mpr ⟨(by intro _ _ hi; cases hi; rfl), trivial⟩

/-- The place that a pop made for the waiting push is taken by another push, and the one that has
waited does not look again. -/
theorem not_withinLimit_overtaken :
    ¬ ∀ (limit threads : Nat) (as : List (Action Nat)) s,
      run step (State.start ⟨limit, []⟩ threads) as = some s → WithinLimit s := by
  intro hall
  have hlimit := hall 1 3
    [.call 0 (.push 5 0), .enter 0 none, .call 0 (.push 6 0), .enter 0 none, .call 1 (.pop 0),
      .enter 1 (some 0), .call 2 (.push 7 0), .enter 2 none, .resume 0 none] _ rfl
  exact absurd hlimit (by decide)

/-! ## The ends of calls -/

/-- How a call ends. -/
inductive Outcome (T : Type) where
  | returned (item : T)
  | pushed
  | timedOut
  deriving DecidableEq, Repr

/-- The end of a call. -/
structure Event (T : Type) where
  call : Call T
  outcome : Outcome T
  /-- What is left in the vector of its caller. -/
  rest : List T
  before : List T
  after : List T
  deriving DecidableEq, Repr

/-- The vector of the caller. -/
def Call.vector : Call T → List T
  | .pushAll items _ => items
  | _ => []

/-- What the part behind the test and the wait returns, and leaves in the vector. -/
def Call.outcome (q : SizedQueue T) : Call T → Option (Outcome T × List T)
  | .pop _ => q.queue.head?.map fun item => (.returned item, [])
  | .push _ _ => some (.pushed, [])
  | .pushAll items _ => some (.pushed, (q.fill items).2)

/-- The call that ends with the step, how it ends, and what it leaves in the vector. -/
def ended (s : State T) : Action T → Option (Call T × Outcome T × List T)
  | .enter i _ =>
      match s.threads[i]? with
      | some (.entering k) =>
          if k.mustWait s.queue then none else (k.outcome s.queue).map fun r => (k, r)
      | _ => none
  | .resume i _ =>
      match s.threads[i]? with
      | some (.waiting k .notified) => (k.outcome s.queue).map fun r => (k, r)
      | some (.waiting k .expired) => some (k, .timedOut, k.vector)
      | _ => none
  | .call _ _ | .wake _ | .expire _ => none

/-- The end of a call in a step, with the queue before and after. -/
def event (s : State T) (a : Action T) (t : State T) : Option (Event T) :=
  (ended s a).map fun r => ⟨r.1, r.2.1, r.2.2, s.queue.queue, t.queue.queue⟩

namespace Event

/-- What a pop returned. -/
def popped (e : Event T) : List T :=
  match e.outcome with
  | .returned item => [item]
  | _ => []

/-- What a push appended: its item, or what is no longer in the vector, from the back. -/
def appended (e : Event T) : List T :=
  match e.call, e.outcome with
  | .push item _, .pushed => [item]
  | .pushAll items _, .pushed => (items.drop e.rest.length).reverse
  | _, _ => []

/-- What the end of a call must do. -/
def Sound (e : Event T) : Prop :=
  match e.call, e.outcome with
  | .pop _, .returned item => e.before = item :: e.after
  | .push item _, .pushed => e.after = e.before ++ [item]
  | .pushAll items _, .pushed => ∃ b, items = e.rest ++ b ∧ e.after = e.before ++ b.reverse
  | k, .timedOut => e.after = e.before ∧ e.rest = k.vector
  | _, _ => False

end Event

section events

variable {s t : State T} {a : Action T} {i : Nat} {n : Option Nat} {k : Call T} {e : Event T}

/-- The end of a call is sound, and moves items behind those that there are. -/
theorem sound_apply {r : Outcome T × List T} {q : SizedQueue T} (hr : k.outcome q = some r)
    (he : e = ⟨k, r.1, r.2, q.queue, (k.apply q).queue⟩) :
    e.Sound ∧ e.popped ++ (k.apply q).queue = q.queue ++ e.appended := by
  subst he
  rcases k with seconds | ⟨item, seconds⟩ | ⟨items, seconds⟩
  · obtain ⟨item, hitem, rfl⟩ := Option.map_eq_some_iff.mp hr
    obtain ⟨rest, hrest⟩ := List.head?_eq_some_iff.mp hitem
    simp [Event.Sound, Event.popped, Event.appended, Call.apply, hrest]
  · cases hr
    simp [Event.Sound, Event.popped, Event.appended, Call.apply]
  · cases hr
    obtain ⟨moved, hitems, hqueue⟩ := q.exists_fill items
    refine ⟨⟨moved, hitems, hqueue⟩, ?_⟩
    have hdrop (rest : List T) (hsplit : items = rest ++ moved) :
        items.drop rest.length = moved := by
      rw [hsplit]
      exact List.drop_left
    simp only [Event.popped, Event.appended, Call.apply, List.nil_append, hdrop _ hitems, hqueue]

/-- Behind the test and the wait a call returns, if a pop finds an item. -/
theorem exists_outcome {q : SizedQueue T} (hfront : k.waitsOn = .canPop → q.queue ≠ []) :
    ∃ r, k.outcome q = some r := by
  rcases k with seconds | ⟨item, seconds⟩ | ⟨items, seconds⟩
  · obtain ⟨d, rest, hqueue⟩ := List.exists_cons_of_ne_nil (hfront rfl)
    exact ⟨(.returned d, []), by rw [Call.outcome, hqueue]; rfl⟩
  · exact ⟨_, rfl⟩
  · exact ⟨_, rfl⟩

/-- What the end of a call does to the contents of the queue, if one ends. -/
def Moves (s t : State T) (last : Option (Event T)) : Prop :=
  (∀ e, last = some e → e.Sound) ∧
    last.toList.flatMap Event.popped ++ t.queue.queue =
      s.queue.queue ++ last.toList.flatMap Event.appended

/-- A step that ends no call leaves the queue. -/
theorem moves_none (hqueue : t.queue = s.queue) : Moves s t none := by
  refine ⟨by rintro _ ⟨⟩, ?_⟩
  rw [hqueue]
  simp

/-- The part of a call behind the test and the wait. -/
theorem Finishes.moves (h : Finishes i n k s t)
    (hended : ended s a = (k.outcome s.queue).map fun r => (k, r)) : Moves s t (event s a t) := by
  obtain ⟨r, hr⟩ := exists_outcome h.front
  have hevent : event s a t =
      some ⟨k, r.1, r.2, s.queue.queue, (k.apply s.queue).queue⟩ := by
    rw [event, hended, hr, h.queue_eq]
    rfl
  obtain ⟨hsound, hmoves⟩ := sound_apply hr rfl
  rw [hevent]
  refine ⟨?_, ?_⟩
  · rintro _ ⟨⟩
    exact hsound
  · rw [h.queue_eq]
    simpa using hmoves

/-- **What one step does** to the contents of the queue. -/
theorem moves_step (h : step s a = some t) : Moves s t (event s a t) := by
  have hquiet (hended : ended s a = none) (hqueue : t.queue = s.queue) :
      Moves s t (event s a t) := by
    rw [event, hended]
    exact moves_none hqueue
  rcases step_effect h with ⟨i, k, hi⟩ | ⟨i, n, k, u, hi, hmust, hu⟩ | ⟨i, n, k, t, hi, hmust, ht⟩ |
    ⟨i, n, k, t, hi, ht⟩ | ⟨i, n, seconds, hi, hqueue⟩ | ⟨i, k, hi⟩ | ⟨i, k, hi⟩ | ⟨i, k, hi⟩
  · exact hquiet rfl rfl
  · apply hquiet
    · simp [ended, hi, hmust]
    · exact (counts_notifyOne hu).1
  · exact ht.moves (by simp [ended, hi, hmust])
  · exact ht.moves (by simp [ended, hi])
  · apply hquiet
    · simp [ended, hi, Call.outcome, hqueue]
    · rfl
  · have hevent : event s (.resume i none) (s.setThread i .idle) =
        some ⟨k, .timedOut, k.vector, s.queue.queue, s.queue.queue⟩ := by
      simp only [event, ended, hi, Option.map_some]
      rfl
    rw [hevent]
    refine ⟨?_, ?_⟩
    · rintro _ ⟨⟩
      rcases k with seconds | ⟨item, seconds⟩ | ⟨items, seconds⟩
      · exact ⟨rfl, rfl⟩
      · exact ⟨rfl, rfl⟩
      · exact ⟨rfl, rfl⟩
    · rcases k with seconds | ⟨item, seconds⟩ | ⟨items, seconds⟩
      · simp [Event.popped, Event.appended]
        rfl
      · simp [Event.popped, Event.appended]
        rfl
      · simp [Event.popped, Event.appended]
        rfl
  · exact hquiet rfl rfl
  · exact hquiet rfl rfl

end events

/-- The ends of the calls in a run. -/
def events (s : State T) (as : List (Action T)) : List (Event T) := observed step event s as

/-- **Nothing is lost, duplicated or reordered.** For every queue and any number of threads, in every
run: what the pops have returned, followed by the queue, is what was in the queue at the start
followed by what the pushes appended, and every call that has ended did what it says. -/
theorem returned_then_queued (q : SizedQueue T) (threads : Nat) {as : List (Action T)} {s : State T}
    (hrun : run step (State.start q threads) as = some s) :
    (events (State.start q threads) as).flatMap Event.popped ++ s.queue.queue =
        q.queue ++ (events (State.start q threads) as).flatMap Event.appended ∧
      ∀ e ∈ events (State.start q threads) as, e.Sound := by
  constructor
  · have hstep : ∀ (bs : List (Action T)) (t : State T) a u,
        run step (State.start q threads) bs = some t →
        (events (State.start q threads) bs).flatMap Event.popped ++ t.queue.queue =
          q.queue ++ (events (State.start q threads) bs).flatMap Event.appended →
        step t a = some u →
        (events (State.start q threads) (bs ++ [a])).flatMap Event.popped ++ u.queue.queue =
          q.queue ++ (events (State.start q threads) (bs ++ [a])).flatMap Event.appended := by
      intro bs t a u ht heq hu
      have hmoves := (moves_step hu).2
      rw [events, observed_concat ht hu, List.flatMap_append, List.flatMap_append, List.append_assoc,
        hmoves, ← List.append_assoc, ← List.append_assoc]
      exact congrArg (· ++ _) heq
    exact run_history_invariant (I := fun bs t =>
      (events (State.start q threads) bs).flatMap Event.popped ++ t.queue.queue =
        q.queue ++ (events (State.start q threads) bs).flatMap Event.appended) hstep
      (by simp [events, observed, State.start]) hrun
  · apply forall_mem_observed
    intro t a u e hu he
    exact (moves_step hu).1 e he

/-- A pop that waits, a push of a vector that is too long for the queue, the pop again, and a push
that times out. -/
theorem returned_then_queued_pushed :
    let as : List (Action Nat) := [.call 0 (.pop 0), .enter 0 none, .call 1 (.pushAll [7, 8] 0),
      .enter 1 (some 0), .call 1 (.push 9 1), .enter 1 none, .expire 1, .resume 1 none,
      .resume 0 none]
    ∃ s, run step (State.start ⟨1, []⟩ 2) as = some s ∧
      (events (State.start ⟨1, []⟩ 2) as).flatMap Event.popped ++ s.queue.queue =
        [] ++ (events (State.start ⟨1, []⟩ 2) as).flatMap Event.appended ∧
      ∀ e ∈ events (State.start ⟨1, []⟩ 2) as, e.Sound :=
  ⟨_, rfl, returned_then_queued ⟨1, []⟩ 2 rfl⟩

end Zbroker.SharedQueue
