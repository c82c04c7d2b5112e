import Zbroker.Found.Ranking
import Zbroker.Session.ReadFeed

/-!
# How long a READ and a CLOSE take

A timeout sends `batch_pop` back to the start of its counting loop, so a READ may pop twice as many
documents as it is asked for. More than that it cannot do: the retries are used up.

* `BatchPop.steps`, `Io.steps` — how many steps a call has left, its deadlines included. A pop takes two
  of them, and a timeout six with what follows it.
* `Io.deadlines` — how many deadlines it has left.
* `left_of_step`, `count_le` — whatever the other threads do, a step of the io thread lowers the one, and
  a deadline both; so they bound what is left of a run.
* **`request_steps_le`**: the bounds for a READ and for the CLOSE that calls `term`.
The measures are read off the position of the io thread alone, and the rule for measures bounds the steps of
a run by them (`Ranked.length_le`, `Ranked.countP_le`).
-/

namespace Zbroker

/-- The passes that are left after this one. -/
def BatchPop.passes (b : Broker) (f : BatchPop) : Nat := (b.readRetry - f.retry).toNat

/-- The steps that are left at the next pop. -/
def BatchPop.steps (b : Broker) (f : BatchPop) : Nat :=
  2 * f.left + f.passes b * (2 * f.batchSize + 6) + 7

namespace ReadSession

open Found.Transition

variable {M : Mongo} {seconds : Nat} {b : Broker} {s t : State} {k : Call}

/-! ## What is left of a call -/

/-- The steps that a call has left at its next pop. -/
def Call.steps (b : Broker) : Call → Nat
  | .pop _ => 7
  | .read _ f | .term f => f.steps b

/-- The deadlines that a call has left at its next pop. -/
def Call.deadlines (b : Broker) : Call → Nat
  | .pop _ => 1
  | .read _ f | .term f => f.passes b + 1

/-- The steps that the io thread has left until it is idle. -/
def Io.steps (b : Broker) : Io → Nat
  | .idle | .closed => 0
  | .entering k => k.steps b
  | .popWait k .expired => k.steps b - 2
  | .popWait k _ => k.steps b - 1
  | .timedOut k => k.steps b - 3
  | .queryEnter k => k.steps b - 4
  | .queryWait k _ => k.steps b - 5
  | .responding _ _ _ | .joining => 1
  | .termReach => BatchPop.steps b ⟨1, [], 1, 0, 0⟩ + 1
  | .termSize => BatchPop.steps b ⟨1, [], 1, 0, 0⟩ + 2

/-- The deadlines that the io thread has left until it is idle. -/
def Io.deadlines (b : Broker) : Io → Nat
  | .idle | .closed | .responding _ _ _ | .joining => 0
  | .entering k => k.deadlines b
  | .popWait k .expired => k.deadlines b - 1
  | .popWait k _ => k.deadlines b
  | .timedOut k | .queryEnter k | .queryWait k _ => k.deadlines b - 1
  | .termReach | .termSize => BatchPop.passes b ⟨1, [], 1, 0, 0⟩ + 1

/-- A call that is not over has the steps of a pop to come. -/
theorem Call.le_steps (b : Broker) (k : Call) : 7 ≤ k.steps b := by
  cases k with
  | pop _ => exact Nat.le_refl 7
  | read _ f => exact Nat.le_add_left 7 _
  | term f => exact Nat.le_add_left 7 _

/-- A call that is not over has a deadline to come. -/
theorem Call.le_deadlines (b : Broker) (k : Call) : 1 ≤ k.deadlines b := by
  cases k with
  | pop _ => exact Nat.le_refl 1
  | read _ f => exact Nat.le_add_left 1 _
  | term f => exact Nat.le_add_left 1 _

/-- A pop that returns takes two steps. -/
theorem BatchPop.steps_onItem {f g : BatchPop} {d : BSONObj} (h : f.onItem d = .again g) :
    g.steps b + 2 ≤ f.steps b ∧ g.passes b = f.passes b := by
  unfold BatchPop.onItem at h
  dsimp only at h
  split_ifs at h with hleft
  cases h
  have hle : 2 * (f.left - 1) + f.passes b * (2 * f.batchSize + 6) + 7 + 2 ≤ f.steps b := by
    rw [BatchPop.steps]
    omega
  exact ⟨hle, rfl⟩

/-- A pass that ends with a timeout takes the other six. -/
theorem BatchPop.steps_onTimeout {c : Broker} (hretry : c.readRetry = b.readRetry) {f g : BatchPop}
    (h : f.onTimeout c = .again g) : g.steps b + 6 ≤ f.steps b ∧ g.passes b + 1 = f.passes b := by
  unfold BatchPop.onTimeout at h
  dsimp only at h
  split_ifs at h with hagain
  cases h
  rw [hretry] at hagain
  have hpasses : f.passes b = (b.readRetry - (f.retry + 1)).toNat + 1 := by
    unfold BatchPop.passes
    omega
  have hle : 2 * f.batchSize + (b.readRetry - (f.retry + 1)).toNat * (2 * f.batchSize + 6) + 7 + 6 ≤
      f.steps b := by
    have hmul := Nat.succ_mul (b.readRetry - (f.retry + 1)).toNat (2 * f.batchSize + 6)
    rw [BatchPop.steps, hpasses, hmul]
    omega
  exact ⟨hle, hpasses.symm⟩

/-- A pop of the call returns. -/
theorem steps_onItem (k : Call) (d : BSONObj) :
    (k.onItem d).steps b + 2 ≤ k.steps b ∧ (k.onItem d).deadlines b ≤ k.deadlines b := by
  have hle := k.le_steps b
  rcases k with _ | ⟨conn, f⟩ | f
  · exact ⟨by simp [Call.onItem, Io.steps, Call.steps], by simp [Call.onItem, Io.deadlines]⟩
  all_goals
    rcases hstep : f.onItem d with g | ⟨docs, ret⟩
    · obtain ⟨hsteps, hpasses⟩ := BatchPop.steps_onItem (b := b) hstep
      simp only [Call.onItem, hstep, Io.ofRead, Io.ofTerm, Io.steps, Io.deadlines, Call.steps,
        Call.deadlines]
      omega
    · simp only [Call.onItem, hstep, Io.ofRead, Io.ofTerm, Io.steps, Io.deadlines]
      omega

/-- A pop of the call throws. -/
theorem steps_onThrow (k : Call) :
    k.onThrow.steps b + 3 ≤ k.steps b ∧ k.onThrow.deadlines b + 1 ≤ k.deadlines b := by
  have hsteps := k.le_steps b
  have hdeadlines := k.le_deadlines b
  cases k with
  | pop _ => exact ⟨by simp [Call.onThrow, Io.steps, Call.steps], hdeadlines⟩
  | read conn f =>
      simp only [Call.onThrow, Io.steps, Io.deadlines]
      omega
  | term f =>
      simp only [Call.onThrow, Io.steps, Io.deadlines]
      omega

/-- The handler of the call ends. -/
theorem steps_onTimeout (k : Call) {c : Broker} (hretry : c.readRetry = b.readRetry) :
    (k.onTimeout c).steps b + 6 ≤ k.steps b ∧ (k.onTimeout c).deadlines b + 1 ≤ k.deadlines b := by
  have hle := k.le_steps b
  have hdeadlines := k.le_deadlines b
  rcases k with _ | ⟨conn, f⟩ | f
  · exact ⟨by simp [Call.onTimeout, Io.steps, Call.steps], hdeadlines⟩
  all_goals
    rcases hstep : f.onTimeout c with g | ⟨docs, ret⟩
    · obtain ⟨hsteps, hpasses⟩ := BatchPop.steps_onTimeout hretry hstep
      simp only [Call.onTimeout, hstep, Io.ofRead, Io.ofTerm, Io.steps, Io.deadlines, Call.steps,
        Call.deadlines]
      omega
    · simp only [Call.onTimeout, hstep, Io.ofRead, Io.ofTerm, Io.steps, Io.deadlines]
      omega

/-! ## What is left in a state -/

/-- The steps that the io thread has left; none after an exception. -/
def State.steps (b : Broker) (s : State) : Nat := if s.fault.isSome then 0 else s.io.steps b

/-- The deadlines that the io thread has left; none after an exception. -/
def State.deadlines (b : Broker) (s : State) : Nat :=
  if s.fault.isSome then 0 else s.io.deadlines b

/-- In a state without a fault the steps are those of the position. -/
theorem State.steps_eq (h : s.fault = none) : s.steps b = s.io.steps b := by
  rw [State.steps, h]
  rfl

/-- In a state without a fault the deadlines are those of the position. -/
theorem State.deadlines_eq (h : s.fault = none) : s.deadlines b = s.io.deadlines b := by
  rw [State.deadlines, h]
  rfl

/-- There are no more steps than those of the position. -/
theorem State.steps_le (b : Broker) (s : State) : s.steps b ≤ s.io.steps b := by
  unfold State.steps
  split_ifs
  · exact Nat.zero_le _
  · exact Nat.le_refl _

/-- There are no more deadlines than those of the position. -/
theorem State.deadlines_le (b : Broker) (s : State) : s.deadlines b ≤ s.io.deadlines b := by
  unfold State.deadlines
  split_ifs
  · exact Nat.zero_le _
  · exact Nat.le_refl _

@[simp] theorem Io.steps_notify (b : Broker) (p : Io) : p.notify.steps b = p.steps b := by
  rcases p with _ | _ | ⟨k, _ | _ | _⟩ | _ | _ | _ | _ | _ | _ | _ | _ <;> rfl

@[simp] theorem Io.steps_notifyQuery (b : Broker) (p : Io) : p.notifyQuery.steps b = p.steps b := by
  cases p <;> rfl

@[simp] theorem Io.deadlines_notify (b : Broker) (p : Io) :
    p.notify.deadlines b = p.deadlines b := by
  rcases p with _ | _ | ⟨k, _ | _ | _⟩ | _ | _ | _ | _ | _ | _ | _ | _ <;> rfl

@[simp] theorem Io.deadlines_notifyQuery (b : Broker) (p : Io) :
    p.notifyQuery.deadlines b = p.deadlines b := by
  cases p <;> rfl

/-- The read thread neither takes from nor adds to what the io thread has left. -/
theorem ReaderStep.left_le (h : ReaderStep M s t) :
    t.io.steps b = s.io.steps b ∧ t.io.deadlines b = s.io.deadlines b := by
  rcases h.io with heq | heq | heq
  · rw [heq]
    exact ⟨rfl, rfl⟩
  · rw [heq]
    simp
  · rw [heq]
    simp

/-- **A step of the io thread** lowers the steps it has left, and does not raise the deadlines. -/
theorem IoStep.left_lt (h : IoStep M s t) (hretry : s.broker.readRetry = b.readRetry)
    (hfault : s.fault = none) : t.steps b < s.steps b ∧ t.deadlines b ≤ s.deadlines b := by
  have hle := t.steps_le b
  have hdeadlines := t.deadlines_le b
  rw [State.steps_eq hfault, State.deadlines_eq hfault]
  suffices hio : t.fault ≠ none ∧ 0 < s.io.steps b ∨
      t.io.steps b < s.io.steps b ∧ t.io.deadlines b ≤ s.io.deadlines b by
    rcases hio with ⟨hended, hpos⟩ | ⟨hsteps, hlow⟩
    · have hsome : t.fault.isSome = true := Option.isSome_iff_ne_none.mpr hended
      rw [State.steps, State.deadlines, if_pos hsome, if_pos hsome]
      exact ⟨hpos, Nat.zero_le _⟩
    · exact ⟨hle.trans_lt hsteps, hdeadlines.trans hlow⟩
  cases h with
  | refuse k e hio he =>
      obtain ⟨hsteps, hlow⟩ := steps_onThrow (b := b) k
      rw [hio]
      exact Or.inr ⟨(by omega : k.onThrow.steps b < k.steps b),
        (by omega : k.onThrow.deadlines b ≤ k.deadlines b)⟩
  | wait k hio hqueue =>
      have hpos := k.le_steps b
      rw [hio]
      exact Or.inr ⟨(by omega : k.steps b - 1 < k.steps b), Nat.le_refl (k.deadlines b)⟩
  | pop k d rest hio hqueue =>
      obtain ⟨hsteps, hlow⟩ := steps_onItem (b := b) k d
      have hpos := k.le_steps b
      rcases hio with hio | hio
      · rw [hio]
        exact Or.inr ⟨(by omega : (k.onItem d).steps b < k.steps b), hlow⟩
      · rw [hio]
        exact Or.inr ⟨(by omega : (k.onItem d).steps b < k.steps b - 1), hlow⟩
  | fault e hio =>
      refine Or.inl ⟨by simp, ?_⟩
      rcases hio with ⟨k, hio⟩ | hio | hio
      · have hpos := k.le_steps b
        rw [hio]
        exact (by omega : 0 < k.steps b - 1)
      · rw [hio]
        exact Nat.succ_pos _
      · rw [hio]
        exact Nat.succ_pos _
  | timeOut k hio =>
      obtain ⟨hsteps, hlow⟩ := steps_onThrow (b := b) k
      rw [hio]
      exact Or.inr ⟨(by omega : k.onThrow.steps b < k.steps b - 2),
        (by omega : k.onThrow.deadlines b ≤ k.deadlines b - 1)⟩
  | handle k hio =>
      obtain ⟨hsteps, hlow⟩ := steps_onTimeout (b := b) k hretry
      have hpos := k.le_steps b
      rw [hio]
      dsimp only
      split_ifs
      · exact Or.inr ⟨(by omega : k.steps b - 4 < k.steps b - 3), Nat.le_refl (k.deadlines b - 1)⟩
      · exact Or.inr ⟨(by omega : (k.onTimeout s.broker).steps b < k.steps b - 3),
          (by omega : (k.onTimeout s.broker).deadlines b ≤ k.deadlines b - 1)⟩
  | queryEnter k hio =>
      have hpos := k.le_steps b
      rw [hio]
      exact Or.inr ⟨(by omega : k.steps b - 5 < k.steps b - 4), Nat.le_refl (k.deadlines b - 1)⟩
  | queryLeave k hio =>
      obtain ⟨hsteps, hlow⟩ := steps_onTimeout (b := b) k hretry
      rw [hio]
      exact Or.inr ⟨(by omega : (k.onTimeout s.broker).steps b < k.steps b - 5),
        (by omega : (k.onTimeout s.broker).deadlines b ≤ k.deadlines b - 1)⟩
  | respond conn docs ret hio =>
      right
      rw [hio]
      unfold State.respond
      split
      · exact ⟨Nat.one_pos, Nat.le_refl 0⟩
      · exact ⟨Nat.one_pos, Nat.le_refl 0⟩
  | reach hio hqueue =>
      rw [hio]
      exact Or.inr ⟨Nat.lt_succ_self _, Nat.le_refl _⟩
  | join hio hreach =>
      rw [hio]
      exact Or.inr ⟨Nat.succ_lt_succ (Nat.succ_pos _), Nat.zero_le _⟩
  | last f hio hf =>
      have hf' : f = ⟨1, [], 1, 0, s.broker.readTimeout⟩ := by
        unfold BatchPop.start at hf
        cases hf
        rfl
      have hsteps : f.steps b = BatchPop.steps b ⟨1, [], 1, 0, 0⟩ := by
        rw [hf']
        rfl
      have hdeadlines : f.passes b = BatchPop.passes b ⟨1, [], 1, 0, 0⟩ := by
        rw [hf']
        rfl
      right
      rcases hio with ⟨hio, -⟩ | ⟨hio, -⟩
      · rw [hio]
        exact ⟨hsteps.trans_lt (Nat.lt_add_of_pos_right Nat.two_pos), (congrArg _ hdeadlines).le⟩
      · rw [hio]
        exact ⟨hsteps.trans_lt (Nat.lt_succ_self _), (congrArg _ hdeadlines).le⟩
  | close hio hr =>
      rw [hio]
      exact Or.inr ⟨Nat.one_pos, Nat.le_refl 0⟩

/-! ## What is left in a run -/

/-- A step of the io thread, or its deadline. -/
def Action.ofIo : Action → Bool
  | .io | .ioExpire => true
  | _ => false

/-- A closed session has no io thread. -/
theorem IoStep.ne_closed (h : IoStep M s t) : s.io ≠ .closed := by
  intro hclosed
  cases h <;> simp_all

/-- The io thread stays where it is, as far as it has something left. -/
theorem left_le_of_eq (hfault : s.fault = none) (hsteps : t.io.steps b = s.io.steps b)
    (hdeadlines : t.io.deadlines b = s.io.deadlines b) :
    t.steps b < s.steps b + 1 ∧ t.deadlines b < s.deadlines b + 1 := by
  rw [State.steps_eq hfault, State.deadlines_eq hfault, ← hsteps, ← hdeadlines]
  exact ⟨Nat.lt_succ_of_le (t.steps_le b), Nat.lt_succ_of_le (t.deadlines_le b)⟩

/-- **One step** that begins no request: one of the io thread lowers the steps left, its deadline both
numbers, and no other raises any. -/
theorem left_of_step {a : Action} (h : Configured b s) (ha : a.kind = .free)
    (hstep : step M seconds s a = some t) :
    t.steps b < s.steps b + (if a.ofIo then 0 else 1) ∧
      t.deadlines b < s.deadlines b + (if a == .ioExpire then 0 else 1) := by
  have hfault := fault_of_step hstep
  rcases step_effect hstep with ⟨_, hreader⟩ | ⟨_, hio⟩ | ⟨docs, hr, -⟩ | ⟨docs, hr⟩ | ⟨k, hio, -⟩ |
    ⟨k, hio⟩ | ⟨k, hio⟩ | ⟨conn, hio⟩ | ⟨n, hio⟩ | hio | hio | ⟨d, -⟩
  · exact left_le_of_eq hfault hreader.left_le.1 hreader.left_le.2
  · have hretry : s.broker.readRetry = b.readRetry := by
      rcases h with hconfig | ⟨hclosed, -⟩
      · exact congrArg Config.readRetry hconfig
      · exact absurd hclosed hio.ne_closed
    obtain ⟨hsteps, hdeadlines⟩ := hio.left_lt hretry hfault
    exact ⟨hsteps, Nat.lt_succ_of_le hdeadlines⟩
  · exact left_le_of_eq hfault rfl rfl
  · exact left_le_of_eq hfault rfl rfl
  · have hsteps := k.le_steps b
    have hdeadlines := k.le_deadlines b
    rw [State.steps_eq hfault, State.deadlines_eq hfault, hio]
    exact ⟨(State.steps_le b _).trans_lt (by omega : k.steps b - 2 < k.steps b - 1),
      (State.deadlines_le b _).trans_lt (by omega : k.deadlines b - 1 < k.deadlines b)⟩
  · exact left_le_of_eq hfault (by rw [hio]; rfl) (by rw [hio]; rfl)
  · exact left_le_of_eq hfault (by rw [hio]; rfl) (by rw [hio]; rfl)
  · cases ha
  · cases ha
  · have hsame : s.rewind.io = s.io := by
      unfold State.rewind
      split_ifs <;> rfl
    exact left_le_of_eq hfault (by rw [hsame]) (by rw [hsame])
  · cases ha
  · exact left_le_of_eq hfault rfl rfl

/-- A run that begins no request. -/
theorem count_le (h : Configured b t) {bs : List Action} {u : State}
    (hnext : ∀ a ∈ bs, a.kind = .free) (hbs : run (step M seconds) t bs = some u) :
    bs.countP Action.ofIo ≤ t.steps b ∧ bs.count .ioExpire ≤ t.deadlines b := by
  have hguarded : Guarded (step M seconds) (fun _ a => a.kind = .free) t bs :=
    guarded_of_forall_mem _ hnext
  have hkeeps : ∀ s a t, Configured b s → Action.kind a = .free → step M seconds s a = some t →
      Configured b t := fun _ _ _ hs _ hstep => (step_isMove hs hstep).configured
  have hsteps : Ranked (step M seconds) (fun _ a => a.kind = .free) (Configured b) (State.steps b)
      fun a => if a.ofIo then 0 else 1 :=
    ⟨hkeeps, fun _ _ _ hs ha hstep => (left_of_step hs ha hstep).1⟩
  have hdeadlines : Ranked (step M seconds) (fun _ a => a.kind = .free) (Configured b)
      (State.deadlines b) fun a => if a == .ioExpire then 0 else 1 :=
    ⟨hkeeps, fun _ _ _ hs ha hstep => (left_of_step hs ha hstep).2⟩
  have hle := hsteps.countP_le h hguarded hbs
  have hle' := hdeadlines.countP_le h hguarded hbs
  exact ⟨by omega, (Nat.le_add_right _ _).trans hle'⟩

/-- A call of `batch_pop` that begins: two passes, each with its deadline. -/
theorem steps_start (hretry : b.readRetry = 1) (n : Nat) (timeout : Int) :
    BatchPop.steps b ⟨n, [], n, 0, timeout⟩ = 4 * n + 13 ∧
      BatchPop.passes b ⟨n, [], n, 0, timeout⟩ = 1 := by
  have hpasses : BatchPop.passes b ⟨n, [], n, 0, timeout⟩ = 1 := by
    rw [BatchPop.passes, hretry]
    rfl
  rw [BatchPop.steps, hpasses]
  exact ⟨by dsimp only; omega, rfl⟩

/-- What is left when a READ has begun. -/
theorem left_startRead (conn : Nat) (hretry : b.readRetry = 1) (hlimit : s.broker.limit = b.limit)
    (hio : s.io = .idle) : (s.startRead conn).steps b ≤ 4 * toSizeT b.limit + 13 ∧
      (s.startRead conn).deadlines b ≤ 2 := by
  have hcases : (s.startRead conn).io = .idle ∨ ∃ timeout, (s.startRead conn).io =
      .entering (.read conn ⟨toSizeT b.limit, [], toSizeT b.limit, 0, timeout⟩) := by
    unfold State.startRead BatchPop.start
    rw [hlimit]
    split_ifs
    · exact Or.inl hio
    · exact Or.inr ⟨_, rfl⟩
    · exact Or.inl hio
  have hsteps := (s.startRead conn).steps_le b
  have hdeadlines := (s.startRead conn).deadlines_le b
  rcases hcases with hidle | ⟨timeout, hentering⟩
  · rw [hidle] at hsteps hdeadlines
    exact ⟨hsteps.trans (Nat.zero_le _), hdeadlines.trans (Nat.zero_le _)⟩
  · obtain ⟨hstart, hpasses⟩ := steps_start hretry (toSizeT b.limit) timeout
    rw [hentering] at hsteps hdeadlines
    exact ⟨hsteps.trans hstart.le, hdeadlines.trans (congrArg (· + 1) hpasses).le⟩

/-- What is left when `term` has begun. -/
theorem left_startTerm (hretry : b.readRetry = 1) :
    s.startTerm.steps b ≤ 19 ∧ s.startTerm.deadlines b ≤ 2 := by
  obtain ⟨hstart, hpasses⟩ := steps_start hretry 1 0
  have hcases : s.startTerm.io = .termSize ∨ s.startTerm.io = .closed := by
    unfold State.startTerm
    split_ifs
    · exact Or.inl rfl
    · exact Or.inr rfl
  have hsteps := s.startTerm.steps_le b
  have hdeadlines := s.startTerm.deadlines_le b
  rcases hcases with hio | hio
  · rw [hio] at hsteps hdeadlines
    exact ⟨hsteps.trans (congrArg (· + 2) hstart).le, hdeadlines.trans (congrArg (· + 1) hpasses).le⟩
  · rw [hio] at hsteps hdeadlines
    exact ⟨hsteps.trans (Nat.zero_le _), hdeadlines.trans (Nat.zero_le _)⟩

/-- **How long a request takes.** In every run of a read session, with any documents inserted meanwhile:
after a READ has come, and until there is another request, the io thread takes at most `4 * limit + 13`
steps, deadlines included, and after the CLOSE that calls `term` at most 19; and not more than two
deadlines pass. -/
theorem request_steps_le (M : Mongo) (seconds : Nat) (coll : List Document)
    (connect : String → Option String) (options : BSONObj) (b : Broker)
    (hopen : Broker.new.openOn connect (some options) = (b, none)) (as : List Action) (s : State)
    (hrun : run (step M seconds) (State.opened coll b) as = some s) (a : Action) (t : State)
    (hstep : step M seconds s a = some t) (bs : List Action) (u : State)
    (hbs : run (step M seconds) t bs = some u) (hnext : ∀ a ∈ bs, a.kind = .free) :
    (∀ conn, a = .read conn →
      bs.countP Action.ofIo ≤ 4 * toSizeT b.limit + 13 ∧ bs.count .ioExpire ≤ 2) ∧
    (a = .term → bs.countP Action.ofIo ≤ 19 ∧ bs.count .ioExpire ≤ 2) := by
  have hretry : b.readRetry = 1 := (Broker.fresh_of_openOn hopen).readRetry
  have hconfigured : Configured b s :=
    run_invariant_of_step (I := Configured b) (fun _ _ _ hs hst => (step_isMove hs hst).configured)
      (Or.inl rfl) hrun
  obtain ⟨hsteps, hdeadlines⟩ := count_le (step_isMove hconfigured hstep).configured hnext hbs
  constructor
  · rintro conn rfl
    obtain ⟨ht, hidle⟩ : t = s.startRead conn ∧ s.io = .idle := by
      cases step_effect hstep with
      | read _ hio => exact ⟨rfl, hio⟩
    have hlimit : s.broker.limit = b.limit := by
      rcases hconfigured with hconfig | ⟨hclosed, -⟩
      · exact congrArg Config.limit hconfig
      · rw [hidle] at hclosed
        cases hclosed
    obtain ⟨hle, hle'⟩ := left_startRead conn hretry hlimit hidle
    rw [ht] at hsteps hdeadlines
    exact ⟨hsteps.trans hle, hdeadlines.trans hle'⟩
  · rintro rfl
    obtain rfl : t = s.startTerm := by
      cases step_effect hstep with
      | term _ => rfl
    obtain ⟨hle, hle'⟩ := left_startTerm (s := s) hretry
    exact ⟨hsteps.trans hle, hdeadlines.trans hle'⟩

/-- A READ for one document of a session that has none: both deadlines pass, the first one during the
query, and NoMoreItem is the answer. -/
def sampleWait : List Action :=
  [.io, .reader, .reader, .ioExpire, .io, .io, .io, .reader, .reader, .io, .io, .ioExpire, .io, .io,
    .io]

/-- A READ at an empty collection, until it is answered. -/
theorem request_steps_le_sample : ∃ s t u,
    run (step Mongo.plain 0) (State.opened [] (Broker.sampleBroker 0 1 1)) [] = some s ∧
      step Mongo.plain 0 s (.read 0) = some t ∧ run (step Mongo.plain 0) t sampleWait = some u ∧
      u.io = .idle ∧ u.fault = none ∧ u.log.responses.length = 1 ∧
      sampleWait.countP Action.ofIo ≤ 17 ∧ sampleWait.count .ioExpire ≤ 2 := by
  obtain ⟨t, ht, u, hu, hidle, hfault, hresponses⟩ : ∃ t,
      step Mongo.plain 0 (State.opened [] (Broker.sampleBroker 0 1 1)) (.read 0) = some t ∧
        ∃ u, run (step Mongo.plain 0) t sampleWait = some u ∧ u.io = .idle ∧ u.fault = none ∧
          u.log.responses.length = 1 := ⟨_, rfl, _, rfl, rfl, rfl, rfl⟩
  have hbounds := (request_steps_le Mongo.plain 0 [] (fun _ => none) (Broker.sampleOptions 0 1 1)
    (Broker.sampleBroker 0 1 1) (by decide) [] _ rfl (.read 0) t ht sampleWait u hu
    (by decide)).1 0 rfl
  exact ⟨_, t, u, rfl, ht, hu, hidle, hfault, hresponses, hbounds⟩

end ReadSession

end Zbroker
