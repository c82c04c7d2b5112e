import Zbroker.Processor.DoRead

/-!
# How many documents `batch_pop` collects

After a timeout `batch_pop` counts to its batch size again and keeps the documents it has.

* `interrupted os` — the number of items that are popped before a later timeout.
* `InBatch batchSize os` — a call that ends with an item has popped none before its last timeout,
  and one that gives up has popped no more than a batch.
* `items_eq` — what the outcomes of a whole call are: the items before the last timeout and, unless
  it gives up, one batch.
* **`batchPop_inBatch_iff`**: the call appends what it popped, and at most `batch_size` documents,
  exactly when its outcomes are `InBatch`.
By induction on the outcomes: a pop counts down, and a timeout starts the count again and keeps the
documents (`Passes.item`, `Passes.timeout`).
-/

namespace Zbroker

/-- The pop timed out. -/
def PopOutcome.isTimeout : PopOutcome → Bool
  | .item _ => false
  | .timeout _ => true

/-- The items that are popped before a later timeout. -/
def interrupted : List PopOutcome → Nat
  | [] => 0
  | o :: os => (if os.any PopOutcome.isTimeout then o.items else 0) + interrupted os

/-- The call gives up: its last pop times out. -/
def givesUp (os : List PopOutcome) : Bool := (os.getLast?).any PopOutcome.isTimeout

/-- A call that ends with an item has popped none before its last timeout, and one that gives up has
popped no more than a batch. -/
def InBatch (batchSize : Nat) (os : List PopOutcome) : Prop :=
  (givesUp os = false → interrupted os = 0) ∧ (givesUp os = true → items os ≤ batchSize)

instance (batchSize : Nat) (os : List PopOutcome) : Decidable (InBatch batchSize os) :=
  inferInstanceAs (Decidable (_ ∧ _))

section outcomes

variable {b : Broker} {f : BatchPop} {o : PopOutcome} {os : List PopOutcome}

/-- The last outcome of a list that goes on. -/
theorem givesUp_cons (hos : os ≠ []) : givesUp (o :: os) = givesUp os := by
  obtain ⟨o', os', rfl⟩ := List.exists_cons_of_ne_nil hos
  rw [givesUp, givesUp, List.getLast?_cons_cons]

/-- Where no pop times out, none is interrupted. -/
theorem interrupted_eq_zero (h : os.any PopOutcome.isTimeout = false) : interrupted os = 0 := by
  induction os with
  | nil => rfl
  | cons o os ih =>
      rw [List.any_cons, Bool.or_eq_false_iff] at h
      rw [interrupted, h.2, ih h.2]
      rfl

/-- A call that gives up has timed out. -/
theorem any_of_givesUp (h : givesUp os = true) : os.any PopOutcome.isTimeout = true := by
  rw [givesUp, Option.any_eq_true] at h
  obtain ⟨o, ho, htimeout⟩ := h
  exact List.any_eq_true.mpr ⟨o, List.mem_of_getLast? ho, htimeout⟩

/-- What the outcomes of a call are: the items that were interrupted, and those of the last pass, all
that it had left if it never timed out, or a batch, unless it gives up. -/
def Passes (f : BatchPop) (os : List PopOutcome) : Prop :=
  items os = interrupted os +
    if givesUp os then 0 else if os.any PopOutcome.isTimeout then f.batchSize else f.left

/-- An item, and the rest of its pass. -/
theorem Passes.item {f' : BatchPop} (h : Passes f' os) (hos : os ≠ []) (ds : List BSONObj)
    (hsize : f'.batchSize = f.batchSize) (hleft : f.left = f'.left + 1) :
    Passes f (.item ds :: os) := by
  have hany : (PopOutcome.item ds :: os).any PopOutcome.isTimeout = os.any PopOutcome.isTimeout := by
    simp [PopOutcome.isTimeout]
  unfold Passes at *
  rw [items_cons, interrupted, givesUp_cons hos, hany, h, hsize, hleft]
  by_cases hgives : givesUp os = true
  · rw [if_pos hgives, if_pos hgives, if_pos (any_of_givesUp hgives)]
    exact (Nat.add_assoc _ _ _).symm
  · rw [if_neg hgives, if_neg hgives]
    by_cases hlater : os.any PopOutcome.isTimeout = true
    · simp only [hlater, if_true]
      exact (Nat.add_assoc _ _ _).symm
    · have hnone : interrupted os = 0 := interrupted_eq_zero (by simpa using hlater)
      simp only [hlater, if_false, Bool.false_eq_true, hnone, Nat.zero_add]
      exact Nat.add_comm _ _

/-- A timeout, and another pass. -/
theorem Passes.timeout {f' : BatchPop} (h : Passes f' os) (hos : os ≠ []) (ds : List BSONObj)
    (hsize : f'.batchSize = f.batchSize) (hleft : f'.left = f.batchSize) :
    Passes f (.timeout ds :: os) := by
  have hany : (PopOutcome.timeout ds :: os).any PopOutcome.isTimeout = true := by
    simp [PopOutcome.isTimeout]
  unfold Passes at *
  rw [items_cons, interrupted, givesUp_cons hos, hany, h, hsize, hleft]
  simp [PopOutcome.items]

/-- Another pass begins with a whole batch. -/
theorem onTimeout_eq_again {f' : BatchPop} (h : f.onTimeout b = .again f') :
    f'.batchSize = f.batchSize ∧ f'.left = f.batchSize := by
  unfold BatchPop.onTimeout at h
  dsimp only at h
  split_ifs at h
  cases h
  exact ⟨rfl, rfl⟩

/-- A pass goes on with one pop less. -/
theorem onItem_eq_again {f' : BatchPop} {d : BSONObj} (h : f.onItem d = .again f') :
    f'.batchSize = f.batchSize ∧ f.left = f'.left + 1 ∧ 1 ≤ f'.left := by
  unfold BatchPop.onItem at h
  dsimp only at h
  split_ifs at h with hlast
  cases h
  exact ⟨rfl, by dsimp only; omega, by dsimp only; omega⟩

/-- A call ends with the last item of a pass. -/
theorem onItem_eq_done {d : BSONObj} {docs : List BSONObj} {ret : Option Nat}
    (h : f.onItem d = .done docs ret) : f.left ≤ 1 := by
  unfold BatchPop.onItem at h
  dsimp only at h
  split_ifs at h with hlast
  exact hlast

/-- **The passes of a call.** By induction on the outcomes. -/
theorem batchPop_passes {q removed : List BSONObj} {r : BatchResult} (hleft : 1 ≤ f.left)
    (hbatch : 1 ≤ f.batchSize) (h : batchPop b f q removed os = some r) : Passes f os := by
  induction os generalizing f q removed with
  | nil => cases h
  | cons o os ih =>
      have hne {f' : BatchPop} {q' removed' : List BSONObj}
          (hrest : batchPop b f' q' removed' os = some r) : os ≠ [] := by
        rintro rfl
        cases hrest
      rw [batchPop] at h
      rcases hpop : popQueue f.timeout q o with _ | ⟨_ | d, q'⟩
      · rw [hpop] at h
        cases h
      · -- the pop timed out
        rw [hpop] at h
        simp only at h
        obtain ⟨ds, rfl⟩ : ∃ ds, o = .timeout ds := by
          cases o with
          | timeout ds => exact ⟨ds, rfl⟩
          | item ds => exact absurd (popQueue_eq_timeout hpop).1 Nat.one_ne_zero
        cases hstep : f.onTimeout b with
        | again f' =>
            rw [hstep] at h
            obtain ⟨hsize, hleft'⟩ := onTimeout_eq_again hstep
            exact (ih (hleft' ▸ hbatch) (hsize ▸ hbatch) h).timeout (hne h) ds hsize hleft'
        | done docs ret =>
            rw [hstep] at h
            simp only at h
            split_ifs at h with hos
            rw [List.isEmpty_iff] at hos
            subst hos
            rfl
      · -- the pop returned `d`
        rw [hpop] at h
        simp only at h
        obtain ⟨ds, rfl⟩ : ∃ ds, o = .item ds := by
          cases o with
          | item ds => exact ⟨ds, rfl⟩
          | timeout ds => exact absurd (popQueue_eq_item hpop).1.symm Nat.one_ne_zero
        cases hstep : f.onItem d with
        | again f' =>
            rw [hstep] at h
            obtain ⟨hsize, hleft', hpos⟩ := onItem_eq_again hstep
            exact (ih hpos (hsize ▸ hbatch) h).item (hne h) ds hsize hleft'
        | done docs ret =>
            rw [hstep] at h
            simp only at h
            split_ifs at h with hos
            rw [List.isEmpty_iff] at hos
            subst hos
            have hone : f.left = 1 := Nat.le_antisymm (onItem_eq_done hstep) hleft
            simp [Passes, items, interrupted, givesUp, PopOutcome.items, PopOutcome.isTimeout, hone]

end outcomes

/-- **When `batch_pop` keeps to its batch size.** For every broker, batch size and sequence of
outcomes of its pops: the call appends exactly what it popped, in order, and at most `batch_size`
documents, exactly when either it ends with an item and has popped none before its last timeout, or
it gives up and has popped no more than a batch. -/
theorem batchPop_inBatch_iff {b : Broker} {batchSize : Nat} {f : BatchPop}
    (hstart : BatchPop.start b batchSize = .ok f) {q : List BSONObj} {os : List PopOutcome}
    {r : BatchResult} (hrun : batchPop b f q [] os = some r) :
    r.docs = r.removed ∧ r.docs.length ≤ batchSize ↔ InBatch batchSize os := by
  obtain ⟨hdocs, hlength, -⟩ := batchPop_spec (docs_start hstart) hrun
  obtain ⟨hpos, hf⟩ : batchSize ≠ 0 ∧ f = ⟨batchSize, [], batchSize, 0, b.readTimeout⟩ := by
    unfold BatchPop.start at hstart
    split_ifs at hstart with hzero
    cases hstart
    exact ⟨hzero, rfl⟩
  have hpasses : Passes f os := by
    apply batchPop_passes _ _ hrun
    · rw [hf]
      exact Nat.one_le_iff_ne_zero.mpr hpos
    · rw [hf]
      exact Nat.one_le_iff_ne_zero.mpr hpos
  rw [hdocs, hlength, List.length_nil, Nat.zero_add, InBatch]
  simp only [true_and]
  unfold Passes at hpasses
  cases hgives : givesUp os with
  | true => simp
  | false =>
      simp only [hgives, Bool.false_eq_true, if_false, hf, ite_self] at hpasses
      simp only [Bool.false_eq_true, true_implies, false_implies, and_true]
      omega

/-- A batch of two, with a timeout in front of it. -/
theorem batchPop_inBatch_iff_sample : ∃ f r,
    BatchPop.start (Broker.sampleBroker 0 2 10) 2 = .ok f ∧
      batchPop (Broker.sampleBroker 0 2 10) f [] []
        [.timeout [], .item [[]], .item [[]]] = some r ∧
      r.docs = r.removed ∧ r.docs.length ≤ 2 := by
  refine ⟨_, _, rfl, rfl, ?_⟩
  exact (@batchPop_inBatch_iff (Broker.sampleBroker 0 2 10) 2 _ rfl []
    [.timeout [], .item [[]], .item [[]]] _ rfl).mpr (by decide)

/-- A timeout between the two documents of a batch of two: the loop counts to two again. -/
theorem not_batchPop_inBatch_sample :
    ¬ ∀ (b : Broker) (batchSize : Nat) f q os r, BatchPop.start b batchSize = .ok f →
      batchPop b f q [] os = some r → r.docs = r.removed ∧ r.docs.length ≤ batchSize := by
  intro hall
  have hbatch := hall (Broker.sampleBroker 0 2 10) 2 _ []
    [.item [[]], .timeout [], .item [[]], .item [[]]] _ rfl rfl
  exact absurd hbatch.2 (by decide)

end Zbroker
