import Zbroker.Broker.BatchPop

/-!
# What the options of a broker lead to

The options are `int`s with `INT_MIN` for an absent one. `init` puts defaults in their place,
`set_size`, `batch_pop` and `pop` take them as `size_t`, and `batch_pop` multiplies the timeout.

* `Workable options b` — the broker that `init` leaves: no product overflows, every conversion to
  `size_t` keeps the value, and there is room for a document and a batch of at least one.
  `Workable.start`, `Workable.push` and `Workable.onTimeout` are what `batch_pop` and `push` make
  of it.
* `InRange options` — the limit is absent or at least 1, the queue size too, the limit is not too
  large for the default of the queue size, and the timeout not for its product.
* **`workable_iff`**: the options that `init` accepts give a workable broker exactly when they are in
  range.
`numbers_of_init` says what `init` computes from the options; each of these numbers is then compared with
the range that keeps it (`settleLimit_spec`, `settleTimeout_spec`, `toSizeT_pos_iff`).
-/

namespace Zbroker

/-- The values of `int`. -/
def IsInt (n : Int) : Prop := intMin ≤ n ∧ n ≤ intMax

instance (n : Int) : Decidable (IsInt n) := inferInstanceAs (Decidable (_ ∧ _))

/-- An `int` expression in range has its mathematical value. -/
theorem wrapInt_of_isInt {n : Int} (h : IsInt n) : wrapInt n = n := by
  unfold IsInt intMin intMax at h
  unfold wrapInt
  rw [Int.emod_eq_of_lt (by omega) (by omega)]
  omega

/-- An `int` keeps its value as a `size_t` exactly if it is not negative. -/
theorem toSizeT_eq_iff {n : Int} (h : IsInt n) : (toSizeT n : Int) = n ↔ 0 ≤ n := by
  constructor
  · intro heq
    rw [← heq]
    exact Int.natCast_nonneg _
  · intro hn
    rw [toSizeT_of_nonneg hn h.2]
    exact Int.toNat_of_nonneg hn

namespace Broker

/-- `parameters`, the part of the options with the numbers. -/
def parameters (options : BSONObj) : BSONObj := BSON.getObjectField options "parameters"

/-- The integers of an object are 32 bits wide. -/
def Ints (o : BSONObj) : Prop := ∀ e ∈ o, ∀ n, e.2 = .int n → IsInt n

/-- What the numbers of a broker must be good for; `retry` is at most one more than `m_read_retry`
in `batch_pop`. -/
structure Workable (options : BSONObj) (b : Broker) : Prop where
  /-- The default of the queue size does not overflow. -/
  defaulted : BSON.getIntField (parameters options) "queue_size" = intMin → IsInt (b.limit * 5)
  /-- The timeout does not overflow. -/
  multiplied : ∀ retry, 1 ≤ retry → retry ≤ b.readRetry + 1 → IsInt (b.readTimeout * retry)
  queueSize : (toSizeT b.queueSize : Int) = b.queueSize
  limit : (toSizeT b.limit : Int) = b.limit
  timeout : ∀ retry, 1 ≤ retry → retry ≤ b.readRetry + 1 →
    (toSizeT (wrapInt (b.readTimeout * retry)) : Int) = b.readTimeout * retry
  /-- The capacity of the queue. -/
  room : 1 ≤ b.queue.limitSize
  /-- The batch size of `do_read`. -/
  batch : 1 ≤ toSizeT b.limit

/-- The options are in range. -/
structure InRange (options : BSONObj) : Prop where
  limit : BSON.getIntField (parameters options) "limit" = intMin ∨
    1 ≤ BSON.getIntField (parameters options) "limit"
  defaulted : BSON.getIntField (parameters options) "queue_size" = intMin →
    BSON.getIntField (parameters options) "limit" ≤ 429496729
  queueSize : BSON.getIntField (parameters options) "queue_size" = intMin ∨
    1 ≤ BSON.getIntField (parameters options) "queue_size"
  readTimeout : BSON.getIntField (parameters options) "read_timeout" ≤ 1073741823

section workable

variable {options o : BSONObj} {b : Broker}

/-- `getIntField` returns an `int`. -/
theorem Ints.getIntField (h : Ints o) (name : String) : IsInt (BSON.getIntField o name) := by
  unfold BSON.getIntField
  split
  · rename_i n hfield
    obtain ⟨e, he, hn⟩ := Option.map_eq_some_iff.mp hfield
    exact h e (List.mem_of_find?_eq_some he) n hn
  · exact ⟨le_refl intMin, by decide⟩

/-! ## What they are good for -/

/-- The assertion of `batch_pop` holds for the batch of a READ. -/
theorem Workable.start (h : Workable options b) :
    ∃ f, BatchPop.start b (toSizeT b.limit) = .ok f := by
  rw [BatchPop.start, if_neg (Nat.one_le_iff_ne_zero.mp h.batch)]
  exact ⟨_, rfl⟩

/-- A push to the empty queue adds its document. -/
theorem Workable.push (h : Workable options b) (hqueue : b.queue.queue = []) (d : BSONObj) :
    (b.queue.fill [d]).1.queue = [d] := by
  have hroom : 0 < b.queue.limitSize := h.room
  simp [SizedQueue.fill, SizedQueue.fillBack, hqueue, hroom]

/-- The timeout of the next pass is the product. -/
theorem Workable.onTimeout (h : Workable options b) {f f' : BatchPop} (hretry : 0 ≤ f.retry)
    (hstep : f.onTimeout b = .again f') : f'.timeout = b.readTimeout * f'.retry := by
  unfold BatchPop.onTimeout at hstep
  dsimp only at hstep
  split_ifs at hstep with hle
  cases hstep
  exact wrapInt_of_isInt (h.multiplied (f.retry + 1) (by omega) (by omega))

/-! ## When they are -/

/-- The numbers of a broker that `init` has accepted the options for. -/
theorem numbers_of_init (h : new.init (some options) = (b, none)) :
    b.limit = settleLimit (BSON.getIntField (parameters options) "limit") ∧
      b.queueSize = settleQueueSize b.limit (BSON.getIntField (parameters options) "queue_size") ∧
      b.readTimeout = settleTimeout (BSON.getIntField (parameters options) "read_timeout") ∧
      b.readRetry = 1 ∧ b.queue.limitSize = toSizeT b.queueSize := by
  obtain ⟨-, rfl⟩ := init_new_eq_ok h
  exact ⟨rfl, rfl, rfl, rfl, rfl⟩

/-- An `int` is a `size_t` of at least 1 exactly if it is positive. -/
theorem toSizeT_pos_iff {n : Int} (h : IsInt n) :
    (toSizeT n : Int) = n ∧ 1 ≤ toSizeT n ↔ 1 ≤ n := by
  rw [toSizeT_eq_iff h]
  constructor
  · intro ⟨hn, hone⟩
    rw [toSizeT_of_nonneg hn h.2] at hone
    omega
  · intro hn
    refine ⟨by omega, ?_⟩
    rw [toSizeT_of_nonneg (by omega) h.2]
    omega

/-- The limit of `init` is positive exactly if the option is, or is absent. -/
theorem settleLimit_spec {n : Int} (h : IsInt n) : IsInt (settleLimit n) ∧
    (1 ≤ settleLimit n ↔ n = intMin ∨ 1 ≤ n) ∧
    (1 ≤ settleLimit n → (IsInt (settleLimit n * 5) ↔ n ≤ 429496729)) := by
  unfold IsInt intMin intMax at *
  unfold settleLimit intMin
  split_ifs <;> omega

/-- The timeout of `init` is not negative, and twice of it an `int` if the option is in range. -/
theorem settleTimeout_spec {n : Int} (h : IsInt n) : 0 ≤ settleTimeout n ∧
    IsInt (settleTimeout n) ∧ (IsInt (settleTimeout n * 2) ↔ n ≤ 1073741823) := by
  unfold IsInt intMin intMax at *
  unfold settleTimeout intMin
  split_ifs <;> omega

/-- **When the options give a workable broker.** For all options that `init` accepts on a new broker:
no product overflows, every conversion keeps its value, and there is room for a document and a batch
of at least one, exactly when the options are in range. -/
theorem workable_iff (hints : Ints (parameters options))
    (hinit : new.init (some options) = (b, none)) : Workable options b ↔ InRange options := by
  obtain ⟨hlimit, hqueueSize, htimeout, hretry, hroom⟩ := numbers_of_init hinit
  have hqueueInt := hints.getIntField "queue_size"
  obtain ⟨hlimitInt, hlimitPos, hlimitFits⟩ := settleLimit_spec (hints.getIntField "limit")
  obtain ⟨htimeoutPos, htimeoutInt, htimeoutFits⟩ :=
    settleTimeout_spec (hints.getIntField "read_timeout")
  rw [← hlimit] at hlimitInt hlimitPos hlimitFits
  rw [← htimeout] at htimeoutPos htimeoutInt htimeoutFits
  constructor
  · intro h
    have hone : 1 ≤ b.limit := (toSizeT_pos_iff hlimitInt).mp ⟨h.limit, h.batch⟩
    refine ⟨hlimitPos.mp hone, fun hq => (hlimitFits hone).mp (h.defaulted hq), ?_,
      htimeoutFits.mp (h.multiplied 2 (by decide) (by rw [hretry]; decide))⟩
    by_cases hq : BSON.getIntField (parameters options) "queue_size" = intMin
    · exact Or.inl hq
    · rw [settleQueueSize, if_neg hq] at hqueueSize
      refine Or.inr ((toSizeT_pos_iff hqueueInt).mp ⟨?_, ?_⟩)
      · rw [← hqueueSize]
        exact h.queueSize
      · rw [← hqueueSize, ← hroom]
        exact h.room
  · intro h
    have hone : 1 ≤ b.limit := hlimitPos.mpr h.limit
    have hdefaulted (hq : BSON.getIntField (parameters options) "queue_size" = intMin) :
        IsInt (b.limit * 5) := (hlimitFits hone).mpr (h.defaulted hq)
    have hsize : IsInt b.queueSize ∧ 1 ≤ b.queueSize := by
      rw [settleQueueSize] at hqueueSize
      split_ifs at hqueueSize with hq
      · rw [hqueueSize, wrapInt_of_isInt (hdefaulted hq)]
        exact ⟨hdefaulted hq, by omega⟩
      · rw [hqueueSize]
        exact ⟨hqueueInt, h.queueSize.resolve_left hq⟩
    have hproduct (retry : Int) (hge : 1 ≤ retry) (hle : retry ≤ b.readRetry + 1) :
        IsInt (b.readTimeout * retry) := by
      rw [hretry] at hle
      obtain rfl | rfl : retry = 1 ∨ retry = 2 := by omega
      · rw [Int.mul_one]
        exact htimeoutInt
      · exact htimeoutFits.mpr h.readTimeout
    obtain ⟨hlimitSize, hbatch⟩ := (toSizeT_pos_iff hlimitInt).mpr hone
    obtain ⟨hqueueConv, hqueueRoom⟩ := (toSizeT_pos_iff hsize.1).mpr hsize.2
    refine ⟨hdefaulted, hproduct, hqueueConv, hlimitSize, ?_, by rw [hroom]; exact hqueueRoom, hbatch⟩
    intro retry hge hle
    rw [wrapInt_of_isInt (hproduct retry hge hle), toSizeT_eq_iff (hproduct retry hge hle)]
    exact Int.mul_nonneg htimeoutPos (by omega)

/-- A batch of two and a queue for ten. -/
theorem workable_sample :
    Workable (sampleOptions 0 2 10) (new.init (some (sampleOptions 0 2 10))).1 := by
  refine (workable_iff ?_ (by decide)).mpr ⟨by decide, by decide, by decide, by decide⟩
  have hfields : parameters (sampleOptions 0 2 10) =
      [("skip", .int 0), ("limit", .int 2), ("queue_size", .int 10)] := rfl
  intro e he n hn
  rw [hfields] at he
  simp only [List.mem_cons, List.not_mem_nil, or_false] at he
  obtain rfl | rfl | rfl := he
  · cases hn
    decide
  · cases hn
    decide
  · cases hn
    decide

/-- A limit of 0, which stands for no limit, is a batch of no documents, and the default of the
queue size is a queue without room. -/
theorem not_workable_noLimit :
    ¬ ∀ (options : BSONObj) b, Ints (parameters options) → new.init (some options) = (b, none) →
      Workable options b := by
  intro hall
  have hworkable := hall
    [("host", .str "localhost"), ("port", .int 27017), ("database", .str "zbroker"),
      ("collection", .str "broker"), ("parameters", .obj [("limit", .int 0)])]
    _ (by
      intro e he n hn
      rw [List.mem_singleton.mp he] at hn
      cases hn
      decide) rfl
  exact absurd hworkable.batch (by decide)

end workable

end Broker

end Zbroker
