import Zbroker.Broker.Basic

/-!
# `broker::batch_pop`

`batch_pop` pops up to `batch_size` documents; a timeout makes it start its counting loop again,
with the documents it has, until `m_read_retry` is exceeded.

* `BatchPop` — where a call stands: the documents so far, the pops left in the present pass of
  the loop, the retries and the timeout.
* `onItem`, `onTimeout` — how a call goes on after a pop that returned and after one that timed
  out: with another pop (`again`) or with its result (`done`; `ret` is `none` for `ULONG_MAX`).
  These are the only two ways, whoever runs the call.
-/

namespace Zbroker

/-- A call of `batch_pop` between two pops. Source: `broker.cc`, `broker::batch_pop` -/
structure BatchPop where
  /-- The argument `batch_size`. -/
  batchSize : Nat
  /-- The caller's vector. -/
  docs : List BSONObj
  /-- The pops left in this pass: the first one and those of the `for` loop. -/
  left : Nat
  /-- `retry`. -/
  retry : Int
  /-- `timeout`, the argument of the next pop. -/
  timeout : Int
  deriving DecidableEq, Repr

/-- How a call of `batch_pop` goes on. -/
inductive BatchStep where
  | again (f : BatchPop)
  | done (docs : List BSONObj) (ret : Option Nat)
  deriving DecidableEq, Repr

namespace BatchPop

/-- The start of a call with an empty vector, and the assertion in front of it. -/
def start (b : Broker) (batchSize : Nat) : Except Exn BatchPop :=
  if batchSize = 0 then .error (.assertion "batch_size > 0")
  else .ok ⟨batchSize, [], batchSize, 0, b.readTimeout⟩

/-- A pop returned `d`: the vector grows, and the loop ends after the last pop of the pass. -/
def onItem (f : BatchPop) (d : BSONObj) : BatchStep :=
  let docs := f.docs ++ [d]
  if f.left ≤ 1 then .done docs (some docs.length)
  else .again { f with docs := docs, left := f.left - 1 }

/-- A pop timed out: another pass, or `ULONG_MAX` when the retries are used up. -/
def onTimeout (b : Broker) (f : BatchPop) : BatchStep :=
  let retry := f.retry + 1
  if b.readRetry ≥ retry then
    .again { f with left := f.batchSize, retry := retry, timeout := wrapInt (b.readTimeout * retry) }
  else .done f.docs none

end BatchPop

/-- The documents a call has when it goes on or ends. -/
def BatchStep.docs : BatchStep → List BSONObj
  | .again f => f.docs
  | .done docs _ => docs

/-- A call starts with an empty vector. -/
theorem docs_start {b : Broker} {batchSize : Nat} {f : BatchPop}
    (h : BatchPop.start b batchSize = .ok f) : f.docs = [] := by
  unfold BatchPop.start at h
  split_ifs at h
  cases h
  rfl

/-- A pop that returned adds its document. -/
@[simp] theorem docs_onItem (f : BatchPop) (d : BSONObj) : (f.onItem d).docs = f.docs ++ [d] := by
  unfold BatchPop.onItem
  dsimp only
  split_ifs <;> rfl

/-- A timeout adds and removes nothing. -/
@[simp] theorem docs_onTimeout (b : Broker) (f : BatchPop) : (f.onTimeout b).docs = f.docs := by
  unfold BatchPop.onTimeout
  dsimp only
  split_ifs <;> rfl

end Zbroker
