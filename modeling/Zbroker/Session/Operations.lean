import Zbroker.Broker.Query
import Zbroker.Broker.BatchPop
import Zbroker.Found.Shared
import Zbroker.Session.Write

/-!
# The operations of a broker, by any number of threads

The members of `broker` as programs over its fields. A step of a thread is one critical section, or
one access to a flag outside of them, as in the sessions; here any thread may be in any operation.

* `Op`, `Op.start` — the operations, and where each begins.
* `Position` — where a thread is. `query`, and `push` and `pop` of the queue, are called from
  several operations: `QueryCall`, `PushCall` and `PopCall` say by whom.
* `Outside` — what the database and the clock do in a step.
* `Event` — what is seen of a step: a query or an update that is sent, and the result of an
  operation.
* `advance`, `step` — a step of one thread, and of the system.
* `query_run` — a query that nobody interrupts is `Broker.query`.

`advance` knows no mutex but the monitor of the queue, a wait ends at any time, as one that is woken
without a notification does, and what ends the program stops one thread: a schedule here may be one
that `m_query_done_mutex`, `m_update_done_mutex` and the conditions do not let happen, but every
schedule that they let happen is one.
-/

namespace Zbroker.Operations

open Found.Transition Found.Shared

/-- The operations. Source: `broker.hpp` -/
inductive Op where
  | openOp (options : Option BSONObj)
  | close
  | query (sort : MongoSort)
  | read (seconds : Nat)
  | update
  | push (docs : List BSONObj)
  | pop (seconds : Nat)
  | batchPop (batchSize : Nat)
  | rewind
  | setExit
  | size
  deriving DecidableEq

/-- What an operation returns. -/
inductive Result where
  | done
  | docs (docs : List BSONObj)
  | doc (d : BSONObj)
  /-- What `push` returns, and the rest of the caller's vector. -/
  | pushed (rest : List BSONObj) (size : Nat)
  /-- The caller's vector and what `batch_pop` returns; `none` for `ULONG_MAX`. -/
  | batch (docs : List BSONObj) (ret : Option Nat)
  | size (n : Nat)
  deriving DecidableEq

/-- Who called `query`. -/
inductive QueryCall where
  | query
  | read (seconds : Nat)
  deriving DecidableEq

/-- Who called `m_queue.push`. -/
inductive PushCall where
  | push
  | read (seconds : Nat)
  deriving DecidableEq

/-- Who called `m_queue.pop`. -/
inductive PopCall where
  | pop (seconds : Nat)
  | batch (f : BatchPop)
  | update
  deriving DecidableEq

/-- Where a thread is. -/
inductive Position where
  | idle
  /-- In front of an operation of one step. -/
  | calling (op : Op)
  /-- In `size`, behind `check_status`. -/
  | sizing
  /-- In `query`, in front of `m_querying = true`. -/
  | starting (k : QueryCall) (sort : MongoSort)
  /-- In `query`, in front of `prepare_condition`. -/
  | preparing (k : QueryCall) (sort : MongoSort)
  /-- In `query`, in front of the database. -/
  | querying (k : QueryCall) (sort : MongoSort) (conditions : BSONObj)
  /-- In `query`, behind the database: the cache is filled. -/
  | fetched (k : QueryCall)
  /-- `query` has returned a reference to the cache. -/
  | returned (k : QueryCall)
  /-- In `read`, at `while( !m_do_exit )`. -/
  | loop (seconds : Nat)
  /-- In `read`, with the documents of a query. -/
  | branching (seconds : Nat) (docs : List BSONObj)
  /-- In `read`, at `while( docs.size() > 0 && !m_do_exit )`. -/
  | pushing (seconds : Nat) (docs : List BSONObj)
  /-- In the handler of `read`. -/
  | pushTimedOut (seconds : Nat) (docs : List BSONObj)
  | sleeping (seconds : Nat)
  /-- In front of the critical section of `m_queue.push`. -/
  | pushEnter (k : PushCall) (docs : List BSONObj)
  | pushWait (k : PushCall) (docs : List BSONObj)
  /-- In `pop`, in front of `check_status`. -/
  | popCheck (k : PopCall)
  /-- In front of the critical section of `m_queue.pop`. -/
  | popEnter (k : PopCall)
  | popWait (k : PopCall)
  /-- In the handler of `batch_pop`. -/
  | batchTimedOut (f : BatchPop)
  /-- In the handler of `batch_pop`, in the wait on `m_con_query`. -/
  | queryWait (f : BatchPop)
  /-- In the handler of `update`. -/
  | updateTimedOut
  /-- In `update`, in front of `m_connection.update`. -/
  | updating (obj : BSONObj)
  /-- Where the program ended. -/
  | aborted
  deriving DecidableEq

/-- What the outside contributes to a step. -/
structure Outside where
  /-- The documents a server has in a collection. -/
  coll : String → String → List Document
  /-- The outcome of connecting. -/
  connect : String → Option String
  /-- A wait with a deadline ends with it. -/
  expired : Bool
  /-- The driver throws. -/
  throws : Bool

/-- What is seen of a step. -/
inductive Event where
  | queried (server docset : String) (conditions : BSONObj) (sort : MongoSort) (limit skip : Int)
      (fields : Option BSONObj)
  | updated (server : String) (op : UpdateOp)
  | returned (result : Except Exn Result)
  | aborted (e : Exn)

/-- Where an operation begins. -/
def Op.start : Op → Position
  | .query sort => .starting .query sort
  | .read seconds => .loop seconds
  | .update => .popEnter .update
  | .pop seconds => .popCheck (.pop seconds)
  | op => .calling op

/-- Where a thread goes, the broker it leaves, and what is seen. -/
abbrev Next := Position × Broker × List Event

/-- The operation ends with a result. -/
def finish (b : Broker) (result : Except Exn Result) : Next := (.idle, b, [.returned result])

/-- The operation goes on. -/
def goOn (b : Broker) (p : Position) : Next := (p, b, [])

/-- The program ends. -/
def abort (b : Broker) (e : Exn) : Next := (.aborted, b, [.aborted e])

/-! ## The operations of one step -/

/-- The end of `open`. -/
def opened : Broker × Option Exn → Next
  | (b, none) => finish b (.ok .done)
  | (b, some (.broker msg)) => finish b (.error (.broker msg))
  | (b, some e) => abort b e

/-- The first step of an operation that has no position of its own. -/
def call (out : Outside) (b : Broker) : Op → Next
  | .openOp options => opened (b.openOn out.connect options)
  | .close => finish b.close (.ok .done)
  | .push docs =>
      match b.checkStatus with
      | some e => finish b (.error e)
      | none => goOn b (.pushEnter .push docs)
  | .batchPop batchSize =>
      match BatchPop.start b batchSize with
      | .error e => abort b e
      | .ok f => goOn b (.popCheck (.batch f))
  | .rewind => finish b.rewind (.ok .done)
  | .setExit => finish { b with doExit := true } (.ok .done)
  | .size =>
      match b.checkStatus with
      | some e => finish b (.error e)
      | none => goOn b .sizing
  | op => goOn b op.start

/-! ## `query` -/

/-- The database round trip. -/
def fetch (M : Mongo) (out : Outside) (k : QueryCall) (sort : MongoSort) (conditions : BSONObj)
    (b : Broker) : Next :=
  if out.throws then finish b (.error .driver)
  else
    (.fetched k, b.queryFetch M (out.coll b.connectionString b.docset) sort conditions,
      [.queried b.connectionString b.docset conditions sort b.limit b.skip b.queryFields])

/-- The end of `query`. -/
def store (k : QueryCall) : Broker × Option Exn → Next
  | (b, none) => goOn b (.returned k)
  | (b, some e) => abort b e

/-- What is done with the documents of a query. -/
def QueryCall.onDocs (k : QueryCall) (docs : List BSONObj) (b : Broker) : Next :=
  match k with
  | .query => finish b (.ok (.docs docs))
  | .read seconds => goOn b (.branching seconds docs)

/-! ## `sized_queue::push` and `sized_queue::pop` -/

/-- The deadline of a push. -/
def PushCall.seconds : PushCall → Nat
  | .push => 0
  | .read seconds => seconds

/-- The loop of `push(vector<T>&)`, and its return. -/
def PushCall.onRoom (k : PushCall) (docs : List BSONObj) (b : Broker) : Next :=
  let r := b.queue.fill docs
  match k with
  | .push => finish { b with queue := r.1 } (.ok (.pushed r.2 r.1.queue.length))
  | .read seconds => goOn { b with queue := r.1 } (.pushing seconds r.2)

/-- A push timed out. -/
def PushCall.onTimeout (k : PushCall) (docs : List BSONObj) (b : Broker) : Next :=
  match k with
  | .push => finish b (.error (.broker "no consumer"))
  | .read seconds => goOn b (.pushTimedOut seconds docs)

/-- The deadline of a pop. -/
def PopCall.seconds : PopCall → Int
  | .pop seconds => seconds
  | .batch f => f.timeout
  | .update => 3

/-- How a call of `batch_pop` goes on. -/
def batchOn (b : Broker) : BatchStep → Next
  | .again f => goOn b (.popCheck (.batch f))
  | .done docs ret => finish b (.ok (.batch docs ret))

/-- A pop returned a document. -/
def PopCall.onItem (k : PopCall) (d : BSONObj) (b : Broker) : Next :=
  match k with
  | .pop _ => finish b (.ok (.doc d))
  | .batch f => batchOn b (f.onItem d)
  | .update => goOn b (.updating d)

/-- A pop ended with a `broker_exception`. -/
def PopCall.onThrow (k : PopCall) (e : Exn) (b : Broker) : Next :=
  match k with
  | .pop _ => finish b (.error e)
  | .batch f => goOn b (.batchTimedOut f)
  | .update => goOn b .updateTimedOut

/-- A pop takes the front, or whatever is there. -/
def PopCall.take (k : PopCall) (b : Broker) : Next :=
  match b.queue.queue with
  | [] => abort b (.outOfBounds "m_queue.front()")
  | d :: rest => k.onItem d { b with queue := { b.queue with queue := rest } }

/-! ## A step -/

/-- A step of a thread. Source: `broker.cc` -/
def advance (M : Mongo) (out : Outside) (p : Position) (b : Broker) : Option Next :=
  match p with
  | .idle | .aborted => none
  | .calling op => some (call out b op)
  | .sizing => some (finish b (.ok (.size b.queue.queue.length)))
  | .starting k sort => some (goOn b.queryStart (.preparing k sort))
  | .preparing k sort => some (goOn b (.querying k sort b.prepareCondition))
  | .querying k sort conditions => some (fetch M out k sort conditions b)
  | .fetched k => some (store k b.queryStore)
  | .returned k => some (k.onDocs b.jsonDocCache b)
  | .loop seconds =>
      some (if b.doExit then finish b (.ok .done) else goOn b (.starting (.read seconds) .asc))
  | .branching seconds docs =>
      some (if docs.isEmpty then goOn { b with reachEnd := true } (.sleeping seconds)
        else goOn { b with reachEnd := false } (.pushing seconds docs))
  | .sleeping seconds => some (goOn b (.loop seconds))
  | .pushing seconds docs =>
      some (goOn b (if docs.isEmpty || b.doExit then .loop seconds
        else .pushEnter (.read seconds) docs))
  | .pushEnter k docs =>
      some (if b.queue.isFull then goOn b (.pushWait k docs) else k.onRoom docs b)
  | .pushWait k docs =>
      if !out.expired then some (k.onRoom docs b)
      else if k.seconds ≠ 0 then some (k.onTimeout docs b)
      else none
  | .pushTimedOut seconds docs =>
      some (goOn b (if b.doExit then .loop seconds else .pushing seconds docs))
  | .popCheck k =>
      some (match b.checkStatus with
        | some e => k.onThrow e b
        | none => goOn b (.popEnter k))
  | .popEnter k =>
      some (if b.queue.queue.isEmpty then goOn b (.popWait k) else k.take b)
  | .popWait k =>
      if !out.expired then some (k.take b)
      else if k.seconds ≠ 0 then some (k.onThrow (.broker "no more items") b)
      else none
  | .batchTimedOut f => some (if b.querying then goOn b (.queryWait f) else batchOn b (f.onTimeout b))
  | .queryWait f => some (batchOn b (f.onTimeout b))
  | .updateTimedOut =>
      some (if b.doExit then finish b (.ok .done) else goOn b (.popEnter .update))
  | .updating obj =>
      some (if out.throws then finish b (.error .driver)
        else (.popEnter .update, { b with updateCount := b.updateCount + 1 },
          [.updated b.connectionString (updateOp b.docset obj)]))

/-- The system: a broker and its threads. -/
abbrev System := State Nat Broker Position Event

/-- A step of the system. -/
def step (M : Mongo) : System → Action Nat Op Outside → Option System :=
  Found.Shared.step (advance M) Op.start .idle

/-- A broker that no thread uses yet. -/
def unused (b : Broker) : System := ⟨b, fun _ => .idle, []⟩

/-- **A query that nobody interrupts** is `Broker.query`: it sends the conditions, leaves the broker
and returns what is in the cache. -/
theorem query_run {M : Mongo} {s : System} {i : Nat} {out : Outside} {sort : MongoSort} {r : Broker}
    (hi : s.threads i = .idle) (hout : out.throws = false)
    (hquery : s.store.query M (out.coll s.store.connectionString s.store.docset) sort = (r, none)) :
    ∃ t, run (step M) s (.call i (.query sort) :: List.replicate 5 (.go i out)) = some t ∧
      t.store = r ∧ t.threads = s.threads ∧
      t.seen = s.seen ++
        [(i, .queried s.store.connectionString s.store.docset s.store.prepareCondition sort
            s.store.limit s.store.skip s.store.queryFields),
          (i, .returned (.ok (.docs r.jsonDocCache)))] := by
  have hcall : step M s (.call i (.query sort)) =
      some { s with threads := Function.update s.threads i (.starting .query sort) } :=
    if_pos hi
  have hstart : advance M out (.starting .query sort) s.store =
      some (.preparing .query sort, s.store.queryStart, []) := rfl
  have hprepare : advance M out (.preparing .query sort) s.store.queryStart =
      some (.querying .query sort s.store.prepareCondition, s.store.queryStart, []) := rfl
  have hfetch : advance M out (.querying .query sort s.store.prepareCondition) s.store.queryStart =
      some (.fetched .query, s.store.queryStart.queryFetch M
          (out.coll s.store.connectionString s.store.docset) sort s.store.prepareCondition,
        [.queried s.store.connectionString s.store.docset s.store.prepareCondition sort
          s.store.limit s.store.skip s.store.queryFields]) := by
    rw [advance, fetch, hout]
    rfl
  have hstore : advance M out (.fetched .query) (s.store.queryStart.queryFetch M
      (out.coll s.store.connectionString s.store.docset) sort s.store.prepareCondition) =
      some (.returned .query, r, []) :=
    congrArg (fun q => some (store .query q)) hquery
  have hreturn : alone (advance M) out 1 (.returned .query) r =
      some (.idle, r, [.returned (.ok (.docs r.jsonDocCache))]) := rfl
  have halone := alone_succ hstart (alone_succ hprepare (alone_succ hfetch
    (alone_succ hstore hreturn)))
  have hself : Function.update s.threads i (.starting .query sort) i = .starting .query sort :=
    Function.update_self ..
  have hrun := @run_replicate_go _ _ _ _ _ _ (advance M) _ _ Op.start .idle out 5
    { s with threads := Function.update s.threads i (.starting .query sort) } i _ _ _
    (by dsimp only; rw [hself]; exact halone)
  refine ⟨_, (congrArg (Option.bind · _) hcall).trans hrun, rfl, ?_, rfl⟩
  dsimp only
  rw [Function.update_idem, ← hi, Function.update_eq_self]

end Zbroker.Operations
