import Zbroker.Broker.Query
import Zbroker.Broker.BatchPop
import Zbroker.Processor.Response

/-!
# A read session: the read thread against the io thread

The two threads that share a read broker once it is open, as a partial step function. A step is
one critical section, or one access to a flag outside of them; between two steps of a thread the
other may take any number.

* `Reader` — the read thread: `broker::read`, and in it `broker::query` and
  `sized_queue::push(vector<T>&)`. A query reads the position when it starts and writes it when
  it ends.
* `Io`, `Call` — the io thread, which executes one call at a time: `broker::pop` by itself, the
  `batch_pop` of a READ request of some connection, or `asio_processor::term`.
* `Action`, `step` — whose step is next. `expire` is the deadline of a timed wait, `wake` a
  wake-up without a notification. `insert` adds a document to the collection.
* `Log` — what the theorems about runs speak of and the program does not store: the documents that
  left the queue, the answers to the READ requests and the pages of the queries, each since the
  session was opened or last rewound, and the conditions of all queries.

`m_query_done_mutex` is held for the whole of a query and by nobody else for longer than a wait
on `m_con_query` takes to return; it is not part of the state. A failed assertion, an access
outside a buffer and an uncaught exception end the program: a state with a fault has no steps.
-/

namespace Zbroker.ReadSession

/-- The read thread. Source: `broker.cc`, `broker::read` -/
inductive Reader where
  /-- At `while( !m_do_exit )`. -/
  | loop
  /-- In front of the query. -/
  | starting
  /-- The query has read the position, and is at the database with these conditions. -/
  | querying (conditions : BSONObj)
  /-- The query has filled its cache, and is in front of `m_rewind_mutex`. -/
  | fetched
  /-- The query has returned these documents. -/
  | returned (docs : List BSONObj)
  /-- At `while( docs.size() > 0 && !m_do_exit )`. -/
  | pushing (docs : List BSONObj)
  /-- In front of the critical section of `push`. -/
  | entering (docs : List BSONObj)
  /-- In the wait of `push`. -/
  | pushWait (docs : List BSONObj) (w : Wait)
  | sleeping
  | exited
  deriving DecidableEq, Repr

/-- A call of the io thread that pops. -/
inductive Call where
  /-- `broker::pop(seconds)` by itself. -/
  | pop (seconds : Nat)
  /-- The `batch_pop` of a READ request of a connection. -/
  | read (conn : Nat) (f : BatchPop)
  /-- The `batch_pop` of `term`. -/
  | term (f : BatchPop)
  deriving DecidableEq, Repr

/-- The io thread. -/
inductive Io where
  /-- Between two calls. -/
  | idle
  /-- In front of the critical section of `pop`. -/
  | entering (k : Call)
  /-- In the wait of `pop`. -/
  | popWait (k : Call) (w : Wait)
  /-- In the handler of `batch_pop`, in front of the test of `m_querying`. -/
  | timedOut (k : Call)
  /-- In the handler, in front of the wait on `m_con_query`. -/
  | queryEnter (k : Call)
  /-- In the wait on `m_con_query`. -/
  | queryWait (k : Call) (w : Wait)
  /-- `batch_pop` has returned to `do_read`. -/
  | responding (conn : Nat) (docs : List BSONObj) (ret : Option Nat)
  /-- In `term`, in front of the test of `size()`. -/
  | termSize
  /-- In `term`, in front of the test of `reach_end()`. -/
  | termReach
  /-- In `term`, in `pthread_join`. -/
  | joining
  /-- `term` is through with the read broker. -/
  | closed
  deriving DecidableEq, Repr

/-- What happened since the session was opened or last rewound, and all queries so far. -/
structure Log where
  /-- The documents that left the queue, in order. -/
  popped : List BSONObj
  /-- The answers to the READ requests, each with its connection. -/
  responses : List (Nat × BSONObj)
  /-- The pages the queries returned. -/
  stored : List (List BSONObj)
  /-- No query has started since the last rewind. -/
  rewound : Bool
  /-- The conditions of all queries, with `true` for each that was the first after a rewind. -/
  issued : List (Bool × BSONObj)
  deriving DecidableEq, Repr

/-- A state of the session. -/
structure State where
  coll : List Document
  broker : Broker
  reader : Reader
  io : Io
  fault : Option Exn
  log : Log
  deriving DecidableEq, Repr

/-- Right after `open`: the read thread is at the start of its loop. -/
def State.opened (coll : List Document) (b : Broker) : State :=
  ⟨coll, b, .loop, .idle, none, ⟨[], [], [], false, []⟩⟩

/-- Whose step is next, and what comes from outside. -/
inductive Action where
  | reader
  | readerExpire
  | readerWake
  | io
  | ioExpire
  | ioWake
  | read (conn : Nat)
  | pop (seconds : Nat)
  | rewind
  | term
  | insert (d : Document)
  deriving DecidableEq, Repr

/-! ## Notifications and deadlines -/

/-- `m_cond_can_push.notify_one()`. -/
def Reader.notify : Reader → Reader
  | .pushWait docs w => .pushWait docs w.notify
  | r => r

/-- `m_cond_can_pop.notify_one()`. -/
def Io.notify : Io → Io
  | .popWait k w => .popWait k w.notify
  | p => p

/-- `m_con_query.notify_all()`. -/
def Io.notifyQuery : Io → Io
  | .queryWait k w => .queryWait k w.notify
  | p => p

/-- The `seconds` of the pops of a call. -/
def Call.seconds : Call → Int
  | .pop seconds => seconds
  | .read _ f => f.timeout
  | .term f => f.timeout

/-- A wait that is not over ends without a notification. -/
def Reader.wake : Reader → Option Reader
  | .pushWait docs .waiting => some (.pushWait docs .notified)
  | _ => none

/-- A wait of the io thread that is not over ends without a notification. -/
def Io.wake : Io → Option Io
  | .popWait k .waiting => some (.popWait k .notified)
  | .queryWait k .waiting => some (.queryWait k .notified)
  | _ => none

/-- The deadline of a `push(docs, seconds)`; with `seconds = 0` there is none. -/
def Reader.expire (seconds : Nat) : Reader → Option Reader
  | .pushWait docs w => if 0 < seconds then w.expire.map (.pushWait docs) else none
  | _ => none

/-- The deadline of a `pop(seconds)`; with `seconds = 0` there is none. -/
def Io.expire : Io → Option Io
  | .popWait k w => if k.seconds ≠ 0 then w.expire.map (.popWait k) else none
  | _ => none

/-! ## Where a pop leads -/

/-- How a READ request goes on: with another pop, or with its answer. -/
def Io.ofRead (conn : Nat) : BatchStep → Io
  | .again f => .entering (.read conn f)
  | .done docs ret => .responding conn docs ret

/-- How `term` goes on. -/
def Io.ofTerm : BatchStep → Io
  | .again f => .entering (.term f)
  | .done _ _ => .joining

/-- A pop of the call has returned `d`. -/
def Call.onItem (d : BSONObj) : Call → Io
  | .pop _ => .idle
  | .read conn f => .ofRead conn (f.onItem d)
  | .term f => .ofTerm (f.onItem d)

/-- A pop of the call has thrown: the caller of a single `pop` has the exception, `batch_pop`
handles it. -/
def Call.onThrow : Call → Io
  | .pop _ => .idle
  | .read conn f => .timedOut (.read conn f)
  | .term f => .timedOut (.term f)

/-- The end of the handler of `batch_pop`. -/
def Call.onTimeout (b : Broker) : Call → Io
  | .pop _ => .idle
  | .read conn f => .ofRead conn (f.onTimeout b)
  | .term f => .ofTerm (f.onTimeout b)

/-! ## The read thread -/

namespace State

variable (M : Mongo)

/-- The first part of the query: the position is read, `m_querying` set. -/
def startQuery (s : State) : State :=
  { s with
    broker := s.broker.queryStart
    reader := .querying s.broker.prepareCondition
    log := { s.log with
      rewound := false, issued := s.log.issued ++ [(s.log.rewound, s.broker.prepareCondition)] } }

/-- The second part: the database round trip. -/
def fetchQuery (conditions : BSONObj) (s : State) : State :=
  { s with broker := s.broker.queryFetch M s.coll .asc conditions, reader := .fetched }

/-- The last part: the position is written, `m_querying` cleared, and waiters notified. -/
def storeQuery (s : State) : State :=
  match s.broker.queryStore with
  | (b, some e) => { s with broker := b, fault := some e }
  | (b, none) =>
      { s with
        broker := b, reader := .returned b.jsonDocCache, io := s.io.notifyQuery
        log := { s.log with stored := s.log.stored ++ [b.jsonDocCache] } }

/-- After the query: `m_reach_end`, and on to the sleep or to the push loop. -/
def branch (docs : List BSONObj) (s : State) : State :=
  if docs.isEmpty then { s with broker := { s.broker with reachEnd := true }, reader := .sleeping }
  else { s with broker := { s.broker with reachEnd := false }, reader := .pushing docs }

/-- `push` from where it does not wait: the loop, and the notification of the consumer. -/
def push (docs : List BSONObj) (s : State) : State :=
  let r := s.broker.queue.fill docs
  { s with broker := { s.broker with queue := r.1 }, reader := .pushing r.2, io := s.io.notify }

/-- A step of the read thread. -/
def readerStep (s : State) : Option State :=
  match s.reader with
  | .loop => some { s with reader := if s.broker.doExit then .exited else .starting }
  | .starting => some s.startQuery
  | .querying conditions => some (s.fetchQuery M conditions)
  | .fetched => some s.storeQuery
  | .returned docs => some (s.branch docs)
  | .pushing docs =>
      some { s with
        reader := if docs.isEmpty || s.broker.doExit then .loop else .entering docs }
  | .entering docs =>
      if s.broker.queue.isFull then
        some { s with reader := .pushWait docs .waiting, io := s.io.notify }
      else some (s.push docs)
  | .pushWait _ .waiting => none
  | .pushWait docs .notified => some (s.push docs)
  | .pushWait docs .expired =>
      some { s with reader := if s.broker.doExit then .loop else .pushing docs }
  | .sleeping => some { s with reader := .loop }
  | .exited => none

/-! ## The io thread -/

/-- `pop` has taken `d`; `rest` is what remains in the queue. -/
def popped (k : Call) (d : BSONObj) (rest : List BSONObj) (s : State) : State :=
  { s with
    broker := { s.broker with queue := { s.broker.queue with queue := rest } }
    reader := s.reader.notify, io := k.onItem d
    log := { s.log with popped := s.log.popped ++ [d] } }

/-- The critical section of `pop`, on entering it. -/
def enterPop (k : Call) (s : State) : State :=
  match s.broker.checkStatus with
  | some _ => { s with io := k.onThrow }
  | none =>
      match s.broker.queue.queue with
      | [] => { s with reader := s.reader.notify, io := .popWait k .waiting }
      | d :: rest => s.popped k d rest

/-- The critical section of `pop` after a wait that did not time out. It does not look at the
size of the queue again. -/
def resumePop (k : Call) (s : State) : State :=
  match s.broker.queue.queue with
  | [] => { s with fault := some (.outOfBounds "m_queue.front()") }
  | d :: rest => s.popped k d rest

/-- The end of `do_read`. -/
def respond (conn : Nat) (docs : List BSONObj) (ret : Option Nat) (s : State) : State :=
  match readResponse M docs ret with
  | .error e => { s with io := .idle, fault := some e }
  | .ok body =>
      { s with
        io := .idle
        log := { s.log with responses := s.log.responses ++ [(conn, body)] } }

/-- `batch_pop(tmp,1)` in `term`. -/
def termPop (s : State) : State :=
  match BatchPop.start s.broker 1 with
  | .error e => { s with fault := some e }
  | .ok f => { s with io := .entering (.term f) }

/-- A step of the io thread in a call. -/
def ioStep (s : State) : Option State :=
  match s.io with
  | .idle => none
  | .entering k => some (s.enterPop k)
  | .popWait _ .waiting => none
  | .popWait k .notified => some (s.resumePop k)
  | .popWait k .expired => some { s with io := k.onThrow }
  | .timedOut k =>
      some { s with
        io := if s.broker.querying then .queryEnter k else k.onTimeout s.broker }
  | .queryEnter k => some { s with io := .queryWait k .waiting }
  | .queryWait k .notified => some { s with io := k.onTimeout s.broker }
  | .queryWait _ _ => none
  | .responding conn docs ret => some (s.respond M conn docs ret)
  | .termSize =>
      some (if s.broker.queue.queue.isEmpty then { s with io := .termReach } else s.termPop)
  | .termReach => some (if s.broker.reachEnd then { s with io := .joining } else s.termPop)
  | .joining =>
      match s.reader with
      | .exited => some { s with broker := s.broker.close, io := .closed }
      | _ => none
  | .closed => none

/-! ## Requests -/

/-- A READ request of a connection, which begins with `do_read`'s call of `batch_pop`. -/
def startRead (conn : Nat) (s : State) : State :=
  if s.broker.connected then
    match BatchPop.start s.broker (toSizeT s.broker.limit) with
    | .error e => { s with fault := some e }
    | .ok f => { s with io := .entering (.read conn f) }
  else { s with fault := some (.assertion "m_read_broker.connected()") }

/-- A REWIND request. Source: `asio_processor.cc`, `asio_processor::do_rewind` -/
def rewind (s : State) : State :=
  if s.broker.connected then
    { s with broker := s.broker.rewind, log := ⟨[], [], [], true, s.log.issued⟩ }
  else s

/-- The beginning of `term`. -/
def startTerm (s : State) : State :=
  if s.broker.connected then
    { s with broker := { s.broker with doExit := true }, io := .termSize }
  else { s with io := .closed }

end State

/-- A step of the session; `seconds` is the argument of `broker::read`, the deadline of its
pushes. The io thread takes a request when it is idle. -/
def step (M : Mongo) (seconds : Nat) (s : State) (a : Action) : Option State :=
  if s.fault.isSome then none
  else
    match a with
    | .reader => s.readerStep M
    | .readerExpire => (s.reader.expire seconds).map fun r => { s with reader := r }
    | .readerWake => s.reader.wake.map fun r => { s with reader := r }
    | .io => s.ioStep M
    | .ioExpire => s.io.expire.map fun p => { s with io := p }
    | .ioWake => s.io.wake.map fun p => { s with io := p }
    | .read conn => if s.io = .idle then some (s.startRead conn) else none
    | .pop seconds => if s.io = .idle then some { s with io := .entering (.pop seconds) } else none
    | .rewind => if s.io = .idle then some s.rewind else none
    | .term => if s.io = .idle then some s.startTerm else none
    | .insert d =>
        if d.oid ∈ s.coll.map Document.oid then none else some { s with coll := s.coll ++ [d] }

/-- The read thread's first round, from the start of its loop: a query, and one push of its
page. -/
def fillQueue : List Action := List.replicate 7 .reader

end Zbroker.ReadSession
