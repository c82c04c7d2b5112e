import Zbroker.Base.Plain
import Zbroker.Broker.Basic

/-!
# A write session: the update thread against the io thread

The two threads that share a write broker once it is open, as a partial step function like that
of a read session. `do_write` pushes the documents of a request and answers OK; the update
thread pops them one by one and passes each to `m_connection.update`.

* `Updater` — the update thread, `broker::update`.
* `Io` — the io thread: `do_write`, and the write part of `term`.
* `Action`, `step` — whose step is next. `updExpire` is the deadline of `pop(3)`; a push of
  `do_write` has no deadline. `updThrow` is an exception of the driver in an update.
* `Log` — the requests and the updates passed on so far, which the program does not store.

The update thread holds `m_update_done_mutex` from its first step to its last.
-/

namespace Zbroker

/-- The arguments of a call of `m_connection.update`. -/
structure UpdateOp where
  docset : String
  query : BSONObj
  doc : BSONObj
  upsert : Bool
  multi : Bool
  deriving DecidableEq, Repr

/-- The call that `broker::update` makes for a queued document. -/
def updateOp (docset : String) (obj : BSONObj) : UpdateOp where
  docset := docset
  query := BSON.getObjectField obj "query"
  doc := BSON.getObjectField obj "doc"
  upsert := BSON.getBoolField obj "upsert"
  multi := BSON.getBoolField obj "multi"

namespace WriteSession

/-- The update thread. Source: `broker.cc`, `broker::update` -/
inductive Updater where
  /-- In front of `m_update_done_mutex`. -/
  | starting
  /-- In front of the critical section of `pop(3)`. -/
  | popping
  /-- In the wait of `pop(3)`. -/
  | popWait (w : Wait)
  /-- With a popped document, in front of `m_connection.update`. -/
  | updating (obj : BSONObj)
  /-- In the handler, in front of the test of `m_do_exit`. -/
  | timedOut
  | exited
  deriving DecidableEq, Repr

/-- The io thread. -/
inductive Io where
  /-- Between two requests. -/
  | idle
  /-- At `while( tmp.size() > 0 )` of a request with `docs`; `tmp` is the rest of them. -/
  | writing (docs tmp : List BSONObj)
  /-- In front of the critical section of `push`. -/
  | entering (docs tmp : List BSONObj)
  /-- In the wait of `push`. -/
  | pushWait (docs tmp : List BSONObj) (w : Wait)
  /-- In `term`, in front of the lock of `wait_update_done`. -/
  | waitDone
  /-- In `term`, in `pthread_join`. -/
  | joining
  /-- `term` has returned. -/
  | closed
  deriving DecidableEq, Repr

/-- What happened so far. -/
structure Log where
  /-- The documents of each request, in order. -/
  requests : List (List BSONObj)
  /-- The documents of each request that was answered, in order. -/
  acknowledged : List (List BSONObj)
  /-- The calls of `m_connection.update`, in order. -/
  applied : List UpdateOp
  deriving DecidableEq, Repr

/-- A state of the session. -/
structure State where
  broker : Broker
  updater : Updater
  io : Io
  fault : Option Exn
  log : Log
  deriving DecidableEq, Repr

/-- Right after `open`: the update thread was created. -/
def State.opened (b : Broker) : State := ⟨b, .starting, .idle, none, ⟨[], [], []⟩⟩

/-- Whose step is next, and what comes from outside. -/
inductive Action where
  | updater
  | updExpire
  | updWake
  | updThrow
  | io
  | ioWake
  | write (body : BSONObj)
  | close
  deriving DecidableEq, Repr

/-! ## Notifications and deadlines -/

/-- `m_cond_can_pop.notify_one()`. -/
def Updater.notify : Updater → Updater
  | .popWait w => .popWait w.notify
  | u => u

/-- `m_cond_can_push.notify_one()`. -/
def Io.notify : Io → Io
  | .pushWait docs tmp w => .pushWait docs tmp w.notify
  | p => p

/-- A wait that is not over ends without a notification. -/
def Updater.wake : Updater → Option Updater
  | .popWait .waiting => some (.popWait .notified)
  | _ => none

/-- A wait of the io thread that is not over ends without a notification. -/
def Io.wake : Io → Option Io
  | .pushWait docs tmp .waiting => some (.pushWait docs tmp .notified)
  | _ => none

/-- The deadline of `pop(3)`. -/
def Updater.expire : Updater → Option Updater
  | .popWait w => w.expire.map .popWait
  | _ => none

/-- Whether the update thread holds `m_update_done_mutex`. -/
def Updater.holdsMutex : Updater → Bool
  | .starting | .exited => false
  | _ => true

namespace State

/-! ## The update thread -/

/-- `pop` has taken `obj`; `rest` is what remains in the queue. -/
def popped (obj : BSONObj) (rest : List BSONObj) (s : State) : State :=
  { s with
    broker := { s.broker with queue := { s.broker.queue with queue := rest } }
    updater := .updating obj, io := s.io.notify }

/-- The critical section of `m_queue.pop`, on entering it. -/
def enterPop (s : State) : State :=
  match s.broker.queue.queue with
  | [] => { s with updater := .popWait .waiting, io := s.io.notify }
  | obj :: rest => s.popped obj rest

/-- The critical section of `pop` after a wait that did not time out. It does not look at the
size of the queue again. -/
def resumePop (s : State) : State :=
  match s.broker.queue.queue with
  | [] => { s with fault := some (.outOfBounds "m_queue.front()") }
  | obj :: rest => s.popped obj rest

/-- `m_connection.update(m_docset,query,doc,upsert,multi)`, and the count. -/
def passOn (obj : BSONObj) (s : State) : State :=
  { s with
    broker := { s.broker with updateCount := s.broker.updateCount + 1 }
    updater := .popping
    log := { s.log with applied := s.log.applied ++ [updateOp s.broker.docset obj] } }

/-- A step of the update thread. -/
def updaterStep (s : State) : Option State :=
  match s.updater with
  | .starting => some { s with updater := .popping }
  | .popping => some s.enterPop
  | .popWait .waiting => none
  | .popWait .notified => some s.resumePop
  | .popWait .expired => some { s with updater := .timedOut }
  | .updating obj => some (s.passOn obj)
  | .timedOut => some { s with updater := if s.broker.doExit then .exited else .popping }
  | .exited => none

/-! ## The io thread -/

/-- `push` from where it does not wait: the loop, and the notification of the consumer. -/
def push (docs tmp : List BSONObj) (s : State) : State :=
  let r := s.broker.queue.fill tmp
  { s with
    broker := { s.broker with queue := r.1 }, updater := s.updater.notify
    io := .writing docs r.2 }

/-- The critical section of `push`, on entering it. -/
def enterPush (docs tmp : List BSONObj) (s : State) : State :=
  match s.broker.checkStatus with
  | some e => { s with fault := some e }
  | none =>
      if s.broker.queue.isFull then
        { s with updater := s.updater.notify, io := .pushWait docs tmp .waiting }
      else s.push docs tmp

/-- The answer OK. -/
def acknowledge (docs : List BSONObj) (s : State) : State :=
  { s with
    io := .idle, log := { s.log with acknowledged := s.log.acknowledged ++ [docs] } }

/-- A step of the io thread in a request. -/
def ioStep (s : State) : Option State :=
  match s.io with
  | .idle => none
  | .writing docs tmp =>
      some (if tmp.isEmpty then s.acknowledge docs else { s with io := .entering docs tmp })
  | .entering docs tmp => some (s.enterPush docs tmp)
  | .pushWait docs tmp .notified => some (s.push docs tmp)
  | .pushWait _ _ _ => none
  | .waitDone => if s.updater.holdsMutex then none else some { s with io := .joining }
  | .joining =>
      match s.updater with
      | .exited => some { s with broker := s.broker.close, io := .closed }
      | _ => none
  | .closed => none

/-- A WRITE request. Source: `asio_processor.cc`, `asio_processor::do_write` -/
def startWrite (body : BSONObj) (s : State) : State :=
  if s.broker.connected then
    match BSON.vals (BSON.getObjectField body "docs") with
    | none => { s with fault := some .driver }
    | some docs =>
        { s with
          io := .writing docs docs, log := { s.log with requests := s.log.requests ++ [docs] } }
  else { s with fault := some (.assertion "m_write_broker.connected()") }

/-- The write part of `term`, which the last CLOSE calls.
Source: `asio_processor.cc`, `asio_processor::term` -/
def startTerm (s : State) : State :=
  if s.broker.connected then { s with broker := { s.broker with doExit := true }, io := .waitDone }
  else { s with io := .closed }

end State

/-- A step of the session. The io thread takes a request when it is idle. -/
def step (s : State) (a : Action) : Option State :=
  if s.fault.isSome then none
  else
    match a with
    | .updater => s.updaterStep
    | .updExpire => s.updater.expire.map fun u => { s with updater := u }
    | .updWake => s.updater.wake.map fun u => { s with updater := u }
    | .updThrow =>
        match s.updater with
        | .updating _ => some { s with fault := some .driver }
        | _ => none
    | .io => s.ioStep
    | .ioWake => s.io.wake.map fun p => { s with io := p }
    | .write body => if s.io = .idle then some (s.startWrite body) else none
    | .close => if s.io = .idle then some s.startTerm else none

end WriteSession

end Zbroker
