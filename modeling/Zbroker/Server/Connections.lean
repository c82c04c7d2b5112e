import Zbroker.Processor.DoRead
import Zbroker.Server.Processor

/-!
# The server: connections that share processors

The io thread handles one event at a time: a packet of a connection, or a failed read. The server
here is one `asio_handler` with its connections and its table of processors; the program makes one
for each port.

* `Reply` — a response packet.
* `Connection` — the fields of a connection, and the session its client believes to have.
* `Server` — the processors, the connections in the order they were accepted, and for every run
  of `term` so far the processor and the number of connections then still open on it.
* `Server.process`, `Server.disconnect` — `connection::process`, and the error branch of
  `connection::handle_read_header`.
* `Executed`, `Processed` — what a request can do; **`process_cases`**: these are all.
* `Action`, `step` — the events. `work` is what WRITE and the threads of a processor do to its
  brokers: anything that leaves them their settings.

An exception ends the program: nothing above `io_service::run` goes on after one.

A handler that does not return is no step. A WRITE has none if its loop cannot end, because the queue
has no capacity; a READ has one for the outcomes of its pops, and those of a READ that waits on
`m_con_query` or, without a deadline, in a pop for good are not there. That `term` returns to a CLOSE
is assumed; when it does not is said of the threads, in the read session.
-/

namespace Zbroker

/-- A response packet: the id it is sent with, and its body. -/
structure Reply where
  packetId : String
  body : BSONObj
  deriving DecidableEq, Repr

/-- A connection. Source: `asio_handler.hpp` -/
structure Connection where
  /-- `m_processor`, by its id. -/
  processor : Option String
  /-- `m_processor_opened`. -/
  processorOpened : Bool
  /-- `m_send_buffer`. -/
  sendBuffer : Option Reply
  /-- A read is under way on the socket. -/
  reading : Bool
  /-- The processor on which its client is open: it was answered OK to an OPEN, and has not sent
  CLOSE or disconnected since. The program does not store this. -/
  session : Option String
  deriving DecidableEq, Repr

/-- A connection that was just accepted. -/
def Connection.new : Connection := ⟨none, false, none, true, none⟩

/-- A state of the server: an `asio_handler` and its connections, each of which has it as its
`m_handler`. -/
structure Server where
  /-- `m_processors`; an id that is not in the table stands for the processor that `find` will
  create under it. -/
  processors : String → Processor
  connections : List Connection
  fault : Option Exn
  /-- For each run of `term`: the processor, and how many connections were still open on it. -/
  terminated : List (String × Nat)

namespace Server

/-- The start of the program. -/
def start : Server := ⟨fun _ => Processor.new, [], none, []⟩

/-- The number of connections whose clients are open on a processor. -/
def openCount (s : Server) (id : String) : Nat :=
  s.connections.countP fun conn => conn.session = some id

/-- What comes from outside. -/
inductive Action where
  | accept
  /-- A packet of a connection: the JSON object of its body, if it is one, the outcome of a
  connection to MongoDB, should the request ask for one, and those of the pops of a READ. -/
  | packet (c : Nat) (cmdObj : Option BSONObj) (errmsg : Option String) (os : List PopOutcome)
  /-- The read of a header fails. -/
  | disconnect (c : Nat)
  /-- The read of a body fails. -/
  | cut (c : Nat)
  /-- The brokers of a processor are used. -/
  | work (id : String) (read write : Broker)

/-! ## The handlers -/

/-- `processors::find`, with the assertion of the constructor. -/
def find (id : String) (s : Server) : Except Exn Processor :=
  if id.isEmpty then .error (.assertion "processor_id.size() > 0") else .ok (s.processors id)

/-- The processor and the connection after one of them has changed. -/
def update (id : String) (p : Processor) (c : Nat) (conn : Connection) (s : Server) : Server :=
  { s with
    processors := Function.update s.processors id p
    connections := s.connections.set c conn }

/-- A request was executed by the processor, which is `p` after it, and answered with `body`. -/
def answer (id : String) (p : Processor) (c : Nat) (conn : Connection) (body : BSONObj)
    (s : Server) : Server :=
  s.update id p c { conn with sendBuffer := some ⟨id, body⟩ }

/-- A call of `close` on a processor, for the connection `c`, which is `conn` after it. If it runs
`term`, then `term` returns: that its waits and its join end is assumed. -/
def close (id : String) (c : Nat) (conn : Connection) (s : Server) : Server :=
  let r := (s.processors id).close
  let t := s.update id r.1 c { conn with session := none }
  if r.2 then { t with terminated := t.terminated ++ [(id, t.openCount id)] } else t

variable (M : Mongo)

/-- A READ request: the documents leave the queue, and the answer is sent. There is no such step
if `os` are not the outcomes of its pops; so there is none for a READ that does not return, but waits
on `m_con_query` for good or in a pop that has no deadline. -/
def readRequest (id : String) (c : Nat) (conn : Connection) (os : List PopOutcome) (s : Server) :
    Option Server :=
  let p := s.processors id
  if p.readBroker.connected then
    (doRead M p.readBroker os).map fun r =>
      match r.answer with
      | .error e => { s with fault := some e }
      | .ok body =>
          let queue := { p.readBroker.queue with queue := r.queue }
          s.answer id { p with readBroker := { p.readBroker with queue := queue } } c conn body
  else some { s with fault := some (.assertion "m_read_broker.connected()") }

/-- The loop of a WRITE request, `while( tmp.size() > 0 ) push(tmp)`, comes to an end: there is
nothing to push, or the queue has a capacity. -/
def PushEnds (docs : List BSONObj) (queue : SizedQueue BSONObj) : Prop :=
  docs = [] ∨ 1 ≤ queue.limitSize

instance (docs : List BSONObj) (queue : SizedQueue BSONObj) : Decidable (PushEnds docs queue) :=
  inferInstanceAs (Decidable (_ ∨ _))

/-- A WRITE request. There is no such step if its loop does not end. What it does to the queue is part
of `work`, as is the room that the write thread makes for it meanwhile. -/
def writeRequest (id : String) (c : Nat) (conn : Connection) (body : BSONObj) (s : Server) :
    Option Server :=
  if (s.processors id).writeBroker.connected then
    match BSON.vals (BSON.getObjectField body "docs") with
    | none => some { s with fault := some .driver }
    | some docs =>
        if PushEnds docs (s.processors id).writeBroker.queue then
          some (s.answer id (s.processors id) c conn (packResponse M .ok "do_write" none))
        else none
  else some { s with fault := some (.assertion "m_write_broker.connected()") }

/-- `asio_processor::process` for a request that is not an OPEN.
Source: `asio_processor.cc`, `asio_processor::process` -/
def processRequest (id : String) (c : Nat) (conn : Connection) (valid : Bool) (cmd : Command)
    (body : BSONObj) (os : List PopOutcome) (s : Server) : Option Server :=
  if valid then
    match cmd with
    | .closeCmd =>
        let reply : Reply := ⟨id, packResponse M .ok "Close Action" none⟩
        some (s.close id c { conn with sendBuffer := some reply })
    | .readCmd => s.readRequest M id c conn os
    | .writeCmd => s.writeRequest M id c conn body
    | .rewindCmd =>
        some (s.answer id (s.processors id).rewind c conn
          (packResponse M .ok "Rewind Action" none))
    | .openCmd | .unknown _ => some { s with fault := some (.literal "UnknownCommand") }
  else some { s with fault := some (.literal "process error") }

/-- An OPEN request of a connection, on the processor `p`: it is executed once for a
connection. -/
def processOpen (id : String) (p : Processor) (c : Nat) (conn : Connection) (body : BSONObj)
    (errmsg : Option String) (s : Server) : Server :=
  if conn.processorOpened then
    let reply : Reply := ⟨"", packResponse M .alreadyOpen "connection::process" none⟩
    { s with connections := s.connections.set c { conn with sendBuffer := some reply } }
  else
    match p.openFor (fun _ => errmsg) (BSON.getIntField body "purpose") body with
    | .error e => { s with fault := some e }
    | .ok p' =>
        s.answer id p' c { conn with processorOpened := true, session := some id }
          (packResponse M .ok "Open Action" none)

/-- `connection::process`: the processor is looked up with the first request, by the hash of its
body for an OPEN, and else by the id of the packet, which the receiving path never sets.
Source: `asio_handler.cc`, `connection::process` -/
def process (hash : BSONObj → String) (c : Nat) (conn : Connection) (cmdObj : BSONObj)
    (errmsg : Option String) (os : List PopOutcome) (s : Server) : Option Server :=
  let r := parseRequest cmdObj
  let id := conn.processor.getD (if r.2.1 = .openCmd then hash r.2.2 else "")
  match if conn.processor.isSome then .ok (s.processors id) else s.find id with
  | .error e => some { s with fault := some e }
  | .ok p =>
      let conn := { conn with processor := some id }
      if r.2.1 = .openCmd then some (s.processOpen M id p c conn r.2.2 errmsg)
      else s.processRequest M id c conn r.1 r.2.1 r.2.2 os

/-- The error branch of `connection::handle_read_header`.
Source: `asio_handler.cc`, `connection::handle_read_header` -/
def disconnect (c : Nat) (conn : Connection) (s : Server) : Server :=
  match conn.processor with
  | some id => s.close id c { conn with processor := none, reading := false }
  | none => { s with connections := s.connections.set c { conn with reading := false } }

/-- The brokers of a processor change, and keep their settings. -/
def work (id : String) (read write : Broker) (s : Server) : Option Server :=
  let p := s.processors id
  if read.settings = p.readBroker.settings ∧ write.settings = p.writeBroker.settings then
    some { s with
      processors := Function.update s.processors id
        { p with readBroker := read, writeBroker := write } }
  else none

/-- The connection `c`, if a read is under way on its socket. -/
def reader (c : Nat) (s : Server) : Option Connection :=
  (s.connections[c]?).filter Connection.reading

/-- An event; the io thread handles it to its end. -/
def step (hash : BSONObj → String) (s : Server) (a : Action) : Option Server :=
  if s.fault.isSome then none
  else
    match a with
    | .accept => some { s with connections := s.connections ++ [Connection.new] }
    | .packet c (some cmdObj) errmsg os =>
        (s.reader c).bind fun conn => s.process M hash c conn cmdObj errmsg os
    | .packet c none _ _ => (s.reader c).map fun _ => { s with fault := some .driver }
    | .disconnect c => (s.reader c).map fun conn => s.disconnect c conn
    | .cut c => (s.reader c).map fun _ => { s with fault := some .errorCode }
    | .work id read write => s.work id read write

/-- The connection for which an event closes a processor, and the processor. -/
def closing (s : Server) : Action → Option (Connection × String)
  | .packet c (some cmdObj) _ _ =>
      if (parseRequest cmdObj).2.1 = .closeCmd then
        (s.reader c).bind fun conn => conn.processor.map fun id => (conn, id)
      else none
  | .disconnect c => (s.reader c).bind fun conn => conn.processor.map fun id => (conn, id)
  | _ => none

/-! ## Small facts -/

/-- An element of a list of which one was replaced. -/
theorem getElem_set_cases {α : Type*} {l : List α} {c d : Nat} {x y : α}
    (h : (l.set c x)[d]? = some y) : d = c ∧ y = x ∨ d ≠ c ∧ l[d]? = some y := by
  rw [List.getElem?_set] at h
  split_ifs at h with heq hlt
  · exact Or.inl ⟨heq.symm, (Option.some.inj h).symm⟩
  · exact Or.inr ⟨fun hd => heq hd.symm, h⟩

/-- An element of a list that has got one more. -/
theorem getElem_concat_cases {α : Type*} {l : List α} {d : Nat} {x y : α}
    (h : (l ++ [x])[d]? = some y) : l[d]? = some y ∨ d = l.length ∧ y = x := by
  rw [List.getElem?_append] at h
  split_ifs at h with hlt
  · exact Or.inl h
  · obtain ⟨hd, -⟩ := List.getElem?_eq_some_iff.mp h
    refine Or.inr ⟨?_, List.mem_singleton.mp (List.mem_of_getElem? h)⟩
    rw [List.length_singleton] at hd
    omega

/-- A connection that is read is one of the connections. -/
theorem getElem_of_reader {s : Server} {c : Nat} {conn : Connection}
    (h : s.reader c = some conn) : s.connections[c]? = some conn :=
  (Option.filter_eq_some_iff.mp h).1

/-- After an exception there are no events. -/
theorem fault_of_step {M : Mongo} {hash : BSONObj → String} {s t : Server} {a : Action}
    (h : step M hash s a = some t) : s.fault = none := by
  unfold step at h
  split_ifs at h with hfault
  simpa using hfault

/-- A body that breaks off ends the program. -/
theorem fault_of_cut {M : Mongo} {hash : BSONObj → String} {s t : Server} {c : Nat}
    (h : step M hash s (.cut c) = some t) : t.fault = some .errorCode := by
  unfold step at h
  split_ifs at h
  obtain ⟨conn, -, rfl⟩ := Option.map_eq_some_iff.mp h
  rfl

/-- The connections after a close. -/
theorem connections_close (s : Server) (id : String) (c : Nat) (conn : Connection) :
    (s.close id c conn).connections = s.connections.set c { conn with session := none } := by
  unfold close
  dsimp only
  split_ifs <;> rfl

/-- The processors after a close. -/
theorem processors_close (s : Server) (id : String) (c : Nat) (conn : Connection) :
    (s.close id c conn).processors =
      Function.update s.processors id (s.processors id).close.1 := by
  unfold close
  dsimp only
  split_ifs <;> rfl

/-- A CLOSE throws nothing. -/
@[simp] theorem fault_close (s : Server) (id : String) (c : Nat) (conn : Connection) :
    (s.close id c conn).fault = s.fault := by
  unfold close
  dsimp only
  split_ifs <;> rfl

/-- The connections after a failed read of a header; one without a processor has no session in a
consistent state. -/
theorem connections_disconnect (s : Server) (c : Nat) (conn : Connection) :
    ∃ conn', (s.disconnect c conn).connections = s.connections.set c conn' ∧
      conn'.reading = false ∧ conn'.processorOpened = conn.processorOpened ∧
      (conn'.session = none ∨ conn.processor = none ∧ conn'.session = conn.session) := by
  unfold disconnect
  rcases hprocessor : conn.processor with _ | id
  · exact ⟨_, rfl, rfl, rfl, Or.inr ⟨rfl, rfl⟩⟩
  · exact ⟨_, connections_close _ _ _ _, rfl, rfl, Or.inl rfl⟩

/-! ## What a request does -/

section requests

variable {M : Mongo} {hash : BSONObj → String} {s t : Server} {id : String} {c : Nat}
  {conn : Connection} {cmd : Command}

/-- What a request other than OPEN does on a processor: it ends the program, it closes the
processor, or it is answered, and the brokers of the processor keep their settings. -/
inductive Executed (s : Server) (id : String) (c : Nat) (conn : Connection) (cmd : Command) :
    Server → Prop
  | fault (e : Exn) (hcmd : cmd ≠ .closeCmd) : Executed s id c conn cmd { s with fault := some e }
  | closed (body : BSONObj) (hcmd : cmd = .closeCmd) :
      Executed s id c conn cmd (s.close id c { conn with sendBuffer := some ⟨id, body⟩ })
  | answered (p : Processor) (body : BSONObj) (hcmd : cmd ≠ .closeCmd)
      (hcount : p.refcount = (s.processors id).refcount) (hkeeps : (s.processors id).Keeps p) :
      Executed s id c conn cmd (s.answer id p c conn body)

/-- **What a request other than OPEN does.** -/
theorem processRequest_cases {valid : Bool} {body : BSONObj} {os : List PopOutcome}
    (hvalid : cmd = .closeCmd → valid = true)
    (h : s.processRequest M id c conn valid cmd body os = some t) : Executed s id c conn cmd t := by
  unfold processRequest at h
  split_ifs at h with hif
  · rcases cmd with _ | _ | _ | _ | _ | n
    · cases h
      exact .fault _ (by simp)
    · cases h
      exact .closed _ rfl
    · simp only [readRequest] at h
      split_ifs at h
      · obtain ⟨r, -, rfl⟩ := Option.map_eq_some_iff.mp h
        rcases r.answer with e | body
        · exact .fault e (by simp)
        · refine .answered _ body (by simp) rfl ?_
          exact ⟨Or.inl rfl, Or.inl rfl⟩
      · cases h
        exact .fault _ (by simp)
    · simp only [writeRequest] at h
      split_ifs at h
      · split at h
        · cases h
          exact .fault _ (by simp)
        · split_ifs at h
          cases h
          exact .answered _ _ (by simp) rfl (Processor.Keeps.refl _)
      · cases h
        exact .fault _ (by simp)
    · cases h
      exact .answered _ _ (by simp) (Processor.refcount_rewind _) (Processor.keeps_rewind _)
    · cases h
      exact .fault _ (by simp)
  · cases h
    exact .fault _ fun hcmd => hif (hvalid hcmd)

/-- What a request does: it ends the program, it is the OPEN that opens its connection or one of a
connection that has been opened, or it is executed by the processor of its connection. -/
inductive Processed (M : Mongo) (hash : BSONObj → String) (s : Server) (c : Nat)
    (conn : Connection) (cmd : Command) (body : BSONObj) (errmsg : Option String) : Server → Prop
  | fault (e : Exn) (hcmd : cmd = .closeCmd → conn.processor = none) :
      Processed M hash s c conn cmd body errmsg { s with fault := some e }
  | opened (id : String) (p : Processor) (extra : String) (hcmd : cmd = .openCmd)
      (hid : id = conn.processor.getD (hash body)) (hopened : conn.processorOpened = false)
      (hopen : (s.processors id).openFor (fun _ => errmsg) (BSON.getIntField body "purpose") body =
        .ok p) :
      Processed M hash s c conn cmd body errmsg
        (s.answer id p c
          { conn with processor := some id, processorOpened := true, session := some id }
          (packResponse M .ok extra none))
  | again (id : String) (reply : Reply) (hcmd : cmd = .openCmd)
      (hid : id = conn.processor.getD (hash body)) (hopened : conn.processorOpened = true) :
      Processed M hash s c conn cmd body errmsg { s with
        connections := s.connections.set c
          { conn with processor := some id, sendBuffer := some reply } }
  | executed (id : String) (t : Server) (hcmd : cmd ≠ .openCmd) (hid : conn.processor = some id)
      (h : Executed s id c conn cmd t) : Processed M hash s c conn cmd body errmsg t

/-- **What a request does.** -/
theorem process_cases {cmdObj : BSONObj} {errmsg : Option String} {os : List PopOutcome}
    (h : s.process M hash c conn cmdObj errmsg os = some t) :
    Processed M hash s c conn (parseRequest cmdObj).2.1 (parseRequest cmdObj).2.2 errmsg t := by
  have hvalid : (parseRequest cmdObj).2.1 = .closeCmd → (parseRequest cmdObj).1 = true :=
    fun hcmd => parseRequest_of_ne_unknown (by simp [hcmd])
  unfold process at h
  dsimp only at h
  by_cases hcmd : (parseRequest cmdObj).2.1 = .openCmd
  · have hclose : (parseRequest cmdObj).2.1 = .closeCmd → conn.processor = none := by
      intro hclose
      rw [hcmd] at hclose
      cases hclose
    simp only [hcmd, if_true] at h
    split at h
    · cases h
      exact .fault _ hclose
    · rename_i p hp
      have hp' : p = s.processors (conn.processor.getD (hash (parseRequest cmdObj).2.2)) := by
        unfold find at hp
        split_ifs at hp <;> exact (Except.ok.inj hp).symm
      subst hp'
      rw [Option.some.injEq, processOpen] at h
      subst h
      by_cases hopened : conn.processorOpened = true
      · rw [if_pos hopened]
        exact .again _ _ hcmd rfl hopened
      · rw [if_neg hopened]
        split
        · exact .fault _ hclose
        · rename_i p' hopen
          exact .opened _ p' _ hcmd rfl (by simpa using hopened) hopen
  · rcases hprocessor : conn.processor with _ | id
    · -- the id of a packet is empty
      simp only [hprocessor, hcmd, Option.isSome_none, Bool.false_eq_true, if_false,
        Option.getD_none] at h
      cases h
      exact .fault _ fun _ => hprocessor
    · have heq : { conn with processor := some id } = conn := by rw [← hprocessor]
      simp only [hprocessor, hcmd, Option.isSome_some, if_true, if_false, Option.getD_some] at h
      rw [heq] at h
      exact .executed id t hcmd hprocessor (processRequest_cases hvalid h)

end requests

section events

variable {M : Mongo} {hash : BSONObj → String} {s t : Server} {c : Nat}

/-- A connection that is accepted. -/
theorem connections_accept (h : step M hash s .accept = some t) :
    t.connections = s.connections ++ [Connection.new] := by
  unfold step at h
  split_ifs at h
  cases h
  rfl

/-- A failed read of a header. -/
theorem eq_disconnect_of_step (h : step M hash s (.disconnect c) = some t) :
    ∃ conn, s.reader c = some conn ∧ s.disconnect c conn = t := by
  unfold step at h
  split_ifs at h
  exact Option.map_eq_some_iff.mp h

/-- The use of brokers. -/
theorem connections_work {id : String} {read write : Broker}
    (h : step M hash s (.work id read write) = some t) : t.connections = s.connections := by
  unfold step work at h
  dsimp only at h
  split_ifs at h
  cases h
  rfl

end events

end Server

end Zbroker
