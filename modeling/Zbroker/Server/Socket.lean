import Zbroker.Packet.OutPacket
import Zbroker.Server.Answer
import Zbroker.Server.Sharing

/-!
# The sockets of the connections

The server below its packets: what arrives on a socket and what is read of it, and what
`async_write` sends of a response. Completions come in any order, and a write may take any number
of partial sends.

* `Reading`, `Write`, `Socket` — the read that is under way, the writes, and both directions of a
  socket. A write sends from `m_send_buffer` itself: when that is assigned again before the write
  is over, what the write sends from then on is not known.
* `Socket.step` — what happens to a socket without the server taking part: bytes arrive or cease
  to, a part of a write is sent, `handle_write`.
* `Host`, `Host.step` — the server with its sockets: `handle_read_header`, `handle_read_body` and
  their error branches.
* `Effect`, `step_effect` — what an event of the host can do.
* **`exists_server_run`**: what the server does in a run of the host is a run
  of the server, in which the first requests are OPENs with the bodies that the sockets remember.

`fromjson` is a parameter: the object that a text denotes, if it is one.
-/

namespace Zbroker

open Found.Transition

/-- The bytes of a string. -/
def bytesOf (s : String) : List UInt8 := s.toByteArray.data.toList

/-- The read under way on a socket. -/
inductive Reading where
  | none
  | header
  | body (field : HeaderField)
  deriving DecidableEq, Repr

/-- How many bytes the read asks for. -/
def Reading.length : Reading → Nat
  | .none => 0
  | .header => headerLength
  | .body field => field.decode

/-- An `async_write` that is not over. -/
structure Write where
  data : List UInt8
  /-- How many of the bytes have been sent. -/
  sent : Nat
  /-- `m_send_buffer` still holds the data. -/
  intact : Bool
  deriving DecidableEq, Repr

/-- The bytes that are still to be sent. -/
def Write.rest (w : Write) : List UInt8 := w.data.drop w.sent

/-- The socket of a connection. -/
structure Socket where
  /-- The bytes that arrived and have not been read. -/
  incoming : List UInt8
  /-- Nothing more arrives. -/
  ended : Bool
  /-- `handle_write` has closed the socket. -/
  closed : Bool
  reading : Reading
  writes : List Write
  /-- What the client has received. -/
  received : List UInt8
  /-- The packed responses, in the order of the requests. The program does not store this. -/
  packed : List (List UInt8)
  /-- The body of the first request, if that was an OPEN. The program does not store this. -/
  opener : Option BSONObj
  /-- How often `close` was called on a processor for the connection. The program does not store
  this. -/
  closes : Nat
  deriving DecidableEq, Repr

namespace Socket

/-- After `connection::start`. -/
def new : Socket := ⟨[], false, false, .header, [], [], [], none, 0⟩

/-- What happens to a socket by itself. -/
inductive Event where
  | arrive (bytes : List UInt8)
  /-- The client closes its side, or is lost. -/
  | hangUp
  /-- A part of the write with this number is sent. -/
  | send (i : Nat) (bytes : List UInt8)
  /-- `handle_write` for a write that has sent everything. -/
  | written (i : Nat)
  /-- `handle_write` for a write that fails. -/
  | writeFailed (i : Nat)
  deriving DecidableEq, Repr

/-- A part of a write is sent. -/
def send (i : Nat) (w : Write) (bytes : List UInt8) (sk : Socket) : Socket :=
  { sk with
    writes := sk.writes.set i { w with sent := w.sent + bytes.length }
    received := sk.received ++ bytes }

/-- The error branch of `handle_write`: the socket is closed. The read under way may have what it
asks for by then; nothing more is read.
Source: `asio_handler.cc`, `connection::handle_write` -/
def writeFailed (i : Nat) (sk : Socket) : Socket :=
  { sk with
    writes := sk.writes.eraseIdx i
    closed := true, ended := true, incoming := sk.incoming.take sk.reading.length }

/-- An event of the socket. What a write sends is its data as long as the buffer holds them. -/
def step (sk : Socket) : Event → Option Socket
  | .arrive bytes => if sk.ended then none else some { sk with incoming := sk.incoming ++ bytes }
  | .hangUp => some { sk with ended := true }
  | .send i bytes =>
      (sk.writes[i]?).bind fun w =>
        if sk.closed = false ∧ bytes.length ≤ w.rest.length ∧
            (w.intact = true → bytes <+: w.rest) then some (sk.send i w bytes)
        else none
  | .written i =>
      (sk.writes[i]?).bind fun w =>
        if w.rest = [] then some { sk with writes := sk.writes.eraseIdx i } else none
  | .writeFailed i => (sk.writes[i]?).map fun _ => sk.writeFailed i

/-- `async_write` of a response, which has replaced `m_send_buffer`. -/
def write (data : List UInt8) (sk : Socket) : Socket :=
  { sk with
    writes := sk.writes.map (fun w => { w with intact := false }) ++ [⟨data, 0, true⟩]
    packed := sk.packed ++ [data] }

end Socket

/-- The server and the sockets of its connections. -/
structure Host where
  server : Server
  sockets : List Socket

namespace Host

/-- The start of the program. -/
def start : Host := ⟨Server.start, []⟩

/-- The events. -/
inductive Action where
  | accept
  | socket (c : Nat) (e : Socket.Event)
  /-- `handle_read_header` without an error. -/
  | headerRead (c : Nat)
  /-- `handle_read_body` without an error; what else the request meets is as in
  `Server.Action.packet`. -/
  | bodyRead (c : Nat) (errmsg : Option String) (os : List PopOutcome)
  /-- The read under way fails. -/
  | readFailed (c : Nat)
  /-- The brokers of a processor are used. -/
  | work (id : String) (read write : Broker)

/-- An exception leaves the handler. -/
def fail (e : Exn) (s : Host) : Host := { s with server := { s.server with fault := some e } }

/-- A socket after an event of its own. -/
def setSocket (c : Nat) (sk : Socket) (s : Host) : Host := { s with sockets := s.sockets.set c sk }

variable (M : Mongo) (hash : BSONObj → String) (heap : Heap)
  (fromjson : List UInt8 → Option BSONObj)

/-- What `pack` returns for a response. -/
def pack (r : Reply) : Except Exn (List UInt8) :=
  ((OutPacket.new.setPacketId (bytesOf r.packetId)).setBody (bytesOf (M.jsonString r.body))).pack.map
    OutPacket.data

/-- The request in a packet: the JSON text ends at the first zero. -/
def request (c : Nat) (p : InPacket) (errmsg : Option String) (os : List PopOutcome) :
    Server.Action :=
  .packet c (fromjson (p.body.takeWhile (· ≠ 0))) errmsg os

/-- The end of `handle_read_body`, when the server is `t` after the request: the write of the
response and the read of the next header. An exception leaves nothing to be sent. -/
def respond (c : Nat) (sk : Socket) (t : Server) (s : Host) : Host :=
  match t.sent c with
  | [] => { s with server := t }
  | reply :: _ =>
      match pack M reply with
      | .error e => { s with server := { t with fault := some e } }
      | .ok data => ⟨t, s.sockets.set c (sk.write data)⟩

/-- The socket when its request `a` is handled and the next header is read. -/
def taken (c : Nat) (p : InPacket) (a : Server.Action) (sk : Socket) (s : Host) : Socket :=
  { sk with
    incoming := sk.incoming.drop p.bodyLength, reading := .header
    opener := sk.opener.or (a.openBody c)
    closes := sk.closes + if (s.server.closing a).isSome then 1 else 0 }

/-- A body was read. A packet shorter than an id has no text.
Source: `asio_handler.cc`, `connection::handle_read_body` -/
def bodyRead (c : Nat) (sk : Socket) (p : InPacket) (errmsg : Option String)
    (os : List PopOutcome) (s : Host) : Option Host :=
  if p.bodyLength < packetIdLength then some (s.fail (.outOfBounds "packet.body()"))
  else
    let a := request fromjson c p errmsg os
    (Server.step M hash s.server a).map fun t => s.respond M c (s.taken c p a sk) t

/-- A header was read. Source: `asio_handler.cc`, `connection::handle_read_header` -/
def headerRead (c : Nat) (sk : Socket) (s : Host) : Option Host :=
  if h : (sk.incoming.take headerLength).length = headerLength then
    let field : HeaderField := ⟨sk.incoming.take headerLength, h⟩
    match InPacket.reserve heap field.decode with
    | .error e => some (s.fail e)
    | .ok _ =>
        some (s.setSocket c
          { sk with incoming := sk.incoming.drop headerLength, reading := .body field })
  else none

/-- The socket when the read of a header has failed. -/
def disconnected (c : Nat) (sk : Socket) (s : Host) : Socket :=
  { sk with
    reading := .none
    closes := sk.closes + if (s.server.closing (.disconnect c)).isSome then 1 else 0 }

/-- A read fails. Source: `asio_handler.cc`, the error branches of `handle_read_header` and
`handle_read_body` -/
def readFailed (c : Nat) (sk : Socket) (s : Host) : Option Host :=
  match sk.reading with
  | .none => none
  | .header =>
      (Server.step M hash s.server (.disconnect c)).map fun t =>
        ⟨t, s.sockets.set c (s.disconnected c sk)⟩
  | .body _ => (Server.step M hash s.server (.cut c)).map fun t => { s with server := t }

/-- An event; the io thread handles it to its end. -/
def step (s : Host) (a : Action) : Option Host :=
  if s.server.fault.isSome then none
  else
    match a with
    | .accept =>
        (Server.step M hash s.server .accept).map fun t => ⟨t, s.sockets ++ [Socket.new]⟩
    | .socket c e => (s.sockets[c]?).bind fun sk => (sk.step e).map fun sk' => s.setSocket c sk'
    | .headerRead c =>
        (s.sockets[c]?).bind fun sk =>
          if sk.reading = .header then s.headerRead heap c sk else none
    | .bodyRead c errmsg os =>
        (s.sockets[c]?).bind fun sk =>
          match sk.reading with
          | .body field =>
              match receive heap field sk.incoming with
              | .ok p => s.bodyRead M hash fromjson c sk p errmsg os
              | .error _ => none
          | _ => none
    | .readFailed c =>
        (s.sockets[c]?).bind fun sk => if sk.ended then s.readFailed M hash c sk else none
    | .work id read write =>
        (Server.step M hash s.server (.work id read write)).map fun t => { s with server := t }

/-! ## What an event does -/

/-- What an event does. -/
inductive Effect (s : Host) : Action → Host → Prop
  | accept (t : Server) (hstep : Server.step M hash s.server .accept = some t) :
      Effect s .accept ⟨t, s.sockets ++ [Socket.new]⟩
  | socket (c : Nat) (e : Socket.Event) (sk sk' : Socket) (hsk : s.sockets[c]? = some sk)
      (he : sk.step e = some sk') : Effect s (.socket c e) (s.setSocket c sk')
  | header (c : Nat) (sk : Socket) (field : HeaderField) (hsk : s.sockets[c]? = some sk)
      (hreading : sk.reading = .header) (hfield : field.val = sk.incoming.take headerLength) :
      Effect s (.headerRead c) (s.setSocket c
        { sk with incoming := sk.incoming.drop headerLength, reading := .body field })
  /-- A request that is answered. -/
  | body (c : Nat) (errmsg : Option String) (os : List PopOutcome) (sk : Socket) (field : HeaderField)
      (p : InPacket) (t : Server) (reply : Reply) (data : List UInt8)
      (hsk : s.sockets[c]? = some sk) (hreading : sk.reading = .body field)
      (hp : receive heap field sk.incoming = .ok p) (hlength : packetIdLength ≤ p.bodyLength)
      (hstep : Server.step M hash s.server (request fromjson c p errmsg os) = some t)
      (hsent : t.sent c = [reply]) (hdata : pack M reply = .ok data) :
      Effect s (.bodyRead c errmsg os)
        ⟨t, s.sockets.set c ((s.taken c p (request fromjson c p errmsg os) sk).write data)⟩
  | disconnect (c : Nat) (sk : Socket) (t : Server) (hsk : s.sockets[c]? = some sk)
      (hreading : sk.reading = .header) (hended : sk.ended = true)
      (hstep : Server.step M hash s.server (.disconnect c) = some t) :
      Effect s (.readFailed c) ⟨t, s.sockets.set c (s.disconnected c sk)⟩
  | work (id : String) (read write : Broker) (t : Server)
      (hstep : Server.step M hash s.server (.work id read write) = some t) :
      Effect s (.work id read write) { s with server := t }
  /-- The program ends. -/
  | fault (a : Action) (t : Server) (ht : t.fault ≠ none) : Effect s a { s with server := t }

section effect

variable {M hash heap fromjson} {s t : Host} {a : Action} {c : Nat} {sk : Socket}

/-- The end of a request: an exception, or an answer. -/
theorem respond_effect {errmsg : Option String} {os : List PopOutcome} {field : HeaderField}
    {p : InPacket} {u : Server} (hsk : s.sockets[c]? = some sk)
    (hreading : sk.reading = .body field) (hp : receive heap field sk.incoming = .ok p)
    (hlength : packetIdLength ≤ p.bodyLength)
    (hstep : Server.step M hash s.server (request fromjson c p errmsg os) = some u) :
    Effect M hash heap fromjson s (.bodyRead c errmsg os)
      (s.respond M c (s.taken c p (request fromjson c p errmsg os) sk) u) := by
  unfold respond
  by_cases hfault : u.fault = none
  · obtain ⟨reply, hsent⟩ := Server.exists_sent_of_step hstep hfault
    rw [hsent]
    dsimp only
    rcases hdata : pack M reply with e | data
    · exact .fault _ _ (by simp)
    · exact .body c errmsg os sk field p u reply data hsk hreading hp hlength hstep hsent hdata
  · rw [Server.sent_of_fault hfault]
    exact .fault _ _ hfault

/-- **What an event does.** -/
theorem step_effect (h : step M hash heap fromjson s a = some t) :
    Effect M hash heap fromjson s a t := by
  unfold step at h
  split_ifs at h
  rcases a with _ | ⟨c, e⟩ | c | ⟨c, errmsg, os⟩ | c | ⟨id, read, write⟩
  · obtain ⟨u, hu, rfl⟩ := Option.map_eq_some_iff.mp h
    exact .accept u hu
  · obtain ⟨sk, hsk, h⟩ := Option.bind_eq_some_iff.mp h
    obtain ⟨sk', he, rfl⟩ := Option.map_eq_some_iff.mp h
    exact .socket c e sk sk' hsk he
  · obtain ⟨sk, hsk, h⟩ := Option.bind_eq_some_iff.mp h
    split_ifs at h with hreading
    unfold headerRead at h
    split_ifs at h
    dsimp only at h
    split at h
    · cases h
      exact .fault _ _ (by simp)
    · cases h
      exact .header c sk _ hsk hreading rfl
  · obtain ⟨sk, hsk, h⟩ := Option.bind_eq_some_iff.mp h
    split at h
    · rename_i field hreading
      split at h
      · rename_i p hp
        unfold bodyRead at h
        split_ifs at h with hlength
        · cases h
          exact .fault _ _ (by simp)
        · obtain ⟨u, hu, rfl⟩ := Option.map_eq_some_iff.mp h
          exact respond_effect hsk hreading hp (not_lt.mp hlength) hu
      · cases h
    · cases h
  · obtain ⟨sk, hsk, h⟩ := Option.bind_eq_some_iff.mp h
    split_ifs at h with hended
    unfold readFailed at h
    split at h
    · cases h
    · rename_i hreading
      obtain ⟨u, hu, rfl⟩ := Option.map_eq_some_iff.mp h
      exact .disconnect c sk u hsk hreading hended hu
    · obtain ⟨u, hu, rfl⟩ := Option.map_eq_some_iff.mp h
      refine .fault _ _ ?_
      rw [Server.fault_of_cut hu]
      simp
  · obtain ⟨u, hu, rfl⟩ := Option.map_eq_some_iff.mp h
    exact .work id read write u hu

/-- After an exception there are no events. -/
theorem fault_of_step (h : step M hash heap fromjson s a = some t) : s.server.fault = none := by
  unfold step at h
  split_ifs at h with hfault
  simpa using hfault

end effect

/-! ## The runs of the server in the runs of the host -/

/-- The sockets are those of the connections, when the server has taken the events `bs`: a read
is under way on a socket when it is on the connection, and the first request is remembered. -/
structure Fits (bs : List Server.Action) (s : Host) : Prop where
  length : s.sockets.length = s.server.connections.length
  reading : ∀ (c : Nat) (sk : Socket) (conn : Connection), s.sockets[c]? = some sk →
    s.server.connections[c]? = some conn → (conn.reading = true ↔ sk.reading ≠ .none)
  opener : ∀ (c : Nat) (sk : Socket), s.sockets[c]? = some sk → sk.opener = Server.openBody c bs

section fits

variable {M : Mongo} {hash : BSONObj → String} {heap : Heap} {fromjson : List UInt8 → Option BSONObj}
  {s t : Host} {a : Action} {bs : List Server.Action}

/-- An event of one socket that leaves its read under way and its first request. -/
theorem Fits.setSocket (h : Fits bs s) {c : Nat} {sk sk' : Socket} (hsk : s.sockets[c]? = some sk)
    (hreading : sk'.reading ≠ .none ↔ sk.reading ≠ .none) (hopener : sk'.opener = sk.opener) :
    Fits bs (s.setSocket c sk') := by
  refine ⟨?_, ?_, ?_⟩
  · rw [Host.setSocket, List.length_set]
    exact h.length
  · intro d sk'' conn hd hconn
    rcases Server.getElem_set_cases hd with ⟨rfl, rfl⟩ | ⟨-, hold⟩
    · rw [hreading]
      exact h.reading d sk conn hsk hconn
    · exact h.reading d sk'' conn hold hconn
  · intro d sk'' hd
    rcases Server.getElem_set_cases hd with ⟨rfl, rfl⟩ | ⟨-, hold⟩
    · rw [hopener]
      exact h.opener d sk hsk
    · exact h.opener d sk'' hold

/-- A socket keeps its read and its first request. -/
theorem reading_of_socketStep {sk sk' : Socket} {e : Socket.Event} (h : sk.step e = some sk') :
    sk'.reading = sk.reading ∧ sk'.opener = sk.opener ∧ sk'.closes = sk.closes := by
  rcases e with bytes | _ | ⟨i, bytes⟩ | i | i
  · simp only [Socket.step] at h
    split_ifs at h
    cases h
    exact ⟨rfl, rfl, rfl⟩
  · cases h
    exact ⟨rfl, rfl, rfl⟩
  · obtain ⟨w, -, h⟩ := Option.bind_eq_some_iff.mp h
    split_ifs at h
    cases h
    exact ⟨rfl, rfl, rfl⟩
  · obtain ⟨w, -, h⟩ := Option.bind_eq_some_iff.mp h
    split_ifs at h
    cases h
    exact ⟨rfl, rfl, rfl⟩
  · obtain ⟨w, -, rfl⟩ := Option.map_eq_some_iff.mp h
    exact ⟨rfl, rfl, rfl⟩

/-- An event of the server for one connection, with what it does to its socket. -/
theorem Fits.set (h : Fits bs s) {c : Nat} {sk sk' : Socket} {conn' : Connection}
    {b : Server.Action} (hsk : s.sockets[c]? = some sk)
    (hother : ∀ d, d ≠ c → b.openBody d = none) (hsockets : t.sockets = s.sockets.set c sk')
    (hconnections : t.server.connections = s.server.connections.set c conn')
    (hreading : conn'.reading = true ↔ sk'.reading ≠ .none)
    (hopener : sk'.opener = sk.opener.or (b.openBody c)) : Fits (bs ++ [b]) t := by
  refine ⟨?_, ?_, ?_⟩
  · rw [hsockets, hconnections, List.length_set, List.length_set]
    exact h.length
  · intro d sk'' conn'' hd hconn
    rw [hsockets] at hd
    rw [hconnections] at hconn
    rcases Server.getElem_set_cases hd with ⟨rfl, rfl⟩ | ⟨hne, hold⟩
    · rcases Server.getElem_set_cases hconn with ⟨-, rfl⟩ | ⟨hne, -⟩
      · exact hreading
      · exact absurd rfl hne
    · rcases Server.getElem_set_cases hconn with ⟨heq, -⟩ | ⟨-, hconn⟩
      · exact absurd heq hne
      · exact h.reading d sk'' conn'' hold hconn
  · intro d sk'' hd
    rw [hsockets] at hd
    rw [Server.openBody_concat]
    rcases Server.getElem_set_cases hd with ⟨rfl, rfl⟩ | ⟨hne, hold⟩
    · rw [hopener, h.opener d sk hsk]
    · rw [hother d hne, Option.or_none]
      exact h.opener d sk'' hold

/-- **One event of the host** is none or one of the server, if it is no exception. -/
theorem Fits.step (h : Fits bs s)
    (hserver : run (Server.step M hash) Server.start bs = some s.server)
    (hstep : Host.step M hash heap fromjson s a = some t) (hfault : t.server.fault = none) :
    ∃ cs, run (Server.step M hash) Server.start cs = some t.server ∧ Fits cs t := by
  rcases step_effect hstep with ⟨u, hu⟩ | ⟨c, e, sk, sk', hsk, he⟩ | ⟨c, sk, field, hsk, hreading, -⟩ |
    ⟨c, errmsg, os, sk, field, p, u, reply, data, hsk, hreading, hp, hlength, hu, -, -⟩ |
    ⟨c, sk, u, hsk, hreading, hended, hu⟩ | ⟨id, read, write, u, hu⟩ | ⟨_, u, hu⟩
  · refine ⟨bs ++ [.accept], run_concat hserver hu, ?_⟩
    have hsharing := Server.sharing_run hserver (Server.fault_of_step hu)
    have hconnections := Server.connections_accept hu
    refine ⟨?_, ?_, ?_⟩
    · rw [hconnections, List.length_append, List.length_append, h.length]
      rfl
    · intro d sk conn hd hconn
      rw [hconnections] at hconn
      rcases Server.getElem_concat_cases hd with hold | ⟨hlast, rfl⟩
      · rcases Server.getElem_concat_cases hconn with hconn | ⟨hlast, -⟩
        · exact h.reading d sk conn hold hconn
        · rw [hlast, ← h.length, List.getElem?_eq_none le_rfl] at hold
          cases hold
      · rcases Server.getElem_concat_cases hconn with hconn | ⟨-, rfl⟩
        · rw [hlast, h.length, List.getElem?_eq_none le_rfl] at hconn
          cases hconn
        · simp [Connection.new, Socket.new]
    · intro d sk hd
      rw [Server.openBody_concat]
      rcases Server.getElem_concat_cases hd with hold | ⟨rfl, rfl⟩
      · rw [h.opener d sk hold]
        exact Option.or_none.symm
      · rw [hsharing.absent _ (List.getElem?_eq_none h.length.ge)]
        rfl
  · obtain ⟨hreading, hopener, -⟩ := reading_of_socketStep he
    exact ⟨bs, hserver, h.setSocket hsk (by rw [hreading]) hopener⟩
  · refine ⟨bs, hserver, h.setSocket hsk ?_ rfl⟩
    rw [hreading]
    simp
  · refine ⟨bs ++ [request fromjson c p errmsg os], run_concat hserver hu, ?_⟩
    obtain ⟨o, conn, conn', ho, hreader, hconnections, hleaves⟩ := Server.leaves_of_step hu hfault
    refine h.set hsk ?_ rfl hconnections ?_ rfl
    · intro d hd
      exact Server.openBody_packet_of_ne hd _ _ _
    · rw [hleaves.reading]
      have hread := (Option.filter_eq_some_iff.mp hreader).2
      exact iff_of_true hread (by simp [taken, Socket.write])
  · refine ⟨bs ++ [.disconnect c], run_concat hserver hu, ?_⟩
    obtain ⟨conn, hreader, rfl⟩ := Server.eq_disconnect_of_step hu
    obtain ⟨conn', hconnections, hread, -⟩ := Server.connections_disconnect s.server c conn
    apply h.set hsk (fun d _ => rfl) rfl hconnections
    · rw [hread]
      simp [disconnected]
    · exact Option.or_none.symm
  · refine ⟨bs ++ [.work id read write], run_concat hserver hu, ?_⟩
    have hconnections := Server.connections_work hu
    refine ⟨by rw [hconnections]; exact h.length, ?_, ?_⟩
    · intro d sk conn hd hconn
      rw [hconnections] at hconn
      exact h.reading d sk conn hd hconn
    · intro d sk hd
      rw [Server.openBody_concat]
      exact (h.opener d sk hd).trans Option.or_none.symm
  · exact absurd hfault hu

variable (M hash) in
/-- Unless an exception has ended it, the server has come to its state by a run of its own, which
the sockets fit. -/
def Simulates (s : Host) : Prop :=
  s.server.fault = none →
    ∃ bs, run (Server.step M hash) Server.start bs = some s.server ∧ Fits bs s

/-- Before any connection is there. -/
theorem simulates_start : Simulates M hash start := by
  intro _
  refine ⟨[], rfl, rfl, ?_, ?_⟩
  · intro c sk conn hsk
    cases hsk
  · intro c sk hsk
    cases hsk

/-- **Every event of the host** is matched by one of the server, or by none. -/
theorem Simulates.step (h : Simulates M hash s)
    (hstep : Host.step M hash heap fromjson s a = some t) : Simulates M hash t := by
  intro hfault
  obtain ⟨bs, hserver, hfits⟩ := h (fault_of_step hstep)
  exact hfits.step hserver hstep hfault

/-- **What the server does in a run of the host** is a run of the server, if the run has not ended
in an exception. -/
theorem exists_server_run {as : List Action}
    (hrun : run (Host.step M hash heap fromjson) start as = some t)
    (hfault : t.server.fault = none) :
    ∃ bs, run (Server.step M hash) Server.start bs = some t.server ∧ Fits bs t :=
  run_invariant_of_step (fun _ _ _ hs hstep => Simulates.step hs hstep) simulates_start hrun hfault

end fits

/-- A packet with the id, as a client packs it. -/
def samplePacket (packetId : String) (cmdObj : BSONObj) : List UInt8 :=
  frame (printId (bytesOf packetId)) (bytesOf (BSON.text cmdObj))

/-- A REWIND. -/
def sampleRewind : BSONObj := [("cmd", .int 106), ("body", .obj [])]

/-- `fromjson` on the texts of the sample requests. -/
def sampleFromjson (text : List UInt8) : Option BSONObj :=
  [Server.sampleRequest 100, sampleRewind].find? fun o => bytesOf (BSON.text o) == text

end Host

end Zbroker
