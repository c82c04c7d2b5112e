import Zbroker.Client.Socket
import Zbroker.Server.Reception
import Zbroker.Server.Replies
import Zbroker.Server.Writes

/-!
# Calls: one request at a time

`Proxy#send_packet` sends a request and reads until the response is there, so a client has at most
one request under way on its connection. The server does not rely on that, and what it makes of
pipelined requests is another matter; this is about clients as they are.

* `Caller` — a client at the other end of a connection, with the bytes it has sent that are still on
  their way.
* `Net`, `Net.step` — the server with its sockets, and a client for each of them. Requests arrive in
  pieces, responses are sent in pieces, completions come in any order, connections are lost.
* `exchange c` — the request that an event takes on the connection `c`, with the answer to it.
* `Phase` — where a call is: not made, asked, or answered. `Turn` — what an event of the net does to
  one connection and its client. **`Phase.turn`**: it leads from phase to phase.
* **`returned_eq`**: the calls that have returned are the requests that the connection has taken, in
  their order, each with its own answer; at most one more was taken, the one that is waited for.
Each connection has one line (`Lines`), from its client over the wire to its socket; by induction over the
events, which move one line and no other (`only_of_caller`, `only_of_socket`).
-/

namespace Zbroker

open Found.Chunks Found.Transition

/-! ## The clients -/

/-- A client at the other end of a connection. -/
structure Caller where
  /-- The bytes that were sent and have not arrived. -/
  flight : List UInt8
  /-- The request whose response is waited for. -/
  awaiting : Option (List UInt8)
  /-- How many of the bytes received have been read. -/
  consumed : Nat
  /-- The requests whose calls have returned, with what `recv_packet` gave. The program does not
  store this. -/
  returned : List (List UInt8 × DecodedPacket)

namespace Caller

/-- After `TCPSocket.new`. -/
def new : Caller := ⟨[], none, 0, []⟩

/-- `@socket.send(packet.data,0)`, at the start of a call.
Source: `proxy.rb`, `Proxy#send_packet` -/
def send (data : List UInt8) (k : Caller) : Option Caller :=
  if k.awaiting.isNone then some { k with flight := k.flight ++ data, awaiting := some data }
  else none

/-- `recv_packet` returns, and the call with it: the socket is what has been received and not read,
in the chunks in which the reads find it. A read that finds nothing waits, so that there is no such
step.
Source: `proxy.rb`, `Proxy#send_packet` -/
def recv (received : List UInt8) (socket : RubySocket) (k : Caller) : Option Caller :=
  k.awaiting.bind fun data =>
    if socket.contents = received.drop k.consumed ∧ socket.ending.isSome then
      match recvPacket socket with
      | (.error _, _) => none
      | (.ok p, rest) =>
          some { k with
            awaiting := none, consumed := received.length - rest.contents.length
            returned := k.returned ++ [(data, p)] }
    else none

end Caller

/-- The server with its sockets, and their clients. -/
structure Net where
  host : Host
  callers : List Caller

/-- What a client brings about on a host: a connection, or bytes that arrive. -/
def Host.Action.fromClient : Host.Action → Bool
  | .accept => true
  | .socket _ (.arrive _) => true
  | _ => false

namespace Net

/-- The start of the program. -/
def start : Net := ⟨Host.start, []⟩

/-- The events. -/
inductive Action where
  /-- A client connects. -/
  | connect
  /-- A client begins a call. -/
  | send (c : Nat) (data : List UInt8)
  /-- So many of the bytes that are on their way arrive. -/
  | arrive (c n : Nat)
  /-- The call of a client returns. -/
  | recv (c : Nat) (socket : RubySocket)
  /-- An event of the host that no client brings about. -/
  | host (a : Host.Action)

/-- The net after an event of a client. -/
def setCaller (c : Nat) (k : Caller) (s : Net) : Net := { s with callers := s.callers.set c k }

variable (M : Mongo) (hash : BSONObj → String) (heap : Heap)
  (fromjson : List UInt8 → Option BSONObj)

/-- An event. -/
def step (s : Net) : Action → Option Net
  | .connect =>
      (Host.step M hash heap fromjson s.host .accept).map fun t => ⟨t, s.callers ++ [Caller.new]⟩
  | .send c data => (s.callers[c]?).bind fun k => (k.send data).map fun k' => s.setCaller c k'
  | .arrive c n =>
      (s.callers[c]?).bind fun k =>
        let bytes := k.flight.take n
        (Host.step M hash heap fromjson s.host (.socket c (.arrive bytes))).map fun t =>
          ⟨t, s.callers.set c { k with flight := k.flight.drop n }⟩
  | .recv c socket =>
      (s.host.sockets[c]?).bind fun sk =>
        (s.callers[c]?).bind fun k => (k.recv sk.received socket).map fun k' => s.setCaller c k'
  | .host a =>
      if a.fromClient then none
      else (Host.step M hash heap fromjson s.host a).map fun t => { s with host := t }

end Net

/-! ## What is exchanged -/

/-- A request as a client packs it when the numbers of its characters and of its bytes are the
same. -/
def IsRequest (data : List UInt8) : Prop :=
  ∃ packetId body : List UInt8, packetId.length = packetIdLength ∧
    body.length + packetIdLength < 2147483648 ∧ data = frame packetId body

/-- The bytes of a response. -/
def responseBytes (M : Mongo) (r : Reply) : List UInt8 :=
  frame (printId (bytesOf r.packetId)) (bytesOf (M.jsonString r.body))

/-- A response as `recv_packet` is to return it. -/
def responsePacket (M : Mongo) (r : Reply) : DecodedPacket :=
  ⟨RubyString.binary (printId (bytesOf r.packetId)),
    some (RubyString.binary (bytesOf (M.jsonString r.body)))⟩

/-- The length of a response on the wire. -/
theorem length_responseBytes {M : Mongo} {r : Reply} (h : r.Within M) :
    (responseBytes M r).length =
      headerLength + packetIdLength + (bytesOf (M.jsonString r.body)).length :=
  length_frame h.packetId h.body

/-- The request that an event takes on the connection, with the answer to it. -/
def Net.exchange (c : Nat) (s : Net) (a : Net.Action) (t : Net) : Option (List UInt8 × Reply) :=
  match a with
  | .host (.bodyRead d _ _) =>
      if d = c then
        (s.host.sockets[c]?).bind fun sk =>
          match sk.reading with
          | .body field =>
              (t.host.server.sent c).head?.map fun reply =>
                (field.val ++ sk.incoming.take field.decode, reply)
          | _ => none
      else none
  | _ => none

/-! ## Where a call is -/

/-- What is left of the request `data` on its way into the server. Nothing more arrives on a
connection that is lost. -/
structure Wire (sk : Socket) (k : Caller) (data : List UInt8) : Prop where
  arrived : sk.reading.begun ++ sk.incoming <+: data
  left : sk.ended = false → sk.reading.begun ++ sk.incoming ++ k.flight = data

/-- The call of a client that was answered like that. -/
def answeredCall (M : Mongo) (e : List UInt8 × Reply) : List UInt8 × DecodedPacket :=
  (e.1, responsePacket M e.2)

/-- Where the call of a client is, when `es` was exchanged on its connection. -/
inductive Phase (M : Mongo) (sk : Socket) (k : Caller) (es : List (List UInt8 × Reply)) : Prop
  /-- All that was exchanged has returned, and been received; a request may be on its way. -/
  | settled (data : List UInt8)
      (hawaiting : k.awaiting = none ∧ data = [] ∨ k.awaiting = some data ∧ IsRequest data)
      (hwire : Wire sk k data) (hreturned : k.returned = es.map (answeredCall M))
      (hread : k.consumed = sk.received.length) (hall : sk.received = sk.packed.flatten)
  /-- The request that is waited for was the last that was taken. -/
  | answered (es' : List (List UInt8 × Reply)) (data : List UInt8) (reply : Reply)
      (hes : es = es' ++ [(data, reply)]) (hawaiting : k.awaiting = some data)
      (hwire : Wire sk k []) (hreturned : k.returned = es'.map (answeredCall M))
      (hread : k.consumed = (es'.map fun e => responseBytes M e.2).flatten.length)

/-- A connection and its client, when `es` was exchanged there. -/
structure Line (M : Mongo) (sk : Socket) (k : Caller) (es : List (List UInt8 × Reply)) : Prop where
  orderly : sk.Orderly
  packed : sk.packed = es.map fun e => responseBytes M e.2
  within : ∀ e ∈ es, e.2.Within M
  phase : Phase M sk k es

/-- What an event of the net does to a connection and its client, and what is exchanged by it. -/
inductive Turn (M : Mongo) (heap : Heap) (sk : Socket) (k : Caller) :
    Option (List UInt8 × Reply) → Socket → Caller → Prop
  | none : Turn M heap sk k none sk k
  | send (data : List UInt8) (k' : Caller) (hdata : IsRequest data) (h : k.send data = some k') :
      Turn M heap sk k none sk k'
  | arrive (n : Nat) (hended : sk.ended = false) :
      Turn M heap sk k none { sk with incoming := sk.incoming ++ k.flight.take n }
        { k with flight := k.flight.drop n }
  | recv (socket : RubySocket) (k' : Caller) (hheader : headerSize ≤ socket.chunk.length)
      (h : k.recv sk.received socket = some k') : Turn M heap sk k none sk k'
  | socket (e : Socket.Event) (sk' : Socket) (hserver : ∀ bytes, e ≠ .arrive bytes)
      (h : sk.step e = some sk') : Turn M heap sk k none sk' k
  | header (field : HeaderField) (hreading : sk.reading = .header)
      (hfield : field.val = sk.incoming.take headerLength) :
      Turn M heap sk k none
        { sk with incoming := sk.incoming.drop headerLength, reading := .body field } k
  | body (field : HeaderField) (p : InPacket) (reply : Reply) (opener : Option BSONObj)
      (closes : Nat) (hreading : sk.reading = .body field)
      (hp : receive heap field sk.incoming = .ok p) (hreply : reply.Within M) :
      Turn M heap sk k (some (field.val ++ sk.incoming.take field.decode, reply))
        (Socket.write (responseBytes M reply)
          { sk with
            incoming := sk.incoming.drop p.bodyLength, reading := .header
            opener := opener, closes := closes }) k
  | disconnect (closes : Nat) (hreading : sk.reading = .header) :
      Turn M heap sk k none { sk with reading := .none, closes := closes } k

section turn

variable {M : Mongo} {heap : Heap} {sk sk' : Socket} {k k' : Caller} {data : List UInt8}
  {es : List (List UInt8 × Reply)} {see : Option (List UInt8 × Reply)}

/-- What has been read and what has arrived stays, or is cut on a connection that is lost. -/
theorem Wire.of_incoming (h : Wire sk k data)
    (harrived : sk'.reading.begun ++ sk'.incoming <+: sk.reading.begun ++ sk.incoming)
    (hleft : sk'.ended = false → sk.ended = false ∧
      sk'.reading.begun ++ sk'.incoming = sk.reading.begun ++ sk.incoming) :
    Wire sk' k data := by
  refine ⟨harrived.trans h.arrived, ?_⟩
  intro hended
  obtain ⟨hbefore, heq⟩ := hleft hended
  rw [heq]
  exact h.left hbefore

/-- A part of what has arrived is read. -/
theorem Wire.of_same (h : Wire sk k data)
    (hsame : sk'.reading.begun ++ sk'.incoming = sk.reading.begun ++ sk.incoming)
    (hended : sk'.ended = false → sk.ended = false) : Wire sk' k data :=
  h.of_incoming (by rw [hsame]) fun hnot => ⟨hended hnot, hsame⟩

/-- What a socket does by itself, when nothing arrives. -/
theorem socketStep_frame {e : Socket.Event} (hserver : ∀ bytes, e ≠ .arrive bytes)
    (h : sk.step e = some sk') :
    sk'.packed = sk.packed ∧ sk.received <+: sk'.received ∧
      sk'.reading.begun ++ sk'.incoming <+: sk.reading.begun ++ sk.incoming ∧
        (sk'.ended = false → sk.ended = false ∧
          sk'.reading.begun ++ sk'.incoming = sk.reading.begun ++ sk.incoming) := by
  rcases e with bytes | _ | ⟨i, bytes⟩ | i | i
  · exact absurd rfl (hserver bytes)
  · cases h
    exact ⟨rfl, List.prefix_refl _, List.prefix_refl _, fun hended => by cases hended⟩
  · obtain ⟨w, -, h⟩ := Option.bind_eq_some_iff.mp h
    split_ifs at h
    cases h
    exact ⟨rfl, List.prefix_append _ _, List.prefix_refl _, fun hended => ⟨hended, rfl⟩⟩
  · obtain ⟨w, -, h⟩ := Option.bind_eq_some_iff.mp h
    split_ifs at h
    cases h
    exact ⟨rfl, List.prefix_refl _, List.prefix_refl _, fun hended => ⟨hended, rfl⟩⟩
  · obtain ⟨w, -, rfl⟩ := Option.map_eq_some_iff.mp h
    refine ⟨rfl, List.prefix_refl _, ?_, fun hended => by cases hended⟩
    exact (List.prefix_append_right_inj _).mpr (List.take_prefix _ _)

/-- The header of a request says how long the rest is. -/
theorem IsRequest.decode_add (h : IsRequest data) {field : HeaderField} {incoming : List UInt8}
    (harrived : field.val ++ incoming <+: data) :
    field.decode + headerLength = data.length ∧ packetIdLength ≤ field.decode := by
  obtain ⟨packetId, body, hid, hbody, rfl⟩ := h
  have hlength : (frame packetId body).length = headerLength + packetIdLength + body.length :=
    length_frame hid (by simp only [headerLength]; omega)
  obtain ⟨rest, hrest⟩ := harrived
  -- the field is the header of the request
  have hfield : field.val = printHeader (body.length + packetIdLength) := by
    have hheader : (printHeader (body.length + packetIdLength)).length = headerLength :=
      length_printHeader (by omega)
    rw [frame, List.append_assoc, List.append_assoc] at hrest
    exact (List.append_inj hrest (field.property.trans hheader.symm)).1
  have hdecode : field.decode = body.length + packetIdLength := by
    rw [← toSizeT_wrapInt_of_lt hbody]
    exact decode_printHeader (by omega) field.property hfield
  omega

/-- **The request that is taken** is the one that was sent, and all of it. -/
theorem IsRequest.taken (h : IsRequest data) {field : HeaderField} {incoming : List UInt8}
    (harrived : field.val ++ incoming <+: data) {p : InPacket}
    (hp : receive heap field incoming = .ok p) :
    field.val ++ incoming = data ∧ p.bodyLength = incoming.length ∧
      field.decode = incoming.length := by
  obtain ⟨hdecode, -⟩ := h.decode_add harrived
  have hle := harrived.length_le
  have hlength : (field.val ++ incoming).length = headerLength + incoming.length := by
    rw [List.length_append, field.property]
  unfold receive at hp
  split at hp
  · cases hp
  · split_ifs at hp with hshort
    cases hp
    exact ⟨harrived.eq_of_length (by omega), by dsimp only; omega, by omega⟩

/-- **A call returns** with the response that is there, when all of it is. -/
theorem Caller.eq_of_recv {received : List UInt8} {socket : RubySocket} {reply : Reply}
    (h : k.recv received socket = some k') (hawaiting : k.awaiting = some data)
    (hread : received.drop k.consumed <+: responseBytes M reply) (hreply : reply.Within M)
    (hheader : headerSize ≤ socket.chunk.length) :
    received.drop k.consumed = responseBytes M reply ∧
      k' = ⟨k.flight, none, received.length, k.returned ++ [answeredCall M (data, reply)]⟩ := by
  unfold recv at h
  rw [hawaiting, Option.bind_some] at h
  split_ifs at h with hsocket
  obtain ⟨hcontents, hending⟩ := hsocket
  rw [← hcontents] at hread ⊢
  have hall : socket.contents = responseBytes M reply := by
    by_contra hshort
    obtain ⟨e, rest, hrecv⟩ := recvPacket_of_dry hreply.packetId hreply.body hread hshort hheader
      hending
    rw [hrecv] at h
    cases h
  refine ⟨hall, ?_⟩
  rw [recvPacket_frame hreply.packetId hreply.body
    (hall.trans (List.append_nil _).symm) hheader] at h
  have hnil : (socket.drop (frame (printId (bytesOf reply.packetId))
      (bytesOf (M.jsonString reply.body))).length).contents = [] := by
    rw [Source.contents_drop, hall]
    exact List.drop_length
  dsimp only at h
  rw [hnil, List.length_nil, Nat.sub_zero] at h
  exact (Option.some.inj h).symm

/-- No call returns before its request was answered. -/
theorem Caller.recv_eq_none {received : List UInt8} {socket : RubySocket}
    (hread : received.drop k.consumed = []) : k.recv received socket = none := by
  unfold recv
  rcases k.awaiting with _ | data
  · rfl
  · rw [Option.bind_some]
    split_ifs with hsocket
    · obtain ⟨hcontents, hending⟩ := hsocket
      obtain ⟨e, hending⟩ := Option.isSome_iff_exists.mp hending
      rw [hread] at hcontents
      rw [recvPacket, Source.recv_of_ending headerSize hcontents hending]
    · rfl

/-- Only bytes have moved. -/
theorem Phase.of_wire (h : Phase M sk k es) (horderly : sk'.Orderly)
    (hwire : ∀ data, Wire sk k data → Wire sk' k' data) (hpacked : sk'.packed = sk.packed)
    (hreceived : sk.received <+: sk'.received) (hawaiting : k'.awaiting = k.awaiting)
    (hreturned : k'.returned = k.returned) (hread : k'.consumed = k.consumed) :
    Phase M sk' k' es := by
  cases h with
  | settled data hw hdata hret hre hall =>
      have hsame : sk'.received = sk.received := by
        apply List.Sublist.antisymm _ hreceived.sublist
        rw [hall, ← hpacked]
        exact horderly.received.sublist
      exact .settled data (by rw [hawaiting]; exact hw) (hwire data hdata) (hreturned.trans hret)
        (by rw [hread, hre, hsame]) (by rw [hsame, hall, hpacked])
  | answered es' data reply hes hw hdata hret hre =>
      exact .answered es' data reply hes (hawaiting.trans hw) (hwire [] hdata) (hreturned.trans hret)
        (hread.trans hre)

/-- A call begins. -/
theorem Phase.send (h : Phase M sk k es) (hdata : IsRequest data) (hsend : k.send data = some k') :
    Phase M sk k' es := by
  unfold Caller.send at hsend
  split_ifs at hsend with hnone
  cases hsend
  rw [Option.isNone_iff_eq_none] at hnone
  cases h with
  | settled data' hw hwire hret hre hall =>
      have hnil : data' = [] := by
        rcases hw with ⟨-, hnil⟩ | ⟨hsome, -⟩
        · exact hnil
        · rw [hnone] at hsome
          cases hsome
      subst hnil
      have hbefore := List.prefix_nil.mp hwire.arrived
      refine .settled data (Or.inr ⟨rfl, hdata⟩) ⟨?_, ?_⟩ hret hre hall
      · rw [hbefore]
        exact List.nil_prefix
      · intro hended
        have hleft := hwire.left hended
        rw [hbefore, List.nil_append] at hleft ⊢
        show k.flight ++ data = data
        rw [hleft, List.nil_append]
  | answered es' data' reply hes hw =>
      rw [hnone] at hw
      cases hw

/-- A call returns. -/
theorem Phase.recv (h : Line M sk k es) {socket : RubySocket}
    (hheader : headerSize ≤ socket.chunk.length) (hrecv : k.recv sk.received socket = some k') :
    Phase M sk k' es := by
  obtain ⟨horderly, hpacked, hwithin, hphase⟩ := h
  cases hphase with
  | settled data hw hwire hret hre hall =>
      rw [Caller.recv_eq_none (by rw [hre, List.drop_length])] at hrecv
      cases hrecv
  | answered es' data reply hes hw hwire hret hre =>
      have hflatten : sk.packed.flatten =
          (es'.map fun e => responseBytes M e.2).flatten ++ responseBytes M reply := by
        rw [hpacked, hes, List.map_append, List.flatten_append]
        simp
      have hreply : reply.Within M := hwithin (data, reply) (by rw [hes]; simp)
      have hread : sk.received.drop k.consumed <+: responseBytes M reply := by
        have hdrop := horderly.received.drop k.consumed
        rw [hflatten, hre, List.drop_left] at hdrop
        rw [hre]
        exact hdrop
      obtain ⟨hall, rfl⟩ := Caller.eq_of_recv hrecv hw hread hreply hheader
      refine .settled [] (Or.inl ⟨rfl, rfl⟩) ⟨hwire.arrived, hwire.left⟩ ?_ rfl ?_
      · show k.returned ++ [answeredCall M (data, reply)] = es.map (answeredCall M)
        rw [hret, hes, List.map_append]
        rfl
      · have hlength := length_responseBytes hreply
        have hleft := congrArg List.length hall
        rw [List.length_drop] at hleft
        apply horderly.received.eq_of_length_le
        rw [hflatten, List.length_append, ← hre]
        simp only [headerLength] at hlength
        omega

/-- A request is taken, and answered. -/
theorem Phase.body (h : Line M sk k es) {field : HeaderField} {p : InPacket} (reply : Reply)
    (opener : Option BSONObj) (closes : Nat) (hreading : sk.reading = .body field)
    (hp : receive heap field sk.incoming = .ok p) :
    sk.received = sk.packed.flatten ∧
      Phase M (Socket.write (responseBytes M reply)
        { sk with
          incoming := sk.incoming.drop p.bodyLength, reading := .header
          opener := opener, closes := closes }) k
        (es ++ [(field.val ++ sk.incoming.take field.decode, reply)]) := by
  have hbegun : sk.reading.begun = field.val := by rw [hreading, Reading.begun]
  have hnot (harrived : sk.reading.begun ++ sk.incoming <+: []) : False := by
    have hlength := field.property
    rw [hbegun, List.prefix_nil, List.append_eq_nil_iff] at harrived
    rw [harrived.1] at hlength
    cases hlength
  cases h.phase with
  | settled data hw hwire hret hre hall =>
      rcases hw with ⟨-, hnil⟩ | ⟨hsome, hrequest⟩
      · rw [hnil] at hwire
        exact (hnot hwire.arrived).elim
      · have harrived := hwire.arrived
        rw [hbegun] at harrived
        obtain ⟨hdata, hlength, hdecode⟩ := hrequest.taken harrived hp
        have htaken : field.val ++ sk.incoming.take field.decode = data := by
          rw [hdecode, List.take_length, hdata]
        have hnothing : sk.incoming.drop p.bodyLength = [] := by
          rw [hlength, List.drop_length]
        refine ⟨hall, .answered es data reply (by rw [htaken]) hsome ⟨?_, ?_⟩ hret ?_⟩
        · show [] ++ sk.incoming.drop p.bodyLength <+: []
          rw [hnothing]
          exact List.prefix_refl _
        · intro hended
          have hleft := hwire.left hended
          rw [hbegun, hdata] at hleft
          show [] ++ sk.incoming.drop p.bodyLength ++ k.flight = []
          rw [hnothing]
          exact List.append_right_eq_self.mp hleft
        · rw [hre, hall, h.packed]
  | answered es' data reply' hes hw hwire => exact (hnot hwire.arrived).elim

/-- **A turn leads from phase to phase**, and keeps the rest. -/
theorem Line.turn (h : Line M sk k es) (hturn : Turn M heap sk k see sk' k') :
    Line M sk' k' (es ++ see.toList) := by
  have hkept (horderly : sk'.Orderly) (hpacked : sk'.packed = sk.packed)
      (hphase : Phase M sk' k' es) : Line M sk' k' (es ++ []) := by
    rw [List.append_nil]
    exact ⟨horderly, hpacked.trans h.packed, h.within, hphase⟩
  have horderly := h.orderly
  cases hturn with
  | none => exact hkept horderly rfl h.phase
  | send data k' hdata hsend => exact hkept horderly rfl (h.phase.send hdata hsend)
  | arrive n hended =>
      have horderly' : Socket.Orderly { sk with incoming := sk.incoming ++ k.flight.take n } :=
        horderly.of_eq rfl rfl rfl rfl
      refine hkept horderly' rfl (h.phase.of_wire horderly' ?_ rfl (List.prefix_refl _) rfl rfl rfl)
      intro data hwire
      have hleft := hwire.left hended
      have hsplit :
          sk.reading.begun ++ (sk.incoming ++ k.flight.take n) ++ k.flight.drop n = data := by
        rw [← hleft, List.append_assoc, List.append_assoc, List.append_assoc,
          List.take_append_drop]
      exact ⟨⟨_, hsplit⟩, fun _ => hsplit⟩
  | recv socket k' hheader hrecv => exact hkept horderly rfl (Phase.recv h hheader hrecv)
  | socket e sk' hserver he =>
      obtain ⟨hpacked, hreceived, harrived, hleft⟩ := socketStep_frame hserver he
      have horderly' := horderly.step he
      exact hkept horderly' hpacked (h.phase.of_wire horderly'
        (fun data hwire => hwire.of_incoming harrived hleft) hpacked hreceived rfl rfl rfl)
  | header field hreading hfield =>
      have horderly' : Socket.Orderly { sk with
          incoming := sk.incoming.drop headerLength, reading := .body field } :=
        horderly.of_eq rfl rfl rfl rfl
      have hsame : field.val ++ sk.incoming.drop headerLength = sk.reading.begun ++ sk.incoming := by
        rw [hreading, hfield, List.take_append_drop]
        rfl
      exact hkept horderly' rfl (h.phase.of_wire horderly' (fun data hwire => hwire.of_same hsame id)
        rfl (List.prefix_refl _) rfl rfl rfl)
  | body field p reply opener closes hreading hp hreply =>
      obtain ⟨hall, hphase⟩ := Phase.body h reply opener closes hreading hp
      have htaken : Socket.Orderly { sk with
          incoming := sk.incoming.drop p.bodyLength, reading := .header
          opener := opener, closes := closes } := horderly.of_eq rfl rfl rfl rfl
      refine ⟨htaken.write hall _, ?_, ?_, hphase⟩
      · show sk.packed ++ [responseBytes M reply] = _
        rw [h.packed, List.map_append]
        rfl
      · intro e he
        rcases List.mem_append.mp he with hold | hnew
        · exact h.within e hold
        · rw [List.mem_singleton.mp hnew]
          exact hreply
  | disconnect closes hreading =>
      have horderly' : Socket.Orderly { sk with reading := .none, closes := closes } :=
        horderly.of_eq rfl rfl rfl rfl
      have hsame : Reading.none.begun ++ sk.incoming = sk.reading.begun ++ sk.incoming := by
        rw [hreading]
        rfl
      exact hkept horderly' rfl (h.phase.of_wire horderly' (fun data hwire => hwire.of_same hsame id)
        rfl (List.prefix_refl _) rfl rfl rfl)

end turn

/-! ## The events of the net -/

namespace Net

/-- What is asked of the clients: their requests are frames, and the header of a response is there
when they begin to read it. -/
def Action.Proper : Action → Prop
  | .send _ data => IsRequest data
  | .recv _ socket => headerSize ≤ socket.chunk.length
  | _ => True

/-- No other connection changes than `d`, whose socket and client are `sk` and `k` after it. -/
structure Only (d : Nat) (sk : Socket) (k : Caller) (s t : Net) : Prop where
  socket : t.host.sockets[d]? = some sk
  caller : t.callers[d]? = some k
  sockets : ∀ c ≠ d, t.host.sockets[c]? = s.host.sockets[c]?
  callers : ∀ c ≠ d, t.callers[c]? = s.callers[c]?
  lengths : t.host.sockets.length = s.host.sockets.length ∧ t.callers.length = s.callers.length

/-- What an event does. -/
inductive Effect (M : Mongo) (heap : Heap) (s : Net) (a : Action) (t : Net) : Prop
  | connect (hsockets : t.host.sockets = s.host.sockets ++ [Socket.new])
      (hcallers : t.callers = s.callers ++ [Caller.new]) (hsee : ∀ c, exchange c s a t = none)
  | same (hsockets : t.host.sockets = s.host.sockets) (hcallers : t.callers = s.callers)
      (hsee : ∀ c, exchange c s a t = none)
  | turn (d : Nat) (sk sk' : Socket) (k k' : Caller) (hsk : s.host.sockets[d]? = some sk)
      (hk : s.callers[d]? = some k) (honly : Only d sk' k' s t)
      (hturn : Turn M heap sk k (exchange d s a t) sk' k')
      (hsee : ∀ c ≠ d, exchange c s a t = none)

section events

variable {M : Mongo} {hash : BSONObj → String} {heap : Heap} {fromjson : List UInt8 → Option BSONObj}
  {s t : Net} {a : Action}

/-- A client has changed. -/
theorem only_of_caller {d : Nat} {sk : Socket} {k k' : Caller} (hsk : s.host.sockets[d]? = some sk)
    (hk : s.callers[d]? = some k) (hhost : t.host = s.host)
    (hcallers : t.callers = s.callers.set d k') : Only d sk k' s t := by
  obtain ⟨hd, -⟩ := List.getElem?_eq_some_iff.mp hk
  refine ⟨by rw [hhost]; exact hsk, ?_, fun c _ => by rw [hhost], ?_, ?_⟩
  · rw [hcallers]
    exact List.getElem?_set_self hd
  · intro c hc
    rw [hcallers]
    exact List.getElem?_set_ne hc.symm
  · rw [hhost, hcallers, List.length_set]
    exact ⟨rfl, rfl⟩

/-- A socket has changed. -/
theorem only_of_socket {d : Nat} {sk sk' : Socket} {k : Caller} (hsk : s.host.sockets[d]? = some sk)
    (hk : s.callers[d]? = some k) (hcallers : t.callers = s.callers)
    (hsockets : t.host.sockets = s.host.sockets.set d sk') : Only d sk' k s t := by
  obtain ⟨hd, -⟩ := List.getElem?_eq_some_iff.mp hsk
  refine ⟨?_, by rw [hcallers]; exact hk, ?_, fun c _ => by rw [hcallers], ?_⟩
  · rw [hsockets]
    exact List.getElem?_set_self hd
  · intro c hc
    rw [hsockets]
    exact List.getElem?_set_ne hc.symm
  · rw [hsockets, hcallers, List.length_set]
    exact ⟨rfl, rfl⟩

/-- An event of the host that no client brings about. -/
theorem host_effect {a : Host.Action} {u : Host} (hclient : a.fromClient = false)
    (hhost : Host.step M hash heap fromjson s.host a = some u)
    (hwithin : ∀ c cmdObj errmsg os v, Server.step M hash s.host.server
      (.packet c cmdObj errmsg os) = some v → ∀ reply ∈ v.sent c, reply.Within M)
    (hlength : s.callers.length = s.host.sockets.length) :
    Effect M heap s (.host a) { s with host := u } := by
  have hcaller {c : Nat} {sk : Socket} (hsk : s.host.sockets[c]? = some sk) :
      ∃ k, s.callers[c]? = some k := by
    obtain ⟨hc, -⟩ := List.getElem?_eq_some_iff.mp hsk
    exact ⟨_, List.getElem?_eq_getElem (hlength ▸ hc)⟩
  rcases Host.step_effect hhost with ⟨v, hv⟩ | ⟨c, e, sk, sk', hsk, he⟩ |
    ⟨c, sk, field, hsk, hreading, hfield⟩ |
    ⟨c, errmsg, os, sk, field, p, v, reply, data, hsk, hreading, hp, -, hv, hsent, hdata⟩ |
    ⟨c, sk, v, hsk, hreading, -, -⟩ | ⟨id, read, write, v, -⟩ | ⟨_, v, hfault⟩
  · cases hclient
  · obtain ⟨k, hk⟩ := hcaller hsk
    refine .turn c sk sk' k k hsk hk (only_of_socket hsk hk rfl rfl) (.socket e sk' ?_ he)
      fun _ _ => rfl
    rintro bytes rfl
    cases hclient
  · obtain ⟨k, hk⟩ := hcaller hsk
    exact .turn c sk _ k k hsk hk (only_of_socket hsk hk rfl rfl) (.header field hreading hfield)
      fun _ _ => rfl
  · obtain ⟨k, hk⟩ := hcaller hsk
    have hbytes : data = responseBytes M reply := by
      unfold Host.pack OutPacket.pack at hdata
      dsimp only at hdata
      split_ifs at hdata
      · exact (Except.ok.inj hdata).symm
      · cases hdata
    have hsee : exchange c s (.host (.bodyRead c errmsg os))
        { s with host := ⟨v, s.host.sockets.set c ((s.host.taken c p
          (Host.request fromjson c p errmsg os) sk).write data)⟩ } =
        some (field.val ++ sk.incoming.take field.decode, reply) := by
      simp only [exchange, if_pos, hsk, Option.bind_some, hreading, hsent, List.head?_cons,
        Option.map_some]
    refine .turn c sk _ k k hsk hk (only_of_socket hsk hk rfl rfl) ?_ ?_
    · rw [hsee, hbytes]
      exact .body field p reply _ _ hreading hp (hwithin c _ errmsg os v hv reply (by simp [hsent]))
    · intro d hd
      exact if_neg hd.symm
  · obtain ⟨k, hk⟩ := hcaller hsk
    exact .turn c sk _ k k hsk hk (only_of_socket hsk hk rfl rfl) (.disconnect _ hreading)
      fun _ _ => rfl
  · exact .same rfl rfl fun _ => rfl
  · refine .same rfl rfl fun d => ?_
    rcases a with _ | _ | _ | ⟨c, errmsg, os⟩ | _ | _
    case bodyRead =>
      unfold exchange
      dsimp only
      split_ifs
      · rcases s.host.sockets[d]? with _ | sk
        · rfl
        · rw [Option.bind_some, Server.sent_of_fault hfault]
          split <;> rfl
      · rfl
    all_goals rfl

/-- **What an event does**, if the clients are proper and the responses within the limits. -/
theorem step_effect (hstep : step M hash heap fromjson s a = some t) (hproper : a.Proper)
    (hwithin : ∀ c cmdObj errmsg os u, Server.step M hash s.host.server
      (.packet c cmdObj errmsg os) = some u → ∀ reply ∈ u.sent c, reply.Within M)
    (hlength : s.callers.length = s.host.sockets.length) : Effect M heap s a t := by
  rcases a with _ | ⟨c, data⟩ | ⟨c, n⟩ | ⟨c, socket⟩ | a
  · obtain ⟨u, hu, rfl⟩ := Option.map_eq_some_iff.mp hstep
    unfold Host.step at hu
    split_ifs at hu
    obtain ⟨v, -, rfl⟩ := Option.map_eq_some_iff.mp hu
    exact .connect rfl rfl fun _ => rfl
  · obtain ⟨k, hk, h⟩ := Option.bind_eq_some_iff.mp hstep
    obtain ⟨k', hsend, rfl⟩ := Option.map_eq_some_iff.mp h
    obtain ⟨hc, -⟩ := List.getElem?_eq_some_iff.mp hk
    have hsk := List.getElem?_eq_getElem (hlength ▸ hc)
    exact .turn c _ _ k k' hsk hk (only_of_caller hsk hk rfl rfl) (.send data k' hproper hsend)
      fun _ _ => rfl
  · obtain ⟨k, hk, h⟩ := Option.bind_eq_some_iff.mp hstep
    obtain ⟨u, hu, rfl⟩ := Option.map_eq_some_iff.mp h
    unfold Host.step at hu
    split_ifs at hu
    obtain ⟨sk, hsk, hu⟩ := Option.bind_eq_some_iff.mp hu
    obtain ⟨sk', harrive, rfl⟩ := Option.map_eq_some_iff.mp hu
    simp only [Socket.step] at harrive
    split_ifs at harrive with hended
    cases harrive
    obtain ⟨hc, -⟩ := List.getElem?_eq_some_iff.mp hk
    obtain ⟨hc', -⟩ := List.getElem?_eq_some_iff.mp hsk
    refine .turn c sk _ k _ hsk hk ⟨List.getElem?_set_self hc', List.getElem?_set_self hc,
      fun d hd => List.getElem?_set_ne hd.symm, fun d hd => List.getElem?_set_ne hd.symm,
      List.length_set, List.length_set⟩ (.arrive n (by simpa using hended)) fun _ _ => rfl
  · obtain ⟨sk, hsk, h⟩ := Option.bind_eq_some_iff.mp hstep
    obtain ⟨k, hk, h⟩ := Option.bind_eq_some_iff.mp h
    obtain ⟨k', hrecv, rfl⟩ := Option.map_eq_some_iff.mp h
    exact .turn c sk sk k k' hsk hk (only_of_caller hsk hk rfl rfl) (.recv socket k' hproper hrecv)
      fun _ _ => rfl
  · simp only [step] at hstep
    split_ifs at hstep with hclient
    obtain ⟨u, hu, rfl⟩ := Option.map_eq_some_iff.mp hstep
    exact host_effect (by simpa using hclient) hu hwithin hlength

/-- An event of the net is none or one of the host. -/
theorem host_of_step (hstep : step M hash heap fromjson s a = some t) :
    t.host = s.host ∨ ∃ b, Host.step M hash heap fromjson s.host b = some t.host := by
  rcases a with _ | ⟨c, data⟩ | ⟨c, n⟩ | ⟨c, socket⟩ | a
  · obtain ⟨u, hu, rfl⟩ := Option.map_eq_some_iff.mp hstep
    exact Or.inr ⟨_, hu⟩
  · obtain ⟨k, -, hstep⟩ := Option.bind_eq_some_iff.mp hstep
    obtain ⟨k', -, rfl⟩ := Option.map_eq_some_iff.mp hstep
    exact Or.inl rfl
  · obtain ⟨k, -, hstep⟩ := Option.bind_eq_some_iff.mp hstep
    obtain ⟨u, hu, rfl⟩ := Option.map_eq_some_iff.mp hstep
    exact Or.inr ⟨_, hu⟩
  · obtain ⟨sk, -, hstep⟩ := Option.bind_eq_some_iff.mp hstep
    obtain ⟨k, -, hstep⟩ := Option.bind_eq_some_iff.mp hstep
    obtain ⟨k', -, rfl⟩ := Option.map_eq_some_iff.mp hstep
    exact Or.inl rfl
  · simp only [step] at hstep
    split_ifs at hstep
    obtain ⟨u, hu, rfl⟩ := Option.map_eq_some_iff.mp hstep
    exact Or.inr ⟨_, hu⟩

/-- Every event keeps the host a run of the server. -/
theorem simulates_step (h : Host.Simulates M hash s.host)
    (hstep : step M hash heap fromjson s a = some t) : Host.Simulates M hash t.host := by
  rcases host_of_step hstep with heq | ⟨b, hb⟩
  · rw [heq]
    exact h
  · exact h.step hb

/-! ## The runs -/

/-- Every connection and its client are a line, when the net has taken the events `as`. -/
structure Lines (M : Mongo) (hash : BSONObj → String) (heap : Heap)
    (fromjson : List UInt8 → Option BSONObj) (as : List Action) (s : Net) : Prop where
  simulates : Host.Simulates M hash s.host
  length : s.callers.length = s.host.sockets.length
  line : ∀ c sk k, s.host.sockets[c]? = some sk → s.callers[c]? = some k →
    Line M sk k (observed (step M hash heap fromjson) (exchange c) start as)
  absent : ∀ c, s.host.sockets[c]? = none →
    observed (step M hash heap fromjson) (exchange c) start as = []

/-- Before any connection is there. -/
theorem lines_start : Lines M hash heap fromjson [] start := by
  refine ⟨Host.simulates_start, rfl, ?_, fun c _ => rfl⟩
  intro c sk k hsk
  cases hsk

/-- A connection and its client at their start. -/
theorem line_new (M : Mongo) : Line M Socket.new Caller.new [] :=
  ⟨Socket.orderly_new, rfl, fun _ he => absurd he List.not_mem_nil,
    .settled [] (Or.inl ⟨rfl, rfl⟩) ⟨List.prefix_refl _, fun _ => rfl⟩ rfl rfl rfl⟩

/-- **Every event keeps the lines.** -/
theorem Lines.step {as : List Action} (h : Lines M hash heap fromjson as s)
    (hhash : ∀ body, (hash body).utf8ByteSize ≤ packetIdLength) (hterse : ShortRefusal M)
    (hrun : run (Net.step M hash heap fromjson) start as = some s)
    (hstep : Net.step M hash heap fromjson s a = some t) (hproper : a.Proper) :
    Lines M hash heap fromjson (as ++ [a]) t := by
  have hwithin : ∀ c cmdObj errmsg os u, Server.step M hash s.host.server
      (.packet c cmdObj errmsg os) = some u → ∀ reply ∈ u.sent c, reply.Within M := by
    intro c cmdObj errmsg os u hu reply hreply
    obtain ⟨bs, hserver, -⟩ := h.simulates (Server.fault_of_step hu)
    exact Server.within_of_step (Server.sharing_run hserver (Server.fault_of_step hu)) hhash hterse
      hu hreply
  have hobserved (c : Nat) : observed (Net.step M hash heap fromjson) (exchange c) start (as ++ [a]) =
      observed (Net.step M hash heap fromjson) (exchange c) start as ++ (exchange c s a t).toList :=
    observed_concat hrun hstep
  have hsimulates := simulates_step h.simulates hstep
  rcases step_effect hstep hproper hwithin h.length with ⟨hsockets, hcallers, hsee⟩ |
    ⟨hsockets, hcallers, hsee⟩ | ⟨d, sk, sk', k, k', hsk, hk, honly, hturn, hsee⟩
  · refine ⟨hsimulates, ?_, ?_, ?_⟩
    · rw [hsockets, hcallers, List.length_append, List.length_append, h.length]
      rfl
    · intro c sk k hsk hk
      rw [hobserved, hsee, Option.toList_none, List.append_nil]
      rw [hsockets] at hsk
      rw [hcallers] at hk
      rcases Server.getElem_concat_cases hsk with hold | ⟨hlast, rfl⟩
      · rcases Server.getElem_concat_cases hk with hk | ⟨hlast, -⟩
        · exact h.line c sk k hold hk
        · rw [hlast, h.length, List.getElem?_eq_none le_rfl] at hold
          cases hold
      · rcases Server.getElem_concat_cases hk with hk | ⟨-, rfl⟩
        · rw [hlast, ← h.length, List.getElem?_eq_none le_rfl] at hk
          cases hk
        · rw [h.absent c (by rw [hlast]; exact List.getElem?_eq_none le_rfl)]
          exact line_new M
    · intro c hc
      rw [hobserved, hsee, Option.toList_none, List.append_nil]
      apply h.absent
      rw [hsockets, List.getElem?_eq_none_iff, List.length_append] at hc
      exact List.getElem?_eq_none (by omega)
  · refine ⟨hsimulates, by rw [hsockets, hcallers, h.length], ?_, ?_⟩
    · intro c sk k hsk hk
      rw [hobserved, hsee, Option.toList_none, List.append_nil]
      exact h.line c sk k (hsockets ▸ hsk) (hcallers ▸ hk)
    · intro c hc
      rw [hobserved, hsee, Option.toList_none, List.append_nil]
      exact h.absent c (hsockets ▸ hc)
  · refine ⟨hsimulates, by rw [honly.lengths.1, honly.lengths.2, h.length], ?_, ?_⟩
    · intro c sk₁ k₁ hsk₁ hk₁
      rw [hobserved]
      by_cases hc : c = d
      · subst hc
        rw [honly.socket] at hsk₁
        rw [honly.caller] at hk₁
        cases hsk₁
        cases hk₁
        exact (h.line c sk k hsk hk).turn hturn
      · rw [hsee c hc, Option.toList_none, List.append_nil]
        rw [honly.sockets c hc] at hsk₁
        rw [honly.callers c hc] at hk₁
        exact h.line c sk₁ k₁ hsk₁ hk₁
    · intro c hc
      have hne : c ≠ d := by
        rintro rfl
        rw [honly.socket] at hc
        cases hc
      rw [hobserved, hsee c hne, Option.toList_none, List.append_nil]
      rw [honly.sockets c hne] at hc
      exact h.absent c hc

/-- **The lines of every run.** -/
theorem lines_run (hhash : ∀ body, (hash body).utf8ByteSize ≤ packetIdLength)
    (hterse : ShortRefusal M) {as : List Action}
    (hrun : run (Net.step M hash heap fromjson) start as = some t)
    (hproper : ∀ a ∈ as, a.Proper) : Lines M hash heap fromjson as t :=
  @run_history_invariant _ _ (Net.step M hash heap fromjson)
    (fun as t => (∀ a ∈ as, a.Proper) → Lines M hash heap fromjson as t) start
    (fun _ _ a _ hs hlines hstep hall =>
      (hlines fun b hb => hall b (List.mem_append_left _ hb)).step hhash hterse hs hstep
        (hall a (List.mem_append_right _ List.mem_cons_self)))
    (fun _ => lines_start) t as hrun hproper

end events

/-- **Calls.** All along a run of the net, whatever the pieces in which requests and responses travel,
the order of the completions and what the other clients do: the calls of a client that have returned
are the first requests that its connection has taken, in their order, each with the answer to it;
at most one more was taken, which is the one that the client waits for; and what the client has
received is the beginning of the answers. -/
theorem returned_eq (M : Mongo) (hash : BSONObj → String) (heap : Heap)
    (fromjson : List UInt8 → Option BSONObj)
    (hhash : ∀ body, (hash body).utf8ByteSize ≤ packetIdLength) (hterse : ShortRefusal M)
    (as : List Action) (t : Net) (hrun : run (step M hash heap fromjson) start as = some t)
    (hproper : ∀ a ∈ as, a.Proper) (c : Nat) (sk : Socket) (k : Caller)
    (hsk : t.host.sockets[c]? = some sk) (hk : t.callers[c]? = some k) :
    ∃ es es', observed (step M hash heap fromjson) (exchange c) start as = es ++ es' ∧
      k.returned = es.map (answeredCall M) ∧
      (es' = [] ∨ ∃ data reply, k.awaiting = some data ∧ es' = [(data, reply)]) ∧
      sk.received <+: ((es ++ es').map fun e => responseBytes M e.2).flatten := by
  obtain ⟨horderly, hpacked, -, hphase⟩ := (lines_run hhash hterse hrun hproper).line c sk k hsk hk
  have hreceived := horderly.received
  rw [hpacked] at hreceived
  cases hphase with
  | settled data hw hwire hret =>
      refine ⟨_, [], (List.append_nil _).symm, hret, Or.inl rfl, ?_⟩
      rw [List.append_nil]
      exact hreceived
  | answered es' data reply hes hw hwire hret =>
      refine ⟨es', [(data, reply)], hes, hret, Or.inr ⟨data, reply, hw, rfl⟩, ?_⟩
      rw [← hes]
      exact hreceived

/-- The replacement of a response is short. -/
theorem shortRefusal_plain : ShortRefusal Mongo.plain := by
  unfold ShortRefusal
  decide +kernel

/-- The sample packets are requests. -/
theorem isRequest_samplePacket {cmdObj : BSONObj} (h : (BSON.text cmdObj).utf8ByteSize < 1000) :
    IsRequest (Host.samplePacket "" cmdObj) := by
  refine ⟨_, _, length_printId_of_le (by decide), ?_, rfl⟩
  rw [length_bytesOf, packetIdLength]
  omega

/-- The answer to a sample request. -/
def sampleReply (extra : String) : Reply :=
  ⟨Server.sampleHash [], packResponse Mongo.plain .ok extra none⟩

/-- The answer to the OPEN, which has arrived at once. -/
def sampleArrived : RubySocket :=
  ⟨[responseBytes Mongo.plain (sampleReply "Open Action")], some (.standard "IO::WaitReadable"),
    by decide +kernel⟩

/-- An OPEN and a REWIND, which is taken before `handle_write` for the answer to the OPEN. The REWIND
arrives in two pieces, and its answer is sent in two. -/
def sampleCalls : List Action :=
  [.connect, .send 0 (Host.samplePacket "" (Server.sampleRequest 100)), .arrive 0 1000,
    .host (.headerRead 0), .host (.bodyRead 0 none []),
    .host (.socket 0 (.send 0 (responseBytes Mongo.plain (sampleReply "Open Action")))),
    .recv 0 sampleArrived, .send 0 (Host.samplePacket "" Host.sampleRewind),
    .arrive 0 20, .host (.headerRead 0), .arrive 0 1000, .host (.bodyRead 0 none []),
    .host (.socket 0 (.send 1 ((responseBytes Mongo.plain (sampleReply "Rewind Action")).take 20))),
    .host (.socket 0 (.written 0)),
    .host (.socket 0 (.send 0 ((responseBytes Mongo.plain (sampleReply "Rewind Action")).drop 20)))]

/-- The clients of the sample do what `send_packet` does. -/
theorem proper_sampleCalls : ∀ a ∈ sampleCalls, a.Proper := by
  have hheader : headerSize ≤ sampleArrived.chunk.length := by decide +kernel
  simp only [sampleCalls, List.forall_mem_cons]
  exact ⟨trivial, isRequest_samplePacket (by decide +kernel), trivial, trivial, trivial, trivial,
    hheader, isRequest_samplePacket (by decide +kernel), trivial, trivial, trivial,
    trivial, trivial, trivial, trivial, fun a ha => absurd ha List.not_mem_nil⟩

/-- One call that has returned, and one that has not. -/
theorem returned_eq_sample : ∃ t sk k es es',
    run (step Mongo.plain Server.sampleHash sampleHeap Host.sampleFromjson) start sampleCalls =
        some t ∧ t.host.sockets[0]? = some sk ∧ t.callers[0]? = some k ∧ k.returned.length = 1 ∧
      observed (step Mongo.plain Server.sampleHash sampleHeap Host.sampleFromjson) (exchange 0) start
        sampleCalls = es ++ es' ∧ k.returned = es.map (answeredCall Mongo.plain) ∧
      (es' = [] ∨ ∃ data reply, k.awaiting = some data ∧ es' = [(data, reply)]) ∧
      sk.received <+: ((es ++ es').map fun e => responseBytes Mongo.plain e.2).flatten := by
  obtain ⟨t, ht, hend⟩ := (Option.any_eq_true _ _).mp
    (show (run (step Mongo.plain Server.sampleHash sampleHeap Host.sampleFromjson) start
      sampleCalls).any (fun t => (t.host.sockets[0]?).isSome &&
        (t.callers[0]?).any fun k => decide (k.returned.length = 1)) = true by decide +kernel)
  obtain ⟨hsocket, hcaller⟩ := Bool.and_eq_true_iff.mp hend
  obtain ⟨sk, hsk⟩ := Option.isSome_iff_exists.mp hsocket
  obtain ⟨k, hk, hlength⟩ := (Option.any_eq_true _ _).mp hcaller
  obtain ⟨es, es', h⟩ := returned_eq Mongo.plain Server.sampleHash sampleHeap Host.sampleFromjson
    (fun _ => by rw [Server.sampleHash]; decide) shortRefusal_plain sampleCalls t ht
    proper_sampleCalls 0 sk k hsk hk
  exact ⟨t, sk, k, es, es', ht, hsk, hk, of_decide_eq_true hlength, h⟩

end Net

end Zbroker
