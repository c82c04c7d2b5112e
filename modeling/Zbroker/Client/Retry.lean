import Zbroker.Client.Proxy
import Zbroker.Client.Reception

/-!
# Opening a client again after a failed open

`Proxy#open` stores the socket as soon as it is connected, and refuses to open a proxy that has one.

* `Healthy lib remote good` — the broker accepts the connection, and answers with a response of code
  `OK`.
* `Client.Serves lib c` — reads, writes and rewinds of the client's mode are answered, however many.
* `Retryable lib before after` — the client is as before the open that failed, no proxy is open, and
  when a healthy broker is there the client can be opened, and serves then.
* `Remote.Refuses remote config` — there is no connection to the broker.
* **`serves_of_openWith`**: a new client that is opened with a healthy broker serves.
* **`retryable_iff`**: after an open that raises, the client can be opened again exactly when the proxy
  that is opened first had no connection. `openWith_of_kept` is what happens otherwise.
There are two outcomes of an open that raises (`openWith_new_cases`): the proxy was refused and nothing is
kept, or it is kept with its socket, and then every later open raises.
-/

namespace Zbroker

open Found.Chunks

/-- The library encodes the request. -/
def Encodes (lib : Libraries) (ops : RubyHash) : Prop := ∃ str, lib.encode ops = .ok str

/-- The socket has an answer of code `OK` to receive, whose header is in one chunk. -/
def Answered (lib : Libraries) (good : RubyHash → Prop) (socket : RubySocket) : Prop :=
  ∃ (p : ResponsePacket) (response : RubyHash),
    socket.contents = p.bytes ∧ headerSize ≤ socket.chunk.length ∧
      lib.parse (some (RubyString.binary p.body)) = .ok (.hash response) ∧
      RubyHash.lookup response (.str "response") = .int statusOk ∧ good response

/-- The broker accepts the connection, and answers a request with code `OK`. -/
structure Healthy (lib : Libraries) (remote : Remote) (good : RubyHash → Prop) : Prop where
  connects : ∀ host port, ∃ socket, remote.connect host port = .ok socket ∧ socket.contents = []
  answers : ∀ socket data, socket.contents = [] →
    ∃ socket', remote.send socket data = .ok socket' ∧ Answered lib good socket'

namespace Proxy

/-- The proxy is open, and no answer is on its way. -/
structure Ready (p : Proxy) : Prop where
  socket : ∃ socket, p.socket = some socket ∧ socket.contents = []
  packetId : ∃ packetId, p.packetId = some packetId ∧ packetId.length ≤ packetIdSize

variable {lib : Libraries} {remote : Remote} {good : RubyHash → Prop} {p : Proxy}
  {options ops : RubyHash}

/-- **A request that is answered.** -/
theorem sendPacket_of_healthy {socket : RubySocket} (h : Healthy lib remote good)
    (hsocket : p.socket = some socket) (hidle : socket.contents = []) (packet : RubyPacket) :
    ∃ (socket' : RubySocket) (q : ResponsePacket) (response : RubyHash),
      p.sendPacket lib remote packet =
        (.ok (q.decoded, .hash response), { p with socket := some socket' }) ∧
      socket'.contents = [] ∧
      RubyHash.lookup response (.str "response") = .int statusOk ∧ good response := by
  obtain ⟨answered, hsend, q, response, hcontents, hheader, hparse, hcode, hgood⟩ :=
    h.answers socket packet.data.1.bytes hidle
  have hrecv : recvPacket answered = (.ok q.decoded, answered.drop q.bytes.length) :=
    recvPacket_bytes (by rw [hcontents, List.append_nil]) hheader
  refine ⟨answered.drop q.bytes.length, q, response, ?_, ?_, hcode, hgood⟩
  · rw [sendPacket, hsocket]
    dsimp only
    rw [hsend]
    dsimp only
    rw [hrecv]
    dsimp only
    rw [ResponsePacket.decoded, hparse]
  · rw [Source.contents_drop, hcontents, List.drop_length]

/-- A response of code `OK` passes. -/
theorem checkResponse_of_ok {response : RubyHash}
    (hcode : RubyHash.lookup response (.str "response") = .int statusOk) :
    checkResponse lib (.hash response) = .ok () := by
  rw [checkResponse, RubyValue.index, hcode]
  rfl

/-- An id of a response has the length that `packet_id=` allows. -/
theorem length_decoded (q : ResponsePacket) : q.decoded.packetId.length ≤ packetIdSize := by
  rw [ResponsePacket.decoded, length_binary, q.length_packetId]
  exact Nat.le_refl _

/-- **A proxy that is opened with a healthy broker** is ready. -/
theorem openWith_of_healthy (h : Healthy lib remote good) (hsocket : p.socket = none)
    (hencodes : Encodes lib (openOps options p.purpose)) :
    ∃ q, p.openWith lib remote options = (q, none) ∧ q.Ready := by
  obtain ⟨str, hstr⟩ := hencodes
  obtain ⟨socket, hconnect, hidle⟩ := h.connects p.host p.port
  obtain ⟨socket', packet, response, hsend, hempty, hcode, -⟩ :=
    @sendPacket_of_healthy _ _ _ { p with socket := some socket } socket h rfl hidle
      (RubyPacket.new str)
  refine ⟨{ p with socket := some socket', packetId := some packet.decoded.packetId }, ?_, ?_⟩
  · rw [openWith, hsocket, if_neg (by simp), hconnect]
    dsimp only
    rw [hstr]
    dsimp only
    rw [hsend]
    dsimp only
    rw [checkResponse_of_ok hcode]
  · exact ⟨⟨socket', rfl, hempty⟩, ⟨_, rfl, length_decoded packet⟩⟩

/-- **A request of a proxy that is ready**, with a healthy broker, is answered, and the proxy is ready
after it. -/
theorem request_of_healthy (h : Healthy lib remote good) (hp : p.Ready) (hencodes : Encodes lib ops) :
    ∃ (response : RubyHash) (q : Proxy), p.request lib remote ops = (.ok (.hash response), q) ∧
      good response ∧ q.Ready := by
  obtain ⟨str, hstr⟩ := hencodes
  obtain ⟨⟨socket, hsocket, hidle⟩, ⟨packetId, hid, hlen⟩⟩ := hp
  obtain ⟨socket', packet, response, hsend, hempty, hcode, hgood⟩ :=
    sendPacket_of_healthy h hsocket hidle ((RubyPacket.new str).setPacketId packetId)
  have hpacket : p.makePacket lib ops = .ok ((RubyPacket.new str).setPacketId packetId) := by
    rw [makePacket, hstr, hid]
    exact if_pos hlen
  refine ⟨response, { p with socket := some socket' }, ?_, hgood, ⟨socket', rfl, hempty⟩,
    ⟨packetId, hid, hlen⟩⟩
  rw [request, hpacket]
  dsimp only
  rw [hsend]
  dsimp only
  rw [checkResponse_of_ok hcode]
  rfl

/-- A read returns the documents of the response to its request. -/
theorem read_of_request {response : RubyHash} {q : Proxy}
    (h : p.request lib remote readOps = (.ok (.hash response), q)) :
    p.read lib remote = (.ok (RubyHash.lookup response (.str "docs")), q) := by
  rw [read, h]
  rfl

/-- A rewind whose request is answered succeeds. -/
theorem rewind_of_request {response : RubyValue} {q : Proxy}
    (h : p.request lib remote rewindOps = (.ok response, q)) :
    p.rewind lib remote = (.ok true, q) := by
  rw [rewind, h]

/-- A write whose request is answered succeeds. -/
theorem write_of_request {docs : List RubyValue} {response : RubyValue} {q : Proxy}
    (h : p.request lib remote (writeOps docs) = (.ok response, q)) :
    p.write lib remote docs = (.ok true, q) := by
  rw [write, h]

/-! ### What a failed open leaves -/

/-- Without a connection the proxy is as before. -/
theorem openWith_of_refused {e : RubyError} (hsocket : p.socket = none)
    (hconnect : remote.connect p.host p.port = .error e) :
    p.openWith lib remote options = (p, some e) := by
  rw [openWith, hsocket, if_neg (by simp), hconnect]

/-- A request keeps the socket. -/
theorem isSome_socket_sendPacket (packet : RubyPacket) (hsocket : p.socket.isSome = true) :
    (p.sendPacket lib remote packet).2.socket.isSome = true := by
  obtain ⟨socket, hp⟩ := Option.isSome_iff_exists.mp hsocket
  unfold sendPacket
  rw [hp]
  dsimp only
  rcases remote.send socket packet.data.1.bytes with e | sent
  · exact hsocket
  · dsimp only
    rcases recvPacket sent with ⟨e | ret, received⟩
    · rfl
    · dsimp only
      rcases lib.parse ret.body with e | response
      · rfl
      · rfl

/-- **With a connection the proxy keeps the socket**, whatever comes then. -/
theorem isSome_socket_openWith {socket : RubySocket} (hsocket : p.socket = none)
    (hconnect : remote.connect p.host p.port = .ok socket) :
    (p.openWith lib remote options).1.socket.isSome = true := by
  rw [openWith, hsocket, if_neg (by simp), hconnect]
  dsimp only
  rcases lib.encode (openOps options p.purpose) with e | str
  · rfl
  · dsimp only
    have hsent := @isSome_socket_sendPacket lib remote { p with socket := some socket }
      (RubyPacket.new str) rfl
    rcases hsend : sendPacket lib remote (RubyPacket.new str) { p with socket := some socket } with
      ⟨e | ⟨packet, response⟩, q⟩
    · rw [hsend] at hsent
      exact hsent
    · rw [hsend] at hsent
      dsimp only
      rcases checkResponse lib response with e | u
      · exact hsent
      · exact hsent

/-- A proxy with a socket is not opened. -/
theorem openWith_of_isSome (hsocket : p.socket.isSome = true) :
    p.openWith lib remote options = (p, some (.zbroker "Alread Opened")) := by
  rw [openWith, if_pos hsocket]

end Proxy

/-! ## An open client -/

/-- A call of a client that is open. -/
inductive ClientCall where
  | read
  | rewind
  | write (query doc : RubyValue)

namespace ClientCall

/-- The mode that the call needs. -/
def mode : ClientCall → Mode
  | .read | .rewind => .read
  | .write _ _ => .write

/-- The request that is encoded. -/
def ops : ClientCall → RubyHash
  | .read => Proxy.readOps
  | .rewind => Proxy.rewindOps
  | .write query doc => Proxy.writeOps [.hash [(.sym "query", query), (.sym "doc", doc)]]

/-- What else is expected of the answer: documents for a read. -/
def Good : ClientCall → RubyHash → Prop
  | .read, response => ∃ docs, RubyHash.lookup response (.str "docs") = .hash docs
  | .rewind, _ | .write _ _, _ => True

end ClientCall

/-- What a method raises. -/
def raised {α : Type} : Except RubyError α → Option RubyError
  | .error e => some e
  | .ok _ => none

namespace Client

/-- What a call raises, and the client after it. -/
def call (lib : Libraries) (remote : Remote) (c : Client) : ClientCall → Option RubyError × Client
  | .read => (c.read lib remote).map raised id
  | .rewind => (c.rewind lib remote).map raised id
  | .write query doc => (c.write lib remote query doc).map raised id

/-- What calls raise, one after the other. -/
def calls (lib : Libraries) : List (ClientCall × Remote) → Client → List (Option RubyError)
  | [], _ => []
  | (k, remote) :: rest, c => (c.call lib remote k).1 :: calls lib rest (c.call lib remote k).2

/-- No call of the client's mode raises, when the broker is healthy. -/
def Serves (lib : Libraries) (c : Client) : Prop :=
  ∀ ks : List (ClientCall × Remote),
    (∀ k ∈ ks, k.1.mode ∈ c.mode ∧ Encodes lib k.1.ops ∧ Healthy lib k.2 k.1.Good) →
      ∀ e ∈ c.calls lib ks, e = none

/-- The proxies of the client's mode are ready. -/
structure Ready (c : Client) : Prop where
  read : Mode.read ∈ c.mode → c.canRead = true ∧ ∃ p, c.readProxy = some p ∧ p.Ready
  write : Mode.write ∈ c.mode → c.canWrite = true ∧ ∃ p, c.writeProxy = some p ∧ p.Ready

variable {lib : Libraries} {remote remoteRead remoteWrite : Remote} {c : Client}

/-- **A call of a client that is ready** does not raise, and leaves it ready. -/
theorem call_of_ready (hc : c.Ready) {k : ClientCall} (hmode : k.mode ∈ c.mode)
    (hencodes : Encodes lib k.ops) (h : Healthy lib remote k.Good) :
    (c.call lib remote k).1 = none ∧ (c.call lib remote k).2.Ready ∧
      (c.call lib remote k).2.mode = c.mode := by
  cases k with
  | read =>
      obtain ⟨hcan, p, hp, hready⟩ := hc.read hmode
      obtain ⟨response, q, hrequest, ⟨docs, hdocs⟩, hq⟩ := Proxy.request_of_healthy h hready hencodes
      have hcall : c.read lib remote = (.ok (docs.map Prod.snd), { c with readProxy := some q }) := by
        rw [read, if_pos hcan, hp]
        dsimp only [onProxy]
        rw [Proxy.read_of_request hrequest, hdocs]
        rfl
      rw [call, hcall]
      exact ⟨rfl, ⟨fun _ => ⟨hcan, q, rfl, hq⟩, hc.write⟩, rfl⟩
  | rewind =>
      obtain ⟨hcan, p, hp, hready⟩ := hc.read hmode
      obtain ⟨response, q, hrequest, -, hq⟩ := Proxy.request_of_healthy h hready hencodes
      have hcall : c.rewind lib remote = (.ok true, { c with readProxy := some q }) := by
        rw [rewind, if_pos hcan, hp]
        dsimp only [onProxy]
        rw [Proxy.rewind_of_request hrequest]
      rw [call, hcall]
      exact ⟨rfl, ⟨fun _ => ⟨hcan, q, rfl, hq⟩, hc.write⟩, rfl⟩
  | write query doc =>
      obtain ⟨hcan, p, hp, hready⟩ := hc.write hmode
      obtain ⟨response, q, hrequest, -, hq⟩ := Proxy.request_of_healthy h hready hencodes
      have hcall : c.write lib remote query doc = (.ok true, { c with writeProxy := some q }) := by
        rw [write, if_pos hcan, hp]
        dsimp only [onProxy]
        rw [Proxy.write_of_request hrequest]
      rw [call, hcall]
      exact ⟨rfl, ⟨hc.read, fun _ => ⟨hcan, q, rfl, hq⟩⟩, rfl⟩

/-- **A client that is ready serves.** By induction on the calls. -/
theorem serves_of_ready (hc : c.Ready) : c.Serves lib := by
  intro ks hks
  induction ks generalizing c with
  | nil =>
      intro e he
      cases he
  | cons k ks ih =>
      obtain ⟨k, remote⟩ := k
      obtain ⟨hmode, hencodes, hhealthy⟩ := hks _ List.mem_cons_self
      obtain ⟨hnone, hready, hkept⟩ := call_of_ready hc hmode hencodes hhealthy
      have hrest : ∀ k' ∈ ks, k'.1.mode ∈ (c.call lib remote k).2.mode ∧ Encodes lib k'.1.ops ∧
          Healthy lib k'.2 k'.1.Good := by
        intro k' hk'
        rw [hkept]
        exact hks k' (List.mem_cons_of_mem _ hk')
      intro e he
      rcases List.mem_cons.mp he with rfl | he
      · exact hnone
      · exact ih hready hrest e he

/-! ## Opening a client -/

variable {config options : RubyHash} {mode : List Mode}

/-- A mode that the client has not is not opened. -/
theorem openIf_of_false {can : Bool} (hcan : can = false) (proxy : Option Proxy) :
    openIf can lib remote options proxy = (proxy, none) := by
  rw [hcan]
  rfl

/-- The open of a proxy that the client has. -/
theorem openIf_of_true {can : Bool} {proxy : Option Proxy} {p : Proxy} (hcan : can = true)
    (hproxy : proxy = some p) :
    openIf can lib remote options proxy = (p.openWith lib remote options).map some id := by
  rw [hcan, hproxy]
  rfl

/-- The open of a new proxy with a healthy broker. -/
theorem openIf_of_healthy {can : Bool} {proxy : Option Proxy} {purpose : Int}
    (hproxy : can = true → proxy = some (Proxy.new config purpose))
    (hencodes : Encodes lib (Proxy.openOps options purpose)) (h : Healthy lib remote fun _ => True) :
    ∃ proxy', openIf can lib remote options proxy = (proxy', none) ∧
      (can = true → ∃ p, proxy' = some p ∧ p.Ready) := by
  cases hcan : can with
  | true =>
      obtain ⟨q, hopen, hready⟩ := @Proxy.openWith_of_healthy lib remote _ (Proxy.new config purpose)
        options h rfl hencodes
      refine ⟨some q, ?_, fun _ => ⟨q, rfl, hready⟩⟩
      rw [openIf_of_true rfl (hproxy hcan), hopen]
      rfl
  | false =>
      refine ⟨proxy, openIf_of_false rfl proxy, ?_⟩
      rintro ⟨⟩

/-- A new client can read if its mode says so. -/
theorem canRead_new_iff : (new config mode).canRead = true ↔ Mode.read ∈ mode := decide_eq_true_iff

/-- A new client can write if its mode says so. -/
theorem canWrite_new_iff : (new config mode).canWrite = true ↔ Mode.write ∈ mode := decide_eq_true_iff

/-- A new client has a proxy for reading if it can read. -/
theorem readProxy_new (h : (new config mode).canRead = true) :
    (new config mode).readProxy = some (Proxy.new config purposeRead) :=
  if_pos (canRead_new_iff.mp h)

/-- A new client has a proxy for writing if it can write. -/
theorem writeProxy_new (h : (new config mode).canWrite = true) :
    (new config mode).writeProxy = some (Proxy.new config purposeWrite) :=
  if_pos (canWrite_new_iff.mp h)

/-- **A new client that is opened with a healthy broker** serves. -/
theorem serves_of_openWith (config : RubyHash) (mode : List Mode)
    (hread : Encodes lib (Proxy.openOps options purposeRead))
    (hwrite : Encodes lib (Proxy.openOps options purposeWrite))
    (hremoteRead : Healthy lib remoteRead fun _ => True)
    (hremoteWrite : Healthy lib remoteWrite fun _ => True) :
    ∃ c, (new config mode).openWith lib remoteRead remoteWrite options = (c, none) ∧
      c.Serves lib := by
  obtain ⟨readProxy, hopenRead, hreadyRead⟩ :=
    openIf_of_healthy (@readProxy_new config mode) hread hremoteRead
  obtain ⟨writeProxy, hopenWrite, hreadyWrite⟩ :=
    openIf_of_healthy (@writeProxy_new config mode) hwrite hremoteWrite
  refine ⟨{ new config mode with readProxy := readProxy, writeProxy := writeProxy }, ?_, ?_⟩
  · rw [openWith, hopenRead]
    dsimp only
    rw [hopenWrite]
  · have hcanRead (hm : Mode.read ∈ mode) := (@canRead_new_iff config mode).mpr hm
    have hcanWrite (hm : Mode.write ∈ mode) := (@canWrite_new_iff config mode).mpr hm
    exact serves_of_ready ⟨fun hm => ⟨hcanRead hm, hreadyRead (hcanRead hm)⟩,
      fun hm => ⟨hcanWrite hm, hreadyWrite (hcanWrite hm)⟩⟩

/-- The proxy that is opened first has a socket. -/
def Kept (c : Client) : Prop :=
  if c.canRead then ∃ p, c.readProxy = some p ∧ p.socket.isSome = true
  else c.canWrite = true ∧ ∃ p, c.writeProxy = some p ∧ p.socket.isSome = true

/-- **A client that has kept a socket is never opened**, and stays as it is. -/
theorem openWith_of_kept (hc : c.Kept) :
    c.openWith lib remoteRead remoteWrite options = (c, some (.zbroker "Alread Opened")) := by
  obtain ⟨mode, readProxy, writeProxy, canRead, canWrite⟩ := c
  unfold Kept at hc
  dsimp only at hc
  split_ifs at hc with hcan
  · obtain ⟨p, rfl, hsocket⟩ := hc
    subst hcan
    rw [openWith, openIf_of_true rfl rfl, Proxy.openWith_of_isSome hsocket]
    rfl
  · obtain ⟨rfl, p, rfl, hsocket⟩ := hc
    rw [openWith, openIf_of_false (Bool.eq_false_iff.mpr hcan)]
    dsimp only
    rw [openIf_of_true rfl rfl, Proxy.openWith_of_isSome hsocket]
    rfl

/-- The client's host and port refuse the connection. -/
def Refuses (remote : Remote) (config : RubyHash) : Prop :=
  ∃ e, remote.connect (RubyHash.lookup config (.sym "host"))
    ((RubyHash.lookup config (.sym "port")).orElse (.int 2765)) = .error e

/-- What the proxy meets that is opened first. -/
def firstRemote (mode : List Mode) (remoteRead remoteWrite : Remote) : Remote :=
  if Mode.read ∈ mode then remoteRead else remoteWrite

/-- The open of a new proxy: without a connection it is as before, with one it keeps the socket. -/
theorem openIf_of_new {can : Bool} {proxy : Option Proxy} {purpose : Int} (hcan : can = true)
    (hproxy : proxy = some (Proxy.new config purpose)) :
    (Refuses remote config ∧ ∃ e, openIf can lib remote options proxy = (proxy, some e)) ∨
      (¬Refuses remote config ∧ ∃ p e, openIf can lib remote options proxy = (some p, e) ∧
        p.socket.isSome = true) := by
  rw [openIf_of_true hcan hproxy]
  rcases hconnect : remote.connect (Proxy.new config purpose).host (Proxy.new config purpose).port
    with e | socket
  · refine Or.inl ⟨⟨e, hconnect⟩, e, ?_⟩
    rw [Proxy.openWith_of_refused rfl hconnect, hproxy]
    rfl
  · refine Or.inr ⟨?_, _, _, rfl, Proxy.isSome_socket_openWith rfl hconnect⟩
    rintro ⟨e, hrefuses⟩
    have hboth : Except.ok socket = Except.error e := hconnect.symm.trans hrefuses
    cases hboth

/-- **What an open that raises leaves of a new client**: the client as it was, if the first proxy had
no connection, and else one that has kept a socket. -/
theorem openWith_new_cases {e : RubyError}
    (h : (new config mode).openWith lib remoteRead remoteWrite options = (c, some e)) :
    (Refuses (firstRemote mode remoteRead remoteWrite) config ∧ c = new config mode) ∨
      (¬Refuses (firstRemote mode remoteRead remoteWrite) config ∧ c.Kept) := by
  unfold firstRemote Kept
  rw [openWith] at h
  by_cases hread : Mode.read ∈ mode
  · have hcan := (@canRead_new_iff config mode).mpr hread
    rw [if_pos hread]
    rcases openIf_of_new hcan (readProxy_new hcan) with
      ⟨hrefuses, e', hopen⟩ | ⟨hrefuses, p, e', hopen, hp⟩
    · rw [hopen] at h
      cases h
      exact Or.inl ⟨hrefuses, rfl⟩
    · refine Or.inr ⟨hrefuses, ?_⟩
      rw [hopen] at h
      cases e' with
      | some e' =>
          cases h
          rw [if_pos hcan]
          exact ⟨p, rfl, hp⟩
      | none =>
          -- the write proxy failed
          obtain ⟨rfl, -⟩ := Prod.mk.inj h
          rw [if_pos hcan]
          exact ⟨p, rfl, hp⟩
  · have hcan : ¬(new config mode).canRead = true := canRead_new_iff.not.mpr hread
    rw [if_neg hread]
    rw [openIf_of_false (Bool.eq_false_iff.mpr hcan)] at h
    dsimp only at h
    cases hcanWrite : (new config mode).canWrite with
    | true =>
        rcases openIf_of_new hcanWrite (writeProxy_new hcanWrite) with
          ⟨hrefuses, e', hopen⟩ | ⟨hrefuses, p, e', hopen, hp⟩
        · rw [hopen] at h
          cases h
          exact Or.inl ⟨hrefuses, rfl⟩
        · rw [hopen] at h
          cases h
          refine Or.inr ⟨hrefuses, ?_⟩
          rw [if_neg hcan]
          exact ⟨hcanWrite, p, rfl, hp⟩
    | false =>
        -- nothing is opened, and nothing raises
        rw [openIf_of_false hcanWrite] at h
        cases h

/-- No proxy of the client has a socket or an id. -/
def Closed (c : Client) : Prop :=
  ∀ p, c.readProxy = some p ∨ c.writeProxy = some p → p.socket = none ∧ p.packetId = none

/-- A new client is closed. -/
theorem closed_new (config : RubyHash) (mode : List Mode) : (new config mode).Closed := by
  have hnew : ∀ (m : Mode) (purpose : Int) (p : Proxy),
      (if m ∈ mode then some (Proxy.new config purpose) else none) = some p →
        p.socket = none ∧ p.packetId = none := by
    intro m purpose p hp
    split_ifs at hp
    cases hp
    exact ⟨rfl, rfl⟩
  intro p hp
  rcases hp with hp | hp
  · exact hnew _ _ p hp
  · exact hnew _ _ p hp

/-- A client that has kept a socket is not closed. -/
theorem Kept.not_closed (hc : c.Kept) : ¬c.Closed := by
  have hsome : ∀ p : Proxy, p.socket.isSome = true → p.socket ≠ none := by
    intro p hp hnone
    rw [hnone] at hp
    cases hp
  intro hclosed
  unfold Kept at hc
  split_ifs at hc
  · obtain ⟨p, hp, hsocket⟩ := hc
    exact hsome p hsocket (hclosed p (Or.inl hp)).1
  · obtain ⟨-, p, hp, hsocket⟩ := hc
    exact hsome p hsocket (hclosed p (Or.inr hp)).1

end Client

/-- After a failed open the client is as before, no proxy of it is open, and with a healthy broker it
can be opened, and serves. -/
structure Retryable (lib : Libraries) (before after : Client) : Prop where
  same : after = before
  closed : after.Closed
  reopens : ∀ options remoteRead remoteWrite,
    Encodes lib (Proxy.openOps options purposeRead) →
    Encodes lib (Proxy.openOps options purposeWrite) →
    Healthy lib remoteRead (fun _ => True) → Healthy lib remoteWrite (fun _ => True) →
      ∃ c, after.openWith lib remoteRead remoteWrite options = (c, none) ∧ c.Serves lib

namespace Client

/-- **Failed opens.** A new client of any mode is opened with any options, and the open raises. It can
be opened again exactly when the proxy that is opened first, the one for reading if the mode has it,
had no connection. -/
theorem retryable_iff (lib : Libraries) (config options : RubyHash) (mode : List Mode)
    (remoteRead remoteWrite : Remote) {c : Client} {e : RubyError}
    (h : (new config mode).openWith lib remoteRead remoteWrite options = (c, some e)) :
    Retryable lib (new config mode) c ↔ Refuses (firstRemote mode remoteRead remoteWrite) config := by
  rcases openWith_new_cases h with ⟨hrefuses, rfl⟩ | ⟨hrefuses, hkept⟩
  · refine iff_of_true ⟨rfl, closed_new config mode, ?_⟩ hrefuses
    intro options' remoteRead' remoteWrite' hread hwrite hremoteRead hremoteWrite
    exact serves_of_openWith config mode hread hwrite hremoteRead hremoteWrite
  · refine iff_of_false ?_ hrefuses
    intro hretryable
    exact hkept.not_closed hretryable.closed

end Client

/-! ## Brokers to evaluate -/

/-- A connection on which there is nothing to receive. -/
def idleSocket : RubySocket := ⟨[], none, by simp⟩

/-- A response of code `OK`. -/
def okPacket : ResponsePacket :=
  { sampleResponse with body := ascii (codeText 200), length_body := by decide }

/-- A broker that answers each request with code `OK`. -/
def okRemote : Remote where
  connect _ _ := .ok idleSocket
  send _ _ := .ok (Source.whole okPacket.bytes)

/-- The sample broker is healthy. -/
theorem healthy_okRemote : Healthy Libraries.plain okRemote fun _ => True where
  connects _ _ := ⟨idleSocket, rfl, rfl⟩
  answers _ _ _ := by
    refine ⟨_, rfl, okPacket, [(.str "response", .int 200)], Source.contents_whole _, ?_, ?_, ?_,
      trivial⟩
    · rw [Source.chunk_whole]
      decide
    · rfl
    · rfl

/-- A broker that closes the connection when it gets a request. -/
def deadRemote : Remote where
  connect _ _ := .ok idleSocket
  send socket _ := .ok socket

/-- There is no broker at the port. -/
def refusingRemote : Remote where
  connect _ _ := .error (.standard "Errno::ECONNREFUSED")
  send socket _ := .ok socket

/-- Where the broker is. -/
def sampleConfig : RubyHash := [(.sym "host", .str "localhost"), (.sym "port", .int 2765)]

/-- What is to be read. -/
def sampleQuery : RubyHash :=
  [(.sym "host", .str "localhost"), (.sym "port", .int 27017), (.sym "database", .str "zbroker"),
    (.sym "collection", .str "broker")]

namespace Client

/-- A client whose first proxy was refused can be opened again. -/
theorem retryable_iff_refused :
    Retryable Libraries.plain (new sampleConfig [.read, .write])
      ((new sampleConfig [.read, .write]).openWith Libraries.plain refusingRemote okRemote
        sampleQuery).1 :=
  (retryable_iff Libraries.plain sampleConfig sampleQuery [.read, .write] refusingRemote okRemote
    (Prod.ext rfl rfl)).mpr ⟨.standard "Errno::ECONNREFUSED", rfl⟩

/-- The broker is dead at the first open, and in good order at the second, which the client refuses
by itself. -/
theorem not_retryable_dead :
    ¬Retryable Libraries.plain (new sampleConfig [.read])
        ((new sampleConfig [.read]).openWith Libraries.plain deadRemote deadRemote sampleQuery).1 ∧
      Healthy Libraries.plain okRemote (fun _ => True) ∧
      (((new sampleConfig [.read]).openWith Libraries.plain deadRemote deadRemote
        sampleQuery).1.openWith Libraries.plain okRemote okRemote sampleQuery).2 =
          some (.zbroker "Alread Opened") := by
  refine ⟨?_, healthy_okRemote, rfl⟩
  intro hretryable
  have hclosed := hretryable.closed _ (Or.inl rfl)
  exact absurd hclosed.1 (by decide)

end Client

end Zbroker
