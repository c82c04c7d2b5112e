import Zbroker.Client.Socket
import Mathlib.Data.Rat.Defs

/-!
# The proxies and the client in Ruby

* `RubyValue`, `RubyHash` — what the client gets from its caller and from the JSON parser, with
  `lookup`, `store`, `merge`, `index` and `values`.
* `Libraries` — the JSON library, and `to_s`; `Remote` — what a request meets at the other end:
  connecting, and sending, after which there is something to receive. Each call has its own.
* `Proxy` — the class of the same name: `openWith`, `sendPacket`, `makePacket`, `read`, `write`,
  `rewind`.
* `Client` — the class of the same name, with a proxy for each purpose in its mode list.

A method returns its value or what it raises, and the object as it is then: what a method has
assigned stays when it raises.
-/

namespace Zbroker

/-! ## Ruby values -/

/-- A key of a hash. -/
inductive RubyKey where
  | sym (name : String)
  | str (s : String)
  deriving DecidableEq, Repr

/-- A value. -/
inductive RubyValue where
  | nil
  | bool (b : Bool)
  | int (n : Int)
  | float (q : ℚ)
  | str (s : String)
  | array (elements : List RubyValue)
  | hash (pairs : List (RubyKey × RubyValue))
  /-- An object of another class. -/
  | object (className : String)

/-- A hash is the list of its pairs, in the order in which they were stored. -/
abbrev RubyHash := List (RubyKey × RubyValue)

namespace RubyHash

/-- `hash[key]`. -/
def lookup (h : RubyHash) (key : RubyKey) : RubyValue :=
  match h.find? fun pair => pair.1 == key with
  | some pair => pair.2
  | none => .nil

/-- `hash[key] = value`. -/
def store (h : RubyHash) (key : RubyKey) (value : RubyValue) : RubyHash :=
  if h.any fun pair => pair.1 == key then
    h.map fun pair => if pair.1 = key then (key, value) else pair
  else h ++ [(key, value)]

/-- `hash.merge(other)`. -/
def merge (h other : RubyHash) : RubyHash := other.foldl (fun h pair => store h pair.1 pair.2) h

end RubyHash

namespace RubyValue

/-- `value || other`. -/
def orElse : RubyValue → RubyValue → RubyValue
  | .nil, other => other
  | .bool false, other => other
  | value, _ => value

/-- `value == n`, for an integer `n`. -/
def equalsInt : RubyValue → Int → Bool
  | .int m, n => m == n
  | .float q, n => q == n
  | _, _ => false

/-- `value["key"]`. -/
def index : RubyValue → String → Except RubyError RubyValue
  | .hash pairs, key => .ok (RubyHash.lookup pairs (.str key))
  | .str s, key => .ok (if key.toList <:+: s.toList then .str key else .nil)
  | .array _, _ => .error (.standard "TypeError")
  | .int _, _ => .error (.standard "TypeError")
  | _, _ => .error (.standard "NoMethodError")

/-- `value.values`. -/
def values : RubyValue → Except RubyError (List RubyValue)
  | .hash pairs => .ok (pairs.map Prod.snd)
  | _ => .error (.standard "NoMethodError")

end RubyValue

/-! ## What is not part of the client -/

/-- The libraries that the client calls. -/
structure Libraries where
  /-- `Yajl::Encoder.encode`. -/
  encode : RubyHash → Except RubyError RubyString
  /-- `Yajl::Parser.parse`. -/
  parse : Option RubyString → Except RubyError RubyValue
  /-- `value.to_s`. -/
  toS : RubyValue → String

/-- What a request meets at the other end: the network and the broker. -/
structure Remote where
  /-- `TCPSocket.new(host, port)`. -/
  connect : RubyValue → RubyValue → Except RubyError RubySocket
  /-- `@socket.send(data, 0)`: the socket, with what there is to receive then. -/
  send : RubySocket → List UInt8 → Except RubyError RubySocket

/-! ## The constants -/

/-- `Command::Open`, `Command::Read`, `Command::Write` and `Command::Rewind`. Source: `common.rb` -/
def commandOpen : Int := 100

@[inherit_doc commandOpen] def commandRead : Int := 102

@[inherit_doc commandOpen] def commandWrite : Int := 103

@[inherit_doc commandOpen] def commandRewind : Int := 106

/-- `Purpose::Read` and `Purpose::Write`. Source: `common.rb` -/
def purposeRead : Int := 1

@[inherit_doc purposeRead] def purposeWrite : Int := 2

/-- `StatusCode::OK`. Source: `common.rb` -/
def statusOk : Int := 200

/-- `ZbrokerError.error_message(v)`. Source: `common.rb` -/
def errorMessage (lib : Libraries) (v : RubyValue) : Except RubyError String :=
  if v.equalsInt 501 then .ok "Unimplemented"
  else if v.equalsInt 500 then .ok "UnknownCommand"
  else if v.equalsInt 504 then .ok "ResponseToLong"
  else if v.equalsInt 503 then .ok "NoMoreItem"
  else if v.equalsInt 505 then .ok "AlreadyOpen"
  else .error (.zbroker ("Invalid error code:" ++ lib.toS v))

/-- What `raise ZbrokerError,ZbrokerError.error_message(v)` raises. -/
def codeError (lib : Libraries) (v : RubyValue) : RubyError :=
  match errorMessage lib v with
  | .ok message => .zbroker message
  | .error e => e

/-- The check of a response: what is raised if its code is not `OK`. -/
def checkResponse (lib : Libraries) (response : RubyValue) : Except RubyError Unit :=
  match response.index "response" with
  | .error e => .error e
  | .ok code => if code.equalsInt statusOk then .ok () else .error (codeError lib code)

/-! ## A proxy -/

/-- A proxy. Source: `proxy.rb`, `Proxy` -/
structure Proxy where
  host : RubyValue
  port : RubyValue
  /-- `@socket`, `nil` before it is opened. -/
  socket : Option RubySocket
  /-- `@packet_id`, `nil` before it is opened. -/
  packetId : Option RubyString
  purpose : Int

namespace Proxy

/-- `initialize(options, purpose)`. -/
def new (options : RubyHash) (purpose : Int) : Proxy where
  host := RubyHash.lookup options (.sym "host")
  port := (RubyHash.lookup options (.sym "port")).orElse (.int 2765)
  socket := none
  packetId := none
  purpose := purpose

/-- `@default_open`. -/
def defaultOpen : RubyHash :=
  [(.sym "parameters", .hash [(.sym "skip", .int 0), (.sym "limit", .int 500)]),
    (.sym "upsert", .bool false), (.sym "multi", .bool false)]

/-- The request that `open` encodes. -/
def openOps (options : RubyHash) (purpose : Int) : RubyHash :=
  [(.sym "cmd", .int commandOpen),
    (.sym "body",
      .hash (RubyHash.store (RubyHash.merge defaultOpen options) (.sym "purpose") (.int purpose)))]

/-- `send_packet(packet)`: the packet that is received, and its body as it is parsed.
Source: `proxy.rb`, `Proxy#send_packet` -/
def sendPacket (lib : Libraries) (remote : Remote) (packet : RubyPacket) (p : Proxy) :
    Except RubyError (DecodedPacket × RubyValue) × Proxy :=
  match p.socket with
  | none => (.error (.standard "NoMethodError"), p)
  | some socket =>
      match remote.send socket packet.data.1.bytes with
      | .error e => (.error e, p)
      | .ok socket =>
          match recvPacket socket with
          | (.error e, socket) => (.error e, { p with socket := some socket })
          | (.ok ret, socket) =>
              let p := { p with socket := some socket }
              match lib.parse ret.body with
              | .error e => (.error e, p)
              | .ok response => (.ok (ret, response), p)

/-- `open(options)`: the proxy, and what is raised. Source: `proxy.rb`, `Proxy#open` -/
def openWith (lib : Libraries) (remote : Remote) (options : RubyHash) (p : Proxy) :
    Proxy × Option RubyError :=
  if p.socket.isSome then (p, some (.zbroker "Alread Opened"))
  else
    match remote.connect p.host p.port with
    | .error e => (p, some e)
    | .ok socket =>
        -- from here on nothing takes the socket back
        let p := { p with socket := some socket }
        match lib.encode (openOps options p.purpose) with
        | .error e => (p, some e)
        | .ok str =>
            match p.sendPacket lib remote (RubyPacket.new str) with
            | (.error e, p) => (p, some e)
            | (.ok (packet, response), p) =>
                match checkResponse lib response with
                | .error e => (p, some e)
                | .ok () => ({ p with packetId := some packet.packetId }, none)

/-- `make_packet(ops)`. Source: `proxy.rb`, `Proxy#make_packet` -/
def makePacket (lib : Libraries) (ops : RubyHash) (p : Proxy) : Except RubyError RubyPacket :=
  match lib.encode ops with
  | .error e => .error e
  | .ok str =>
      let tmp := p.packetId.getD []
      if tmp.length ≤ packetIdSize then .ok ((RubyPacket.new str).setPacketId tmp)
      else .error (.assertion "request header to long(>32)")

/-- A request of an open proxy: the response, if its code is `OK`. -/
def request (lib : Libraries) (remote : Remote) (ops : RubyHash) (p : Proxy) :
    Except RubyError RubyValue × Proxy :=
  match p.makePacket lib ops with
  | .error e => (.error e, p)
  | .ok packet =>
      match p.sendPacket lib remote packet with
      | (.error e, p) => (.error e, p)
      | (.ok (_, response), p) => ((checkResponse lib response).map fun _ => response, p)

/-- The request that `read` encodes. -/
def readOps : RubyHash := [(.sym "cmd", .int commandRead)]

/-- The request that `write` encodes. -/
def writeOps (docs : List RubyValue) : RubyHash :=
  [(.sym "cmd", .int commandWrite),
    (.sym "body", .hash [(.sym "docs",
      .hash (docs.mapIdx fun i doc => (.str (toString i), doc)))])]

/-- The request that `rewind` encodes. -/
def rewindOps : RubyHash := [(.sym "cmd", .int commandRewind)]

/-- `read`: the documents of the response. Source: `proxy.rb`, `Proxy#read` -/
def read (lib : Libraries) (remote : Remote) (p : Proxy) : Except RubyError RubyValue × Proxy :=
  match p.request lib remote readOps with
  | (.error e, p) => (.error e, p)
  | (.ok response, p) => (response.index "docs", p)

/-- `write(docs)`. Source: `proxy.rb`, `Proxy#write` -/
def write (lib : Libraries) (remote : Remote) (docs : List RubyValue) (p : Proxy) :
    Except RubyError Bool × Proxy :=
  match p.request lib remote (writeOps docs) with
  | (.error e, p) => (.error e, p)
  | (.ok _, p) => (.ok true, p)

/-- `rewind`. Source: `proxy.rb`, `Proxy#rewind` -/
def rewind (lib : Libraries) (remote : Remote) (p : Proxy) : Except RubyError Bool × Proxy :=
  match p.request lib remote rewindOps with
  | (.error e, p) => (.error e, p)
  | (.ok _, p) => (.ok true, p)

end Proxy

/-! ## The client -/

/-- An element of the mode list. -/
inductive Mode where
  | read
  | write
  | other (name : String)
  deriving DecidableEq, Repr

/-- A client. Source: `client.rb`, `Client` -/
structure Client where
  mode : List Mode
  readProxy : Option Proxy
  writeProxy : Option Proxy
  canRead : Bool
  canWrite : Bool

namespace Client

/-- `initialize(options, mode)`. -/
def new (options : RubyHash) (mode : List Mode) : Client where
  mode := mode
  readProxy := if Mode.read ∈ mode then some (Proxy.new options purposeRead) else none
  writeProxy := if Mode.write ∈ mode then some (Proxy.new options purposeWrite) else none
  canRead := Mode.read ∈ mode
  canWrite := Mode.write ∈ mode

/-- A call of a proxy; there is none for `nil`. -/
def onProxy {α : Type} (call : Proxy → Except RubyError α × Proxy) :
    Option Proxy → Except RubyError α × Option Proxy
  | none => (.error (.standard "NoMethodError"), none)
  | some p => ((call p).1, some (call p).2)

/-- `proxy.open(options) if can`. -/
def openIf (can : Bool) (lib : Libraries) (remote : Remote) (options : RubyHash)
    (proxy : Option Proxy) : Option Proxy × Option RubyError :=
  if can then
    match proxy with
    | none => (none, some (.standard "NoMethodError"))
    | some p => ((p.openWith lib remote options).map some id)
  else (proxy, none)

/-- `open(options)`: the client, and what is raised. Source: `client.rb`, `Client#open` -/
def openWith (lib : Libraries) (remoteRead remoteWrite : Remote) (options : RubyHash) (c : Client) :
    Client × Option RubyError :=
  match openIf c.canRead lib remoteRead options c.readProxy with
  | (proxy, some e) => ({ c with readProxy := proxy }, some e)
  | (proxy, none) =>
      let r := openIf c.canWrite lib remoteWrite options c.writeProxy
      ({ c with readProxy := proxy, writeProxy := r.1 }, r.2)

/-- `read`. Source: `client.rb`, `Client#read` -/
def read (lib : Libraries) (remote : Remote) (c : Client) :
    Except RubyError (List RubyValue) × Client :=
  if c.canRead then
    let r := onProxy (Proxy.read lib remote) c.readProxy
    (r.1.bind RubyValue.values, { c with readProxy := r.2 })
  else (.error (.zbroker "Not for read mode"), c)

/-- `write(query, doc)`. Source: `client.rb`, `Client#write` -/
def write (lib : Libraries) (remote : Remote) (query doc : RubyValue) (c : Client) :
    Except RubyError Bool × Client :=
  if c.canWrite then
    let r := onProxy
      (Proxy.write lib remote [.hash [(.sym "query", query), (.sym "doc", doc)]]) c.writeProxy
    (r.1, { c with writeProxy := r.2 })
  else (.error (.zbroker "Not for write mode"), c)

/-- `rewind`. Source: `client.rb`, `Client#rewind` -/
def rewind (lib : Libraries) (remote : Remote) (c : Client) : Except RubyError Bool × Client :=
  if c.canRead then
    let r := onProxy (Proxy.rewind lib remote) c.readProxy
    (r.1, { c with readProxy := r.2 })
  else (.error (.zbroker "Not for read/rewind mode"), c)

end Client

/-! ## A plain library

An instance to evaluate the client on concrete inputs: texts need no escapes, and the parser knows the
responses that have nothing but a code. -/

namespace RubyValue

mutual

/-- The JSON text of a value. -/
def jsonText : RubyValue → String
  | .nil => "null"
  | .bool b => if b then "true" else "false"
  | .int n => toString n
  | .float q => toString q
  | .str s => "\"" ++ s ++ "\""
  | .array elements => "[" ++ elementsText "" elements ++ "]"
  | .hash pairs => "\x7b" ++ pairsText "" pairs ++ "\x7d"
  | .object className => "\"" ++ className ++ "\""

/-- The JSON text of the elements of an array, each with the separator in front of it. -/
def elementsText (sep : String) : List RubyValue → String
  | [] => ""
  | v :: rest => sep ++ jsonText v ++ elementsText "," rest

/-- The JSON text of the pairs of a hash, each with the separator in front of it. -/
def pairsText (sep : String) : List (RubyKey × RubyValue) → String
  | [] => ""
  | (.sym key, v) :: rest => sep ++ "\"" ++ key ++ "\":" ++ jsonText v ++ pairsText "," rest
  | (.str key, v) :: rest => sep ++ "\"" ++ key ++ "\":" ++ jsonText v ++ pairsText "," rest

end

end RubyValue

/-- The text of a response that has nothing but a code. -/
def codeText (code : Nat) : String := "\x7b \"response\" : " ++ toString code ++ " \x7d"

/-- The codes of the responses that the plain library knows. -/
def plainCodes : List Nat := [200, 500, 501, 502, 503, 504, 505]

/-- The plain library. -/
def Libraries.plain : Libraries where
  encode h := .ok (RubyString.utf8 (RubyValue.jsonText (.hash h)))
  parse
    | none => .error (.standard "TypeError")
    | some s =>
        match plainCodes.find? fun code => s.bytes == ascii (codeText code) with
        | some code => .ok (.hash [(.str "response", .int code)])
        | none => .error (.standard "Yajl::ParseError")
  toS
    | .str s => s
    | v => v.jsonText

end Zbroker
