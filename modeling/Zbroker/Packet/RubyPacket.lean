import Zbroker.Packet.Decimal

/-!
# The packets of the Ruby client

* `RubyString` — a string as Ruby has it since 1.9: characters, each with its bytes.
* `RubyPacket` — the class `Zbroker::Packet`. The header is encoded once, when `data` is called
  for the first time, from the number of characters of the body.
* `PacketCall`, `RubyPacket.call` — the calls of its public methods. A refused value raises, and
  leaves the packet as it was.
* `DecodedPacket`, `RubyPacket.decodeHeader` — a packet that was received.
-/

namespace Zbroker

/-- A Ruby string: its characters, each with the bytes that encode it. -/
abbrev RubyString := List (List UInt8)

namespace RubyString

/-- `bytes`, what is sent of it. -/
def bytes (s : RubyString) : List UInt8 := s.flatten

/-- A text in UTF-8. -/
def utf8 (s : String) : RubyString := s.toList.map String.utf8EncodeChar

/-- A binary string, every byte a character. -/
def binary (bs : List UInt8) : RubyString := bs.map fun b => [b]

@[simp] theorem bytes_binary (bs : List UInt8) : (binary bs).bytes = bs := by
  induction bs with
  | nil => rfl
  | cons b bs ih =>
      rw [binary, List.map_cons, bytes, List.flatten_cons]
      exact congrArg (b :: ·) ih

/-- The bytes of two strings, one after the other. -/
theorem bytes_append (s s' : RubyString) : bytes (s ++ s') = s.bytes ++ s'.bytes :=
  List.flatten_append

end RubyString

/-- `Limit::HeaderSize`, `Limit::PacketIdSize` and `Limit::MaxBodySize`. Source: `common.rb` -/
def headerSize : Nat := 16

@[inherit_doc headerSize] def packetIdSize : Nat := 32

@[inherit_doc headerSize] def maxBodySize : Nat := 1024 * 1024

/-- A packet of the client. Source: `packet.rb`, `Packet` -/
structure RubyPacket where
  /-- `@header`, `nil` before it is encoded. -/
  header : Option RubyString
  body : RubyString
  packetId : RubyString
  deriving DecidableEq, Repr

/-- A packet whose header was decoded: its id, and its body, which is `nil` if the packet is shorter
than an id. -/
structure DecodedPacket where
  packetId : RubyString
  body : Option RubyString
  deriving DecidableEq, Repr

namespace RubyPacket

/-- `initialize(body)`. -/
def new (body : RubyString) : RubyPacket :=
  ⟨none, body, List.replicate packetIdSize [120]⟩

/-- `encode_header`: `size` counts characters. -/
def encodeHeader (p : RubyPacket) : RubyString :=
  RubyString.binary (padLeft headerSize (decimal (p.body.length + packetIdSize)))

/-- `data`: the string, and the packet with its header. -/
def data (p : RubyPacket) : RubyString × RubyPacket :=
  let header := p.header.getD p.encodeHeader
  (header ++ p.packetId ++ p.body, { p with header := some header })

/-- `body=`, which refuses a long value. -/
def setBody (value : RubyString) (p : RubyPacket) : RubyPacket :=
  if value.length ≤ maxBodySize then { p with body := value } else p

/-- `packet_id=`, which refuses a long value. -/
def setPacketId (value : RubyString) (p : RubyPacket) : RubyPacket :=
  if value.length ≤ packetIdSize then { p with packetId := value } else p

/-- `decode_header`: the id is cut off the body, by `@body[0,32]` and `@body[32..-1]`. -/
def decodeHeader (p : RubyPacket) : DecodedPacket where
  packetId := p.body.take packetIdSize
  body := if packetIdSize ≤ p.body.length then some (p.body.drop packetIdSize) else none

end RubyPacket

/-- A call on a packet of the client. -/
inductive PacketCall where
  | setBody (value : String)
  | setPacketId (value : String)
  | data
  deriving DecidableEq, Repr

/-- The packet after a call. -/
def RubyPacket.call (p : RubyPacket) : PacketCall → RubyPacket
  | .setBody value => p.setBody (RubyString.utf8 value)
  | .setPacketId value => p.setPacketId (RubyString.utf8 value)
  | .data => p.data.2

end Zbroker
