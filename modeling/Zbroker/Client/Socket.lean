import Zbroker.Found.Chunks
import Zbroker.Packet.OutPacket
import Zbroker.Packet.RubyPacket

/-!
# Receiving a packet in the Ruby client

* `RubyError` — what a method of the client raises.
* `RubySocket` — what a connected socket still has to receive, in the chunks that arrive. A `recv`
  returns no more than it was asked for and no more than the next chunk; when the broker has closed
  the connection, it returns the empty string.
* `recvPacket` — `Proxy#recv_packet`: one `recv` for the header, and a loop for the rest.
* `recvPacket_eq` — what it returns, by what is in the first chunk.
* **`recvPacket_frame`**: a packet whose header is in one chunk is received, whatever chunks the rest
  of it is in. `recvPacket_of_dry`: not before all of it is there.
-/

namespace Zbroker

open Found.Chunks

/-- What a method of the client raises. -/
inductive RubyError where
  /-- `ZbrokerError`. -/
  | zbroker (message : String)
  /-- A failed `M2::Dia.assert`. -/
  | assertion (message : String)
  /-- An exception of another class. -/
  | standard (className : String)
  deriving DecidableEq, Repr

/-- A connected socket: what it still has to receive, and the exception of `recv` behind it, if the
connection does not end well. -/
abbrev RubySocket := Source UInt8 RubyError

/-- `recv_packet`: the packet or what is raised, and the socket after it.
Source: `proxy.rb`, `Proxy#recv_packet` -/
def recvPacket (socket : RubySocket) : Except RubyError DecodedPacket × RubySocket :=
  match socket.recv headerSize with
  | (.error e, socket) => (.error e, socket)
  | (.ok data, socket) =>
      if data.isEmpty then (.error (.zbroker "Broker was dead"), socket)
      else
        -- a read that is not empty makes `size` smaller: it is zero after that many reads
        let size := (toI data).toNat
        match socket.recvUpTo size size [] with
        | (.error e, socket) => (.error e, socket)
        | (.ok str, socket) => (.ok (RubyPacket.new (RubyString.binary str)).decodeHeader, socket)

/-- A binary string has a character for each byte. -/
theorem length_binary (bs : List UInt8) : (RubyString.binary bs).length = bs.length := by
  rw [RubyString.binary, List.length_map]

/-- It says which bytes it is made of. -/
theorem binary_injective : Function.Injective RubyString.binary := by
  intro bs bs' h
  have hbytes := congrArg RubyString.bytes h
  rwa [RubyString.bytes_binary, RubyString.bytes_binary] at hbytes

/-- A header is decoded of the bytes that were received. -/
theorem decodeHeader_binary (bs : List UInt8) :
    (RubyPacket.new (RubyString.binary bs)).decodeHeader =
      ⟨RubyString.binary (bs.take packetIdSize),
        if packetIdSize ≤ bs.length then some (RubyString.binary (bs.drop packetIdSize)) else none⟩ := by
  rw [RubyPacket.decodeHeader, RubyPacket.new]
  dsimp only
  rw [length_binary]
  simp only [RubyString.binary, List.map_take, List.map_drop]

section recvPacket

variable {s : RubySocket}

/-- A connection on which nothing is left to receive. -/
theorem recvPacket_of_contents_eq_nil (hs : s.contents = []) (hending : s.ending = none) :
    recvPacket s = (.error (.zbroker "Broker was dead"), s) := by
  rw [recvPacket, Source.recv_of_contents_eq_nil headerSize hs hending]
  rfl

/-- **What is received**: the size is parsed from what the first chunk has of the header, and the
packet is made of as many of the bytes behind that, or of all there are. -/
theorem recvPacket_eq {size : Nat} (hs : s.contents ≠ [])
    (hsize : size = (toI (s.chunk.take headerSize)).toNat)
    (hrest : (s.chunk.take headerSize).length + size ≤ s.contents.length ∨ s.ending = none) :
    recvPacket s =
      (.ok (RubyPacket.new (RubyString.binary
          ((s.contents.drop (s.chunk.take headerSize).length).take size))).decodeHeader,
        s.drop ((s.chunk.take headerSize).length + size)) := by
  obtain ⟨hchunk, hrecv⟩ := Source.recv_of_contents_ne_nil headerSize hs
  have hpos : 0 < s.chunk.length := List.length_pos_iff.mpr hchunk
  have hdata : (s.chunk.take headerSize).isEmpty = false := by
    rw [List.isEmpty_eq_false_iff, ← List.length_pos_iff, List.length_take, headerSize]
    omega
  have hleft : size ≤ (s.drop (s.chunk.take headerSize).length).contents.length ∨
      (s.drop (s.chunk.take headerSize).length).ending = none := by
    rw [Source.contents_drop, List.length_drop, Source.ending_drop]
    exact hrest.imp_left fun hle => by omega
  have hloop := @Source.recvUpTo_eq _ _ size size _ [] (Nat.le_refl _) hleft
  rw [List.nil_append, Source.contents_drop, Source.drop_drop] at hloop
  rw [recvPacket, hrecv]
  dsimp only
  rw [hdata, if_neg Bool.false_ne_true, ← hsize, hloop]

/-- **A packet is received** whose header is in the first chunk, and what follows it is left. -/
theorem recvPacket_frame {packetId body rest : List UInt8} (hid : packetId.length = packetIdLength)
    (hbody : body.length + packetIdLength < 10 ^ headerLength)
    (hs : s.contents = frame packetId body ++ rest) (hheader : headerSize ≤ s.chunk.length) :
    recvPacket s =
      (.ok ⟨RubyString.binary packetId, some (RubyString.binary body)⟩,
        s.drop (frame packetId body).length) := by
  have hprinted : (printHeader (body.length + packetIdLength)).length = headerSize :=
    length_printHeader hbody
  have hlen : (packetId ++ body).length = body.length + packetIdLength := by
    rw [List.length_append, hid, Nat.add_comm]
  have hstream : s.contents =
      printHeader (body.length + packetIdLength) ++ (packetId ++ body ++ rest) := by
    rw [hs, frame_append]
  -- the header is what the first `recv` returns
  have hdata : s.chunk.take headerSize = printHeader (body.length + packetIdLength) := by
    rw [← Source.take_length_chunk s, List.take_take, Nat.min_eq_left hheader, hstream]
    exact List.take_left' hprinted
  have hsize : body.length + packetIdLength = (toI (s.chunk.take headerSize)).toNat := by
    rw [hdata, printHeader, toI_padLeft_decimal]
    rfl
  have hne : s.contents ≠ [] := by
    rw [hstream, ← List.length_pos_iff, List.length_append, hprinted, headerSize]
    omega
  have hrest : (s.chunk.take headerSize).length + (body.length + packetIdLength) ≤
      s.contents.length := by
    rw [hdata, hstream, List.length_append, List.length_append, hlen]
    omega
  have htotal : (frame packetId body).length = headerSize + (body.length + packetIdLength) := by
    rw [length_frame hid hbody, Nat.add_assoc, Nat.add_comm packetIdLength]
    rfl
  have hid' : packetId.length = packetIdSize := hid
  have hle : packetIdSize ≤ (packetId ++ body).length := by
    rw [List.length_append]
    omega
  rw [recvPacket_eq hne hsize (Or.inl hrest), hdata, hprinted, htotal, hstream,
    List.drop_left' hprinted, List.take_left' hlen, decodeHeader_binary, if_pos hle,
    List.take_left' hid', List.drop_left' hid']

/-- **A packet that is not all there** is not received as long as the socket waits for the rest. -/
theorem recvPacket_of_dry {packetId body : List UInt8} (hid : packetId.length = packetIdLength)
    (hbody : body.length + packetIdLength < 10 ^ headerLength)
    (hs : s.contents <+: frame packetId body) (hshort : s.contents ≠ frame packetId body)
    (hheader : headerSize ≤ s.chunk.length) (hending : s.ending.isSome) :
    ∃ e socket, recvPacket s = (.error e, socket) := by
  have hprinted : (printHeader (body.length + packetIdLength)).length = headerSize :=
    length_printHeader hbody
  have hlt : s.contents.length < (frame packetId body).length := by
    apply lt_of_le_of_ne hs.length_le
    intro heq
    exact hshort (hs.eq_of_length heq)
  have hchunk : s.chunk.length ≤ s.contents.length := by
    rw [← Source.take_length_chunk s, List.length_take]
    exact Nat.min_le_right _ _
  have hdata : s.chunk.take headerSize = printHeader (body.length + packetIdLength) := by
    obtain ⟨rest, hrest⟩ := hs
    have hfront : s.contents.take headerSize = (frame packetId body).take headerSize := by
      rw [← hrest, List.take_append_of_le_length (hheader.trans hchunk)]
    rw [← Source.take_length_chunk s, List.take_take, Nat.min_eq_left hheader, hfront, frame,
      List.append_assoc]
    exact List.take_left' hprinted
  have hne : s.contents ≠ [] := by
    rw [← List.length_pos_iff]
    simp only [headerSize] at hheader
    omega
  obtain ⟨e, hending⟩ := Option.isSome_iff_exists.mp hending
  obtain ⟨-, hrecv⟩ := Source.recv_of_contents_ne_nil headerSize hne
  have hsize : (toI (s.chunk.take headerSize)).toNat = body.length + packetIdLength := by
    rw [hdata, printHeader, toI_padLeft_decimal]
    rfl
  obtain ⟨socket, hloop⟩ := @Source.recvUpTo_of_dry _ _ (body.length + packetIdLength)
    (body.length + packetIdLength) (s.drop headerSize) [] e le_rfl (by
      rw [Source.contents_drop, List.length_drop]
      rw [length_frame hid hbody] at hlt
      simp only [headerSize, headerLength] at hheader hlt ⊢
      omega) hending
  refine ⟨e, socket, ?_⟩
  have hsome : (s.chunk.take headerSize).isEmpty = false := by
    rw [hdata, List.isEmpty_eq_false_iff, ← List.length_pos_iff, hprinted]
    decide
  have hlength : (s.chunk.take headerSize).length = headerSize := by rw [hdata, hprinted]
  rw [recvPacket, hrecv]
  dsimp only
  rw [hsome, if_neg Bool.false_ne_true, hsize, hlength, hloop]

end recvPacket

end Zbroker
