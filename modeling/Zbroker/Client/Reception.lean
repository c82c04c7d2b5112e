import Zbroker.Client.Socket

/-!
# How the responses arrive at the Ruby client

`recv_packet` takes what one `recv` returns for the header, and does not look whether that is all of
it; behind the header it reads on until it has the packet, or the connection is closed, and does not
look which.

* `ResponsePacket` — a packet as the server sends it.
* `recvPackets` — calls of `recv_packet`, up to the first that raises.
* `Receives socket packets` — the calls return the packets, and then raise a `ZbrokerError`.
* `HeadersWhole socket packets` — no chunk ends inside the header of a packet.
* `receives_cons_iff` — the first packet: from a part of its header a smaller size is parsed, and the
  packet that is returned for it is too short.
* **`receives_iff`**: the packets are received exactly when the stream ends behind one of them, and
  their headers are whole.
By induction on the packets: the first is received and leaves a stream for the others, whose end and whose
headers are as they were.
-/

namespace Zbroker

open Found.Chunks

/-- A well-formed response packet. -/
structure ResponsePacket where
  packetId : List UInt8
  body : List UInt8
  length_packetId : packetId.length = packetIdLength
  length_body : body.length + packetIdLength < 10 ^ headerLength

namespace ResponsePacket

/-- The packet as it is sent. -/
def bytes (p : ResponsePacket) : List UInt8 := frame p.packetId p.body

/-- The packet as it is to be received. -/
def decoded (p : ResponsePacket) : DecodedPacket :=
  ⟨RubyString.binary p.packetId, some (RubyString.binary p.body)⟩

/-- The length of a packet. -/
theorem length_bytes (p : ResponsePacket) :
    p.bytes.length = headerSize + packetIdLength + p.body.length :=
  length_frame p.length_packetId p.length_body

end ResponsePacket

/-- So many calls of `recv_packet`, up to the first that raises: the packets that are returned, and
what is raised. -/
def recvPackets : Nat → RubySocket → List DecodedPacket × Option RubyError
  | 0, _ => ([], none)
  | calls + 1, socket =>
      match recvPacket socket with
      | (.error e, _) => ([], some e)
      | (.ok p, socket) =>
          let (packets, e) := recvPackets calls socket
          (p :: packets, e)

/-- As many calls as there are packets return them in order, and the next raises a `ZbrokerError`. -/
def Receives (socket : RubySocket) (packets : List ResponsePacket) : Prop :=
  ∃ message, recvPackets (packets.length + 1) socket =
    (packets.map ResponsePacket.decoded, some (.zbroker message))

/-- Where a packet starts. -/
def startOf (packets : List ResponsePacket) (i : Nat) : Nat :=
  ((packets.take i).map ResponsePacket.bytes).flatten.length

/-- No chunk ends inside the header of a packet. -/
def HeadersWhole (socket : RubySocket) (packets : List ResponsePacket) : Prop :=
  ∀ i < packets.length, ∀ k, socket.IsCut k →
    ¬(startOf packets i < k ∧ k < startOf packets i + headerSize)

section

variable {s : RubySocket} {p : ResponsePacket} {packets : List ResponsePacket} {rest : List UInt8}

/-! ## The first packet -/

/-- There is something to read in front of the end. -/
theorem contents_ne_nil (hs : s.contents = p.bytes ++ rest) : s.contents ≠ [] := by
  rw [hs, ← List.length_pos_iff, List.length_append, p.length_bytes, headerSize]
  omega

/-- A packet whose header is in the first chunk. -/
theorem recvPacket_bytes (hs : s.contents = p.bytes ++ rest) (hheader : headerSize ≤ s.chunk.length) :
    recvPacket s = (.ok p.decoded, s.drop p.bytes.length) :=
  recvPacket_frame p.length_packetId p.length_body hs hheader

/-- **From a part of a header** another packet is made, which is too short. -/
theorem recvPacket_ne (hs : s.contents = p.bytes ++ rest) (hending : s.ending = none)
    (hheader : s.chunk.length < headerSize) :
    ∃ q socket, recvPacket s = (.ok q, socket) ∧ q ≠ p.decoded := by
  have hprinted : (printHeader (p.body.length + packetIdLength)).length = headerSize :=
    length_printHeader p.length_body
  have hdata : s.chunk.take headerSize =
      (printHeader (p.body.length + packetIdLength)).take s.chunk.length := by
    have hfront : s.contents = printHeader (p.body.length + packetIdLength) ++
        (p.packetId ++ p.body ++ rest) := by
      rw [hs, ResponsePacket.bytes, frame_append]
    have hchunk := Source.take_length_chunk s
    rw [hfront, List.take_append_of_le_length (by omega)] at hchunk
    rw [List.take_of_length_le hheader.le, hchunk]
  have hsize : (toI (s.chunk.take headerSize)).toNat < p.body.length + packetIdLength := by
    have hparsed := @toI_take_padLeft_decimal_lt headerLength (p.body.length + packetIdLength)
      s.chunk.length (by simp only [packetIdLength]; omega) (by rw [← printHeader]; omega)
    rw [← printHeader, ← hdata] at hparsed
    omega
  refine ⟨_, _, recvPacket_eq (contents_ne_nil hs) rfl (Or.inr hending), ?_⟩
  rw [decodeHeader_binary]
  intro heq
  obtain ⟨-, hbody⟩ := DecodedPacket.mk.inj heq
  split_ifs at hbody with hle
  have hlength := congrArg List.length (binary_injective (Option.some.inj hbody))
  rw [List.length_drop] at hlength
  have hshort := List.length_take_le (toI (s.chunk.take headerSize)).toNat
    (s.contents.drop (s.chunk.take headerSize).length)
  simp only [packetIdSize, packetIdLength] at hle hlength hsize
  omega

/-- **The first packet is received** exactly when its header is in the first chunk; the others are
received then from what is left. -/
theorem receives_cons_iff (hs : s.contents = p.bytes ++ rest) (hending : s.ending = none) :
    Receives s (p :: packets) ↔
      headerSize ≤ s.chunk.length ∧ Receives (s.drop p.bytes.length) packets := by
  unfold Receives
  rw [List.length_cons, recvPackets, List.map_cons]
  rcases Nat.lt_or_ge s.chunk.length headerSize with hlt | hle
  · obtain ⟨q, socket, hrecv, hq⟩ := recvPacket_ne hs hending hlt
    rw [hrecv]
    constructor
    · rintro ⟨message, h⟩
      exact absurd (List.cons.inj (Prod.mk.inj h).1).1 hq
    · rintro ⟨hle, -⟩
      omega
  · rw [recvPacket_bytes hs hle, and_iff_right hle]
    refine exists_congr fun message => ?_
    dsimp only
    rw [Prod.ext_iff, Prod.ext_iff, List.cons_eq_cons, eq_self_iff_true, true_and]

/-- **What is left of a packet at the end** is received like a whole one, unless there is nothing of
it. -/
theorem receives_nil_iff (hending : s.ending = none) : Receives s [] ↔ s.contents = [] := by
  unfold Receives
  rw [List.length_nil, recvPackets]
  constructor
  · rintro ⟨message, h⟩
    by_contra hne
    rw [recvPacket_eq hne rfl (Or.inr hending)] at h
    cases h
  · intro hs
    rw [recvPacket_of_contents_eq_nil hs hending]
    exact ⟨_, rfl⟩

/-! ## The headers -/

/-- The first packet starts at the start. -/
theorem startOf_zero (packets : List ResponsePacket) : startOf packets 0 = 0 := rfl

/-- The others start behind it. -/
theorem startOf_cons_succ (p : ResponsePacket) (packets : List ResponsePacket) (i : Nat) :
    startOf (p :: packets) (i + 1) = p.bytes.length + startOf packets i := by
  rw [startOf, List.take_succ_cons, List.map_cons, List.flatten_cons, List.length_append]
  rfl

/-- The headers of a stream: that of the first packet, and those of what is left behind it. -/
theorem headersWhole_cons_iff (hs : s.contents ≠ []) :
    HeadersWhole s (p :: packets) ↔
      headerSize ≤ s.chunk.length ∧ HeadersWhole (s.drop p.bytes.length) packets := by
  rw [Source.le_length_chunk_iff hs]
  constructor
  · intro h
    refine ⟨?_, ?_⟩
    · intro k hcut hk
      have hfirst := h 0 (Nat.succ_pos _) k hcut
      rw [startOf_zero] at hfirst
      omega
    · intro i hi k hcut hinside
      have hnext := h (i + 1) (Nat.succ_lt_succ hi) (p.bytes.length + k)
        ((Source.isCut_drop (by omega)).mp hcut)
      rw [startOf_cons_succ] at hnext
      omega
  · rintro ⟨hfirst, hnext⟩ i hi k hcut hinside
    cases i with
    | zero =>
        rw [startOf_zero] at hinside
        have hle := hfirst k hcut hinside.1
        omega
    | succ i =>
        rw [startOf_cons_succ] at hinside
        obtain ⟨k', rfl⟩ : ∃ k', k = p.bytes.length + k' := ⟨k - p.bytes.length, by omega⟩
        exact hnext i (Nat.lt_of_succ_lt_succ hi) k' ((Source.isCut_drop (by omega)).mpr hcut)
          (by omega)

/-- **Reception.** The server's packets arrive in chunks of any lengths, and the connection is closed
behind any number of whole packets, `n` bytes into the next one. Calls of `recv_packet` return
exactly the whole packets and raise a `ZbrokerError` then, exactly when there is nothing of the next
packet, and no chunk ends inside the header of a packet. -/
theorem receives_iff (packets : List ResponsePacket) (next : ResponsePacket) {n : Nat}
    (hn : n < next.bytes.length) {socket : RubySocket} (hending : socket.ending = none)
    (hsocket : socket.contents = (packets.map ResponsePacket.bytes).flatten ++ next.bytes.take n) :
    Receives socket packets ↔ n = 0 ∧ HeadersWhole socket packets := by
  induction packets generalizing socket with
  | nil =>
      have hwhole : HeadersWhole socket [] := by
        intro i hi
        exact absurd hi (Nat.not_lt_zero i)
      have hnone : next.bytes.take n = [] ↔ n = 0 := by
        rw [List.take_eq_nil_iff, or_iff_left]
        intro hnil
        rw [hnil] at hn
        exact absurd hn (Nat.not_lt_zero n)
      rw [receives_nil_iff hending, hsocket, and_iff_left hwhole]
      exact hnone
  | cons p packets ih =>
      have hcontents : socket.contents = p.bytes ++
          ((packets.map ResponsePacket.bytes).flatten ++ next.bytes.take n) := by
        rw [hsocket, List.map_cons, List.flatten_cons, List.append_assoc]
      have hleft : (socket.drop p.bytes.length).contents =
          (packets.map ResponsePacket.bytes).flatten ++ next.bytes.take n := by
        rw [Source.contents_drop, hcontents, List.drop_left]
      rw [receives_cons_iff hcontents hending, headersWhole_cons_iff (contents_ne_nil hcontents),
        @ih (socket.drop p.bytes.length) hending hleft]
      exact and_left_comm

end

/-- A response of two bytes. -/
def sampleResponse : ResponsePacket where
  packetId := List.replicate packetIdLength 120
  body := ascii "\x7b\x7d"
  length_packetId := by decide
  length_body := by decide

/-- Two responses, the first of which arrives in two chunks. -/
def sampleSocket : RubySocket where
  chunks := [sampleResponse.bytes.take 20, sampleResponse.bytes.drop 20, sampleResponse.bytes]
  ending := none
  nonempty := by decide

/-- A packet that arrives in two pieces. -/
theorem receives_iff_sample : Receives sampleSocket [sampleResponse, sampleResponse] := by
  refine (receives_iff [sampleResponse, sampleResponse] sampleResponse (n := 0) (by decide) rfl
    (by decide)).mpr ⟨rfl, ?_⟩
  rw [headersWhole_cons_iff (by decide), headersWhole_cons_iff (by decide)]
  refine ⟨by decide, by decide, ?_⟩
  intro i hi
  exact absurd hi (Nat.not_lt_zero i)

/-- A response whose header arrives in two chunks. -/
def cutSocket : RubySocket :=
  ⟨[sampleResponse.bytes.take 10, sampleResponse.bytes.drop 10], none, by decide⟩

/-- A response of which only 40 bytes arrive. -/
def closedSocket : RubySocket := ⟨[sampleResponse.bytes.take 40], none, by decide⟩

/-- The first is received as a packet without an id and a body, the second as one with a part of the
id. -/
theorem not_receives_sample :
    ¬Receives cutSocket [sampleResponse] ∧ ¬Receives closedSocket [] := by
  constructor
  · rintro ⟨message, h⟩
    have hpackets : (recvPackets 2 cutSocket).1 = [sampleResponse.decoded] := congrArg Prod.fst h
    exact absurd hpackets (by decide)
  · rintro ⟨message, h⟩
    have hraised : (recvPackets 1 closedSocket).2.isSome = true :=
      congrArg (fun r => r.2.isSome) h
    exact absurd hraised (by decide)

end Zbroker
