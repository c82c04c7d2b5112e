import Zbroker.Client.Socket

/-!
# From the server to its clients: responses come through

The server packs its responses one after the other into a stream; the constructor of `in_packet`
and the Ruby client both take such a stream apart.

* `recvNext` — the next packet of a stream, by `Proxy#recv_packet` on a socket where it arrives at
  once.
* `packResponses` — the strings of a list of responses, each packed by a packet of its own.
* `RoundTrips` — each string has the length of its parts, and both readers find what was meant.
* **`roundTrips_packResponses`**: within the limits of the protocol that is so, and packing again
  gives the same bytes.
Each string is a header, an id and a body of the lengths that the header says (`packResponses_eq`), so each
reader takes the first of them off the stream (`reads_unpackNext`, `reads_recvNext`); the rest is the
induction of `readAll_flatten`.
-/

namespace Zbroker

open Found.Codec Found.Chunks

/-- The next packet of a stream, by `recv_packet`: its id and its body, and what follows it. A packet
that is shorter than an id has no body. -/
def recvNext (stream : List UInt8) : Option ((List UInt8 × List UInt8) × List UInt8) :=
  match recvPacket (Source.whole stream) with
  | (.error _, _) => none
  | (.ok p, socket) => p.body.map fun body => ((p.packetId.bytes, body.bytes), socket.contents)

/-- The strings of a list of responses. -/
def packResponses : List (List OutCall) → Except Exn (List (List UInt8))
  | [] => .ok []
  | calls :: responses =>
      match packAll calls OutPacket.new with
      | .error e => .error e
      | .ok strings => (packResponses responses).map (strings ++ ·)

/-- The ids and bodies that the strings are to carry. -/
def meantBy (responses : List (List OutCall)) : List (List UInt8 × List UInt8) :=
  responses.flatMap (meant [] [])

/-- The strings have the lengths of their parts, and both readers split the stream into them. -/
structure RoundTrips (heap : Heap) (strings : List (List UInt8))
    (packets : List (List UInt8 × List UInt8)) : Prop where
  length : List.Forall₂
    (fun string packet => string.length = headerLength + packetIdLength + packet.2.length)
    strings packets
  unpacked : readAll (unpackNext heap) strings.flatten = some packets
  received : readAll recvNext strings.flatten = some packets

/-! ## The frames -/

/-- **The client reads a frame back**, and leaves what follows it. -/
theorem reads_recvNext {packetId body : List UInt8} (hid : packetId.length = packetIdLength)
    (hbody : body.length + packetIdLength < 10 ^ headerLength) :
    Reads recvNext (frame packetId body) (packetId, body) := by
  intro rest
  have hlen : headerSize ≤ (frame packetId body ++ rest).length := by
    rw [List.length_append, length_frame hid hbody]
    simp only [headerSize, headerLength]
    omega
  have hrecv := @recvPacket_frame (Source.whole (frame packetId body ++ rest)) _ _ rest hid hbody
    (Source.contents_whole _) (by rw [Source.chunk_whole]; exact hlen)
  rw [recvNext, hrecv]
  dsimp only
  rw [Option.map_some, Source.contents_drop, Source.contents_whole, List.drop_left,
    RubyString.bytes_binary, RubyString.bytes_binary]

/-- What is packed within the limits: an id of full length, and a short body. -/
theorem within_meant {calls : List OutCall} (hcalls : ∀ call ∈ calls, call.Within)
    {packetId body : List UInt8} (hid : packetId.length ≤ packetIdLength)
    (hbody : body.length < maxBodyLength) :
    ∀ m ∈ meant packetId body calls,
      m.1.length = packetIdLength ∧ m.2.length < maxBodyLength := by
  induction calls generalizing packetId body with
  | nil =>
      intro m hm
      cases hm
  | cons call calls ih =>
      have hrest : ∀ call ∈ calls, call.Within := fun c hc => hcalls c (List.mem_cons_of_mem _ hc)
      have hcall := hcalls call List.mem_cons_self
      cases call with
      | setPacketId packetId' => exact ih hrest hcall.1 hbody
      | setBody body' => exact ih hrest hid hcall
      | pack =>
          intro m hm
          rcases List.mem_cons.mp hm with rfl | hm
          · refine ⟨?_, hbody⟩
            rw [length_padLeft]
            exact Nat.max_eq_left hid
          · exact ih hrest hid hbody m hm

/-- The strings of the responses are the frames of what they mean. -/
theorem packResponses_eq {responses : List (List OutCall)}
    (hwithin : ∀ calls ∈ responses, ∀ call ∈ calls, call.Within) :
    packResponses responses = .ok ((meantBy responses).map fun m => frame m.1 m.2) := by
  induction responses with
  | nil => rfl
  | cons calls responses ih =>
      have hfirst := @packAll_eq calls (hwithin calls List.mem_cons_self) [] OutPacket.new
        (by decide) (by decide) (Or.inl rfl)
      have hrest := ih fun calls' h => hwithin calls' (List.mem_cons_of_mem calls h)
      have happend : meantBy (calls :: responses) = meant [] [] calls ++ meantBy responses :=
        List.flatMap_cons
      rw [packResponses, hfirst, happend, List.map_append]
      dsimp only
      rw [hrest]
      rfl

/-- **Responses come through.** Whatever ids and bodies within the limits are set on the packets,
in whatever order, and however often each is packed: every packed string has the length of its
parts, the constructor of `in_packet` and the Ruby client both split the stream of all strings
into the ids, padded to 32 bytes, and the bodies, and packing again gives the same bytes. -/
theorem roundTrips_packResponses (heap : Heap)
    (hheap : ∀ n, n ≤ maxBodyLength + packetIdLength → heap.fits n = true)
    (responses : List (List OutCall))
    (hwithin : ∀ calls ∈ responses, ∀ call ∈ calls, call.Within) :
    (∃ strings, packResponses responses = .ok strings ∧
      RoundTrips heap strings (meantBy responses)) ∧
      ∀ p p' : OutPacket, p.pack = .ok p' → p'.pack = .ok p' := by
  refine ⟨⟨_, packResponses_eq hwithin, ?_⟩, fun p p' => OutPacket.pack_pack⟩
  have hmeant : ∀ m ∈ meantBy responses,
      m.1.length = packetIdLength ∧ m.2.length < maxBodyLength := by
    intro m hm
    obtain ⟨calls, hcalls, hm⟩ := List.mem_flatMap.mp hm
    exact within_meant (hwithin calls hcalls) (by decide) (by decide) m hm
  have hlimit : ∀ m ∈ meantBy responses, m.2.length + packetIdLength < 10 ^ headerLength := by
    intro m hm
    have hbody := (hmeant m hm).2
    simp only [maxBodyLength, packetIdLength, headerLength] at hbody ⊢
    omega
  have hlength : ∀ m ∈ meantBy responses,
      (frame m.1 m.2).length = headerLength + packetIdLength + m.2.length :=
    fun m hm => length_frame (hmeant m hm).1 (hlimit m hm)
  have hnonempty : ∀ w ∈ (meantBy responses).map fun m => frame m.1 m.2, w ≠ [] := by
    intro w hw
    obtain ⟨m, hm, rfl⟩ := List.mem_map.mp hw
    rw [← List.length_pos_iff, hlength m hm]
    simp only [headerLength]
    omega
  have hread : ∀ {read : List UInt8 → Option ((List UInt8 × List UInt8) × List UInt8)},
      (∀ m ∈ meantBy responses, Reads read (frame m.1 m.2) m) →
        readAll read ((meantBy responses).map fun m => frame m.1 m.2).flatten =
          some (meantBy responses) := by
    intro read h
    apply readAll_flatten hnonempty
    rw [List.forall₂_map_left_iff, List.forall₂_same]
    exact h
  refine ⟨?_, hread ?_, hread ?_⟩
  · rw [List.forall₂_map_left_iff, List.forall₂_same]
    exact hlength
  · intro m hm
    obtain ⟨hid, hbody⟩ := hmeant m hm
    refine reads_unpackNext hid ?_ (hheap _ (by omega))
    simp only [maxBodyLength, packetIdLength] at hbody ⊢
    omega
  · intro m hm
    exact reads_recvNext (hmeant m hm).1 (hlimit m hm)

/-- Two responses of one packet, packed once and twice, and one of another with no id. -/
theorem roundTrips_packResponses_sample : ∃ strings,
    packResponses [[.setPacketId (ascii "x"), .setBody (ascii "ab"), .pack, .setBody [], .pack, .pack],
      [.setBody (ascii "c"), .pack]] = .ok strings ∧
      RoundTrips sampleHeap strings
        (meantBy [[.setPacketId (ascii "x"), .setBody (ascii "ab"), .pack, .setBody [], .pack, .pack],
          [.setBody (ascii "c"), .pack]]) := by
  refine (roundTrips_packResponses sampleHeap ?_ _ ?_).1
  · intro n hn
    simp only [maxBodyLength, packetIdLength] at hn
    simp only [sampleHeap, decide_eq_true_eq]
    omega
  · decide

end Zbroker
