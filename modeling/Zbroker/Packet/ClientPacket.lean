import Zbroker.Packet.OutPacket
import Zbroker.Packet.RubyPacket

/-!
# From a client to the server: what the server reads of a packet

`Packet#data` prints the header once, from the number of characters of the body, and does not pad
the id; the server counts bytes.

* `receiveNext` — the next packet on a connection: `packet_header::decode`, `reserve`, the id from
  the first 32 bytes, and the body from the rest.
* `ReadsBack heap p` — the server reads what `p.data` returns as one packet with the id and the
  body of `p`, and goes on with what follows.
* `headerBody` — the body at the first call of `data`.
* **`readsBack_iff`**: after any calls, that is so exactly when the id has 32 bytes and the number
  in the header is the number of bytes.
Every call of `data` returns the header of the first one, the id and the body (`data_foldl_call`), and a
header and bytes read back exactly when the number in the one is the length of the other
(`reads_printHeader_iff`).
-/

namespace Zbroker

open Found.Codec

/-- The next packet on a connection: its id and its body, and what follows it. A packet that is
shorter than an id has neither. -/
def receiveNext (heap : Heap) (stream : List UInt8) :
    Option ((List UInt8 × List UInt8) × List UInt8) :=
  if h : (stream.take headerLength).length = headerLength then
    match receive heap ⟨stream.take headerLength, h⟩ (stream.drop headerLength) with
    | .error _ => none
    | .ok p =>
        if p.bodyLength < packetIdLength then none
        else
          some ((p.raw.take packetIdLength, p.body), stream.drop (headerLength + p.bodyLength))
  else none

/-- The 32 bytes are the id with blanks on one side of it. -/
def IsPadded (bytes packetId : List UInt8) : Prop :=
  bytes.length = packetIdLength ∧ ∃ k,
    bytes = List.replicate k 32 ++ packetId ∨ bytes = packetId ++ List.replicate k 32

/-- The server reads the data of the packet as one packet, with its body and its id up to
padding, and goes on with what follows it. -/
def ReadsBack (heap : Heap) (p : RubyPacket) : Prop :=
  ∃ packetId, IsPadded packetId p.packetId.bytes ∧
    Reads (receiveNext heap) p.data.1.bytes (packetId, p.body.bytes)

/-- The body at the first call of `data`, or at the end. -/
def headerBody (p : RubyPacket) : List PacketCall → RubyString
  | [] => p.body
  | .data :: _ => p.body
  | call :: calls => headerBody (p.call call) calls

/-! ## Reading -/

/-- What is accepted, by the number in the header. -/
theorem receive_eq (heap : Heap) (h : HeaderField) (following : List UInt8) :
    (heap.fits h.requested = true ∧ 0 ≤ h.number ∧ h.number ≤ following.length ∧
      receive heap h following = .ok ⟨h.decode, [], following.take h.decode ++ [0]⟩) ∨
    (¬(heap.fits h.requested = true ∧ 0 ≤ h.number ∧ h.number ≤ following.length) ∧
      ∃ e, receive heap h following = .error e) := by
  unfold receive
  rw [reserve_decode]
  by_cases hfits : heap.fits h.requested = true
  · by_cases hn : 0 ≤ h.number
    · have hdecode := h.decode_of_nonneg hn
      rw [if_pos hfits, if_pos hn]
      by_cases hlen : following.length < h.decode
      · refine Or.inr ⟨?_, ?_⟩
        · intro hcond
          omega
        · dsimp only
          rw [if_pos hlen]
          exact ⟨_, rfl⟩
      · refine Or.inl ⟨hfits, hn, by omega, ?_⟩
        dsimp only
        rw [if_neg hlen]
    · rw [if_pos hfits, if_neg hn]
      exact Or.inr ⟨fun hcond => hn hcond.2.1, _, rfl⟩
  · rw [if_neg hfits]
    exact Or.inr ⟨fun hcond => hfits hcond.1, _, rfl⟩

/-- The id and the body of a packet that has both. -/
theorem take_and_body_of_le {following : List UInt8} {n : Nat} (hid : packetIdLength ≤ n)
    (hlen : n ≤ following.length) :
    (following.take n ++ [0]).take packetIdLength = following.take packetIdLength ∧
      InPacket.body ⟨n, [], following.take n ++ [0]⟩ =
        (following.drop packetIdLength).take (n - packetIdLength) := by
  have htaken : (following.take n).length = n := List.length_take_of_le hlen
  constructor
  · rw [List.take_append_of_le_length (by omega), List.take_take, Nat.min_eq_left hid]
  · have hdropped : ((following.take n).drop packetIdLength).length = n - packetIdLength := by
      rw [List.length_drop, htaken]
    rw [InPacket.body]
    dsimp only
    rw [List.drop_append_of_le_length (by omega), List.take_left' hdropped, List.drop_take]

/-- A stream that starts with a header. -/
theorem receiveNext_append (heap : Heap) (h : HeaderField) (following : List UInt8) :
    receiveNext heap (h.val ++ following) =
      if heap.fits h.requested = true ∧ (packetIdLength : Int) ≤ h.number ∧
          h.number ≤ following.length then
        some ((following.take packetIdLength,
          (following.drop packetIdLength).take (h.decode - packetIdLength)),
          following.drop h.decode)
      else none := by
  have htake : (h.val ++ following).take headerLength = h.val := List.take_left' h.property
  have hdrop : (h.val ++ following).drop headerLength = following := List.drop_left' h.property
  have hfield : ((h.val ++ following).take headerLength).length = headerLength := by
    rw [htake, h.property]
  have hheader : (⟨(h.val ++ following).take headerLength, hfield⟩ : HeaderField) = h :=
    Subtype.ext htake
  rw [receiveNext, dif_pos hfield, hheader, hdrop]
  rcases receive_eq heap h following with ⟨hfits, hn, hlen, hreceive⟩ | ⟨hnot, e, hreceive⟩
  · have hdecode := h.decode_of_nonneg hn
    rw [hreceive]
    dsimp only
    by_cases hid : h.decode < packetIdLength
    · rw [if_pos hid, if_neg]
      intro hcond
      omega
    · obtain ⟨htaken, hbody⟩ := @take_and_body_of_le following h.decode (by omega) (by omega)
      rw [if_neg hid, if_pos ⟨hfits, by omega, hlen⟩, htaken, hbody, ← List.drop_drop, hdrop]
  · rw [hreceive, if_neg]
    intro hcond
    refine hnot ⟨hcond.1, ?_, hcond.2.2⟩
    have hid := hcond.2.1
    omega

/-! ## The header -/

/-- A header of 16 digits or fewer is all of the field. -/
def headerField {n : Nat} (h : n < 10 ^ 16) : HeaderField := ⟨printHeader n, length_printHeader h⟩

/-- The number in a header that was printed. -/
theorem number_headerField {n : Nat} (h : n < 10 ^ 16) : (headerField h).number = wrapInt n := by
  rw [HeaderField.number, atoi]
  show wrapInt (strtol (printHeader n)) = _
  rw [printHeader, strtol_padLeft_decimal _ (by omega)]

/-- A packet behind which nothing is left: the number in the header counts all bytes. -/
theorem eq_of_receiveNext {heap : Heap} {h : HeaderField} {following packetId body : List UInt8}
    (hread : receiveNext heap (h.val ++ following) = some ((packetId, body), [])) :
    heap.fits h.requested = true ∧ h.number = body.length + packetIdLength ∧
      following.length = body.length + packetIdLength ∧
      packetId = following.take packetIdLength := by
  rw [receiveNext_append] at hread
  split_ifs at hread with hcond
  obtain ⟨hfits, hid, hlen⟩ := hcond
  simp only [Option.some.injEq, Prod.mk.injEq] at hread
  obtain ⟨⟨htake, hbody⟩, hdrop⟩ := hread
  have hdecode := h.decode_of_nonneg (by omega)
  have hall := congrArg List.length hdrop
  have hpart := congrArg List.length hbody
  rw [List.length_drop, List.length_nil] at hall
  rw [List.length_take, List.length_drop] at hpart
  exact ⟨hfits, by omega, by omega, htake.symm⟩

/-- **When a header of 16 digits or fewer is right**, in front of an id and a body. -/
theorem reads_printHeader_iff {heap : Heap} {n : Nat} (h : n < 10 ^ 16) {packetId packetId' body :
    List UInt8} :
    Reads (receiveNext heap) (printHeader n ++ packetId ++ body) (packetId', body) ∧
        packetId'.length = packetIdLength ↔
      packetId' = packetId ∧ packetId.length = packetIdLength ∧
        wrapInt n = body.length + packetIdLength ∧
        heap.fits (body.length + packetIdLength + 1) = true := by
  have hstream : ∀ rest, printHeader n ++ packetId ++ body ++ rest =
      (headerField h).val ++ (packetId ++ body ++ rest) := by
    intro rest
    simp [headerField]
  have hnumber := number_headerField h
  have hmax := (headerField h).number_mem.2
  simp only [intMax] at hmax
  have hrequested : (headerField h).number = body.length + packetIdLength →
      (headerField h).requested = body.length + packetIdLength + 1 := by
    intro heq
    have hdecode := (headerField h).decode_of_nonneg (by omega)
    rw [HeaderField.requested, Nat.mod_eq_of_lt (by simp only [sizeTCount]; omega)]
    omega
  constructor
  · rintro ⟨hreads, -⟩
    have hread := hreads []
    rw [hstream, List.append_nil] at hread
    obtain ⟨hfits, heq, hlen, hid⟩ := eq_of_receiveNext hread
    rw [List.length_append] at hlen
    have hidlen : packetId.length = packetIdLength := by omega
    refine ⟨?_, hidlen, ?_, ?_⟩
    · rw [hid]
      exact List.take_left' hidlen
    · rw [← hnumber]
      exact heq
    · rw [← hrequested heq]
      exact hfits
  · rintro ⟨rfl, hidlen, hwrap, hfits⟩
    have heq : (headerField h).number = body.length + packetIdLength := by
      rw [hnumber]
      exact hwrap
    have hdecode := (headerField h).decode_of_nonneg (by omega)
    have hall : (packetId' ++ body).length = (headerField h).decode := by
      rw [List.length_append]
      omega
    refine ⟨?_, hidlen⟩
    intro rest
    rw [hstream, receiveNext_append, if_pos]
    · rw [List.drop_left' hall, List.append_assoc, List.take_left' hidlen, List.drop_left' hidlen,
        List.take_left' (by omega)]
    · refine ⟨?_, by omega, ?_⟩
      · rw [hrequested heq]
        exact hfits
      · rw [List.length_append, hall]
        omega

/-- A header of more than 16 digits is cut off, and the rest of it gets into the id. -/
theorem not_isPadded_of_le {heap : Heap} {n : Nat} (h : 10 ^ 16 ≤ n)
    {packetId packetId' body : List UInt8}
    (hreads : Reads (receiveNext heap) (printHeader n ++ packetId ++ body) (packetId', body)) :
    ¬IsPadded packetId' packetId := by
  have hlong : 16 < (printHeader n).length := by
    have hdigits := (length_decimal_le_iff (n := n) (by decide : 0 < 16)).not.mpr (by omega)
    rw [printHeader, length_padLeft]
    omega
  have hprint : printHeader n = decimal n := by
    rw [printHeader, length_padLeft] at hlong
    rw [printHeader, padLeft_of_le]
    simp only [headerLength] at hlong ⊢
    omega
  have hfield : ((printHeader n).take headerLength).length = headerLength :=
    List.length_take_of_le hlong.le
  have hstream : printHeader n ++ packetId ++ body ++ [] =
      (printHeader n).take headerLength ++
        ((printHeader n).drop headerLength ++ packetId ++ body) := by
    rw [List.append_nil, ← List.append_assoc, ← List.append_assoc, List.take_append_drop]
  have hread := hreads []
  rw [hstream] at hread
  generalize (printHeader n).take headerLength = field at hfield hread
  obtain ⟨-, -, hlen, hid⟩ := @eq_of_receiveNext heap ⟨field, hfield⟩ _ _ _ hread
  have htail : ((printHeader n).drop headerLength ++ packetId).length = packetIdLength := by
    rw [List.length_append] at hlen
    omega
  rw [List.take_left' htail] at hid
  -- the digits in the id are more than those of the id proper
  have hdigits : ((printHeader n).drop headerLength).countP isDigit =
      ((printHeader n).drop headerLength).length := by
    rw [List.countP_eq_length, hprint]
    exact fun b hb => isDigit_of_mem_decimal (List.mem_of_mem_drop hb)
  have hpos : 0 < ((printHeader n).drop headerLength).length := by
    rw [List.length_drop]
    simp only [headerLength]
    omega
  rintro ⟨-, k, hpad⟩
  have hcount : packetId'.countP isDigit = packetId.countP isDigit := by
    have hblank : (List.replicate k (32 : UInt8)).countP isDigit = 0 := by
      rw [List.countP_replicate, if_neg (by decide)]
    rcases hpad with hpad | hpad
    · rw [hpad, List.countP_append, hblank, Nat.zero_add]
    · rw [hpad, List.countP_append, hblank, Nat.add_zero]
  rw [hid, List.countP_append, hdigits] at hcount
  omega

/-! ## The packet -/

/-- A header that is encoded stays. -/
theorem header_call_of_some {p : RubyPacket} {header : RubyString} (hp : p.header = some header)
    (calls : List PacketCall) : (calls.foldl RubyPacket.call p).header = some header := by
  induction calls generalizing p with
  | nil => exact hp
  | cons call calls ih =>
      apply ih
      cases call with
      | setBody value =>
          rw [RubyPacket.call, RubyPacket.setBody]
          split_ifs <;> exact hp
      | setPacketId value =>
          rw [RubyPacket.call, RubyPacket.setPacketId]
          split_ifs <;> exact hp
      | data =>
          rw [RubyPacket.call, RubyPacket.data, hp]
          rfl

/-- The header of a packet that has none yet. -/
theorem encodeHeader_eq (p : RubyPacket) :
    p.encodeHeader = RubyString.binary (printHeader (p.body.length + packetIdLength)) := by
  rw [RubyPacket.encodeHeader, printHeader]
  rfl

/-- `data` with a header: that of the packet, or a new one. -/
theorem data_eq {p : RubyPacket} {header : RubyString} (h : p.header.getD p.encodeHeader = header) :
    p.data = (header ++ p.packetId ++ p.body, { p with header := some header }) := by
  subst h
  rfl

/-- **What `data` returns** after some calls on a new packet: the header is that of the body of the
first call. -/
theorem data_foldl_call (calls : List PacketCall) {p : RubyPacket} (hp : p.header = none) :
    (calls.foldl RubyPacket.call p).data.1 =
      RubyString.binary (printHeader ((headerBody p calls).length + packetIdLength)) ++
        (calls.foldl RubyPacket.call p).packetId ++ (calls.foldl RubyPacket.call p).body := by
  induction calls generalizing p with
  | nil =>
      have hnew : p.header.getD p.encodeHeader = p.encodeHeader := by rw [hp, Option.getD_none]
      rw [List.foldl_nil, data_eq hnew, encodeHeader_eq, headerBody]
  | cons call calls ih =>
      rw [List.foldl_cons]
      cases call with
      | setBody value =>
          apply ih
          rw [RubyPacket.call, RubyPacket.setBody]
          split_ifs <;> exact hp
      | setPacketId value =>
          apply ih
          rw [RubyPacket.call, RubyPacket.setPacketId]
          split_ifs <;> exact hp
      | data =>
          have hnew : p.header.getD p.encodeHeader = p.encodeHeader := by rw [hp, Option.getD_none]
          have hheader : (p.call .data).header = some p.encodeHeader := by
            rw [RubyPacket.call, data_eq hnew]
          have hkept : (calls.foldl RubyPacket.call (p.call .data)).header.getD
              (calls.foldl RubyPacket.call (p.call .data)).encodeHeader = p.encodeHeader := by
            rw [header_call_of_some hheader calls, Option.getD_some]
          rw [data_eq hkept, encodeHeader_eq, headerBody]

/-- When the server reads a packet back whose header says `n`. -/
theorem readsBack_of_data_iff {heap : Heap} {p : RubyPacket} {n : Nat}
    (hdata : p.data.1.bytes = printHeader n ++ p.packetId.bytes ++ p.body.bytes) :
    ReadsBack heap p ↔
      p.packetId.bytes.length = packetIdLength ∧ n < 10 ^ 16 ∧
        wrapInt n = p.body.bytes.length + packetIdLength ∧
        heap.fits (p.body.bytes.length + packetIdLength + 1) = true := by
  unfold ReadsBack
  rw [hdata]
  rcases Nat.lt_or_ge n (10 ^ 16) with hsmall | hlarge
  · rw [and_iff_right hsmall]
    constructor
    · rintro ⟨packetId, hpadded, hreads⟩
      exact ((reads_printHeader_iff hsmall).mp ⟨hreads, hpadded.1⟩).2
    · intro hcond
      obtain ⟨hreads, hlen⟩ := (reads_printHeader_iff hsmall).mpr ⟨rfl, hcond⟩
      exact ⟨p.packetId.bytes, ⟨hlen, 0, Or.inl rfl⟩, hreads⟩
  · refine iff_of_false ?_ (fun hcond => absurd hcond.2.1 (Nat.not_lt.mpr hlarge))
    rintro ⟨packetId, hpadded, hreads⟩
    exact not_isPadded_of_le hlarge hreads hpadded

/-- **Client packets.** A packet is made with a body, and its methods are called in any order. The
server reads what `data` then returns as one packet with the id and the body of the packet,
exactly when the id has 32 bytes, and the number in the header (that of the characters at the
first call of `data`, and 32, as an `int`) is that of the bytes, for which there is memory. -/
theorem readsBack_iff (heap : Heap) (body : String) (calls : List PacketCall) (p : RubyPacket)
    (hp : p = calls.foldl RubyPacket.call (RubyPacket.new (RubyString.utf8 body))) (n : Nat)
    (hn : n = (headerBody (RubyPacket.new (RubyString.utf8 body)) calls).length + packetIdLength) :
    ReadsBack heap p ↔
      p.packetId.bytes.length = packetIdLength ∧ n < 10 ^ 16 ∧
        wrapInt n = p.body.bytes.length + packetIdLength ∧
        heap.fits (p.body.bytes.length + packetIdLength + 1) = true := by
  apply readsBack_of_data_iff
  have h := data_foldl_call calls (p := RubyPacket.new (RubyString.utf8 body)) rfl
  rw [← hp, ← hn] at h
  rw [h, RubyString.bytes_append, RubyString.bytes_append, RubyString.bytes_binary]

/-- The id of a response is 32 bytes long. -/
def samplePacketId : String := "5d41402abc4b2a76b9719d911017c592"

/-- A request in ASCII under such an id, whose data is taken twice. -/
theorem readsBack_iff_sample : ∃ p,
    p = [PacketCall.setPacketId samplePacketId, .data].foldl RubyPacket.call
      (RubyPacket.new (RubyString.utf8 "[102]")) ∧
      ReadsBack sampleHeap p :=
  ⟨_, rfl, (readsBack_iff sampleHeap "[102]" [.setPacketId samplePacketId, .data] _ rfl _ rfl).mpr
    (by decide)⟩

/-- A character of two bytes in the body; an id of one character; and a body that is replaced by a
longer one after the first call of `data`. -/
theorem not_readsBack_sample :
    ¬ReadsBack sampleHeap (RubyPacket.new (RubyString.utf8 "é")) ∧
      ¬ReadsBack sampleHeap ([PacketCall.setPacketId "x"].foldl RubyPacket.call
        (RubyPacket.new (RubyString.utf8 "[102]"))) ∧
      ¬ReadsBack sampleHeap ([PacketCall.data, .setBody "[102]"].foldl RubyPacket.call
        (RubyPacket.new (RubyString.utf8 ""))) := by
  refine ⟨?_, ?_, ?_⟩
  · rw [@readsBack_of_data_iff _ _ 33 (by decide)]
    decide
  · rw [@readsBack_of_data_iff _ _ 37 (by decide)]
    decide
  · rw [@readsBack_of_data_iff _ _ 32 (by decide)]
    decide

end Zbroker
