import Zbroker.Found.Codec
import Zbroker.Packet.Decimal
import Zbroker.Packet.InPacket

/-!
# Outgoing packets

* `OutPacket` — the class of the same name: `setPacketId`, `setBody`, and `pack`, which leaves the
  padded id behind.
* `OutCall`, `packAll` — the calls on one packet, and the strings that its `pack`s return.
* `meant` — what each of these strings is to say: the id and the body set last.
* `frame` — a header, an id of full length and a body, put together.
* `unpackNext` — the next packet of a stream, by the constructor of `in_packet`.
* **`packAll_eq`**: every `pack` returns the frame of what it is to say.
* **`reads_unpackNext`**: the constructor reads a frame back.
-/

namespace Zbroker

open Found.Codec

/-- An outgoing packet. Source: `request_packet.hpp`, `out_packet` -/
structure OutPacket where
  packetId : List UInt8
  body : List UInt8
  data : List UInt8
  deriving DecidableEq, Repr

/-- What `"%32s"` prints for a string: it ends at a zero. -/
def printId (packetId : List UInt8) : List UInt8 :=
  padLeft packetIdLength (packetId.takeWhile (· ≠ 0))

/-- The header field of a packet whose id and body have `n` bytes. -/
def printHeader (n : Nat) : List UInt8 := padLeft headerLength (decimal n)

/-- A packet as it is sent. -/
def frame (packetId body : List UInt8) : List UInt8 :=
  printHeader (body.length + packetIdLength) ++ packetId ++ body

namespace OutPacket

/-- The constructor. -/
def new : OutPacket := ⟨[], [], []⟩

/-- `set_packet_id`. -/
def setPacketId (packetId : List UInt8) (p : OutPacket) : OutPacket := { p with packetId := packetId }

/-- `set_body`. -/
def setBody (body : List UInt8) (p : OutPacket) : OutPacket := { p with body := body }

/-- `pack()`: the packet after it, with the returned string in `m_data`. The id goes through a
buffer of 256 bytes.
Source: `request_packet.cc`, `out_packet::pack` -/
def pack (p : OutPacket) : Except Exn OutPacket :=
  let packetId := printId p.packetId
  if packetId.length < 256 then
    .ok { p with packetId := packetId, data := frame packetId p.body }
  else .error (.outOfBounds "sprintf(buffer,\"%32s\",m_packet_id.c_str())")

end OutPacket

/-- A call on an outgoing packet. -/
inductive OutCall where
  | setPacketId (packetId : List UInt8)
  | setBody (body : List UInt8)
  | pack
  deriving DecidableEq, Repr

/-- The strings that the calls of `pack` return. -/
def packAll : List OutCall → OutPacket → Except Exn (List (List UInt8))
  | [], _ => .ok []
  | .setPacketId packetId :: calls, p => packAll calls (p.setPacketId packetId)
  | .setBody body :: calls, p => packAll calls (p.setBody body)
  | .pack :: calls, p =>
      match p.pack with
      | .error e => .error e
      | .ok p' => (packAll calls p').map (p'.data :: ·)

/-- The ids, padded on the left, and the bodies that the strings are to carry: at each `pack`,
what was set last. -/
def meant : (packetId body : List UInt8) → List OutCall → List (List UInt8 × List UInt8)
  | _, _, [] => []
  | _, body, .setPacketId packetId :: calls => meant packetId body calls
  | packetId, _, .setBody body :: calls => meant packetId body calls
  | packetId, body, .pack :: calls =>
      (padLeft packetIdLength packetId, body) :: meant packetId body calls

/-- The limits of the protocol: an id of at most 32 bytes without a zero, and a body shorter than
`max_body_length`. -/
def OutCall.Within : OutCall → Prop
  | .setPacketId packetId => packetId.length ≤ packetIdLength ∧ (0 : UInt8) ∉ packetId
  | .setBody body => body.length < maxBodyLength
  | .pack => True

instance : DecidablePred OutCall.Within
  | .setPacketId _ => inferInstanceAs (Decidable (_ ∧ _))
  | .setBody _ => inferInstanceAs (Decidable (_ < _))
  | .pack => isTrue trivial

/-! ## Packing -/

/-- An id within the limits is printed with blanks on its left. -/
theorem printId_of_not_mem {packetId : List UInt8} (h : (0 : UInt8) ∉ packetId) :
    printId packetId = padLeft packetIdLength packetId := by
  rw [printId, List.takeWhile_eq_self_iff.mpr]
  intro b hb
  have hne : b ≠ 0 := by
    rintro rfl
    exact h hb
  simpa using hne

/-- An id is printed in its field. -/
theorem length_printId {packetId : List UInt8} (hle : packetId.length ≤ packetIdLength)
    (h : (0 : UInt8) ∉ packetId) : (printId packetId).length = packetIdLength := by
  rw [printId_of_not_mem h, length_padLeft]
  omega

/-- A printed id has no zero. -/
theorem not_mem_printId (packetId : List UInt8) : (0 : UInt8) ∉ printId packetId := by
  rw [printId, padLeft, List.mem_append, not_or]
  refine ⟨?_, ?_⟩
  · intro hzero
    exact absurd (List.mem_replicate.mp hzero).2 (by decide)
  · intro hzero
    simpa using List.mem_takeWhile_imp hzero

/-- A printed id is printed as itself. -/
theorem printId_printId (packetId : List UInt8) : printId (printId packetId) = printId packetId := by
  rw [printId_of_not_mem (not_mem_printId packetId), padLeft_of_le]
  rw [printId, length_padLeft]
  exact Nat.le_max_left _ _

/-- **Packing again** without changes gives the same. -/
theorem OutPacket.pack_pack {p p' : OutPacket} (h : p.pack = .ok p') : p'.pack = .ok p' := by
  unfold OutPacket.pack at h ⊢
  dsimp only at h
  split_ifs at h with hlen
  cases h
  dsimp only
  rw [printId_printId, if_pos hlen]

/-- `pack` within the limits. -/
theorem OutPacket.pack_eq {p : OutPacket} (hle : p.packetId.length ≤ packetIdLength)
    (h : (0 : UInt8) ∉ p.packetId) :
    p.pack = .ok { p with
      packetId := printId p.packetId, data := frame (printId p.packetId) p.body } := by
  rw [OutPacket.pack, if_pos]
  rw [length_printId hle h]
  decide

/-- **What the strings are**, by induction on the calls: the id in the packet is the one that was
set last, padded or not. -/
theorem packAll_eq {calls : List OutCall} (hcalls : ∀ call ∈ calls, call.Within)
    {packetId : List UInt8} {p : OutPacket} (hle : packetId.length ≤ packetIdLength)
    (hzero : (0 : UInt8) ∉ packetId)
    (hp : p.packetId = packetId ∨ p.packetId = printId packetId) :
    packAll calls p = .ok ((meant packetId p.body calls).map fun m => frame m.1 m.2) := by
  induction calls generalizing packetId p with
  | nil => rfl
  | cons call calls ih =>
      have hrest : ∀ call ∈ calls, call.Within := fun c hc => hcalls c (List.mem_cons_of_mem _ hc)
      have hcall := hcalls call List.mem_cons_self
      cases call with
      | setPacketId packetId' =>
          rw [packAll, meant]
          exact ih hrest hcall.1 hcall.2 (Or.inl rfl)
      | setBody body =>
          rw [packAll, meant]
          exact @ih hrest packetId (p.setBody body) hle hzero hp
      | pack =>
          have hprinted : printId p.packetId = printId packetId := by
            rcases hp with hp | hp
            · rw [hp]
            · rw [hp, printId_printId]
          have hpack : p.pack = .ok { p with
              packetId := printId packetId, data := frame (printId packetId) p.body } := by
            rw [← hprinted]
            rcases hp with hp | hp
            · exact OutPacket.pack_eq (by rw [hp]; exact hle) (by rw [hp]; exact hzero)
            · apply OutPacket.pack_eq
              · rw [hp, length_printId hle hzero]
              · rw [hp]
                exact not_mem_printId packetId
          have htail := @ih hrest packetId { p with
            packetId := printId packetId, data := frame (printId packetId) p.body } hle hzero
            (Or.inr rfl)
          rw [packAll, hpack]
          dsimp only
          rw [htail, meant, ← printId_of_not_mem hzero]
          rfl

/-! ## Reading a frame -/

/-- A length is printed in its field, if it has no more digits. -/
theorem length_printHeader {n : Nat} (h : n < 10 ^ 16) : (printHeader n).length = headerLength := by
  have hlen := (length_decimal_le_iff (n := n) (by decide : 0 < 16)).mpr h
  rw [printHeader, length_padLeft, headerLength]
  omega

/-- What a stream starts with that starts with a frame. -/
theorem frame_append (packetId body rest : List UInt8) :
    frame packetId body ++ rest =
      printHeader (body.length + packetIdLength) ++ (packetId ++ body ++ rest) := by
  simp [frame]

/-- The length of a packet. -/
theorem length_frame {packetId body : List UInt8} (hid : packetId.length = packetIdLength)
    (hbody : body.length + packetIdLength < 10 ^ headerLength) :
    (frame packetId body).length = headerLength + packetIdLength + body.length := by
  rw [frame, List.length_append, List.length_append, length_printHeader hbody, hid]

/-- What is decoded from a printed header: the number as an `int`, as a `size_t`. -/
theorem decode_printHeader {n : Nat} (h : n < 10 ^ 16) {bytes : List UInt8}
    (hlen : bytes.length = headerLength) (hbytes : bytes = printHeader n) :
    HeaderField.decode ⟨bytes, hlen⟩ = toSizeT (wrapInt n) := by
  rw [HeaderField.decode, HeaderField.number, atoi]
  dsimp only
  rw [hbytes, printHeader, strtol_padLeft_decimal _ (by omega)]

/-- A number that an `int` can have is decoded as itself. -/
theorem toSizeT_wrapInt_of_lt {n : Nat} (h : n < 2147483648) : toSizeT (wrapInt n) = n := by
  have hwrap : wrapInt n = n := by
    unfold wrapInt
    omega
  rw [hwrap, toSizeT]
  omega

/-- The next packet of a stream, by the constructor of `in_packet`: its id and its body, and what
follows it. -/
def unpackNext (heap : Heap) (stream : List UInt8) :
    Option ((List UInt8 × List UInt8) × List UInt8) :=
  match InPacket.ofRaw heap stream with
  | .error _ => none
  | .ok p => some ((p.packetId, p.body), stream.drop (headerLength + p.bodyLength))

/-- The allocation for a length that an `int` can have. -/
theorem reserve_of_fits {heap : Heap} {n : Nat} (h : n < 2147483648)
    (hfits : heap.fits (n + 1) = true) : InPacket.reserve heap n = .ok (n + 1) := by
  have hmod : (n + 1) % sizeTCount = n + 1 := Nat.mod_eq_of_lt (by simp only [sizeTCount]; omega)
  rw [InPacket.reserve, hmod, if_pos hfits, if_pos (Nat.lt_succ_self n)]

/-- The body of a packet with all its bytes. -/
theorem body_mk {packetId packetId' body : List UInt8} (h : packetId.length = packetIdLength) :
    InPacket.body ⟨body.length + packetIdLength, packetId', packetId ++ body ++ [0]⟩ = body := by
  rw [InPacket.body, List.append_assoc, List.drop_left' h, Nat.add_sub_cancel]
  exact List.take_left

/-- **The constructor reads a frame back**, and leaves what follows it. -/
theorem reads_unpackNext {heap : Heap} {packetId body : List UInt8}
    (hid : packetId.length = packetIdLength) (hbody : body.length + packetIdLength < 2147483648)
    (hfits : heap.fits (body.length + packetIdLength + 1) = true) :
    Reads (unpackNext heap) (frame packetId body) (packetId, body) := by
  intro rest
  have hheader : (printHeader (body.length + packetIdLength)).length = headerLength :=
    length_printHeader (by omega)
  have htake : (frame packetId body ++ rest).take headerLength =
      printHeader (body.length + packetIdLength) := by
    rw [frame_append]
    exact List.take_left' hheader
  have hdrop : (frame packetId body ++ rest).drop headerLength = packetId ++ body ++ rest := by
    rw [frame_append]
    exact List.drop_left' hheader
  have hlen : (packetId ++ body).length = body.length + packetIdLength := by
    rw [List.length_append, hid, Nat.add_comm]
  have hofRaw : InPacket.ofRaw heap (frame packetId body ++ rest) =
      .ok ⟨body.length + packetIdLength, packetId, packetId ++ body ++ [0]⟩ := by
    have hfield : ((frame packetId body ++ rest).take headerLength).length = headerLength := by
      rw [htake, hheader]
    have hdecode : HeaderField.decode ⟨_, hfield⟩ = body.length + packetIdLength := by
      rw [decode_printHeader (by omega) hfield htake, toSizeT_wrapInt_of_lt hbody]
    rw [InPacket.ofRaw, dif_pos hfield]
    dsimp only
    rw [hdecode, reserve_of_fits hbody hfits, hdrop]
    dsimp only
    rw [if_neg, if_neg, List.take_left' hlen, List.append_assoc packetId body rest,
      List.take_left' hid]
    · rw [List.length_append, hlen]
      omega
    · rw [List.length_append, hlen]
      omega
  rw [unpackNext, hofRaw]
  dsimp only
  rw [body_mk hid, ← List.drop_drop, hdrop, List.drop_left' hlen]

end Zbroker
