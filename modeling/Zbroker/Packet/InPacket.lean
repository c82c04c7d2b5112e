import Zbroker.Packet.Header

/-!
# Incoming packets

The two ways in which an `in_packet` gets its contents: `connection::handle_read_header` reserves
the length it decoded and reads so many bytes from the socket, and the constructor
`in_packet(raw,size)` copies so many bytes from `raw`. Neither compares the length with a limit.

* `Heap` — how many bytes `new` can find: never as many as half of the address space.
* `InPacket.reserve`, `receive`, `InPacket.ofRaw` — the allocation and the two ways.
* `Framed r` — `r` is a rejection, or a packet with a length within the limits whose terminating
  zero and whose body are inside its buffer.
* **`framed_iff`**: for every header and every following bytes, exactly when each of the two ways
  ends like that.
A number in the field that is too large for the address space finds no memory
(`HeaderField.not_fits_of_lt`); below that, the two ways keep the number as it is, and the packet is well
framed exactly when it is within the limits (`InPacket.wellFramed_iff`).
-/

namespace Zbroker

/-- The memory that `new` has. -/
structure Heap where
  /-- Whether there are `n` bytes. -/
  fits : Nat → Bool
  /-- No object is as large as `2 ^ 63` bytes. -/
  fits_lt : ∀ n, fits n = true → n < 9223372036854775808

/-- An incoming packet. Source: `request_packet.hpp`, `in_packet` -/
structure InPacket where
  /-- `m_header.body_length()`. -/
  bodyLength : Nat
  /-- `m_packet_id`, which stays empty on the way from a socket. -/
  packetId : List UInt8
  /-- The bytes that `m_raw` points to. -/
  raw : List UInt8
  deriving DecidableEq, Repr

namespace InPacket

/-- `reserve(size)`: the number of bytes allocated, with the terminating zero written.
Source: `request_packet.hpp`, `in_packet::reserve` -/
def reserve (heap : Heap) (size : Nat) : Except Exn Nat :=
  let n := (size + 1) % sizeTCount
  if heap.fits n then
    if size < n then .ok n else .error (.outOfBounds "m_raw[size]")
  else .error .badAlloc

/-- The constructor `in_packet(raw,size)`, on the `size` bytes at `raw`.
Source: `request_packet.hpp`, `in_packet::unpack(raw,unpack_only)` -/
def ofRaw (heap : Heap) (raw : List UInt8) : Except Exn InPacket :=
  if h : (raw.take headerLength).length = headerLength then
    let header : HeaderField := ⟨raw.take headerLength, h⟩
    let rest := raw.drop headerLength
    if rest.length < packetIdLength then
      .error (.outOfBounds "m_packet_id.assign(raw+m_header.length(),32)")
    else
      match reserve heap header.decode with
      | .error e => .error e
      | .ok _ =>
          if rest.length < header.decode then
            .error (.outOfBounds "memcpy(reserve(body_len),raw+m_header.length(),body_len)")
          else
            .ok ⟨header.decode, rest.take packetIdLength, rest.take header.decode ++ [0]⟩
  else .error (.outOfBounds "memcpy(m_header.buffer(),raw,m_header.length())")

/-- `body()`, up to the terminating zero that `reserve` wrote. -/
def body (p : InPacket) : List UInt8 :=
  (p.raw.drop packetIdLength).take (p.bodyLength - packetIdLength)

end InPacket

/-- A header and what follows it on the socket: the bytes are read into the reserved buffer, and
a stream that ends before is an error.
Source: `asio_handler.cc`, `connection::handle_read_header` and `handle_read_body` -/
def receive (heap : Heap) (header : HeaderField) (following : List UInt8) : Except Exn InPacket :=
  match InPacket.reserve heap header.decode with
  | .error e => .error e
  | .ok _ =>
      if following.length < header.decode then .error .errorCode
      else .ok ⟨header.decode, [], following.take header.decode ++ [0]⟩

/-! ## What is accepted -/

/-- A packet within its limits: its length, the allocation for it, the terminating zero and the
start of the body. -/
structure InPacket.WellFramed (p : InPacket) : Prop where
  length_ge : packetIdLength ≤ p.bodyLength
  length_le : p.bodyLength ≤ maxBodyLength
  allocated : p.raw.length = p.bodyLength + 1 ∧ p.bodyLength + 1 < sizeTCount
  terminated : p.raw[p.bodyLength]? = some 0
  body : packetIdLength < p.raw.length

/-- The packet is rejected with an error, or accepted within its limits; nothing outside of a
buffer is touched. -/
def Framed : Except Exn InPacket → Prop
  | .error (.outOfBounds _) => False
  | .error _ => True
  | .ok p => p.WellFramed

/-- A packet is well framed exactly when its length is within the limits, if its buffer holds so
many bytes and the zero. -/
theorem InPacket.wellFramed_iff {n : Nat} {packetId bytes : List UInt8} (hn : n ≤ bytes.length) :
    (InPacket.mk n packetId (bytes.take n ++ [0])).WellFramed ↔
      packetIdLength ≤ n ∧ n ≤ maxBodyLength := by
  have hlength : (bytes.take n).length = n := List.length_take_of_le hn
  constructor
  · intro h
    exact ⟨h.length_ge, h.length_le⟩
  · rintro ⟨hge, hle⟩
    refine ⟨hge, hle, ⟨?_, ?_⟩, ?_, ?_⟩
    · simp [hlength]
    · simp only [maxBodyLength] at hle
      simp only [sizeTCount]
      omega
    · show (bytes.take n ++ [0])[n]? = some 0
      rw [List.getElem?_append_right hlength.le, hlength]
      simp
    · simp only [List.length_append, hlength, List.length_cons, List.length_nil]
      omega

/-! ## The allocation -/

/-- What `new` is asked for. -/
def HeaderField.requested (h : HeaderField) : Nat := (h.decode + 1) % sizeTCount

/-- A field below `-1` asks for more than there can be. -/
theorem HeaderField.not_fits_of_lt {h : HeaderField} (heap : Heap) (hn : h.number < -1) :
    heap.fits h.requested = false := by
  by_contra hfits
  have hlt := heap.fits_lt _ (by simpa using hfits)
  have hdecode := h.decode_of_neg (by omega)
  have hmin := h.number_mem.1
  simp only [requested, sizeTCount, intMin] at *
  omega

/-- What `reserve` does, by the number in the field. -/
theorem reserve_decode (heap : Heap) (h : HeaderField) :
    InPacket.reserve heap h.decode =
      if heap.fits h.requested then
        if 0 ≤ h.number then .ok (h.decode + 1) else .error (.outOfBounds "m_raw[size]")
      else .error .badAlloc := by
  unfold InPacket.reserve
  show (if heap.fits h.requested then
    if h.decode < h.requested then Except.ok h.requested else _ else _) = _
  by_cases hfits : heap.fits h.requested
  · rw [if_pos hfits, if_pos hfits]
    by_cases hn : 0 ≤ h.number
    · have hdecode := h.decode_of_nonneg hn
      have hmax := h.number_mem.2
      have hrequested : h.requested = h.decode + 1 := by
        simp only [HeaderField.requested, sizeTCount, intMax] at *
        omega
      rw [if_pos hn, hrequested, if_pos (Nat.lt_succ_self _)]
    · -- the field is `-1`: no bytes are allocated
      have hdecode := h.decode_of_neg (by omega)
      have hone : ¬h.number < -1 := by
        intro hlt
        rw [h.not_fits_of_lt heap hlt] at hfits
        cases hfits
      have hrequested : h.requested = 0 := by
        simp only [HeaderField.requested, sizeTCount] at *
        omega
      rw [if_neg hn, hrequested, if_neg (Nat.not_lt_zero _)]
  · rw [if_neg hfits, if_neg hfits]

/-! ## The two ways -/

/-- The way from the socket ends well exactly when there is no memory, the stream ends before the
body, or the length is within the limits. -/
theorem framed_receive_iff (heap : Heap) (h : HeaderField) (following : List UInt8) :
    Framed (receive heap h following) ↔
      heap.fits h.requested = false ∨ 0 ≤ h.number ∧ (following.length : Int) < h.number ∨
        (packetIdLength : Int) ≤ h.number ∧ h.number ≤ maxBodyLength := by
  unfold receive
  rw [reserve_decode]
  by_cases hfits : heap.fits h.requested
  · rw [if_pos hfits]
    simp only [hfits, Bool.true_eq_false, false_or]
    by_cases hn : 0 ≤ h.number
    · have hdecode := h.decode_of_nonneg hn
      rw [if_pos hn]
      by_cases hshort : following.length < h.decode
      · simp only [hshort, if_true, Framed, true_iff]
        exact Or.inl ⟨hn, by omega⟩
      · simp only [hshort, if_false, Framed]
        rw [InPacket.wellFramed_iff (by omega)]
        omega
    · rw [if_neg hn]
      simp only [Framed, packetIdLength, false_iff]
      omega
  · rw [if_neg hfits]
    simp [Framed, hfits]

/-- The constructor ends well exactly when there is room for the packet id, and there is no
memory, or the length is within the limits and the body is there. -/
theorem framed_ofRaw_iff (heap : Heap) (h : HeaderField) (following : List UInt8) :
    Framed (InPacket.ofRaw heap (h.val ++ following)) ↔
      packetIdLength ≤ following.length ∧
        (heap.fits h.requested = false ∨
          (packetIdLength : Int) ≤ h.number ∧ h.number ≤ maxBodyLength ∧
            h.number ≤ following.length) := by
  have htake : (h.val ++ following).take headerLength = h.val := List.take_left' h.property
  have hdrop : (h.val ++ following).drop headerLength = following := List.drop_left' h.property
  unfold InPacket.ofRaw
  simp only [htake, hdrop, h.property, dif_pos, Subtype.coe_eta]
  by_cases hid : following.length < packetIdLength
  · rw [if_pos hid]
    simp only [Framed, false_iff]
    omega
  · rw [if_neg hid, reserve_decode]
    by_cases hfits : heap.fits h.requested
    · rw [if_pos hfits]
      simp only [hfits, Bool.true_eq_false, false_or]
      by_cases hn : 0 ≤ h.number
      · have hdecode := h.decode_of_nonneg hn
        rw [if_pos hn]
        by_cases hshort : following.length < h.decode
        · simp only [hshort, if_true, Framed, false_iff]
          omega
        · simp only [hshort, if_false, Framed]
          rw [InPacket.wellFramed_iff (by omega)]
          omega
      · rw [if_neg hn]
        simp only [Framed, packetIdLength, false_iff]
        omega
    · rw [if_neg hfits]
      simp only [Framed, hfits, true_or, and_true, true_iff]
      omega

/-- **Incoming framing.** For every header field and every following bytes: the way from the
socket rejects the packet or accepts it within its limits exactly when there is no memory for it,
the stream ends before the body, or the number in the field is within the limits; and the
constructor does so exactly when the packet id is there, and there is no memory or the number is
within the limits and the body is there. An announced length outside the limits is not compared with
them: its packet counts as rejected only when there is no memory for it, or its bytes never come. -/
theorem framed_iff (heap : Heap) (h : HeaderField) (following : List UInt8) :
    (Framed (receive heap h following) ↔
      heap.fits h.requested = false ∨ 0 ≤ h.number ∧ (following.length : Int) < h.number ∨
        (packetIdLength : Int) ≤ h.number ∧ h.number ≤ maxBodyLength) ∧
    (Framed (InPacket.ofRaw heap (h.val ++ following)) ↔
      packetIdLength ≤ following.length ∧
        (heap.fits h.requested = false ∨
          (packetIdLength : Int) ≤ h.number ∧ h.number ≤ maxBodyLength ∧
            h.number ≤ following.length)) :=
  ⟨framed_receive_iff heap h following, framed_ofRaw_iff heap h following⟩

/-- A machine with 2 GiB. -/
def sampleHeap : Heap where
  fits n := decide (n ≤ 2147483648)
  fits_lt n h := by
    have := of_decide_eq_true h
    omega

/-- A length of 10 is accepted, with the body behind the end of the buffer; a length of -1 makes
`reserve` write in front of a buffer of no bytes; and the constructor copies 40 bytes from a
packet that ends after 32. -/
theorem not_framed_sample :
    ¬Framed (receive sampleHeap ⟨ascii "              10", by decide⟩ (List.replicate 10 0)) ∧
      ¬Framed (receive sampleHeap ⟨ascii "              -1", by decide⟩ []) ∧
      ¬Framed (InPacket.ofRaw sampleHeap (ascii "              40" ++ List.replicate 32 0)) := by
  rw [framed_receive_iff, framed_receive_iff]
  refine ⟨by decide, by decide, ?_⟩
  intro h
  have hframed := (framed_ofRaw_iff sampleHeap ⟨ascii "              40", by decide⟩ _).mp h
  exact absurd hframed (by decide)

end Zbroker
