import Zbroker.Base.Machine
import Mathlib.Data.UInt

/-!
# The packet header

A packet starts with a field of 16 bytes, the decimal length of what follows.

* `atoi` — the library function, as it is implemented: `strtol` and a conversion to `int`.
* `HeaderField`, `decode` — the field, and the length the receiving side takes from it.
* `decode_of_nonneg`, `decode_of_neg` — a negative number becomes a length near the greatest
  `size_t`.
-/

namespace Zbroker

/-- `packet_header::packet_id_length`. Source: `request_packet.hpp` -/
def packetIdLength : Nat := 32

/-- `packet_header::header_length`. Source: `request_packet.hpp` -/
def headerLength : Nat := 16

/-- `packet_header::max_body_length`. Source: `request_packet.hpp` -/
def maxBodyLength : Nat := 1024 * 1024 * 10

/-! ## `atoi` -/

/-- `isspace`. -/
def isSpace (b : UInt8) : Bool := b == 32 || (9 ≤ b && b ≤ 13)

/-- `isdigit`. -/
def isDigit (b : UInt8) : Bool := 48 ≤ b && b ≤ 57

/-- The number that a sequence of digits denotes. -/
def digitsValue (digits : List UInt8) : Nat :=
  digits.foldl (fun n b => 10 * n + (b.toNat - 48)) 0

/-- `strtol` with base 10: white space, a sign, digits up to the first other byte; a `long`, and
the nearest one for a number out of range. -/
def strtol (text : List UInt8) : Int :=
  let rest := text.dropWhile isSpace
  let negative := rest.head? == some 45
  let unsigned := if negative || rest.head? == some 43 then rest.tail else rest
  let n : Int := digitsValue (unsigned.takeWhile isDigit)
  if negative then max (-n) (-9223372036854775808) else min n 9223372036854775807

/-- `atoi`. -/
def atoi (text : List UInt8) : Int := wrapInt (strtol text)

/-- `atoi` returns an `int`. -/
theorem atoi_mem (text : List UInt8) : intMin ≤ atoi text ∧ atoi text ≤ intMax :=
  wrapInt_mem (strtol text)

/-! ## Decoding -/

/-- The contents of `m_header`, without the zero behind it. -/
abbrev HeaderField := { bytes : List UInt8 // bytes.length = headerLength }

/-- The number in the field. The zero behind the field ends it at the latest. -/
def HeaderField.number (h : HeaderField) : Int := atoi h.val

/-- `decode()`: the number as a `size_t`.
Source: `request_packet.hpp`, `packet_header::decode` -/
def HeaderField.decode (h : HeaderField) : Nat := toSizeT h.number

/-- The number in a header is an `int`. -/
theorem HeaderField.number_mem (h : HeaderField) : intMin ≤ h.number ∧ h.number ≤ intMax :=
  atoi_mem h.val

/-- A number that is not negative is kept as a `size_t`. -/
theorem HeaderField.decode_of_nonneg {h : HeaderField} (hn : 0 ≤ h.number) :
    (h.decode : Int) = h.number := by
  rw [decode, toSizeT_of_nonneg hn h.number_mem.2]
  exact Int.toNat_of_nonneg hn

/-- A negative number wraps around as a `size_t`. -/
theorem HeaderField.decode_of_neg {h : HeaderField} (hn : h.number < 0) :
    (h.decode : Int) = sizeTCount + h.number :=
  toSizeT_of_neg h.number_mem.1 hn

/-- The bytes of a text. -/
def ascii (s : String) : List UInt8 := s.toList.map fun c => UInt8.ofNat c.toNat

example : atoi (ascii "              10") = 10 := by decide
example : atoi (ascii "  -7\x7b3             ") = -7 := by decide

end Zbroker
