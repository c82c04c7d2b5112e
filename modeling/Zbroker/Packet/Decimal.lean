import Mathlib.Data.List.TakeWhile
import Zbroker.Packet.Header

/-!
# Printed numbers

The header field of a packet is printed with a width and parsed with `atoi` or `String#to_i`.

* `decimal`, `padLeft` — what `"%ld"` prints, and a width in front of a conversion.
* `toI` — Ruby's `String#to_i`, which parses as `strtol` does, without a limit.
* **`toI_padLeft_decimal`**, `strtol_padLeft_decimal`: a padded number is parsed as itself.
* **`toI_take_padLeft_decimal_lt`**: the front of one is parsed as a smaller number.
-/

namespace Zbroker

/-- `"%ld"` at a number that is not negative. -/
def decimal (n : Nat) : List UInt8 := ascii (toString n)

/-- A conversion with a width: blanks on the left up to the width. -/
def padLeft (width : Nat) (text : List UInt8) : List UInt8 :=
  List.replicate (width - text.length) 32 ++ text

/-- The length of a text that was padded. -/
theorem length_padLeft (width : Nat) (text : List UInt8) :
    (padLeft width text).length = max width text.length := by
  rw [padLeft, List.length_append, List.length_replicate]
  omega

/-- A text that has the width is not padded. -/
theorem padLeft_of_le {width : Nat} {text : List UInt8} (h : width ≤ text.length) :
    padLeft width text = text := by
  rw [padLeft, Nat.sub_eq_zero_of_le h]
  rfl

/-! ## Digits -/

/-- The digits of a number. -/
theorem decimal_eq (n : Nat) :
    decimal n = (Nat.toDigits 10 n).map fun c => UInt8.ofNat c.toNat := by
  rw [decimal, ascii, Nat.toString_eq_repr, Nat.toList_repr]

/-- The byte of a decimal digit. -/
theorem toNat_of_isDigit {c : Char} (h : c.isDigit = true) :
    (UInt8.ofNat c.toNat).toNat = c.toNat ∧ 48 ≤ c.toNat ∧ c.toNat ≤ 57 := by
  have hrange : 48 ≤ c.toNat ∧ c.toNat ≤ 57 := by
    simpa [Char.isDigit, UInt32.le_iff_toNat_le] using h
  refine ⟨?_, hrange⟩
  rw [UInt8.toNat_ofNat']
  omega

/-- The bytes of a printed number are digits. -/
theorem isDigit_of_mem_decimal {n : Nat} {b : UInt8} (h : b ∈ decimal n) : isDigit b = true := by
  rw [decimal_eq, List.mem_map] at h
  obtain ⟨c, hc, rfl⟩ := h
  obtain ⟨hbyte, hge, hle⟩ :=
    toNat_of_isDigit (Nat.isDigit_of_mem_toDigits (by decide) (by decide) hc)
  simp only [isDigit, Bool.and_eq_true, decide_eq_true_eq, UInt8.le_iff_toNat_le, hbyte]
  exact ⟨hge, hle⟩

/-- A number has as many digits as it needs. -/
theorem length_decimal_le_iff {n k : Nat} (hk : 0 < k) : (decimal n).length ≤ k ↔ n < 10 ^ k := by
  rw [decimal_eq, List.length_map]
  exact Nat.length_toDigits_le_iff (by decide) hk

/-- A printed number has a digit. -/
theorem decimal_ne_nil (n : Nat) : decimal n ≠ [] := by
  rw [decimal_eq]
  simp

/-- The digits of a number denote it. -/
theorem digitsValue_decimal (n : Nat) : digitsValue (decimal n) = n := by
  have hfold : ∀ (cs : List Char) (k : Nat), (∀ c ∈ cs, c.isDigit = true) →
      (cs.map fun c => UInt8.ofNat c.toNat).foldl (fun n b => 10 * n + (b.toNat - 48)) k =
        Nat.ofDigitChars 10 cs k := by
    intro cs
    induction cs with
    | nil => exact fun k _ => rfl
    | cons c cs ih =>
        intro k hcs
        have hbyte := (toNat_of_isDigit (hcs c List.mem_cons_self)).1
        rw [List.map_cons, List.foldl_cons, hbyte, Nat.ofDigitChars_cons]
        exact ih _ fun c' hc' => hcs c' (List.mem_cons_of_mem c hc')
  rw [digitsValue, decimal_eq, hfold _ 0 fun c hc =>
    Nat.isDigit_of_mem_toDigits (by decide) (by decide) hc]
  exact Nat.ofDigitChars_toDigits (by decide) (by decide)

/-! ## Parsing -/

/-- A digit is no white space and no sign. -/
theorem isSpace_of_isDigit {b : UInt8} (h : isDigit b = true) :
    isSpace b = false ∧ b ≠ 45 ∧ b ≠ 43 := by
  simp only [isDigit, Bool.and_eq_true, decide_eq_true_eq, UInt8.le_iff_toNat_le] at h
  obtain ⟨hge, -⟩ := h
  have hge' : 48 ≤ b.toNat := hge
  refine ⟨?_, ?_, ?_⟩
  · rw [isSpace, Bool.or_eq_false_iff, beq_eq_false_iff_ne, Bool.and_eq_false_iff,
      decide_eq_false_iff_not, decide_eq_false_iff_not, UInt8.le_iff_toNat_le,
      UInt8.le_iff_toNat_le]
    refine ⟨?_, Or.inr ?_⟩
    · rintro rfl
      exact absurd hge' (by decide)
    · show ¬b.toNat ≤ 13
      omega
  · rintro rfl
    exact absurd hge' (by decide)
  · rintro rfl
    exact absurd hge' (by decide)

/-- `String#to_i` of a text without underscores: white space, a sign, digits up to the first other
byte. -/
def toI (text : List UInt8) : Int :=
  let rest := text.dropWhile isSpace
  let negative := rest.head? == some 45
  let unsigned := if negative || rest.head? == some 43 then rest.tail else rest
  let n : Int := digitsValue (unsigned.takeWhile isDigit)
  if negative then -n else n

/-- `strtol` is `to_i` within the range of a `long`. -/
theorem strtol_eq (text : List UInt8) :
    strtol text = max (-9223372036854775808) (min (toI text) 9223372036854775807) := by
  unfold strtol toI
  dsimp only
  split_ifs <;> omega

/-- Blanks and digits behind them. -/
theorem toI_replicate_append (k : Nat) {digits : List UInt8}
    (h : ∀ b ∈ digits, isDigit b = true) :
    toI (List.replicate k 32 ++ digits) = digitsValue digits := by
  have hblanks : (List.replicate k 32 ++ digits).dropWhile isSpace = digits.dropWhile isSpace := by
    rw [List.dropWhile_append_of_pos]
    intro b hb
    rw [(List.mem_replicate.mp hb).2]
    rfl
  unfold toI
  rw [hblanks]
  cases digits with
  | nil => rfl
  | cons d ds =>
      obtain ⟨hspace, hminus, hplus⟩ := isSpace_of_isDigit (h d List.mem_cons_self)
      rw [List.dropWhile_cons_of_neg (by rw [hspace]; decide)]
      simp only [List.head?_cons, Option.some_beq_some, beq_eq_false_iff_ne.mpr hminus,
        beq_eq_false_iff_ne.mpr hplus, Bool.or_self, Bool.false_eq_true, if_false,
        List.takeWhile_eq_self_iff.mpr h]

/-- **A padded number** is parsed as itself. -/
theorem toI_padLeft_decimal (width n : Nat) : toI (padLeft width (decimal n)) = n := by
  rw [padLeft, toI_replicate_append _ fun _ hb => isDigit_of_mem_decimal hb, digitsValue_decimal]

/-- More digits make a greater number, if it is not zero. -/
theorem digitsValue_lt_append {digits rest : List UInt8} (hrest : rest ≠ [])
    (hpos : 0 < digitsValue (digits ++ rest)) :
    digitsValue digits < digitsValue (digits ++ rest) := by
  have hfold : ∀ (ds : List UInt8) (n : Nat),
      n ≤ ds.foldl (fun n b => 10 * n + (b.toNat - 48)) n := by
    intro ds
    induction ds with
    | nil => exact fun n => Nat.le_refl n
    | cons d ds ih =>
        intro n
        exact Nat.le_trans (by omega) (ih (10 * n + (d.toNat - 48)))
  obtain ⟨d, ds, rfl⟩ := List.exists_cons_of_ne_nil hrest
  have hle := hfold ds (10 * digitsValue digits + (d.toNat - 48))
  have heq : digitsValue (digits ++ d :: ds) =
      ds.foldl (fun n b => 10 * n + (b.toNat - 48)) (10 * digitsValue digits + (d.toNat - 48)) := by
    rw [digitsValue, List.foldl_append, List.foldl_cons]
    rfl
  omega

/-- **The front of a padded number** is parsed as a smaller one. -/
theorem toI_take_padLeft_decimal_lt {width n k : Nat} (hn : 0 < n)
    (hk : k < (padLeft width (decimal n)).length) :
    0 ≤ toI ((padLeft width (decimal n)).take k) ∧
      toI ((padLeft width (decimal n)).take k) < n := by
  have hlen : (padLeft width (decimal n)).length = width - (decimal n).length + (decimal n).length := by
    rw [padLeft, List.length_append, List.length_replicate]
  have htake : (padLeft width (decimal n)).take k =
      List.replicate (min k (width - (decimal n).length)) 32 ++
        (decimal n).take (k - (width - (decimal n).length)) := by
    rw [padLeft, List.take_append, List.take_replicate, List.length_replicate]
  have hdigits : ∀ b ∈ (decimal n).take (k - (width - (decimal n).length)), isDigit b = true :=
    fun b hb => isDigit_of_mem_decimal (List.mem_of_mem_take hb)
  have hrest : (decimal n).drop (k - (width - (decimal n).length)) ≠ [] := by
    have hpos := List.length_pos_iff.mpr (decimal_ne_nil n)
    rw [← List.length_pos_iff, List.length_drop]
    omega
  have hlt := @digitsValue_lt_append ((decimal n).take (k - (width - (decimal n).length))) _ hrest
  rw [List.take_append_drop, digitsValue_decimal] at hlt
  rw [htake, toI_replicate_append _ hdigits]
  have hless := hlt hn
  omega

/-- A number that was printed and padded is parsed back. -/
theorem strtol_padLeft_decimal (width : Nat) {n : Nat} (h : n < 9223372036854775808) :
    strtol (padLeft width (decimal n)) = n := by
  rw [strtol_eq, toI_padLeft_decimal]
  omega

end Zbroker
