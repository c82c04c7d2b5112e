import Mathlib
import Zbroker.Broker.Basic
import Zbroker.Processor.Buffer

/-!
# The text that `open` prints for the connection

The buffer has ten bytes more than the host: one for the colon, one for the terminating zero, and
eight for the port, of which `init` only asks that it is there. The host is a C string of the
driver, so `%s` prints all of it.

* `TextSound b` — the text and its terminating zero fit the buffer, and the text says which host and
  port it was made from, if the host has no colon.
* `connectionText_injective` — the second part always holds: such a text has one colon, in front of
  the port.
* `portFor b options` — the port that is printed.
* **`textSound_iff`**: after an `init` that accepts the options, both hold exactly when the port has at
  most eight characters, the sign among them.
The text fits exactly when the port has as many characters as the buffer allows beside the host and the
colon (`portFits_iff`), and a text with one colon is taken apart at it.
-/

namespace Zbroker.Broker

/-- The connection text fits its buffer, and determines a host without a colon and the port. -/
structure TextSound (b : Broker) : Prop where
  fits : b.connectionText.utf8ByteSize + 1 ≤ b.host.utf8ByteSize + 10
  determines : ':' ∉ b.host.toList → ∀ b' : Broker, b'.connectionText = b.connectionText →
    b'.host = b.host ∧ b'.port = b.port

/-- The port that `open` prints: a broker that is inited keeps the one it has. -/
def portFor (b : Broker) (options : BSONObj) : Int :=
  if b.inited then b.port else BSON.getIntField options "port"

/-! ## The port -/

/-- A printed port takes a byte for each digit, and one for the sign. -/
theorem utf8ByteSize_toString_int (n : Int) :
    (toString n).utf8ByteSize =
      if 0 ≤ n then (toString n.toNat).length else (toString (-n).toNat).length + 1 := by
  have hminus : ("-" : String).utf8ByteSize = 1 := rfl
  rw [Int.toString_eq_repr, Int.repr_eq_if]
  split_ifs with hn
  · exact utf8ByteSize_toString n.toNat
  · rw [String.utf8ByteSize_append, hminus, Nat.add_comm]
    exact congrArg (· + 1) (utf8ByteSize_toString (-n).toNat)

/-- **The ports of at most eight characters.** -/
theorem portFits_iff (port : Int) : PortFits port ↔ -9999999 ≤ port ∧ port ≤ 99999999 := by
  unfold PortFits
  rw [utf8ByteSize_toString_int]
  split_ifs with hport
  · rw [Nat.toString_eq_repr, Nat.length_repr_le_iff (by decide)]
    omega
  · have hdigits : (toString (-port).toNat).length ≤ 7 ↔ (-port).toNat < 10 ^ 7 := by
      rw [Nat.toString_eq_repr]
      exact Nat.length_repr_le_iff (by decide)
    omega

/-- There is no colon in a printed port. -/
theorem colon_not_mem_toString (n : Int) : ':' ∉ (toString n).toList := by
  have hdigits : ∀ m : ℕ, ':' ∉ m.repr.toList := by
    intro m hmem
    rw [Nat.toList_repr] at hmem
    exact absurd (Nat.isDigit_of_mem_toDigits (by decide) (by decide) hmem) (by decide)
  rw [Int.toString_eq_repr, Int.repr_eq_if]
  split_ifs
  · exact hdigits _
  · rw [String.toList_append, List.mem_append, not_or]
    exact ⟨by decide, hdigits _⟩

/-! ## The text -/

/-- **A text determines its host and port**, if the host has no colon: the text has one colon then,
and so has any other host and port with this text. -/
theorem connectionText_injective {b b' : Broker} (hhost : ':' ∉ b.host.toList)
    (h : b'.connectionText = b.connectionText) : b'.host = b.host ∧ b'.port = b.port := by
  have hlist : b'.host.toList ++ ':' :: (toString b'.port).toList =
      b.host.toList ++ ':' :: (toString b.port).toList := by
    have hcolon : (":" : String).toList = [':'] := rfl
    have htext := congrArg String.toList h
    simpa only [connectionText, String.toList_append, List.append_assoc, hcolon,
      List.singleton_append] using htext
  have hhost' : ':' ∉ b'.host.toList := by
    have hcount := congrArg (List.count ':') hlist
    rw [List.count_append, List.count_append, List.count_cons_self, List.count_cons_self,
      List.count_eq_zero.mpr hhost, List.count_eq_zero.mpr (colon_not_mem_toString b.port),
      List.count_eq_zero.mpr (colon_not_mem_toString b'.port)] at hcount
    exact List.count_eq_zero.mp (by omega)
  -- the host is what is in front of the first colon
  have hfront : ∀ host port : List Char, ':' ∉ host →
      (host ++ ':' :: port).takeWhile (· ≠ ':') = host := by
    intro host port hnot
    rw [List.takeWhile_append_of_pos]
    · simp
    · intro c hc
      simp only [decide_eq_true_eq]
      rintro rfl
      exact hnot hc
  have hhosts : b'.host.toList = b.host.toList := by
    rw [← hfront _ (toString b'.port).toList hhost', hlist, hfront _ _ hhost]
  rw [hhosts] at hlist
  have hports : toString b'.port = toString b.port :=
    String.toList_injective (List.cons_injective (List.append_cancel_left hlist))
  refine ⟨String.toList_injective hhosts, ?_⟩
  rw [Int.toString_eq_repr, Int.toString_eq_repr] at hports
  exact Int.repr_injective hports

/-- The port after `init`. -/
theorem port_eq_portFor {b r : Broker} {options : BSONObj} (h : b.init (some options) = (r, none)) :
    r.port = b.portFor options := by
  unfold portFor
  split_ifs with hb
  · rw [init, if_pos hb] at h
    cases h
    rfl
  · rw [init_of_not_inited (Bool.eq_false_iff.mpr hb)] at h
    rcases hcheck : (b.readOptions options).checkOptions with _ | e
    · rw [hcheck] at h
      cases h
      rfl
    · rw [hcheck] at h
      cases h

/-- **Connection texts.** When `init` does not throw, the text that `open` prints fits the buffer, and
determines a host without a colon and the port, exactly when the port has at most eight
characters. -/
theorem textSound_iff {b r : Broker} {options : BSONObj} (h : b.init (some options) = (r, none)) :
    r.TextSound ↔ -9999999 ≤ b.portFor options ∧ b.portFor options ≤ 99999999 := by
  have hfits : r.connectionText.utf8ByteSize + 1 ≤ r.host.utf8ByteSize + 10 ↔ PortFits r.port := by
    rw [← connectionTextFits_iff, connectionTextFits, decide_eq_true_iff]
  rw [← port_eq_portFor h, ← portFits_iff, ← hfits]
  constructor
  · intro hsound
    exact hsound.fits
  · intro hle
    exact ⟨hle, fun hhost b' htext => connectionText_injective hhost htext⟩

/-- A port of five digits. -/
theorem textSound_mongod :
    ((new.init (some (sampleOptions 0 2 10))).1).TextSound :=
  (textSound_iff (b := new) (Prod.ext rfl (by decide))).mpr (by decide)

/-- Options with a port of nine digits. -/
def longPort : BSONObj :=
  [("host", .str "localhost"), ("port", .int 123456789), ("database", .str "zbroker"),
    ("collection", .str "broker")]

/-- `init` accepts a port of nine digits, which does not fit. -/
theorem not_textSound_longPort :
    (new.init (some longPort)).2 = none ∧ ¬((new.init (some longPort)).1).TextSound :=
  ⟨by decide, fun hsound => absurd hsound.fits (by decide)⟩

end Zbroker.Broker
