import Mathlib.Data.List.Basic

/-!
# Streams of packets

A reader takes one packet off the front of a stream and leaves the rest. Read again and again, it
splits a stream into packets. Nothing here knows what a packet is.

* `Reads read w x` — the reader takes exactly the piece `w` off any stream that starts with it,
  and finds `x` in it.
* `readAll` — the packets of a stream, if it ends where a packet does.
* **`readAll_flatten`**: a stream that is put together of pieces is split into what the pieces
  hold.
* `packetsOf` — the packets that a stream begins with, wherever it ends; `prefix_packetsOf`,
  `packetsOf_eq` — those of the pieces come first, and are all when no packet follows.
-/

namespace Zbroker.Found.Codec

variable {α β : Type*}

/-- The reader takes exactly the piece `w`, whatever follows it, and finds `x`. -/
def Reads (read : List β → Option (α × List β)) (w : List β) (x : α) : Prop :=
  ∀ rest, read (w ++ rest) = some (x, rest)

variable (read : List β → Option (α × List β))

/-- At most `fuel` packets. -/
def readUpTo : Nat → List β → Option (List α)
  | _, [] => some []
  | 0, _ :: _ => none
  | fuel + 1, b :: bs => (read (b :: bs)).bind fun r => (readUpTo fuel r.2).map (r.1 :: ·)

/-- The packets of a stream. A packet takes at least one byte. -/
def readAll (stream : List β) : Option (List α) := readUpTo read stream.length stream

variable {read}

@[simp] theorem readUpTo_nil (fuel : Nat) : readUpTo read fuel [] = some [] := by
  cases fuel <;> rfl

/-- A piece is what is read first. -/
theorem readUpTo_append {w rest : List β} {x : α} {xs : List α} {fuel : Nat}
    (hread : Reads read w x) (hw : w ≠ []) (h : readUpTo read fuel rest = some xs) :
    readUpTo read (fuel + 1) (w ++ rest) = some (x :: xs) := by
  obtain ⟨b, bs, rfl⟩ := List.exists_cons_of_ne_nil hw
  have hfirst := hread rest
  rw [List.cons_append] at hfirst ⊢
  rw [readUpTo, hfirst, Option.bind_some, h]
  rfl

/-- More fuel does not hurt. -/
theorem readUpTo_mono {fuel fuel' : Nat} (hle : fuel ≤ fuel') {stream : List β} {xs : List α}
    (h : readUpTo read fuel stream = some xs) : readUpTo read fuel' stream = some xs := by
  induction fuel generalizing fuel' stream xs with
  | zero =>
      cases stream with
      | nil =>
          rw [readUpTo_nil] at h ⊢
          exact h
      | cons b bs => cases h
  | succ fuel ih =>
      cases stream with
      | nil =>
          rw [readUpTo_nil] at h ⊢
          exact h
      | cons b bs =>
          obtain ⟨k, rfl⟩ : ∃ k, fuel' = k + 1 := ⟨fuel' - 1, by omega⟩
          rw [readUpTo] at h ⊢
          obtain ⟨r, hr, hrest⟩ := Option.bind_eq_some_iff.mp h
          obtain ⟨ys, hys, rfl⟩ := Option.map_eq_some_iff.mp hrest
          rw [hr, Option.bind_some, ih (by omega) hys]
          rfl

/-- A stream has at least as many elements as pieces. -/
theorem length_le_flatten {ws : List (List β)} (h : ∀ w ∈ ws, w ≠ []) :
    ws.length ≤ ws.flatten.length := by
  induction ws with
  | nil => exact Nat.le_refl _
  | cons w ws ih =>
      have hpos := List.length_pos_iff.mpr (h w List.mem_cons_self)
      have htail := ih fun w' hw' => h w' (List.mem_cons_of_mem w hw')
      rw [List.flatten_cons, List.length_append, List.length_cons]
      omega

/-- **A stream of pieces** is split into what the pieces hold, in order. -/
theorem readAll_flatten {ws : List (List β)} {xs : List α} (hws : ∀ w ∈ ws, w ≠ [])
    (h : List.Forall₂ (Reads read) ws xs) : readAll read ws.flatten = some xs := by
  apply readUpTo_mono (length_le_flatten hws)
  induction h with
  | nil => rfl
  | cons hhead _ ih =>
      rw [List.flatten_cons, List.length_cons]
      exact readUpTo_append hhead (hws _ List.mem_cons_self)
        (ih fun w hw => hws w (List.mem_cons_of_mem _ hw))

/-! ## Streams that end anywhere -/

variable (read)

/-- At most `fuel` packets of those that a stream begins with. -/
def packetsUpTo : Nat → List β → List α
  | 0, _ => []
  | fuel + 1, stream =>
      match read stream with
      | none => []
      | some r => r.1 :: packetsUpTo fuel r.2

/-- The packets that a stream begins with, up to the first place where none follows. -/
def packetsOf (stream : List β) : List α := packetsUpTo read stream.length stream

variable {read}

/-- The pieces are read first, whatever follows them. -/
theorem packetsUpTo_append {ws : List (List β)} {xs : List α} (h : List.Forall₂ (Reads read) ws xs)
    (fuel : Nat) (rest : List β) :
    packetsUpTo read (ws.length + fuel) (ws.flatten ++ rest) = xs ++ packetsUpTo read fuel rest := by
  induction h with
  | nil => simp
  | cons hhead _ ih =>
      rw [List.length_cons, Nat.add_right_comm, packetsUpTo, List.flatten_cons, List.append_assoc, hhead]
      exact congrArg _ ih

section pieces

variable {ws : List (List β)} {xs : List α} (hws : ∀ w ∈ ws, w ≠ [])
  (h : List.Forall₂ (Reads read) ws xs) {rest : List β}
include hws h

/-- The packets of whole words come first. -/
theorem exists_packetsOf_eq :
    ∃ fuel, packetsOf read (ws.flatten ++ rest) = xs ++ packetsUpTo read fuel rest := by
  have hlen := length_le_flatten hws
  refine ⟨(ws.flatten ++ rest).length - ws.length, ?_⟩
  rw [← packetsUpTo_append h, packetsOf, Nat.add_sub_cancel' (by rw [List.length_append]; omega)]

/-- The packets of the pieces come first. -/
theorem prefix_packetsOf : xs <+: packetsOf read (ws.flatten ++ rest) := by
  obtain ⟨fuel, heq⟩ := exists_packetsOf_eq hws h
  rw [heq]
  exact List.prefix_append _ _

/-- They are all, when no packet follows. -/
theorem packetsOf_eq (hrest : read rest = none) : packetsOf read (ws.flatten ++ rest) = xs := by
  obtain ⟨fuel, heq⟩ := exists_packetsOf_eq hws h
  rw [heq]
  cases fuel with
  | zero => exact List.append_nil xs
  | succ fuel => rw [packetsUpTo, hrest, List.append_nil]

end pieces

end Zbroker.Found.Codec
