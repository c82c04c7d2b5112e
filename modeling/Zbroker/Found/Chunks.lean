import Mathlib.Data.List.Basic

/-!
# Streams that arrive in chunks

A reader asks for some elements of a stream, and gets some of them: as many as it asked for at
most, and no more than there are in the next chunk. At the end of the stream it gets nothing, or an
error. Nothing here knows what the elements are.

* `Source` — what is left of a stream, in its chunks. `contents`, `chunk`, `drop` — the elements, the
  next chunk, and what is left behind the first elements.
* `recv`, `recvUpTo` — one read, and the loop that reads on until it has what it asked for, or gets
  nothing.
* **`recvUpTo_eq`**: the loop finds the same elements however the stream is cut into chunks.
  `recvUpTo_of_dry`: it runs dry when there are too few.
* `IsCut` — a place where a chunk ends. `le_length_chunk_iff`, `isCut_drop` — the next chunk is
  long enough exactly when there is no cut too early; what is left of a stream is cut at the same
  places.
-/

namespace Zbroker.Found.Chunks

variable {β ε : Type*}

/-- What is left of a stream, in chunks that are not empty, and how it ends: with nothing, or with
an error. -/
@[ext] structure Source (β ε : Type*) where
  chunks : List (List β)
  ending : Option ε
  nonempty : ∀ c ∈ chunks, c ≠ []

/-- The chunks behind the first `n` elements. -/
def dropChunks : Nat → List (List β) → List (List β)
  | _, [] => []
  | n, c :: cs => if n < c.length then c.drop n :: cs else dropChunks (n - c.length) cs

/-- A part of the first chunk is dropped. -/
theorem dropChunks_of_lt {n : Nat} {c : List β} {cs : List (List β)} (h : n < c.length) :
    dropChunks n (c :: cs) = c.drop n :: cs := by
  rw [dropChunks, if_pos h]

/-- The first chunk is dropped, and the rest from the others. -/
theorem dropChunks_of_le {n : Nat} {c : List β} {cs : List (List β)} (h : c.length ≤ n) :
    dropChunks n (c :: cs) = dropChunks (n - c.length) cs := by
  rw [dropChunks, if_neg (by omega)]

/-- No chunk becomes empty. -/
theorem ne_nil_of_mem_dropChunks {n : Nat} {cs : List (List β)} (h : ∀ c ∈ cs, c ≠ []) :
    ∀ c ∈ dropChunks n cs, c ≠ [] := by
  induction cs generalizing n with
  | nil =>
      intro c hc
      cases hc
  | cons c₀ cs ih =>
      have hcs : ∀ c ∈ cs, c ≠ [] := fun c hc => h c (List.mem_cons_of_mem _ hc)
      rcases Nat.lt_or_ge n c₀.length with hlt | hle
      · rw [dropChunks_of_lt hlt]
        intro c hc
        rcases List.mem_cons.mp hc with rfl | hc
        · rw [← List.length_pos_iff, List.length_drop]
          omega
        · exact hcs c hc
      · rw [dropChunks_of_le hle]
        exact ih hcs

/-- The bytes that are left. -/
theorem flatten_dropChunks (n : Nat) (cs : List (List β)) :
    (dropChunks n cs).flatten = cs.flatten.drop n := by
  induction cs generalizing n with
  | nil => exact List.drop_nil.symm
  | cons c cs ih =>
      rw [List.flatten_cons]
      rcases Nat.lt_or_ge n c.length with hlt | hle
      · rw [dropChunks_of_lt hlt, List.flatten_cons, List.drop_append_of_le_length (Nat.le_of_lt hlt)]
      · rw [dropChunks_of_le hle, ih, List.drop_append, List.drop_eq_nil_of_le hle, List.nil_append]

/-- Nothing is taken. -/
theorem dropChunks_zero {cs : List (List β)} (h : ∀ c ∈ cs, c ≠ []) : dropChunks 0 cs = cs := by
  cases cs with
  | nil => rfl
  | cons c cs =>
      rw [dropChunks_of_lt (List.length_pos_iff.mpr (h c List.mem_cons_self)), List.drop_zero]

/-- Two parts are taken one after the other. -/
theorem dropChunks_dropChunks (m n : Nat) (cs : List (List β)) :
    dropChunks n (dropChunks m cs) = dropChunks (m + n) cs := by
  induction cs generalizing m with
  | nil => rfl
  | cons c cs ih =>
      rcases Nat.lt_or_ge m c.length with hlt | hle
      · have hlen : (c.drop m).length = c.length - m := List.length_drop
        rw [dropChunks_of_lt hlt]
        rcases Nat.lt_or_ge (m + n) c.length with hlt' | hle'
        · rw [dropChunks_of_lt hlt', dropChunks_of_lt (by omega), List.drop_drop]
        · rw [dropChunks_of_le hle', dropChunks_of_le (by omega), hlen]
          congr 1
          omega
      · rw [dropChunks_of_le hle, ih, dropChunks_of_le (by omega)]
        congr 1
        omega

namespace Source

/-- The elements that are left. -/
def contents (s : Source β ε) : List β := s.chunks.flatten

/-- The next chunk, or nothing. -/
def chunk (s : Source β ε) : List β := s.chunks.head?.getD []

/-- What is left behind the first `n` elements. -/
def drop (n : Nat) (s : Source β ε) : Source β ε :=
  ⟨dropChunks n s.chunks, s.ending, ne_nil_of_mem_dropChunks s.nonempty⟩

/-- The stream that arrives at once. -/
def whole (stream : List β) : Source β ε :=
  if h : stream = [] then ⟨[], none, by simp⟩ else ⟨[stream], none, by simpa using h⟩

/-- A read of at most `n` elements. -/
def recv (n : Nat) (s : Source β ε) : Except ε (List β) × Source β ε :=
  match s.chunks, s.ending with
  | [], none => (.ok [], s)
  | [], some e => (.error e, s)
  | c :: _, _ => (.ok (c.take n), s.drop (c.take n).length)

/-- The loop that reads on until it has `n` elements, or gets nothing: at most `fuel` reads. -/
def recvUpTo : Nat → (n : Nat) → (acc : List β) → Source β ε → Except ε (List β) × Source β ε
  | 0, _, acc, s => (.ok acc, s)
  | fuel + 1, n, acc, s =>
      if n = 0 then (.ok acc, s)
      else
        match s.recv n with
        | (.error e, s) => (.error e, s)
        | (.ok got, s) =>
            if got.isEmpty then (.ok acc, s) else recvUpTo fuel (n - got.length) (acc ++ got) s

/-- A chunk ends behind the first `k` elements. -/
def IsCut (s : Source β ε) (k : Nat) : Prop := ∃ j, (s.chunks.take j).flatten.length = k

/-! ## What is left -/

section drop

variable {m n k : Nat} {s : Source β ε} {stream : List β}

@[simp] theorem contents_drop (n : Nat) (s : Source β ε) :
    (s.drop n).contents = s.contents.drop n :=
  flatten_dropChunks n s.chunks

@[simp] theorem ending_drop (n : Nat) (s : Source β ε) : (s.drop n).ending = s.ending := rfl

@[simp] theorem drop_zero (s : Source β ε) : s.drop 0 = s :=
  Source.ext (dropChunks_zero s.nonempty) rfl

@[simp] theorem drop_drop (m n : Nat) (s : Source β ε) : (s.drop m).drop n = s.drop (m + n) :=
  Source.ext (dropChunks_dropChunks m n s.chunks) rfl

/-- The bytes of a source that has arrived whole. -/
theorem contents_whole (stream : List β) : (whole stream : Source β ε).contents = stream := by
  unfold whole
  split_ifs with h
  · exact h.symm
  · exact List.append_nil stream

/-- The first chunk of a source that has arrived whole. -/
theorem chunk_whole (stream : List β) : (whole stream : Source β ε).chunk = stream := by
  unfold whole
  split_ifs with h
  · exact h.symm
  · rfl

/-- Without elements there are no chunks. -/
theorem chunks_eq_nil (hs : s.contents = []) : s.chunks = [] := by
  obtain ⟨chunks, ending, hnonempty⟩ := s
  cases chunks with
  | nil => rfl
  | cons c cs => exact absurd (List.append_eq_nil_iff.mp hs).1 (hnonempty c List.mem_cons_self)

/-- Of an empty source nothing is taken. -/
theorem drop_of_contents_eq_nil (n : Nat) (hs : s.contents = []) : s.drop n = s := by
  refine Source.ext ?_ rfl
  show dropChunks n s.chunks = s.chunks
  rw [chunks_eq_nil hs, dropChunks]

/-- The next chunk is what the stream goes on with. -/
theorem take_length_chunk (s : Source β ε) : s.contents.take s.chunk.length = s.chunk := by
  unfold contents chunk
  cases s.chunks with
  | nil => rfl
  | cons c cs => exact List.take_left

end drop

/-! ## Reading -/

section recv

variable {n fuel : Nat} {s : Source β ε} {acc : List β}

/-- A read at the end of the stream, if that is no error. -/
theorem recv_of_contents_eq_nil (n : Nat) (hs : s.contents = []) (hending : s.ending = none) :
    s.recv n = (.ok [], s) := by
  unfold recv
  rw [chunks_eq_nil hs, hending]

/-- **A read elsewhere** gets the next chunk, or as much of it as it asked for. -/
theorem recv_of_contents_ne_nil (n : Nat) (hs : s.contents ≠ []) :
    s.chunk ≠ [] ∧ s.recv n = (.ok (s.chunk.take n), s.drop (s.chunk.take n).length) := by
  obtain ⟨chunks, ending, hnonempty⟩ := s
  cases chunks with
  | nil => exact absurd rfl hs
  | cons c cs => exact ⟨hnonempty c List.mem_cons_self, rfl⟩

/-- **The loop** finds the next `n` elements, or all there are, whatever the chunks are. By
induction on the reads: each takes at least one element. -/
theorem recvUpTo_eq (hfuel : n ≤ fuel) (hs : n ≤ s.contents.length ∨ s.ending = none) :
    recvUpTo fuel n acc s = (.ok (acc ++ s.contents.take n), s.drop n) := by
  induction fuel generalizing n acc s with
  | zero =>
      obtain rfl : n = 0 := by omega
      rw [recvUpTo, List.take_zero, List.append_nil, drop_zero]
  | succ fuel ih =>
      rw [recvUpTo]
      split_ifs with hn
      · rw [hn, List.take_zero, List.append_nil, drop_zero]
      · by_cases hcontents : s.contents = []
        · have hending : s.ending = none := by
            rcases hs with hle | hending
            · rw [hcontents, List.length_nil] at hle
              omega
            · exact hending
          rw [recv_of_contents_eq_nil n hcontents hending, hcontents, List.take_nil, List.append_nil,
            drop_of_contents_eq_nil n hcontents]
          rfl
        · obtain ⟨hchunk, hrecv⟩ := recv_of_contents_ne_nil n hcontents
          have hlen : (s.chunk.take n).length = min n s.chunk.length := List.length_take
          have hpos : 0 < s.chunk.length := List.length_pos_iff.mpr hchunk
          have hgot : (s.chunk.take n).isEmpty = false := by
            rw [List.isEmpty_eq_false_iff, ← List.length_pos_iff]
            omega
          have hprefix : s.contents.take (s.chunk.take n).length = s.chunk.take n := by
            rw [hlen, ← List.take_take, take_length_chunk]
          have hle : (s.chunk.take n).length ≤ s.contents.length := by
            rw [← hprefix, List.length_take]
            exact Nat.min_le_right _ _
          have hrest : n - (s.chunk.take n).length ≤ (s.drop (s.chunk.take n).length).contents.length ∨
              (s.drop (s.chunk.take n).length).ending = none := by
            rw [contents_drop, List.length_drop, ending_drop]
            exact hs.imp_left fun h => by omega
          rw [hrecv]
          dsimp only
          rw [hgot, if_neg Bool.false_ne_true, ih (by omega) hrest, contents_drop, drop_drop]
          -- what the read got and what the other reads get
          have hsplit : s.chunk.take n ++ (s.contents.drop (s.chunk.take n).length).take
              (n - (s.chunk.take n).length) = s.contents.take n := by
            nth_rewrite 1 [← hprefix]
            rw [← List.take_add]
            congr 1
            omega
          have hadd : (s.chunk.take n).length + (n - (s.chunk.take n).length) = n := by omega
          rw [List.append_assoc, hsplit, hadd]

/-- A read behind the end of a stream that ends in an error. -/
theorem recv_of_ending {e : ε} (n : Nat) (hs : s.contents = []) (hending : s.ending = some e) :
    s.recv n = (.error e, s) := by
  unfold recv
  rw [chunks_eq_nil hs, hending]

/-- **The loop runs dry** when there are fewer elements than it asks for, and the stream ends in an
error. -/
theorem recvUpTo_of_dry {e : ε} (hfuel : n ≤ fuel) (hs : s.contents.length < n)
    (hending : s.ending = some e) : ∃ s', recvUpTo fuel n acc s = (.error e, s') := by
  induction fuel generalizing n acc s with
  | zero => omega
  | succ fuel ih =>
      rw [recvUpTo, if_neg (by omega)]
      by_cases hcontents : s.contents = []
      · rw [recv_of_ending n hcontents hending]
        exact ⟨s, rfl⟩
      · obtain ⟨hchunk, hrecv⟩ := recv_of_contents_ne_nil n hcontents
        have hlen : (s.chunk.take n).length = min n s.chunk.length := List.length_take
        have hpos : 0 < s.chunk.length := List.length_pos_iff.mpr hchunk
        have hle : s.chunk.length ≤ s.contents.length := by
          rw [← take_length_chunk s, List.length_take]
          exact Nat.min_le_right _ _
        have hgot : (s.chunk.take n).isEmpty = false := by
          rw [List.isEmpty_eq_false_iff, ← List.length_pos_iff]
          omega
        rw [hrecv]
        dsimp only
        rw [hgot, if_neg Bool.false_ne_true]
        apply ih (by omega) _ (by rw [ending_drop, hending])
        rw [contents_drop, List.length_drop]
        omega

end recv

/-! ## Where a stream is cut -/

section cuts

variable {n k m : Nat} {cs : List (List β)} {s : Source β ε}

/-- The places behind the first chunk. -/
theorem exists_take_cons_iff {c : List β} (hk : 0 < k) :
    (∃ j, (((c :: cs).take j).flatten).length = k) ↔
      ∃ j, c.length + ((cs.take j).flatten).length = k := by
  constructor
  · rintro ⟨j, hj⟩
    cases j with
    | zero => exact absurd hj (Nat.ne_of_lt hk)
    | succ j => exact ⟨j, by rw [← hj, List.take_succ_cons, List.flatten_cons, List.length_append]⟩
  · rintro ⟨j, hj⟩
    exact ⟨j + 1, by rw [← hj, List.take_succ_cons, List.flatten_cons, List.length_append]⟩

/-- **What is left is cut where the stream is.** By induction on the chunks. -/
theorem isCut_drop (hk : 0 < k) : (s.drop n).IsCut k ↔ s.IsCut (n + k) := by
  obtain ⟨chunks, ending, hnonempty⟩ := s
  unfold IsCut drop
  dsimp only
  clear hnonempty
  induction chunks generalizing n with
  | nil =>
      rw [dropChunks]
      simp only [List.take_nil, List.flatten_nil, List.length_nil, exists_const]
      omega
  | cons c cs ih =>
      have hpos : 0 < n + k := by omega
      rw [exists_take_cons_iff hpos]
      rcases Nat.lt_or_ge n c.length with hlt | hle
      · have hlen : (c.drop n).length = c.length - n := List.length_drop
        rw [dropChunks_of_lt hlt, exists_take_cons_iff hk, hlen]
        exact exists_congr fun j => by omega
      · rw [dropChunks_of_le hle, ih]
        exact exists_congr fun j => by omega

/-- **The next chunk has `m` elements** exactly when no cut is too early, its own end among them. -/
theorem le_length_chunk_iff (hs : s.contents ≠ []) :
    m ≤ s.chunk.length ↔ ∀ k, s.IsCut k → 0 < k → m ≤ k := by
  obtain ⟨chunks, ending, hnonempty⟩ := s
  cases chunks with
  | nil => exact absurd rfl hs
  | cons c cs =>
      have hpos : 0 < c.length := List.length_pos_iff.mpr (hnonempty c List.mem_cons_self)
      constructor
      · intro hm k hcut hk
        obtain ⟨j, hj⟩ := (exists_take_cons_iff hk).mp hcut
        have hle : c.length ≤ k := by omega
        exact Nat.le_trans hm hle
      · intro h
        exact h c.length ⟨1, by rw [List.take_succ_cons, List.take_zero, List.flatten_singleton]⟩ hpos

end cuts

end Source

end Zbroker.Found.Chunks
