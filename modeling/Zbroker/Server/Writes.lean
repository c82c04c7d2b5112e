import Zbroker.Server.Socket

/-!
# The writes of a socket

`handle_write` may come after the next request has been answered, so that two writes are under way
on one socket. That does no harm as long as only one of them has bytes left.

* `Socket.Orderly` — at most one write has bytes left, and they are still in the buffer.
* **`Orderly.step`**, **`Orderly.write`** — a socket stays so by itself, and when a response is written
  that comes after all others have been received.
-/

namespace Zbroker

namespace Socket

/-- At most one write has bytes left, and these are still in the buffer: what was received and what
is left are the packed responses, until the socket is closed. -/
structure Orderly (sk : Socket) : Prop where
  received : sk.received <+: sk.packed.flatten
  sound : sk.closed = false → sk.received ++ sk.writes.flatMap Write.rest = sk.packed.flatten
  buffer : sk.closed = false → ∀ w ∈ sk.writes, w.rest ≠ [] → w.intact = true
  single : sk.closed = false → sk.writes.Pairwise fun w w' => w.rest = [] ∨ w'.rest = []

section orderly

variable {sk sk' : Socket} {ws ws' : List Write} {w : Write} {data : List UInt8}

/-- There are no writes yet. -/
theorem orderly_new : new.Orderly :=
  ⟨List.nil_prefix, fun _ => rfl, fun _ _ hw => absurd hw List.not_mem_nil,
    fun _ => List.Pairwise.nil⟩

/-- A write with its number, and the others: what takes its place, or what is left without it. -/
theorem exists_eq_append {l : List Write} {i : Nat} (hw : l[i]? = some w) :
    ∃ ws ws', l = ws ++ w :: ws' ∧ (∀ w', l.set i w' = ws ++ w' :: ws') ∧
      l.eraseIdx i = ws ++ ws' := by
  obtain ⟨hi, rfl⟩ := List.getElem?_eq_some_iff.mp hw
  refine ⟨l.take i, l.drop (i + 1), ?_, ?_, List.eraseIdx_eq_take_drop_succ l i⟩
  · rw [List.getElem_cons_drop, List.take_append_drop]
  · intro w'
    rw [List.set_eq_take_append_cons_drop, if_pos hi]

/-- Nothing of the writes changes. -/
theorem Orderly.of_eq (h : sk.Orderly) (hreceived : sk'.received = sk.received)
    (hpacked : sk'.packed = sk.packed) (hclosed : sk'.closed = sk.closed)
    (hwrites : sk'.writes = sk.writes) : sk'.Orderly := by
  obtain ⟨hr, hs, hb, hsingle⟩ := h
  rw [← hreceived, ← hpacked] at hr
  rw [← hclosed, ← hreceived, ← hpacked, ← hwrites] at hs
  rw [← hclosed, ← hwrites] at hb hsingle
  exact ⟨hr, hs, hb, hsingle⟩

/-- The socket is closed. -/
theorem Orderly.of_closed (h : sk.Orderly) (hreceived : sk'.received = sk.received)
    (hpacked : sk'.packed = sk.packed) (hclosed : sk'.closed = true) : sk'.Orderly := by
  have hnot : sk'.closed ≠ false := by simp [hclosed]
  refine ⟨?_, fun hopen => absurd hopen hnot, fun hopen => absurd hopen hnot,
    fun hopen => absurd hopen hnot⟩
  rw [hreceived, hpacked]
  exact h.received

/-- One of the writes, and the others. -/
theorem Orderly.others (h : sk.Orderly) (hopen : sk.closed = false)
    (hwrites : sk.writes = ws ++ w :: ws') :
    (∀ w' ∈ ws ++ ws', w.rest = [] ∨ w'.rest = []) ∧
      (ws ++ ws').Pairwise fun w w' => w.rest = [] ∨ w'.rest = [] := by
  have hsingle := h.single hopen
  rw [hwrites, List.pairwise_middle fun hww' => hww'.symm, List.pairwise_cons] at hsingle
  exact hsingle

/-- What the writes have left: what one of them has, if the others have nothing. -/
theorem flatMap_rest (h : ∀ w' ∈ ws ++ ws', w'.rest = []) :
    (ws ++ w :: ws').flatMap Write.rest = w.rest := by
  have hnil {l : List Write} (hl : ∀ w' ∈ l, w'.rest = []) : l.flatMap Write.rest = [] :=
    List.flatMap_eq_nil_iff.mpr hl
  rw [List.flatMap_append, List.flatMap_cons, hnil fun w' hw' => h w' (List.mem_append_left _ hw'),
    hnil fun w' hw' => h w' (List.mem_append_right _ hw'), List.nil_append, List.append_nil]

/-- **A part of a write is sent**: of the one that has bytes left, or nothing. -/
theorem Orderly.send (h : sk.Orderly) (hopen : sk.closed = false)
    (hwrites : sk.writes = ws ++ w :: ws') {bytes : List UInt8}
    (hlength : bytes.length ≤ w.rest.length) (hbytes : w.intact = true → bytes <+: w.rest) :
    Orderly { sk with
      writes := ws ++ { w with sent := w.sent + bytes.length } :: ws'
      received := sk.received ++ bytes } := by
  obtain ⟨hone, hothers⟩ := h.others hopen hwrites
  by_cases hrest : w.rest = []
  · rw [hrest, List.length_nil, Nat.le_zero, List.length_eq_zero_iff] at hlength
    rw [hlength]
    exact h.of_eq (List.append_nil _) rfl rfl hwrites.symm
  · have hnone (w' : Write) (hw' : w' ∈ ws ++ ws') : w'.rest = [] := (hone w' hw').resolve_left hrest
    have hintact : w.intact = true := by
      apply h.buffer hopen w _ hrest
      rw [hwrites]
      exact List.mem_append_right _ List.mem_cons_self
    obtain ⟨left, hleft⟩ := hbytes hintact
    have hsound := h.sound hopen
    rw [hwrites, flatMap_rest hnone, ← hleft, ← List.append_assoc] at hsound
    have hdrop : ({ w with sent := w.sent + bytes.length } : Write).rest = left := by
      show w.data.drop (w.sent + bytes.length) = left
      rw [← List.drop_drop]
      show w.rest.drop bytes.length = left
      rw [← hleft, List.drop_left]
    refine ⟨⟨left, hsound⟩, ?_, ?_, ?_⟩
    · intro _
      rw [flatMap_rest hnone, hdrop]
      exact hsound
    · intro _ w' hw' hne
      rcases List.mem_append.mp hw' with hw' | hw'
      · exact absurd (hnone w' (List.mem_append_left _ hw')) hne
      · rcases List.mem_cons.mp hw' with rfl | hw'
        · exact hintact
        · exact absurd (hnone w' (List.mem_append_right _ hw')) hne
    · intro _
      rw [List.pairwise_middle fun hww' => hww'.symm, List.pairwise_cons]
      exact ⟨fun w' hw' => Or.inr (hnone w' hw'), hothers⟩

/-- What happens to a socket by itself leaves it orderly. -/
theorem Orderly.step (h : sk.Orderly) {e : Event} (he : sk.step e = some sk') : sk'.Orderly := by
  rcases e with bytes | _ | ⟨i, bytes⟩ | i | i
  · simp only [Socket.step] at he
    split_ifs at he
    cases he
    exact h.of_eq rfl rfl rfl rfl
  · cases he
    exact h.of_eq rfl rfl rfl rfl
  · obtain ⟨w, hw, he⟩ := Option.bind_eq_some_iff.mp he
    split_ifs at he with hsend
    cases he
    obtain ⟨ws, ws', hwrites, hset, -⟩ := exists_eq_append hw
    rw [Socket.send, hset]
    exact h.send hsend.1 hwrites hsend.2.1 hsend.2.2
  · obtain ⟨w, hw, he⟩ := Option.bind_eq_some_iff.mp he
    split_ifs at he with hrest
    cases he
    obtain ⟨ws, ws', hwrites, -, herase⟩ := exists_eq_append hw
    rw [herase]
    refine ⟨h.received, ?_, ?_, ?_⟩
    · intro hopen
      have hsound := h.sound hopen
      rw [hwrites, List.flatMap_append, List.flatMap_cons, hrest, List.nil_append,
        ← List.flatMap_append] at hsound
      exact hsound
    · intro hopen w' hw'
      apply h.buffer hopen
      rw [hwrites]
      rw [List.mem_append] at hw' ⊢
      exact hw'.imp_right (List.mem_cons_of_mem w)
    · intro hopen
      exact (h.others hopen hwrites).2
  · obtain ⟨w, hw, rfl⟩ := Option.map_eq_some_iff.mp he
    exact h.of_closed rfl rfl rfl

/-- **The write of a response**, when everything before it has been received. -/
theorem Orderly.write (h : sk.Orderly) (hall : sk.received = sk.packed.flatten) (data : List UInt8) :
    (sk.write data).Orderly := by
  have hnone (hopen : sk.closed = false) (w : Write) (hw : w ∈ sk.writes) : w.rest = [] := by
    have hsound := h.sound hopen
    rw [← hall] at hsound
    exact List.flatMap_eq_nil_iff.mp (List.append_right_eq_self.mp hsound) w hw
  have hold (hopen : sk.closed = false) (w' : Write)
      (hw' : w' ∈ sk.writes.map fun w => { w with intact := false }) : w'.rest = [] := by
    obtain ⟨w, hw, rfl⟩ := List.mem_map.mp hw'
    exact hnone hopen w hw
  refine ⟨?_, ?_, ?_, ?_⟩
  · rw [Socket.write, List.flatten_append]
    exact h.received.trans (List.prefix_append _ _)
  · intro hopen
    rw [Socket.write, List.flatMap_append, List.flatMap_eq_nil_iff.mpr (hold hopen),
      List.nil_append, List.flatMap_singleton, List.flatten_append, List.flatten_singleton, hall]
    rfl
  · intro hopen w' hw' hne
    rcases List.mem_append.mp hw' with hw' | hw'
    · exact absurd (hold hopen w' hw') hne
    · rw [List.mem_singleton.mp hw']
  · intro hopen
    rw [Socket.write, List.pairwise_append]
    refine ⟨?_, List.pairwise_singleton _ _, fun w' hw' _ _ => Or.inl (hold hopen w' hw')⟩
    apply List.pairwise_of_forall_mem_list
    intro w' hw' _ _
    exact Or.inl (hold hopen w' hw')

end orderly

end Socket

end Zbroker
