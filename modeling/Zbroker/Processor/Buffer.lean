import Zbroker.Processor.Response

/-!
# The buffer of `toBSONObj`

* `bufferFor` — the length of the buffer after the loop, which grows for each string but the last.
* `LastFits strs` — the last member and its terminating zero fit that buffer.
* `toBSONObjFrom_concat` — what the loop and the last `sprintf` come to: the other members always
  fit, as the number of their key has less than 30 digits.
* **`toBSONObjText_eq_iff`**: no `sprintf` writes past the buffer and the text is the object exactly
  when the last member fits.
-/

namespace Zbroker

/-- `LONG_MAX`; a vector has no more elements, and `%ld` prints their numbers. -/
def longMax : Nat := 9223372036854775807

/-- The buffer when it has grown for the strings. -/
def bufferFor (bufferLen : Nat) (strs : List String) : Nat :=
  strs.foldl (fun len s => max len (s.utf8ByteSize + 36)) bufferLen

/-- The last member and the terminating zero fit the buffer that has grown for the others. -/
def LastFits (strs : List String) : Prop :=
  ∀ last, strs.getLast? = some last →
    (toString (strs.length - 1)).length + last.utf8ByteSize + 8 ≤ bufferFor 2048 strs.dropLast

/-! ## Sizes -/

section sizes

/-- Characters of one byte take one byte. -/
theorem utf8ByteSize_ofList {cs : List Char} (h : ∀ c ∈ cs, c.utf8Size = 1) :
    (String.ofList cs).utf8ByteSize = cs.length := by
  induction cs with
  | nil => rfl
  | cons c cs ih =>
      have hcons : String.ofList (c :: cs) = String.singleton c ++ String.ofList cs := by
        rw [String.singleton_eq_ofList, ← String.ofList_append]
        rfl
      rw [hcons, String.utf8ByteSize_append, String.utf8ByteSize_singleton, h c List.mem_cons_self,
        ih fun c' hc' => h c' (List.mem_cons_of_mem c hc'), List.length_cons, Nat.add_comm]

/-- A digit takes one byte. -/
theorem utf8Size_of_isDigit {c : Char} (h : c.isDigit = true) : c.utf8Size = 1 := by
  have hle : c.val ≤ 57 := by
    simp only [Char.isDigit, Bool.and_eq_true, decide_eq_true_eq] at h
    exact h.2
  have hone : c.val ≤ 0x7F := UInt32.le_trans hle (by decide)
  simp [Char.utf8Size, hone]

/-- A printed number takes a byte for each digit. -/
theorem utf8ByteSize_toString (n : Nat) : (toString n).utf8ByteSize = (toString n).length := by
  have hdigits : ∀ c ∈ Nat.toDigits 10 n, c.utf8Size = 1 := fun c hc =>
    utf8Size_of_isDigit (Nat.isDigit_of_mem_toDigits (by decide) (by decide) hc)
  rw [Nat.toString_eq_repr, Nat.repr_eq_ofList_toDigits, utf8ByteSize_ofList hdigits,
    String.length_ofList]

/-- The number of a vector's element has at most 19 digits. -/
theorem length_toString_le {i : Nat} (hi : i ≤ longMax) : (toString i).length ≤ 19 := by
  rw [Nat.toString_eq_repr, Nat.length_repr_le_iff (by decide)]
  exact hi.trans_lt (by decide)

/-- The bytes of a member. -/
theorem utf8ByteSize_memberText (i : Nat) (s tail : String) :
    (memberText i s tail).utf8ByteSize =
      (toString i).length + s.utf8ByteSize + tail.utf8ByteSize + 5 := by
  have hquote : "\"".utf8ByteSize = 1 := by decide
  have hcolon : "\" : ".utf8ByteSize = 4 := by decide
  simp only [memberText, String.utf8ByteSize_append, utf8ByteSize_toString, hquote, hcolon]
  omega

end sizes

/-! ## The loop -/

section loop

variable {i bufferLen : Nat} {tmp s last : String} {strs rest : List String}

/-- A member that is not the last one fits, and the loop goes on. -/
theorem toBSONObjFrom_cons (hi : i ≤ longMax) (hrest : rest ≠ []) :
    toBSONObjFrom i bufferLen tmp (s :: rest) =
      toBSONObjFrom (i + 1) (max bufferLen (s.utf8ByteSize + 36)) (tmp ++ memberText i s ",")
        rest := by
  obtain ⟨s', rest, rfl⟩ := List.exists_cons_of_ne_nil hrest
  have hmax : (if bufferLen < s.utf8ByteSize + 36 then s.utf8ByteSize + 36 else bufferLen) =
      max bufferLen (s.utf8ByteSize + 36) := by
    split_ifs with hlt
    · exact (Nat.max_eq_right hlt.le).symm
    · exact (Nat.max_eq_left (Nat.le_of_not_lt hlt)).symm
  have hfits : (memberText i s ",").utf8ByteSize + 1 ≤ max bufferLen (s.utf8ByteSize + 36) := by
    have hdigits := length_toString_le hi
    have hcomma : ",".utf8ByteSize = 1 := by decide
    rw [utf8ByteSize_memberText, hcomma]
    omega
  rw [toBSONObjFrom, hmax]
  exact if_pos hfits

/-- There is a last member. -/
theorem members_concat_ne_nil (i : Nat) (strs : List String) (last : String) :
    members i (strs ++ [last]) ≠ [] := by
  cases strs with
  | nil => exact List.cons_ne_nil _ _
  | cons s strs => exact List.cons_ne_nil _ _

/-- **The loop and the last `sprintf`.** By induction on the strings but the last. -/
theorem toBSONObjFrom_concat (hsize : i + strs.length ≤ longMax) :
    toBSONObjFrom i bufferLen tmp (strs ++ [last]) =
      if (memberText (i + strs.length) last " \x7d").utf8ByteSize + 1 ≤ bufferFor bufferLen strs then
        .ok (tmp ++ String.intercalate "," (members i (strs ++ [last])) ++ " \x7d")
      else .error (.outOfBounds "sprintf(buffer,\"\\\"%ld\\\" : %s \x7d\",i,strs[i].c_str())") := by
  induction strs generalizing i bufferLen tmp with
  | nil =>
      have htext : tmp ++ memberText i last " \x7d" =
          tmp ++ String.intercalate "," (members i [last]) ++ " \x7d" := by
        rw [members, members, String.intercalate_singleton, memberText_eq, String.append_assoc]
      rw [List.nil_append, toBSONObjFrom, htext]
      rfl
  | cons s strs ih =>
      have hi : i ≤ longMax := (Nat.le_add_right i _).trans hsize
      have hkey : i + 1 + strs.length = i + (s :: strs).length := by
        rw [List.length_cons]
        omega
      have htext : tmp ++ memberText i s "," ++ String.intercalate "," (members (i + 1) (strs ++ [last])) =
          tmp ++ String.intercalate "," (members i (s :: (strs ++ [last]))) := by
        rw [members, String.intercalate_cons_of_ne_nil (members_concat_ne_nil _ _ _), memberText_eq]
        simp only [String.append_assoc]
      rw [List.cons_append, toBSONObjFrom_cons hi (by simp), ih (hkey ▸ hsize), hkey, htext]
      rfl

end loop

/-! ## The object -/

/-- What `LastFits` says of the last string and the others. -/
theorem lastFits_concat {strs : List String} {last : String} : LastFits (strs ++ [last]) ↔
    (memberText strs.length last " \x7d").utf8ByteSize + 1 ≤ bufferFor 2048 strs := by
  have hbrace : " \x7d".utf8ByteSize = 2 := by decide
  have hsize : (memberText strs.length last " \x7d").utf8ByteSize + 1 =
      (toString strs.length).length + last.utf8ByteSize + 8 := by
    rw [utf8ByteSize_memberText, hbrace]
  simp [LastFits, hsize]

/-- The text, or the write of the last member past the buffer. -/
theorem toBSONObjText_concat {strs : List String} {last : String} (hsize : strs.length ≤ longMax) :
    (LastFits (strs ++ [last]) →
        toBSONObjText (strs ++ [last]) = .ok (objectText (strs ++ [last]))) ∧
      (¬ LastFits (strs ++ [last]) → ∃ e, toBSONObjText (strs ++ [last]) = .error e) := by
  have hloop := @toBSONObjFrom_concat 0 2048 "\x7b " last strs (by omega)
  rw [Nat.zero_add] at hloop
  rw [lastFits_concat]
  constructor
  · intro hlast
    rw [if_pos hlast] at hloop
    exact hloop
  · intro hlast
    rw [if_neg hlast] at hloop
    exact ⟨_, hloop⟩

/-- The pieces of the documents of a response fit the buffer if the last one does. -/
theorem piecesFit_iff {M : Mongo} {docs : List BSONObj} (hne : docs ≠ [])
    (hsize : docs.length ≤ longMax) : PiecesFit M docs ↔ LastFits (docs.map M.jsonString) := by
  obtain ⟨init, last, rfl⟩ := (List.eq_nil_or_concat' docs).resolve_left hne
  have hinit : (init.map M.jsonString).length ≤ longMax := by
    rw [List.length_append] at hsize
    rw [List.length_map]
    omega
  obtain ⟨hfits, hlong⟩ := @toBSONObjText_concat _ (M.jsonString last) hinit
  rw [PiecesFit, List.map_append, List.map_singleton]
  constructor
  · intro ⟨text, htext⟩
    by_contra hlast
    obtain ⟨e, he⟩ := hlong hlast
    rw [he] at htext
    cases htext
  · intro hlast
    exact ⟨_, hfits hlast⟩

/-- **When `toBSONObj` is in bounds and faithful.** For every vector of strings that is not empty: no
`sprintf` writes past its buffer and the text is the object with the strings as members, exactly
when the last member fits the buffer that has grown for the others. -/
theorem toBSONObjText_eq_iff {strs : List String} (hne : strs ≠ []) (hsize : strs.length ≤ longMax) :
    toBSONObjText strs = .ok (objectText strs) ↔ LastFits strs := by
  obtain ⟨init, last, rfl⟩ := (List.eq_nil_or_concat' strs).resolve_left hne
  have hinit : init.length ≤ longMax := by
    rw [List.length_append] at hsize
    omega
  obtain ⟨hfits, hlong⟩ := @toBSONObjText_concat init last hinit
  constructor
  · intro htext
    by_contra hlast
    obtain ⟨e, he⟩ := hlong hlast
    rw [he] at htext
    cases htext
  · exact hfits

/-- Two short documents. -/
theorem toBSONObjText_eq_short :
    toBSONObjText ["\x7b\x7d", "\x7b \"a\" : 1 \x7d"] =
      .ok (objectText ["\x7b\x7d", "\x7b \"a\" : 1 \x7d"]) := by
  apply (toBSONObjText_eq_iff (List.cons_ne_nil _ _) (by decide)).mpr
  intro last hlast
  cases hlast
  decide

/-- One document of 2042 bytes: the buffer does not grow for the last one. -/
theorem not_toBSONObjText_long :
    ¬ ∀ strs : List String, strs ≠ [] → strs.length ≤ longMax →
      toBSONObjText strs = .ok (objectText strs) := by
  intro hall
  let long := "\x7b \"a\" : \"" ++ String.ofList (List.replicate 2030 'x') ++ "\" \x7d"
  have hlong : long.utf8ByteSize = 2042 := by
    have hones : ∀ c ∈ List.replicate 2030 'x', c.utf8Size = 1 := by
      intro c hc
      rw [(List.mem_replicate.mp hc).2]
      decide
    have hopen : "\x7b \"a\" : \"".utf8ByteSize = 9 := by decide
    have hclose : "\" \x7d".utf8ByteSize = 3 := by decide
    rw [String.utf8ByteSize_append, String.utf8ByteSize_append, utf8ByteSize_ofList hones,
      List.length_replicate, hopen, hclose]
  have hfits : ¬ LastFits ([] ++ [long]) := by
    rw [lastFits_concat, utf8ByteSize_memberText, hlong]
    decide
  obtain ⟨e, he⟩ := (@toBSONObjText_concat [] long (Nat.zero_le longMax)).2 hfits
  have htext := hall [long] (List.cons_ne_nil _ _) (by decide)
  rw [List.nil_append] at he
  rw [he] at htext
  cases htext

end Zbroker
