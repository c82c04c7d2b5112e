import Zbroker.Base.Plain
import Zbroker.Packet.Header

/-!
# Building responses

* `Response` — the response codes of the protocol.
* `initResponseBuilder`, `packResponse`, `toBSONObj`, `getResponseBody` — the functions of
  `asio_processor` between a result and the JSON object that is sent. A response that would be
  `max_body_length` bytes or longer is replaced by `ResponseTooLong`.
* `toBSONObjText` — the text `toBSONObj` writes piece by piece through one buffer, which grows
  with every element but the last. A piece that does not fit the buffer is written past its end.
* `toBSONObj_eq` — what `fromjson` reads from it are the documents, as the driver reads back what it
  printed.
* `carried` — the documents in a response.
* **`carried_readResponse`**: which documents the answer to a READ carries. It is all of them
  when there are none, or the pieces fit the buffer and the answer is short enough; otherwise
  it is none of them.
-/

namespace Zbroker

/-- The response codes. Source: `protocol.h`, `Response` -/
inductive Response where
  | unknownCommand
  | unimplemented
  | requestTooLong
  | noMoreItem
  | responseTooLong
  | alreadyOpen
  | ok
  deriving DecidableEq, Repr

/-- The number of a response code. -/
def Response.code : Response → Int
  | .unknownCommand => 500
  | .unimplemented => 501
  | .requestTooLong => 502
  | .noMoreItem => 503
  | .responseTooLong => 504
  | .alreadyOpen => 505
  | .ok => 200

/-! ## The text of the documents -/

/-- The elements from `i` on, through a buffer of `bufferLen` bytes. The buffer grows for every
element but the last, which is printed after the loop. -/
def toBSONObjFrom (i bufferLen : Nat) (tmp : String) : List String → Except Exn String
  | [] => .error (.outOfBounds "strs[i]")
  | [s] =>
      if (memberText i s " \x7d").utf8ByteSize + 1 ≤ bufferLen then
        .ok (tmp ++ memberText i s " \x7d")
      else .error (.outOfBounds "sprintf(buffer,\"\\\"%ld\\\" : %s \x7d\",i,strs[i].c_str())")
  | s :: s' :: rest =>
      let bufferLen := if bufferLen < s.utf8ByteSize + 36 then s.utf8ByteSize + 36 else bufferLen
      if (memberText i s ",").utf8ByteSize + 1 ≤ bufferLen then
        toBSONObjFrom (i + 1) bufferLen (tmp ++ memberText i s ",") (s' :: rest)
      else .error (.outOfBounds "sprintf(buffer,\"\\\"%ld\\\" : %s,\",i,strs[i].c_str())")

/-- The text `toBSONObj` hands to `fromjson`.
Source: `asio_processor.cc`, `asio_processor::toBSONObj` -/
def toBSONObjText (strs : List String) : Except Exn String := toBSONObjFrom 0 2048 "\x7b " strs

variable (M : Mongo)

/-- `toBSONObj`: the object that `fromjson` reads from the text. -/
def toBSONObj (docs : List BSONObj) : Except Exn BSONObj :=
  (toBSONObjText (docs.map M.jsonString)).bind fun text =>
    match M.fromjson text with
    | some o => .ok o
    | none => .error .driver

section text

variable {i bufferLen : Nat} {tmp text : String} {strs : List String}

/-- The member as `sprintf` prints it. -/
theorem memberText_eq (i : Nat) (s tail : String) : memberText i s tail = memberText i s "" ++ tail := by
  simp [memberText]

/-- The text with the elements from `i` on: no other is written. By the recursion of the loop. -/
theorem eq_of_toBSONObjFrom (h : toBSONObjFrom i bufferLen tmp strs = .ok text) :
    strs ≠ [] ∧ text = tmp ++ String.intercalate "," (members i strs) ++ " \x7d" := by
  fun_induction toBSONObjFrom i bufferLen tmp strs with
  | case1 i bufferLen tmp => cases h
  | case2 i bufferLen tmp s hfits =>
      refine ⟨List.cons_ne_nil _ _, ?_⟩
      rw [← Except.ok.inj h, members, members, String.intercalate_singleton, memberText_eq,
        String.append_assoc]
  | case3 i bufferLen tmp s hlong => cases h
  | case4 i bufferLen tmp s s' rest len hfits ih =>
      refine ⟨List.cons_ne_nil _ _, ?_⟩
      have hmembers : members i (s :: s' :: rest) =
          memberText i s "" :: members (i + 1) (s' :: rest) := rfl
      have hne : members (i + 1) (s' :: rest) ≠ [] := List.cons_ne_nil _ _
      rw [(ih h).2, hmembers, String.intercalate_cons_of_ne_nil hne, memberText_eq i s ","]
      simp only [String.append_assoc]
  | case5 i bufferLen tmp s s' rest len hlong => cases h

/-- What `fromjson` reads are the documents. -/
theorem toBSONObj_eq (docs : List BSONObj) :
    toBSONObj M docs = (toBSONObjText (docs.map M.jsonString)).map fun _ => BSON.indexed 0 docs := by
  rw [toBSONObj]
  rcases htext : toBSONObjText (docs.map M.jsonString) with e | text
  · rfl
  · obtain ⟨hne, heq⟩ := eq_of_toBSONObjFrom htext
    have hread := M.fromjson_objectText docs fun hnil => hne (by rw [hnil, List.map_nil])
    rw [show text = objectText (docs.map M.jsonString) from heq]
    simp only [Except.bind, hread]
    rfl

end text

/-! ## The response object -/

/-- `init_response_builder`. Source: `asio_processor.cc` -/
def initResponseBuilder (res : Response) (dataToReturn : Option BSONObj) (extra : String) :
    BSONObj :=
  [("response", .int res.code)] ++ (if extra.isEmpty then [] else [("extra", .str extra)]) ++
    dataToReturn.getD []

/-- The object `get_response_string` sends for the one it is given.
Source: `asio_processor.cc`, `asio_processor::get_response_string` -/
def getResponseBody (body : BSONObj) : BSONObj :=
  if (M.jsonString body).utf8ByteSize < maxBodyLength then body
  else [("response", .int Response.responseTooLong.code)]

/-- `pack_response` with optional data. -/
def packResponse (res : Response) (extra : String) (dataToReturn : Option BSONObj) : BSONObj :=
  getResponseBody M (initResponseBuilder res dataToReturn extra)

/-- `pack_response` with documents. -/
def packResponseDocs (res : Response) (docs : List BSONObj) (extra : String) :
    Except Exn BSONObj :=
  if docs ≠ [] ∧ res = .ok then
    (toBSONObj M docs).map fun o =>
      getResponseBody M (initResponseBuilder res none extra ++ [("docs", .obj o)])
  else .ok (getResponseBody M (initResponseBuilder res none extra))

/-- The end of `do_read`: the answer for the documents of `batch_pop` and its result.
Source: `asio_processor.cc`, `asio_processor::do_read` -/
def readResponse (docs : List BSONObj) (ret : Option Nat) : Except Exn BSONObj :=
  if ret ≠ none ∨ docs ≠ [] then packResponseDocs M .ok docs "do_read"
  else packResponseDocs M .noMoreItem docs "do_read no more items"

/-! ## What a response carries -/

/-- The documents in a response. -/
def carried (body : BSONObj) : List BSONObj :=
  (BSON.vals (BSON.getObjectField body "docs")).getD []

/-- The documents in the answer of a call, none if it ends with an exception. -/
def carriedBy : Except Exn BSONObj → List BSONObj
  | .ok body => carried body
  | .error _ => []

/-- Every piece of the text fits the buffer it is printed to. -/
def PiecesFit (docs : List BSONObj) : Prop :=
  ∃ text, toBSONObjText (docs.map M.jsonString) = .ok text

/-- The object with all the documents. -/
def readBody (docs : List BSONObj) : BSONObj :=
  initResponseBuilder .ok none "do_read" ++ [("docs", .obj (BSON.indexed 0 docs))]

/-- The documents can be sent in one response: the pieces of their text fit the buffer, and the
response is shorter than `max_body_length`. -/
def Sendable (docs : List BSONObj) : Prop :=
  PiecesFit M docs ∧ (M.jsonString (readBody docs)).utf8ByteSize < maxBodyLength

/-- The object with all the documents carries them. -/
theorem carried_readBody (docs : List BSONObj) : carried (readBody docs) = docs := by
  simp [carried, readBody, initResponseBuilder, BSON.getObjectField, BSON.getField,
    BSON.vals_indexed]

/-- A response without documents carries none. -/
theorem carried_getResponseBody_initResponseBuilder (res : Response) (extra : String) :
    carried (getResponseBody M (initResponseBuilder res none extra)) = [] := by
  unfold getResponseBody initResponseBuilder
  split_ifs <;> simp [carried, BSON.getObjectField, BSON.getField, BSON.vals]

variable {M}

/-- Documents that can be sent are all in the answer. -/
theorem readResponse_of_sendable {docs : List BSONObj} (ret : Option Nat) (hne : docs ≠ [])
    (h : Sendable M docs) : readResponse M docs ret = .ok (readBody docs) := by
  obtain ⟨⟨text, htext⟩, hlen⟩ := h
  rw [readResponse, if_pos (Or.inr hne), packResponseDocs, if_pos ⟨hne, rfl⟩, toBSONObj_eq, htext]
  show Except.ok (getResponseBody M (readBody docs)) = _
  rw [getResponseBody, if_pos hlen]

/-- Documents whose text fits the buffer in a response that is too long are replaced by the
code. -/
theorem readResponse_of_tooLong {docs : List BSONObj} (ret : Option Nat) (hne : docs ≠ [])
    (hfit : PiecesFit M docs)
    (hlong : ¬(M.jsonString (readBody docs)).utf8ByteSize < maxBodyLength) :
    readResponse M docs ret = .ok [("response", .int Response.responseTooLong.code)] := by
  obtain ⟨text, htext⟩ := hfit
  rw [readResponse, if_pos (Or.inr hne), packResponseDocs, if_pos ⟨hne, rfl⟩, toBSONObj_eq, htext]
  show Except.ok (getResponseBody M (readBody docs)) = _
  rw [getResponseBody, if_neg hlong]

/-- Documents whose text does not fit the buffer have no response. -/
theorem readResponse_of_not_piecesFit {docs : List BSONObj} (ret : Option Nat) (hne : docs ≠ [])
    (hfit : ¬PiecesFit M docs) : ∃ e, readResponse M docs ret = .error e := by
  rw [readResponse, if_pos (Or.inr hne), packResponseDocs, if_pos ⟨hne, rfl⟩, toBSONObj_eq]
  rcases htext : toBSONObjText (docs.map M.jsonString) with e | text
  · exact ⟨e, rfl⟩
  · exact absurd ⟨text, htext⟩ hfit

/-- The code of an object that `get_response_string` sends: its own, or the replacement. -/
theorem code_getResponseBody (res : Response) (extra : String) (rest : BSONObj) :
    BSON.getIntField (getResponseBody M (initResponseBuilder res none extra ++ rest)) "response" =
        res.code ∨
      BSON.getIntField (getResponseBody M (initResponseBuilder res none extra ++ rest)) "response" =
        Response.responseTooLong.code := by
  unfold getResponseBody
  split_ifs
  · exact Or.inl rfl
  · exact Or.inr rfl

/-- **When `do_read` says `NoMoreItem`**: only without documents and with `ULONG_MAX`. -/
theorem eq_nil_of_code_noMoreItem {docs : List BSONObj} {ret : Option Nat} {body : BSONObj}
    (h : readResponse M docs ret = .ok body)
    (hcode : BSON.getIntField body "response" = Response.noMoreItem.code) :
    docs = [] ∧ ret = none := by
  by_contra hdata
  have hok : ret ≠ none ∨ docs ≠ [] := by
    by_contra hnone
    push Not at hnone
    exact hdata ⟨hnone.2, hnone.1⟩
  have hbody : ∃ rest, body = getResponseBody M (initResponseBuilder .ok none "do_read" ++ rest) := by
    unfold readResponse packResponseDocs at h
    rw [if_pos hok] at h
    split_ifs at h
    · rcases hobj : toBSONObj M docs with e | o
      · simp [hobj, Except.map] at h
      · simp only [hobj, Except.map, Except.ok.injEq] at h
        exact ⟨_, h.symm⟩
    · refine ⟨[], ?_⟩
      rw [List.append_nil]
      exact (Except.ok.inj h).symm
  obtain ⟨rest, rfl⟩ := hbody
  rcases code_getResponseBody (M := M) .ok "do_read" rest with hres | hres
  · rw [hres] at hcode
    cases hcode
  · rw [hres] at hcode
    cases hcode

/-- A READ has an answer exactly when there are no documents or their text fits the buffer. -/
theorem readResponse_ok_iff (docs : List BSONObj) (ret : Option Nat) :
    (∃ body, readResponse M docs ret = .ok body) ↔ docs = [] ∨ PiecesFit M docs := by
  rcases eq_or_ne docs [] with rfl | hne
  · refine iff_of_true ?_ (Or.inl rfl)
    unfold readResponse packResponseDocs
    simp only [ne_eq, not_true_eq_false, false_and, if_false, or_false]
    split_ifs <;> exact ⟨_, rfl⟩
  · rw [or_iff_right hne]
    constructor
    · rintro ⟨body, hbody⟩
      by_contra hfit
      obtain ⟨e, he⟩ := readResponse_of_not_piecesFit ret hne hfit
      rw [hbody] at he
      cases he
    · intro hfit
      by_cases hlen : (M.jsonString (readBody docs)).utf8ByteSize < maxBodyLength
      · exact ⟨_, readResponse_of_sendable ret hne ⟨hfit, hlen⟩⟩
      · exact ⟨_, readResponse_of_tooLong ret hne hfit hlen⟩

/-- **What the answer to a READ carries**: the popped documents if they can be sent, and none
otherwise. -/
theorem carried_readResponse (docs : List BSONObj) (ret : Option Nat) :
    (Sendable M docs → carriedBy (readResponse M docs ret) = docs) ∧
      (¬Sendable M docs → carriedBy (readResponse M docs ret) = []) := by
  by_cases hne : docs = []
  · subst hne
    have hnone : carriedBy (readResponse M [] ret) = [] := by
      unfold readResponse packResponseDocs
      simp only [ne_eq, not_true_eq_false, false_and, if_false, or_false]
      split_ifs <;> exact carried_getResponseBody_initResponseBuilder M _ _
    exact ⟨fun _ => hnone, fun _ => hnone⟩
  · constructor
    · intro h
      rw [readResponse_of_sendable ret hne h]
      exact carried_readBody docs
    · intro h
      by_cases hfit : PiecesFit M docs
      · -- the pieces fit, so the length is what makes it unsendable
        rw [readResponse_of_tooLong ret hne hfit fun hlen => h ⟨hfit, hlen⟩]
        rfl
      · obtain ⟨e, he⟩ := readResponse_of_not_piecesFit ret hne hfit
        rw [he]
        rfl

end Zbroker
