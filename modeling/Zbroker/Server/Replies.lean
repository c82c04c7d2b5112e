import Zbroker.Server.Routing

/-!
# What the server answers

Whatever a request is, its answer is a response of `get_response_string`, with the id of the processor
that has executed it, or none.

* `Reply.Within` — a response that fits the limits of the protocol.
* **`reply_of_process`**: what is sent for a request.
* **`within_of_step`**: it is within the limits, if the ids are, and the response that stands for one
  that is too long.
-/

namespace Zbroker

/-- A response that fits the limits of the protocol. -/
structure Reply.Within (M : Mongo) (r : Reply) : Prop where
  packetId : (printId (bytesOf r.packetId)).length = packetIdLength
  body : (bytesOf (M.jsonString r.body)).length + packetIdLength < 10 ^ headerLength

/-- The response that stands for one that is too long is not too long. -/
def ShortRefusal (M : Mongo) : Prop :=
  (M.jsonString [("response", .int Response.responseTooLong.code)]).utf8ByteSize < maxBodyLength

/-- The bytes of a string. -/
theorem length_bytesOf (s : String) : (bytesOf s).length = s.utf8ByteSize := by
  rw [bytesOf, Array.length_toList]
  rfl

/-- An id that is not too long is printed with the length of an id. -/
theorem length_printId_of_le {id : String} (h : id.utf8ByteSize ≤ packetIdLength) :
    (printId (bytesOf id)).length = packetIdLength := by
  have hle := (List.takeWhile_prefix (fun b : UInt8 => decide (b ≠ 0)) (l := bytesOf id)).length_le
  rw [length_bytesOf] at hle
  rw [printId, length_padLeft]
  omega

namespace Server

section replies

variable {M : Mongo} {hash : BSONObj → String} {s t : Server} {c : Nat} {conn : Connection}
  {reply : Reply}

/-- A response with documents. -/
theorem exists_packResponseDocs {res : Response} {docs : List BSONObj} {extra : String}
    {body : BSONObj} (h : packResponseDocs M res docs extra = .ok body) :
    ∃ body', body = getResponseBody M body' := by
  unfold packResponseDocs at h
  split_ifs at h
  · rcases hdocs : toBSONObj M docs with e | o
    · rw [hdocs] at h
      cases h
    · rw [hdocs] at h
      exact ⟨_, (Except.ok.inj h).symm⟩
  · exact ⟨_, (Except.ok.inj h).symm⟩

/-- The answer to a READ is a response. -/
theorem exists_readResponse {b : Broker} {os : List PopOutcome} {r : ReadResult} {body : BSONObj}
    (hr : doRead M b os = some r) (h : r.answer = .ok body) :
    ∃ body', body = getResponseBody M body' := by
  unfold doRead at hr
  split at hr
  · split_ifs at hr
    cases hr
    cases h
  · obtain ⟨r', -, rfl⟩ := Option.map_eq_some_iff.mp hr
    unfold readResponse at h
    dsimp only at h
    split_ifs at h
    · exact exists_packResponseDocs h
    · exact exists_packResponseDocs h

/-- What is sent for a request that is no OPEN. -/
theorem reply_of_processRequest {id : String} {valid : Bool} {cmd : Command} {body : BSONObj}
    {os : List PopOutcome} (hconn : s.connections[c]? = some conn)
    (h : s.processRequest M id c conn valid cmd body os = some t) (hreply : reply ∈ t.sent c) :
    reply.packetId = id ∧ ∃ body', reply.body = getResponseBody M body' := by
  have hfault (e : Exn) (u : Server) (hu : some { u with fault := some e } = some t) :
      reply.packetId = id ∧ ∃ body', reply.body = getResponseBody M body' := by
    cases hu
    cases hreply
  have hanswer (p : Processor) (answer : BSONObj) (hu : some (s.answer id p c conn answer) = some t)
      (hbody : ∃ body', answer = getResponseBody M body') :
      reply.packetId = id ∧ ∃ body', reply.body = getResponseBody M body' := by
    cases hu
    rw [eq_of_mem_sent hconn rfl rfl hreply]
    exact ⟨rfl, hbody⟩
  unfold processRequest at h
  split_ifs at h
  · rcases cmd with _ | _ | _ | _ | _ | n
    · exact hfault _ s h
    · cases h
      rw [eq_of_mem_sent hconn (connections_close s id c _) rfl hreply]
      exact ⟨rfl, _, rfl⟩
    · simp only [readRequest] at h
      split_ifs at h
      · obtain ⟨r, hr, rfl⟩ := Option.map_eq_some_iff.mp h
        rcases hread : r.answer with e | answer
        · rw [hread] at hreply
          cases hreply
        · rw [hread] at hreply
          rw [eq_of_mem_sent hconn rfl rfl hreply]
          exact ⟨rfl, exists_readResponse hr hread⟩
      · exact hfault _ s h
    · unfold writeRequest at h
      split_ifs at h
      · rcases hdocs : BSON.vals (BSON.getObjectField body "docs") with _ | docs
        · rw [hdocs] at h
          exact hfault _ s h
        · rw [hdocs] at h
          dsimp only at h
          split_ifs at h
          exact hanswer _ _ h ⟨_, rfl⟩
      · exact hfault _ s h
    · exact hanswer _ _ h ⟨_, rfl⟩
    · exact hfault _ s h
  · exact hfault _ s h

/-- **What is sent** is a response, with the id of the processor or none. -/
theorem reply_of_process {cmdObj : BSONObj} {errmsg : Option String} {os : List PopOutcome}
    (hconn : s.connections[c]? = some conn)
    (h : s.process M hash c conn cmdObj errmsg os = some t) (hreply : reply ∈ t.sent c) :
    (reply.packetId = "" ∨ conn.processor = some reply.packetId ∨
        reply.packetId = hash (parseRequest cmdObj).2.2) ∧
      ∃ body, reply.body = getResponseBody M body := by
  unfold process at h
  dsimp only at h
  by_cases hcmd : (parseRequest cmdObj).2.1 = .openCmd
  · simp only [hcmd, if_true] at h
    split at h
    · cases h
      cases hreply
    · rw [Option.some.injEq, processOpen] at h
      subst h
      by_cases hopened : conn.processorOpened = true
      · rw [if_pos hopened] at hreply
        rw [eq_of_mem_sent hconn rfl rfl hreply]
        exact ⟨Or.inl rfl, _, rfl⟩
      · rw [if_neg hopened] at hreply
        split at hreply
        · cases hreply
        · rw [eq_of_mem_sent hconn rfl rfl hreply]
          refine ⟨Or.inr ?_, _, rfl⟩
          rcases conn.processor with _ | id
          · exact Or.inr rfl
          · exact Or.inl rfl
  · rcases hprocessor : conn.processor with _ | id
    · simp only [hprocessor, hcmd, Option.isSome_none, Bool.false_eq_true, if_false,
        Option.getD_none] at h
      cases h
      cases hreply
    · have heq : { conn with processor := some id } = conn := by rw [← hprocessor]
      simp only [hprocessor, hcmd, Option.isSome_some, if_true, if_false, Option.getD_some] at h
      rw [heq] at h
      obtain ⟨hid, hbody⟩ := reply_of_processRequest hconn h hreply
      exact ⟨Or.inr (Or.inl (by rw [hid])), hbody⟩

/-- A response that is not too long is within the limits, if the hashes and the response that stands
for one that is are. -/
theorem within_of_step {bs : List Action} {cmdObj : Option BSONObj} {errmsg : Option String}
    {os : List PopOutcome} (hs : Sharing hash bs s)
    (hhash : ∀ body, (hash body).utf8ByteSize ≤ packetIdLength) (hterse : ShortRefusal M)
    (h : step M hash s (.packet c cmdObj errmsg os) = some t) (hreply : reply ∈ t.sent c) :
    reply.Within M := by
  unfold step at h
  split_ifs at h
  rcases cmdObj with _ | o
  · obtain ⟨conn, -, rfl⟩ := Option.map_eq_some_iff.mp h
    cases hreply
  · obtain ⟨conn, hreader, hprocess⟩ := Option.bind_eq_some_iff.mp h
    have hconn := getElem_of_reader hreader
    obtain ⟨hid, body, hbody⟩ := reply_of_process hconn hprocess hreply
    have hle : reply.packetId.utf8ByteSize ≤ packetIdLength := by
      rcases hid with hempty | hprocessor | hopen
      · rw [hempty]
        decide
      · obtain ⟨body', -, hhash'⟩ := hs.processor c conn _ hconn hprocessor
        rw [← hhash']
        exact hhash body'
      · rw [hopen]
        exact hhash _
    refine ⟨length_printId_of_le hle, ?_⟩
    have hlt : (M.jsonString reply.body).utf8ByteSize < maxBodyLength := by
      rw [hbody]
      unfold getResponseBody
      split_ifs with hfits
      · exact hfits
      · exact hterse
    rw [length_bytesOf]
    simp only [maxBodyLength, packetIdLength, headerLength] at hlt ⊢
    omega

end replies

end Server

end Zbroker
