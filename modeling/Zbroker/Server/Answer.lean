import Zbroker.Server.Refcount

/-!
# One answer for a request

A request is a JSON object on a connection with a read under way. `connection::process` has four
kinds of ends: an answer, an assertion, an exception of its own (a string literal), and what the
members it calls throw; nothing catches the last three.

* `sent` — the packets that `process` hands to `async_write`: `m_send_buffer`, once, at its end.
  `leaves_of_step`, `exists_sent_of_step`: what a packet does to its connection, and that it is
  answered, unless an exception leaves `process`.
* `Fits s conn cmd` — the command fits the state of the connection and of its processor.
* `AnsweredOnce` — one packet is sent, `UnknownCommand` for a command that is none, and an error
  for a command that does not fit.
* `Answerable` — the condition on the request and on the state before it: what `process` needs to end
  normally, and what its call needs to return.
* **`answeredOnce_iff`**: a request is processed and answered once exactly under that condition, for
  every state of the server.

A request whose call does not return is not answered. A WRITE with documents needs a queue with a
capacity for that, and a READ outcomes of its pops that end it: one that waits on `m_con_query` for
good, or in a pop without a deadline, has none. Of a CLOSE it is assumed that `term` returns.
-/

namespace Zbroker

open Found.Transition

/-- The response code in a packet. -/
def Reply.code (r : Reply) : Int := BSON.getIntField r.body "response"

namespace Server

/-- The packets that `process` has sent to a connection: it ends with one `async_write` of
`m_send_buffer`, unless an exception leaves it. -/
def sent (c : Nat) (t : Server) : List Reply :=
  if t.fault.isSome then [] else ((t.connections[c]?).bind Connection.sendBuffer).toList

/-- The command fits the state: an OPEN for a connection that has not been opened, a CLOSE for a
processor that is open, a READ or a REWIND for one that is open for reading and a WRITE for one
that is open for writing. -/
def Fits (s : Server) (conn : Connection) : Command → Prop
  | .openCmd => conn.processorOpened = false
  | .closeCmd => ∃ id, conn.processor = some id ∧
      ((s.processors id).readBroker.connected = true ∨
        (s.processors id).writeBroker.connected = true)
  | .readCmd | .rewindCmd => ∃ id, conn.processor = some id ∧
      (s.processors id).readBroker.connected = true
  | .writeCmd => ∃ id, conn.processor = some id ∧
      (s.processors id).writeBroker.connected = true
  | .unknown _ => False

/-- The request is answered by one packet: `UnknownCommand` for a command that is none, an error
for one that does not fit. -/
structure AnsweredOnce (s : Server) (c : Nat) (conn : Connection) (cmd : Command)
    (t : Server) : Prop where
  one : ∃ reply, t.sent c = [reply]
  unknown : ∀ n, cmd = .unknown n →
    ∀ reply ∈ t.sent c, reply.code = Response.unknownCommand.code
  misfit : ¬s.Fits conn cmd → ∀ reply ∈ t.sent c, reply.code ≠ Response.ok.code

variable (M : Mongo)

/-- What an answer takes: for an OPEN of a connection that has not been opened, a purpose there
is and options that its broker opens; for the other commands that they fit. A READ moreover takes a
limit other than zero, pops that come to an end, and documents that `toBSONObj` can print; a WRITE
documents that are objects, and a loop that comes to an end. -/
def Answerable (hash : BSONObj → String) (s : Server) (conn : Connection) (body : BSONObj)
    (os : List PopOutcome) : Command → Prop
  | .openCmd =>
      let p := s.processors (conn.processor.getD (hash body))
      conn.processorOpened = true ∨
        BSON.getIntField body "purpose" = 1 ∧
          (p.readBroker.connected = true ∨ p.readBroker.Opens body) ∨
        BSON.getIntField body "purpose" = 2 ∧
          (p.writeBroker.connected = true ∨ p.writeBroker.Opens body)
  | .closeCmd => s.Fits conn .closeCmd
  | .rewindCmd => s.Fits conn .rewindCmd
  | .readCmd => ∃ id, conn.processor = some id ∧
      (s.processors id).readBroker.connected = true ∧
      toSizeT (s.processors id).readBroker.limit ≠ 0 ∧
      (doRead M (s.processors id).readBroker os).isSome ∧
      (collected (s.processors id).readBroker os = [] ∨
        PiecesFit M (collected (s.processors id).readBroker os))
  | .writeCmd => ∃ id, conn.processor = some id ∧
      (s.processors id).writeBroker.connected = true ∧
      ∃ docs, BSON.vals (BSON.getObjectField body "docs") = some docs ∧
        PushEnds docs (s.processors id).writeBroker.queue
  | .unknown _ => False

/-! ## What is sent -/

section sent

variable {s t : Server} {c : Nat} {conn conn' : Connection} {cmd : Command}

/-- An exception leaves nothing sent. -/
theorem sent_of_fault (h : t.fault ≠ none) : t.sent c = [] := by
  rw [sent, if_pos (Option.isSome_iff_ne_none.mpr h)]

/-- An exception is no answer. -/
theorem not_answeredOnce_of_fault (h : t.fault ≠ none) : ¬AnsweredOnce s c conn cmd t := by
  intro hanswered
  obtain ⟨reply, hreply⟩ := hanswered.one
  rw [sent_of_fault h] at hreply
  cases hreply

/-- A request that leaves `m_send_buffer` filled is answered with it. -/
theorem sent_of_set (hfault : t.fault = none) (hconn : s.connections[c]? = some conn)
    (ht : t.connections = s.connections.set c conn') {reply : Reply}
    (hreply : conn'.sendBuffer = some reply) : t.sent c = [reply] := by
  obtain ⟨hlt, -⟩ := List.getElem?_eq_some_iff.mp hconn
  rw [sent, hfault, ht, List.getElem?_set_self hlt]
  simp [hreply]

/-- The answer is the one that is sent. -/
theorem sent_answer (hfault : s.fault = none) (hconn : s.connections[c]? = some conn)
    {id : String} (p : Processor) (body : BSONObj) :
    (s.answer id p c conn' body).sent c = [⟨id, body⟩] :=
  sent_of_set (t := s.answer id p c conn' body) hfault hconn rfl rfl

/-- The answer to a command that is one: the code must be an error if the command does not
fit. -/
theorem answeredOnce_iff_of_sent {reply : Reply} (hsent : t.sent c = [reply])
    (hcmd : ∀ n, cmd ≠ .unknown n) :
    AnsweredOnce s c conn cmd t ↔ (¬s.Fits conn cmd → reply.code ≠ Response.ok.code) := by
  constructor
  · intro h hfits
    exact h.misfit hfits reply (by simp [hsent])
  · intro h
    refine ⟨⟨reply, hsent⟩, fun n hn => absurd hn (hcmd n), ?_⟩
    intro hfits r hr
    rw [hsent, List.mem_singleton] at hr
    rw [hr]
    exact h hfits

/-- The code of a response without data: its own, or `ResponseTooLong`. -/
theorem code_packResponse (res : Response) (extra id : String) :
    Reply.code ⟨id, packResponse M res extra none⟩ = res.code ∨
      Reply.code ⟨id, packResponse M res extra none⟩ = Response.responseTooLong.code := by
  unfold packResponse getResponseBody
  split_ifs
  · exact Or.inl rfl
  · exact Or.inr rfl

end sent

section answered

variable {M : Mongo} {hash : BSONObj → String} {s t : Server} {c : Nat} {conn : Connection}
  {id : String}

/-- What a request that is no exception does to its connection. -/
structure Leaves (cmd : Command) (conn conn' : Connection) : Prop where
  reading : conn'.reading = conn.reading
  sendBuffer : ∃ reply, conn'.sendBuffer = some reply
  opened : conn.processorOpened = true → conn'.processorOpened = true
  closed : cmd = .closeCmd → conn'.session = none
  session : cmd ≠ .closeCmd → conn'.session = conn.session ∨ conn.processorOpened = false

/-- A request that is processed without an exception. -/
theorem leaves_of_processed {cmd : Command} {body : BSONObj} {errmsg : Option String}
    (h : Processed M hash s c conn cmd body errmsg t) (hfault : t.fault = none) :
    ∃ conn', t.connections = s.connections.set c conn' ∧ Leaves cmd conn conn' := by
  rcases h with ⟨e, -⟩ | ⟨id, p, extra, hcmd, -, hopened, -⟩ | ⟨id, reply, hcmd, -, -⟩ |
    ⟨id, t, -, -, hexecuted⟩
  · cases hfault
  · refine ⟨_, rfl, rfl, ⟨_, rfl⟩, fun _ => rfl, ?_, fun _ => Or.inr hopened⟩
    intro hclose
    rw [hcmd] at hclose
    cases hclose
  · refine ⟨_, rfl, rfl, ⟨_, rfl⟩, fun h => h, ?_, fun _ => Or.inl rfl⟩
    intro hclose
    rw [hcmd] at hclose
    cases hclose
  · rcases hexecuted with ⟨e, -⟩ | ⟨body, hcmd⟩ | ⟨p, body, hcmd, -, -⟩
    · cases hfault
    · exact ⟨_, connections_close _ _ _ _, rfl, ⟨_, rfl⟩, fun h => h, fun _ => rfl,
        fun hnot => absurd hcmd hnot⟩
    · exact ⟨_, rfl, rfl, ⟨_, rfl⟩, fun h => h, fun hclose => absurd hclose hcmd,
        fun _ => Or.inl rfl⟩

/-- **A packet that is no exception** is a request, and changes nothing but its own connection
there. -/
theorem leaves_of_step {cmdObj : Option BSONObj} {errmsg : Option String} {os : List PopOutcome}
    (h : step M hash s (.packet c cmdObj errmsg os) = some t) (hfault : t.fault = none) :
    ∃ o conn conn', cmdObj = some o ∧ s.reader c = some conn ∧
      t.connections = s.connections.set c conn' ∧ Leaves (parseRequest o).2.1 conn conn' := by
  unfold step at h
  split_ifs at h
  rcases cmdObj with _ | o
  · obtain ⟨conn, -, rfl⟩ := Option.map_eq_some_iff.mp h
    cases hfault
  · obtain ⟨conn, hreader, hprocess⟩ := Option.bind_eq_some_iff.mp h
    obtain ⟨conn', ht, hleaves⟩ := leaves_of_processed (process_cases hprocess) hfault
    exact ⟨o, conn, conn', rfl, hreader, ht, hleaves⟩

/-- **A packet that is no exception is answered.** -/
theorem exists_sent_of_step {cmdObj : Option BSONObj} {errmsg : Option String}
    {os : List PopOutcome} (h : step M hash s (.packet c cmdObj errmsg os) = some t)
    (hfault : t.fault = none) : ∃ reply, t.sent c = [reply] := by
  obtain ⟨o, conn, conn', -, hreader, ht, hleaves⟩ := leaves_of_step h hfault
  obtain ⟨reply, hreply⟩ := hleaves.sendBuffer
  exact ⟨reply, sent_of_set hfault (getElem_of_reader hreader) ht hreply⟩

end answered

/-! ## The commands -/

section commands

variable {M} {s t : Server} {c : Nat} {conn : Connection} {id : String}

/-- The two responses that are OK whatever the state have a short text. -/
def Terse (M : Mongo) : Prop :=
  ∀ extra ∈ ["Close Action", "Rewind Action"],
    (M.jsonString (initResponseBuilder .ok none extra)).utf8ByteSize < maxBodyLength

/-- A request that is executed and answered with a code that is always OK. -/
theorem answeredOnce_iff_of_ok (id extra : String) {cmd : Command} (hterse : Terse M)
    (hextra : extra ∈ ["Close Action", "Rewind Action"]) (hcmd : ∀ n, cmd ≠ .unknown n)
    (hsent : t.sent c = [⟨id, packResponse M .ok extra none⟩]) :
    AnsweredOnce s c conn cmd t ↔ s.Fits conn cmd := by
  have hcode : Reply.code ⟨id, packResponse M .ok extra none⟩ = Response.ok.code := by
    rw [packResponse, getResponseBody, if_pos (hterse extra hextra)]
    rfl
  rw [answeredOnce_iff_of_sent hsent hcmd, hcode]
  simp

/-- A request that is executed and answered, and fits. -/
theorem answeredOnce_answer {conn' : Connection} {cmd : Command} (hfault : s.fault = none)
    (hconn : s.connections[c]? = some conn) (p : Processor) (body : BSONObj)
    (hcmd : ∀ n, cmd ≠ .unknown n) (hfits : s.Fits conn cmd) :
    AnsweredOnce s c conn cmd (s.answer id p c conn' body) := by
  rw [answeredOnce_iff_of_sent (sent_answer hfault hconn p body) hcmd]
  exact fun h => absurd hfits h

/-- The handler of an OPEN of a connection that has not been opened. -/
theorem openFor_eq_ok_iff (p : Processor) (purpose : Int) (body : BSONObj) :
    (∃ p', p.openFor (fun _ => none) purpose body = .ok p') ↔
      purpose = 1 ∧ (p.readBroker.connected = true ∨ p.readBroker.Opens body) ∨
        purpose = 2 ∧ (p.writeBroker.connected = true ∨ p.writeBroker.Opens body) := by
  have hread : (∃ p', p.openRead (fun _ => none) body = .ok p') ↔
      p.readBroker.connected = true ∨ p.readBroker.Opens body := by
    unfold Processor.openRead
    rw [← Broker.openOn_eq_none_iff]
    split_ifs with hconnected
    · simp [hconnected]
    · rcases hopen : p.readBroker.openOn (fun _ => none) (some body) with ⟨b, _ | e⟩
      · simp
      · simp [hconnected]
  have hwrite : (∃ p', p.openWrite (fun _ => none) body = .ok p') ↔
      p.writeBroker.connected = true ∨ p.writeBroker.Opens body := by
    unfold Processor.openWrite
    rw [← Broker.openOn_eq_none_iff]
    split_ifs with hconnected
    · simp [hconnected]
    · rcases hopen : p.writeBroker.openOn (fun _ => none) (some body) with ⟨b, _ | e⟩
      · simp
      · simp [hconnected]
  have hcount : ∀ x : Except Exn Processor,
      (∃ p', (do let p ← x; return { p with refcount := p.refcount + 1 }) = .ok p') ↔
        ∃ p', x = .ok p' := by
    intro x
    rcases x with e | p'
    · exact iff_of_false (fun ⟨_, h⟩ => by cases h) (fun ⟨_, h⟩ => by cases h)
    · exact iff_of_true ⟨_, rfl⟩ ⟨_, rfl⟩
  unfold Processor.openFor
  dsimp only
  split_ifs with hone htwo
  · refine (hcount _).trans (hread.trans ?_)
    simp [hone]
  · refine (hcount _).trans (hwrite.trans ?_)
    simp [htwo]
  · refine (hcount (.error (.literal "invalid Purpose"))).trans ?_
    simp [hone, htwo]

/-- What holds of the result of a call that returns. -/
theorem exists_eq_some_and {x : Server} {P : Server → Prop} :
    (∃ t, some x = some t ∧ P t) ↔ P x := by
  simp

/-- A READ request. -/
theorem answeredOnce_readRequest_iff {os : List PopOutcome} (hfault : s.fault = none)
    (hconn : s.connections[c]? = some conn) (hid : conn.processor = some id) :
    (∃ t, s.readRequest M id c conn os = some t ∧ AnsweredOnce s c conn .readCmd t) ↔
      (s.processors id).readBroker.connected = true ∧
        toSizeT (s.processors id).readBroker.limit ≠ 0 ∧
        (doRead M (s.processors id).readBroker os).isSome ∧
        (collected (s.processors id).readBroker os = [] ∨
          PiecesFit M (collected (s.processors id).readBroker os)) := by
  unfold readRequest
  dsimp only
  split_ifs with hconnected
  · rw [and_iff_right hconnected]
    rcases hr : doRead M (s.processors id).readBroker os with _ | r
    · -- these are not the outcomes of its pops
      exact iff_of_false (fun ⟨_, h, _⟩ => by cases h) fun hcond => by cases hcond.2.1
    rw [Option.map_some, exists_eq_some_and, Option.isSome_some]
    rcases doRead_eq_some hr with ⟨hlimit, ⟨e, he⟩, -, -⟩ | ⟨hlimit, ret, hanswer, -⟩
    · rw [he]
      refine iff_of_false (not_answeredOnce_of_fault ?_) (fun hcond => hcond.1 hlimit)
      simp
    · rw [and_iff_right hlimit, and_iff_right rfl, ← readResponse_ok_iff _ ret, ← hanswer]
      rcases r.answer with e | body
      · refine iff_of_false (not_answeredOnce_of_fault ?_) (fun ⟨_, hbody⟩ => by cases hbody)
        simp
      · refine iff_of_true ?_ ⟨body, rfl⟩
        exact answeredOnce_answer hfault hconn _ body (by simp) ⟨id, hid, hconnected⟩
  · rw [exists_eq_some_and]
    refine iff_of_false (not_answeredOnce_of_fault ?_) (fun hcond => hconnected hcond.1)
    simp

/-- A WRITE request. -/
theorem answeredOnce_writeRequest_iff (hfault : s.fault = none)
    (hconn : s.connections[c]? = some conn) (hid : conn.processor = some id) (body : BSONObj) :
    (∃ t, s.writeRequest M id c conn body = some t ∧ AnsweredOnce s c conn .writeCmd t) ↔
      (s.processors id).writeBroker.connected = true ∧
        ∃ docs, BSON.vals (BSON.getObjectField body "docs") = some docs ∧
          PushEnds docs (s.processors id).writeBroker.queue := by
  unfold writeRequest
  split_ifs with hconnected
  · rw [and_iff_right hconnected]
    rcases BSON.vals (BSON.getObjectField body "docs") with _ | docs
    · rw [exists_eq_some_and]
      refine iff_of_false (not_answeredOnce_of_fault ?_) (by simp)
      simp
    · dsimp only
      split_ifs with hends
      · rw [exists_eq_some_and]
        refine iff_of_true ?_ ⟨docs, rfl, hends⟩
        exact answeredOnce_answer hfault hconn _ _ (by simp) ⟨id, hid, hconnected⟩
      · -- the loop goes on for good
        exact iff_of_false (fun ⟨_, h, _⟩ => by cases h) (by simpa using hends)
  · rw [exists_eq_some_and]
    refine iff_of_false (not_answeredOnce_of_fault ?_) (fun hcond => hconnected hcond.1)
    simp

/-- The requests but OPEN, of a connection with a processor. -/
theorem answeredOnce_processRequest_iff {hash : BSONObj → String} {cmdObj : BSONObj}
    {os : List PopOutcome} (hterse : Terse M) (hfault : s.fault = none)
    (hconn : s.connections[c]? = some conn) (hid : conn.processor = some id)
    (hcmd : (parseRequest cmdObj).2.1 ≠ .openCmd) :
    (∃ t, s.processRequest M id c conn (parseRequest cmdObj).1 (parseRequest cmdObj).2.1
        (parseRequest cmdObj).2.2 os = some t ∧
          AnsweredOnce s c conn (parseRequest cmdObj).2.1 t) ↔
      Answerable M hash s conn (parseRequest cmdObj).2.2 os (parseRequest cmdObj).2.1 := by
  have hvalid (hnot : ∀ n, (parseRequest cmdObj).2.1 ≠ .unknown n) :
      (parseRequest cmdObj).1 = true := parseRequest_of_ne_unknown hnot
  unfold processRequest
  generalize (parseRequest cmdObj).2.1 = cmd at hcmd hvalid ⊢
  cases cmd with
  | openCmd => exact absurd rfl hcmd
  | closeCmd =>
      rw [if_pos (hvalid (by simp)), exists_eq_some_and]
      apply answeredOnce_iff_of_ok id "Close Action" hterse (by simp) (by simp)
      exact sent_of_set (by simpa using hfault) hconn (connections_close _ _ _ _) rfl
  | readCmd =>
      rw [if_pos (hvalid (by simp)), answeredOnce_readRequest_iff hfault hconn hid]
      simp [Answerable, hid]
  | writeCmd =>
      rw [if_pos (hvalid (by simp)), answeredOnce_writeRequest_iff hfault hconn hid]
      simp [Answerable, hid]
  | rewindCmd =>
      rw [if_pos (hvalid (by simp)), exists_eq_some_and]
      apply answeredOnce_iff_of_ok id "Rewind Action" hterse (by simp) (by simp)
      exact sent_answer hfault hconn _ _
  | unknown n =>
      -- a number that is no command: both tests end in an exception
      split_ifs
      · rw [exists_eq_some_and]
        refine iff_of_false (not_answeredOnce_of_fault ?_) (fun hcond => hcond)
        simp
      · rw [exists_eq_some_and]
        refine iff_of_false (not_answeredOnce_of_fault ?_) (fun hcond => hcond)
        simp

/-- An OPEN request. -/
theorem answeredOnce_processOpen_iff {hash : BSONObj → String} {body : BSONObj}
    {os : List PopOutcome} (hfault : s.fault = none) (hconn : s.connections[c]? = some conn)
    (hid : id = conn.processor.getD (hash body)) :
    AnsweredOnce s c conn .openCmd
        (s.processOpen M id (s.processors id) c { conn with processor := some id } body none) ↔
      Answerable M hash s conn body os .openCmd := by
  subst hid
  unfold processOpen Answerable
  dsimp only
  by_cases hopened : conn.processorOpened = true
  · rw [if_pos hopened]
    refine iff_of_true ?_ (Or.inl hopened)
    refine (answeredOnce_iff_of_sent (sent_of_set ?_ hconn rfl rfl) (by simp)).mpr fun _ => ?_
    · exact hfault
    rcases code_packResponse M .alreadyOpen "connection::process" "" with hcode | hcode <;>
      simp [hcode, Response.code]
  · rw [if_neg hopened, or_iff_right hopened, ← openFor_eq_ok_iff]
    rcases (s.processors (conn.processor.getD (hash body))).openFor (fun _ => none)
      (BSON.getIntField body "purpose") body with e | p'
    · refine iff_of_false (not_answeredOnce_of_fault ?_) (fun ⟨_, hp⟩ => by cases hp)
      simp
    · refine iff_of_true ?_ ⟨p', rfl⟩
      exact answeredOnce_answer hfault hconn p' _ (by simp) (by simpa [Fits] using hopened)

end commands

/-! ## The request -/

/-- **What `connection::process` makes of a request**, when MongoDB can be reached. -/
theorem answeredOnce_process_iff {M : Mongo} (hterse : Terse M) {hash : BSONObj → String}
    (hhash : ∀ body, hash body ≠ "") {s : Server} (hfault : s.fault = none) {c : Nat}
    {conn : Connection} (hconn : s.connections[c]? = some conn) (cmdObj : BSONObj)
    (os : List PopOutcome) :
    (∃ t, s.process M hash c conn cmdObj none os = some t ∧
        AnsweredOnce s c conn (parseRequest cmdObj).2.1 t) ↔
      Answerable M hash s conn (parseRequest cmdObj).2.2 os (parseRequest cmdObj).2.1 := by
  unfold process
  dsimp only
  by_cases hcmd : (parseRequest cmdObj).2.1 = .openCmd
  · have hfind : (if conn.processor.isSome = true then
        Except.ok (s.processors (conn.processor.getD (hash (parseRequest cmdObj).2.2)))
        else s.find (conn.processor.getD (hash (parseRequest cmdObj).2.2))) =
        .ok (s.processors (conn.processor.getD (hash (parseRequest cmdObj).2.2))) := by
      rcases conn.processor with _ | id
      · simp [find, hhash]
      · rfl
    simp only [hcmd, if_true, hfind]
    rw [exists_eq_some_and]
    exact answeredOnce_processOpen_iff hfault hconn rfl
  · rcases hprocessor : conn.processor with _ | id
    · -- there is no processor under the empty id of the packet
      simp only [hcmd, Option.isSome_none, Bool.false_eq_true, if_false, Option.getD_none]
      refine iff_of_false ?_ ?_
      · rintro ⟨t, ht, hanswered⟩
        cases ht
        exact not_answeredOnce_of_fault (by simp) hanswered
      · intro hcond
        rcases hcase : (parseRequest cmdObj).2.1 <;> rw [hcase] at hcmd hcond
        · exact hcmd rfl
        all_goals simp [Answerable, Fits, hprocessor] at hcond
    · have heq : { conn with processor := some id } = conn := by rw [← hprocessor]
      simp only [hcmd, Option.isSome_some, if_true, if_false, Option.getD_some]
      rw [heq]
      exact answeredOnce_processRequest_iff hterse hfault hconn hprocessor hcmd

/-- The responses without data of the plain driver are short. -/
theorem terse_plain : Terse Mongo.plain := by
  unfold Terse
  decide +kernel

end Server

end Zbroker
