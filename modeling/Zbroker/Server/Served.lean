import Zbroker.Found.Simulation
import Zbroker.Server.Sharing
import Zbroker.Session.ReadRequest

/-!
# The server simulates its read sessions

The model of the server handles a READ in one step, and leaves what the read thread does to `work`.
In a session the thread takes its steps at any time, also between the pops of a READ.

* `readReply` — the answer to a READ request that an event of the server lets see, as `served` does
  for a step of a session.
* `Hosts id conns S b` — the server holds a session: the read broker of the processor `id` is `b`, and
  the connections `conns` are open on it.
* `Tracks` — the state of a session next to one of the server. While a READ is under way the server
  stays where it was when the request came. **`Tracks.step`**: each step of the session is matched by
  events of the server with the same answers.
* **`exists_server_run_of_session`**: so is every run of the session.
While a READ is under way its outcomes are collected (`Reading`). When it is answered the server executes it
with these, and what the read thread has done to the broker meanwhile is one use of the broker after it
(`exists_read`).
-/

namespace Zbroker.Server

open Found.Transition

/-! ## What is seen -/

/-- The answer to a READ that an event of the server sends. -/
def readReply (_ : Server) (a : Action) (T : Server) : Option (Nat × BSONObj) :=
  match a with
  | .packet c (some cmdObj) _ _ =>
      if (parseRequest cmdObj).2.1 = .readCmd then
        ((T.connections[c]?).bind Connection.sendBuffer).map fun reply => (c, reply.body)
      else none
  | _ => none

/-- A READ request. -/
def readPacket : BSONObj := [("cmd", .int 102)]

/-- A REWIND request. -/
def rewindPacket : BSONObj := [("cmd", .int 106)]

/-! ## A server that holds a session -/

/-- The read broker of the processor is `b`, and the connections are open on the processor. -/
structure Hosts (id : String) (conns : Nat → Prop) (S : Server) (b : Broker) : Prop where
  fault : S.fault = none
  broker : (S.processors id).readBroker = b
  reader : ∀ c, conns c → ∃ conn, S.reader c = some conn ∧ conn.processor = some id

section hosts

variable {M : Mongo} {hash : BSONObj → String} {id : String} {conns : Nat → Prop} {S : Server}
  {b b' : Broker} {c : Nat}

/-- A connection that is read still, and keeps its processor. -/
theorem Hosts.of_set {T : Server} {conn conn' : Connection} (h : Hosts id conns S b)
    (hfault : T.fault = none) (hbroker : (T.processors id).readBroker = b')
    (hreader : S.reader c = some conn) (hconnections : T.connections = S.connections.set c conn')
    (hconn : conn'.reading = conn.reading) (hprocessor : conn'.processor = conn.processor) :
    Hosts id conns T b' := by
  obtain ⟨hget, hreading⟩ := Option.filter_eq_some_iff.mp hreader
  obtain ⟨hlt, -⟩ := List.getElem?_eq_some_iff.mp hget
  refine ⟨hfault, hbroker, ?_⟩
  intro d hd
  obtain ⟨connD, hreaderD, hidD⟩ := h.reader d hd
  rw [Server.reader, hconnections]
  by_cases heq : c = d
  · subst heq
    have hsame : connD = conn := Option.some.inj (hreaderD.symm.trans hreader)
    rw [List.getElem?_set_self hlt]
    refine ⟨conn', ?_, ?_⟩
    · rw [Option.filter_some, if_pos (hconn.trans hreading)]
    · rw [hprocessor, ← hsame, hidD]
  · rw [List.getElem?_set_ne heq]
    exact ⟨connD, hreaderD, hidD⟩

/-- The read broker is used. -/
theorem Hosts.work (h : Hosts id conns S b) (hsettings : b'.settings = b.settings) :
    ∃ T, step M hash S (.work id b' (S.processors id).writeBroker) = some T ∧ Hosts id conns T b' ∧
      ∀ id' ≠ id, T.processors id' = S.processors id' := by
  have hfault : ¬S.fault.isSome = true := by simp [h.fault]
  rw [step, if_neg hfault]
  show ∃ T, Server.work id b' (S.processors id).writeBroker S = some T ∧ _
  rw [Server.work, if_pos ⟨by rw [h.broker, hsettings], rfl⟩]
  refine ⟨_, rfl, ⟨h.fault, ?_, h.reader⟩, ?_⟩
  · show (Function.update S.processors id _ id).readBroker = b'
    rw [Function.update_self]
  · intro id' hid
    exact Function.update_of_ne hid _ _

/-- A READ is executed in one step. -/
theorem Hosts.read (h : Hosts id conns S b) (hc : conns c) (hconnected : b.connected = true)
    {os : List PopOutcome} {r : ReadResult} {body : BSONObj} (hread : doRead M b os = some r)
    (hanswer : r.answer = .ok body) :
    ∃ T, step M hash S (.packet c (some readPacket) none os) = some T ∧
      readReply S (.packet c (some readPacket) none os) T = some (c, body) ∧
      (∃ b', Hosts id conns T b' ∧ b'.settings = b.settings) ∧
      ∀ id' ≠ id, T.processors id' = S.processors id' := by
  obtain ⟨conn, hreader, hid⟩ := h.reader c hc
  have hget := getElem_of_reader hreader
  obtain ⟨hlt, -⟩ := List.getElem?_eq_some_iff.mp hget
  have hcmd : (parseRequest readPacket).2.1 = .readCmd := by decide
  have hvalid : (parseRequest readPacket).1 = true := by decide
  have hconn : { conn with processor := some id } = conn := by rw [← hid]
  have hstep : step M hash S (.packet c (some readPacket) none os) = some (S.answer id
      { S.processors id with
        readBroker := { b with queue := { b.queue with queue := r.queue } } } c conn body) := by
    rw [step, if_neg (by simp [h.fault])]
    simp only [hreader, Option.bind_some, process, hid, Option.isSome_some, if_true,
      Option.getD_some, hcmd, reduceCtorEq, if_false, hconn, processRequest, hvalid, readRequest,
      h.broker, hconnected, hread, Option.map_some, hanswer]
  have hconnections : ∀ p, (S.answer id p c conn body).connections =
      S.connections.set c { conn with sendBuffer := some ⟨id, body⟩ } := fun _ => rfl
  refine ⟨_, hstep, ?_, ⟨{ b with queue := { b.queue with queue := r.queue } },
    h.of_set h.fault ?_ hreader (hconnections _) rfl rfl, rfl⟩, ?_⟩
  · simp only [readReply, hcmd, if_true, hconnections, List.getElem?_set_self hlt,
      Option.bind_some, Option.map_some]
  · show (Function.update S.processors id _ id).readBroker = _
    rw [Function.update_self]
  · intro id' hne
    exact Function.update_of_ne hne _ _

/-- A REWIND is executed in one step. -/
theorem Hosts.rewind (h : Hosts id conns S b) (hc : conns c) :
    ∃ T, step M hash S (.packet c (some rewindPacket) none []) = some T ∧
      readReply S (.packet c (some rewindPacket) none []) T = none ∧
      Hosts id conns T (if b.connected then b.rewind else b) ∧
      ∀ id' ≠ id, T.processors id' = S.processors id' := by
  obtain ⟨conn, hreader, hid⟩ := h.reader c hc
  have hcmd : (parseRequest rewindPacket).2.1 = .rewindCmd := by decide
  have hvalid : (parseRequest rewindPacket).1 = true := by decide
  have hconn : { conn with processor := some id } = conn := by rw [← hid]
  have hstep : step M hash S (.packet c (some rewindPacket) none []) = some (S.answer id
      (S.processors id).rewind c conn (packResponse M .ok "Rewind Action" none)) := by
    rw [step, if_neg (by simp [h.fault])]
    simp only [hreader, Option.bind_some, process, hid, Option.isSome_some, if_true,
      Option.getD_some, hcmd, reduceCtorEq, if_false, hconn, processRequest, hvalid]
  have hconnections : ∀ p body, (S.answer id p c conn body).connections =
      S.connections.set c { conn with sendBuffer := some ⟨id, body⟩ } := fun _ _ => rfl
  refine ⟨_, hstep, ?_, h.of_set h.fault ?_ hreader (hconnections _ _) rfl rfl, ?_⟩
  · simp only [readReply, hcmd, reduceCtorEq, if_false]
  · show (Function.update S.processors id _ id).readBroker = _
    rw [Function.update_self, Processor.rewind, ← h.broker]
    split_ifs <;> rfl
  · intro id' hne
    exact Function.update_of_ne hne _ _

end hosts

/-! ## The simulation -/

open ReadSession (State Reading Placed served)

/-- A state of a session, and one of a server that holds it. -/
inductive Tracks (M : Mongo) (id : String) (conns : Nat → Prop) (S₀ : Server) (s : State)
    (S : Server) : Prop
  /-- No request is under way. -/
  | idle (hframe : ∀ id' ≠ id, S.processors id' = S₀.processors id')
      (hhosts : Hosts id conns S s.broker) (hplaced : Placed s) (hio : s.io = .idle)
  /-- A READ is under way that the server has not seen. -/
  | busy (s₀ : State) (conn : Nat) (f₀ : BatchPop)
      (hframe : ∀ id' ≠ id, S.processors id' = S₀.processors id')
      (hhosts : Hosts id conns S s₀.broker) (hplaced : Placed s) (hio : s.io ≠ .idle)
      (hconn : conns conn) (hconnected : s₀.broker.connected = true)
      (hstart : BatchPop.start s₀.broker (toSizeT s₀.broker.limit) = .ok f₀)
      (hsettings : s.broker.settings = s₀.broker.settings) (hreading : Reading M s₀ conn f₀ s)

/-- What the session may do: serve READs of the connections that are open on it, and rewind. No step
is an exception. -/
def Serves (M : Mongo) (seconds : Nat) (conns : Nat → Prop) (s : State) (a : ReadSession.Action) :
    Prop :=
  a ≠ .term ∧ (∀ n, a ≠ .pop n) ∧ (∀ c, a = .read c → conns c) ∧
    ∀ t, ReadSession.step M seconds s a = some t → t.fault = none

section simulation

variable {M : Mongo} {hash : BSONObj → String} {id : String} {conns : Nat → Prop} {seconds : Nat}
  {S₀ S : Server} {s t : State} {a : ReadSession.Action}

/-- Nothing happens at the server. -/
theorem exists_no_event (h : Tracks M id conns S₀ t S) (hsee : served M s a t = none) :
    ∃ bs T, run (step M hash) S bs = some T ∧
      observed (step M hash) readReply S bs = (served M s a t).toList ∧ Tracks M id conns S₀ t T :=
  ⟨[], S, rfl, by rw [hsee]; rfl, h⟩

/-- The read thread takes a step while the session is idle: the brokers are used. -/
theorem exists_work (hframe : ∀ id' ≠ id, S.processors id' = S₀.processors id')
    (hhosts : Hosts id conns S s.broker) (hplaced : Placed t) (hio : t.io = .idle)
    (hsettings : t.broker.settings = s.broker.settings) (hsee : served M s a t = none) :
    ∃ bs T, run (step M hash) S bs = some T ∧
      observed (step M hash) readReply S bs = (served M s a t).toList ∧
      Tracks M id conns S₀ t T := by
  obtain ⟨T, hT, hhosts', hframe'⟩ := @Hosts.work M hash id conns S s.broker t.broker hhosts hsettings
  refine ⟨[.work id t.broker (S.processors id).writeBroker], T, ?_, ?_, ?_⟩
  · rw [run_cons, hT]
    rfl
  · rw [observed_cons hT, hsee]
    rfl
  · exact .idle (fun id' hne => (hframe' id' hne).trans (hframe id' hne)) hhosts' hplaced hio

/-- A request of the session has been answered: the server executes it, and its brokers are used for
what the read thread has done meanwhile. -/
theorem exists_read {s₀ : State} {conn : Nat} {f₀ : BatchPop} {body : BSONObj}
    (hframe : ∀ id' ≠ id, S.processors id' = S₀.processors id')
    (hhosts : Hosts id conns S s₀.broker) (hplaced : Placed t) (hconn : conns conn)
    (hconnected : s₀.broker.connected = true)
    (hstart : BatchPop.start s₀.broker (toSizeT s₀.broker.limit) = .ok f₀)
    (hsettings : t.broker.settings = s₀.broker.settings) (hreading : Reading M s₀ conn f₀ t)
    (hidle : t.io = .idle) (hsee : served M s a t = some (conn, body))
    (hresponses : t.log.responses = s₀.log.responses ++ [(conn, body)]) :
    ∃ bs T, run (step M hash) S bs = some T ∧
      observed (step M hash) readReply S bs = (served M s a t).toList ∧
      Tracks M id conns S₀ t T := by
  obtain ⟨r, body', hpops, hbody, -, -, hresponses'⟩ := hreading.of_idle hidle
  have heq : body' = body := by
    rw [hresponses] at hresponses'
    have hlast := List.append_cancel_left hresponses'
    simp only [List.cons.injEq, Prod.mk.injEq, true_and, and_true] at hlast
    exact hlast.symm
  subst heq
  obtain ⟨os, hos⟩ := ReadSession.exists_doRead_of_popped (M := M) hstart hpops
  obtain ⟨T, hT, hreply, ⟨b, hhostsT, hb⟩, hframeT⟩ :=
    @Hosts.read M hash id conns S s₀.broker conn hhosts hconn hconnected os _ body' hos hbody
  obtain ⟨U, hU, hhostsU, hframeU⟩ :=
    @Hosts.work M hash id conns T b t.broker hhostsT (hsettings.trans hb.symm)
  refine ⟨[.packet conn (some readPacket) none os,
    .work id t.broker (T.processors id).writeBroker], U, ?_, ?_, ?_⟩
  · rw [run_cons, hT, Option.bind_some, run_cons, hU]
    rfl
  · rw [observed_cons hT, observed_cons hU, hreply, hsee]
    rfl
  · exact .idle (fun id' hne => (hframeU id' hne).trans ((hframeT id' hne).trans (hframe id' hne)))
      hhostsU hplaced hidle

/-- A step of an idle session. -/
theorem Tracks.step_of_idle (hframe : ∀ id' ≠ id, S.processors id' = S₀.processors id')
    (hhosts : Hosts id conns S s.broker) (hplaced : Placed s) (hio : s.io = .idle) {c : Nat}
    (hc : conns c) (hserves : Serves M seconds conns s a)
    (hstep : ReadSession.step M seconds s a = some t) :
    ∃ bs T, run (step M hash) S bs = some T ∧
      observed (step M hash) readReply S bs = (served M s a t).toList ∧
      Tracks M id conns S₀ t T := by
  obtain ⟨hterm, hpop, hread, hlive⟩ := hserves
  have hplacedT := hplaced.step hstep
  have hsee : served M s a t = none := ReadSession.served_eq_none (by simp [hio])
  cases ReadSession.step_effect hstep with
  | reader _ hreader =>
      refine exists_work hframe hhosts hplacedT ?_ hreader.settings hsee
      rcases hreader.io with heq | heq | heq <;> rw [heq, hio] <;> rfl
  | io _ hiostep => cases hiostep <;> simp_all
  | readerExpire docs hr hseconds => exact exists_no_event (.idle hframe hhosts hplacedT hio) hsee
  | readerWake docs hr => exact exists_no_event (.idle hframe hhosts hplacedT hio) hsee
  | insert d hd => exact exists_no_event (.idle hframe hhosts hplacedT hio) hsee
  | ioExpire k hio' hseconds => simp_all
  | popWake k hio' => simp_all
  | queryWake k hio' => simp_all
  | read conn hio' =>
      obtain ⟨f₀, hstart, hconnected, hbroker, hbusy, hreading⟩ :=
        ReadSession.reading_start hstep (hlive _ hstep)
      refine exists_no_event (.busy s conn f₀ hframe hhosts hplacedT hbusy (hread conn rfl)
        hconnected hstart ?_ hreading) hsee
      rw [hbroker]
  | pop n hio' => exact absurd rfl (hpop n)
  | term hio' => exact absurd rfl hterm
  | rewind hio' =>
      obtain ⟨T, hT, hreply, hhostsT, hframeT⟩ := @Hosts.rewind M hash id conns S s.broker c hhosts hc
      have hbroker : s.rewind.broker = if s.broker.connected then s.broker.rewind else s.broker := by
        unfold State.rewind
        split_ifs <;> rfl
      have hidle : s.rewind.io = .idle := by
        unfold State.rewind
        split_ifs <;> exact hio
      rw [← hbroker] at hhostsT
      refine ⟨[.packet c (some rewindPacket) none []], T, ?_, ?_, ?_⟩
      · rw [run_cons, hT]
        rfl
      · rw [observed_cons hT, hreply, hsee]
        rfl
      · exact .idle (fun id' hne => (hframeT id' hne).trans (hframe id' hne)) hhostsT hplacedT hidle

/-- **A step of the session is matched** by events of the server that send the same answers. -/
theorem Tracks.step (h : Tracks M id conns S₀ s S) {c : Nat} (hc : conns c)
    (hserves : Serves M seconds conns s a) (hstep : ReadSession.step M seconds s a = some t) :
    ∃ bs T, run (step M hash) S bs = some T ∧
      observed (step M hash) readReply S bs = (served M s a t).toList ∧
      Tracks M id conns S₀ t T := by
  cases h with
  | idle hframe hhosts hplaced hio =>
      exact step_of_idle hframe hhosts hplaced hio hc hserves hstep
  | busy s₀ conn f₀ hframe hhosts hplaced hio hconn hconnected hstart hsettings hreading =>
      obtain ⟨hterm, hpop, hread, hlive⟩ := hserves
      have ha : a.serves := by
        cases a with
        | read n =>
            cases ReadSession.step_effect hstep with
            | read conn hio' => exact absurd hio' hio
        | pop n => exact absurd rfl (hpop n)
        | term => exact absurd rfl hterm
        | rewind =>
            cases ReadSession.step_effect hstep with
            | rewind hio' => exact absurd hio' hio
        | _ => exact ⟨rfl, by simp⟩
      have hfault : t.fault = none := hlive t hstep
      have hplacedT := hplaced.step hstep
      have hsettingsT : t.broker.settings = s₀.broker.settings :=
        (ReadSession.settings_of_kind hstep hterm hreading.kind).trans hsettings
      have hreadingT := hreading.step hplaced hsettings hstep hfault ha.1 ha.2
      rcases ReadSession.seen_of_reading hreading hio hplaced hsettings hstep hfault ha with
        ⟨hbusy, hsee⟩ | ⟨hidle, body, hsee, hresponses⟩
      · exact exists_no_event (.busy s₀ conn f₀ hframe hhosts hplacedT hbusy hconn hconnected hstart
          hsettingsT hreadingT) hsee
      · exact exists_read hframe hhosts hplacedT hconn hconnected hstart hsettingsT hreadingT hidle
          hsee hresponses

/-- A run of a session that does not end in an exception serves all along. -/
theorem guarded_serves {as : List ReadSession.Action}
    (hrun : run (ReadSession.step M seconds) s as = some t) (hfault : t.fault = none)
    (hterm : .term ∉ as) (hpop : ∀ n, .pop n ∉ as) (hread : ∀ c, .read c ∈ as → conns c) :
    Guarded (ReadSession.step M seconds) (Serves M seconds conns) s as := by
  induction as generalizing s with
  | nil => trivial
  | cons a as ih =>
      obtain ⟨u, hu, hrest⟩ := (run_cons_eq_some _).mp hrun
      simp only [List.mem_cons, not_or] at hterm hpop
      have hlive : u.fault = none := by
        cases as with
        | nil =>
            cases hrest
            exact hfault
        | cons a' as =>
            obtain ⟨v, hv, -⟩ := (run_cons_eq_some _).mp hrest
            exact ReadSession.fault_of_step hv
      have hhere : Serves M seconds conns s a := by
        refine ⟨Ne.symm hterm.1, fun n => Ne.symm (hpop n).1, ?_, ?_⟩
        · rintro c rfl
          exact hread c List.mem_cons_self
        · intro v hv
          rw [hu] at hv
          cases hv
          exact hlive
      refine (guarded_cons_of_step _ _ hu).mpr ⟨hhere, ?_⟩
      exact ih hrest hterm.2 (fun n => (hpop n).2) fun c hc => hread c (List.mem_cons_of_mem a hc)

end simulation

/-- **The server simulates its read sessions.** Take a read session from its open on, with any
interleaving of the read thread and of the READ and REWIND requests, up to a state between two
requests, and a server that holds the session for the connections that send them. The server has a
run, of READ and REWIND requests that it executes in one step each and of uses of the brokers, that
sends the same answers to the same connections in the same order, leaves the read broker as the
session does, and touches no other processor. -/
theorem exists_server_run_of_session (M : Mongo) (hash : BSONObj → String) (seconds : Nat)
    (coll : List Document) (connect : String → Option String) (options : BSONObj) (b : Broker)
    (hopen : Broker.new.openOn connect (some options) = (b, none)) (as : List ReadSession.Action)
    (t : State) (hrun : run (ReadSession.step M seconds) (State.opened coll b) as = some t)
    (hfault : t.fault = none) (hidle : t.io = .idle) (hterm : .term ∉ as)
    (hpop : ∀ n, .pop n ∉ as) (id : String) (conns : Nat → Prop)
    (hread : ∀ c, .read c ∈ as → conns c) (c : Nat) (hc : conns c) (S : Server)
    (hhosts : Hosts id conns S b) :
    ∃ bs T, run (step M hash) S bs = some T ∧ Hosts id conns T t.broker ∧
      observed (step M hash) readReply S bs =
        observed (ReadSession.step M seconds) (served M) (State.opened coll b) as ∧
      ∀ id' ≠ id, T.processors id' = S.processors id' := by
  have hstart : Tracks M id conns S (State.opened coll b) S :=
    .idle (fun _ _ => rfl) hhosts (ReadSession.placed_opened hopen coll) rfl
  obtain ⟨bs, T, hT, hsee, htracks⟩ := exists_simulating_run
    (fun s a s' S' hR hC hst => hR.step hc hC hst) hstart
    (guarded_serves hrun hfault hterm hpop hread) hrun
  refine ⟨bs, T, hT, ?_, hsee, ?_⟩
  · cases htracks with
    | idle hframe hhosts hplaced hio => exact hhosts
    | busy s₀ conn f₀ hframe hhosts hplaced hio => exact absurd hidle hio
  · cases htracks with
    | idle hframe => exact hframe
    | busy s₀ conn f₀ hframe => exact hframe

/-- The body of an OPEN for reading. -/
def sampleBody : BSONObj := (parseRequest (sampleRequest 100)).2.2

/-- The session that it opens on a collection of one document. -/
def sampleSession (d : Document) : State :=
  State.opened [d] (Broker.new.openOn (fun _ => none) (some sampleBody)).1

/-- A server after this OPEN. -/
def sampleHost : Option Server :=
  run (step Mongo.plain sampleHash) start [.accept, .packet 0 (some (sampleRequest 100)) none []]

/-- The first page is read, a READ takes it while the read thread turns round, and a REWIND comes. -/
def sampleServing : List ReadSession.Action :=
  ReadSession.fillQueue ++ [.read 0, .reader, .io, .reader, .io, .reader, .rewind]

/-- A session with one READ, and the server that holds it. -/
theorem exists_server_run_of_session_sample : ∃ S t bs T,
    sampleHost = some S ∧
      run (ReadSession.step Mongo.plain 0) (sampleSession (sampleDocument 1)) sampleServing = some t ∧
      run (step Mongo.plain sampleHash) S bs = some T ∧
      Hosts (sampleHash []) (fun c => c = 0) T t.broker ∧
      observed (step Mongo.plain sampleHash) readReply S bs =
        observed (ReadSession.step Mongo.plain 0) (served Mongo.plain)
          (sampleSession (sampleDocument 1)) sampleServing := by
  obtain ⟨S, hS, hfault, hbroker, hconn⟩ : ∃ S, sampleHost = some S ∧ S.fault = none ∧
      (S.processors (sampleHash [])).readBroker =
        (Broker.new.openOn (fun _ => none) (some sampleBody)).1 ∧
      ∃ conn, S.reader 0 = some conn ∧ conn.processor = some (sampleHash []) :=
    ⟨_, rfl, rfl, by decide +kernel, _, rfl, rfl⟩
  have hhosts : Hosts (sampleHash []) (fun c => c = 0) S
      (Broker.new.openOn (fun _ => none) (some sampleBody)).1 := by
    refine ⟨hfault, hbroker, ?_⟩
    rintro c rfl
    exact hconn
  obtain ⟨t, ht, hend⟩ := (Option.any_eq_true _ _).mp
    (show (run (ReadSession.step Mongo.plain 0) (sampleSession (sampleDocument 1)) sampleServing).any
        (fun t => decide (t.fault = none ∧ t.io = .idle)) = true by decide +kernel)
  obtain ⟨hlive, hidle⟩ := of_decide_eq_true hend
  obtain ⟨bs, T, hT, hhostsT, hsee, -⟩ := exists_server_run_of_session Mongo.plain sampleHash 0
    [sampleDocument 1] (fun _ => none) sampleBody _ (Prod.ext rfl (by decide +kernel)) sampleServing
    t ht hlive hidle (by decide) (fun n hn => by simp [sampleServing, ReadSession.fillQueue] at hn)
    (sampleHash []) (fun c => c = 0)
    (fun c hc => by simpa [sampleServing, ReadSession.fillQueue] using hc) 0 rfl S hhosts
  exact ⟨S, t, bs, T, hS, ht, hT, hhostsT, hsee⟩

end Zbroker.Server
