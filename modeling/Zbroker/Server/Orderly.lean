import Zbroker.Server.Answer
import Zbroker.Server.Lifetime

/-!
# Clients that keep to the protocol

An exception that leaves a handler ends the program, and with it the sessions of all clients. Whether
one does is decided by the state of a processor that many connections share. A client knows only what
it has sent itself.

* `Orderly M as s a` — the client keeps to the protocol: an OPEN with options that `init` accepts comes
  first, READ and REWIND in a session for reading, WRITE in one for writing whose queue has a capacity,
  CLOSE once; and a connection that has sent CLOSE does not go while others are open on its processor.
* **`Sharing.served`** — with exact counts, the broker that a session is for is connected.
* **`fault_eq_none_of_orderly`**: whatever the order of the requests of any number of such clients, no
  exception leaves a handler, and each request whose call returns is answered by one packet.

The events of a run are handlers that have returned. A READ that waits on `m_con_query` for good, or
without a deadline in a pop, is no event, and that `term` returns to a CLOSE is assumed. The proof goes
by what the sharing of the sessions says of a connection: its session is served by a broker configured
from its own OPEN body, so what its client knows of that body holds of the broker.
-/

namespace Zbroker.Server

open Found.Transition

/-! ## The protocol -/

/-- Options that an OPEN can use: a purpose there is, what `init` asks for, and a port that fits. -/
def Usable (body : BSONObj) : Prop :=
  (BSON.getIntField body "purpose" = 1 ∨ BSON.getIntField body "purpose" = 2) ∧
    Broker.Complete body ∧ Broker.PortFits (BSON.getIntField body "port")

/-- The body of its OPEN has the purpose. -/
def OpenedFor (c : Nat) (as : List Action) (purpose : Int) : Prop :=
  ∃ body, openBody c as = some body ∧ BSON.getIntField body "purpose" = purpose

/-- The size of its batches is not zero. -/
def Limited (c : Nat) (as : List Action) : Prop :=
  ∀ body, openBody c as = some body →
    toSizeT (Broker.settleLimit (BSON.getIntField (BSON.getObjectField body "parameters") "limit")) ≠ 0

/-- Its queue has a capacity. -/
def Roomy (c : Nat) (as : List Action) : Prop :=
  ∀ body, openBody c as = some body → 1 ≤ toSizeT (Broker.settleQueueSize
    (Broker.settleLimit (BSON.getIntField (BSON.getObjectField body "parameters") "limit"))
    (BSON.getIntField (BSON.getObjectField body "parameters") "queue_size"))

/-- A request that is sent as the protocol has it; `as` is what happened before. -/
def OrderlyRequest (M : Mongo) (as : List Action) (s : Server) (c : Nat) (conn : Connection)
    (body : BSONObj) (os : List PopOutcome) : Command → Prop
  | .openCmd => conn.processorOpened = true ∨ Usable body
  | .closeCmd => conn.session ≠ none
  | .readCmd => conn.session ≠ none ∧ OpenedFor c as 1 ∧ Limited c as ∧
      ∀ id, conn.session = some id → collected (s.processors id).readBroker os = [] ∨
        PiecesFit M (collected (s.processors id).readBroker os)
  | .writeCmd => conn.session ≠ none ∧ OpenedFor c as 2 ∧ Roomy c as ∧
      BSON.vals (BSON.getObjectField body "docs") ≠ none
  | .rewindCmd => conn.session ≠ none ∧ OpenedFor c as 1
  | .unknown _ => False

/-- What the clients keep to; `as` is what happened before. MongoDB can be reached, and no packet
breaks off. -/
def Orderly (M : Mongo) (as : List Action) (s : Server) : Action → Prop
  | .accept | .work _ _ _ => True
  | .packet c (some cmdObj) errmsg os => errmsg = none ∧ ∀ conn, s.reader c = some conn →
      OrderlyRequest M as s c conn (parseRequest cmdObj).2.2 os (parseRequest cmdObj).2.1
  | .packet _ none _ _ | .cut _ => False
  | .disconnect c => NoSecondClose s (.disconnect c)

/-- Every event of the schedule is orderly where it happens. -/
def OrderlyRun (M : Mongo) (hash : BSONObj → String) (as : List Action) : Prop :=
  ∀ bs a, bs ++ [a] <+: as → ∀ s, run (step M hash) start bs = some s → Orderly M bs s a

/-- Nothing has happened. -/
theorem orderlyRun_nil (M : Mongo) (hash : BSONObj → String) : OrderlyRun M hash [] := by
  intro bs a h
  simp at h

/-- One event more. -/
theorem orderlyRun_concat {M : Mongo} {hash : BSONObj → String} {as : List Action} {a : Action} :
    OrderlyRun M hash (as ++ [a]) ↔ OrderlyRun M hash as ∧
      ∀ s, run (step M hash) start as = some s → Orderly M as s a := by
  constructor
  · intro h
    exact ⟨fun bs b hb => h bs b (hb.trans (List.prefix_append as [a])),
      h as a (List.prefix_refl _)⟩
  · rintro ⟨has, ha⟩ bs b hb
    rcases List.prefix_concat_iff.mp hb with heq | hbefore
    · obtain ⟨rfl, hlast⟩ := List.append_inj' heq rfl
      cases hlast
      exact ha
    · exact has bs b hbefore

section orderly

variable {M : Mongo} {hash : BSONObj → String} {as : List Action} {s t : Server} {a : Action}
  {c : Nat} {conn : Connection} {id : String}

/-! ## Sessions are served -/

/-- An in-session connection counts. -/
theorem connected_of_session (hheld : Held s) (hexact : RefcountsExact s)
    (hconn : s.connections[c]? = some conn) (hsession : conn.session = some id) :
    (s.processors id).readBroker.connected = true ∨
      (s.processors id).writeBroker.connected = true := by
  rw [← (hheld.manned id).counted, hexact.refcount]
  exact List.countP_pos_iff.mpr ⟨conn, List.mem_of_getElem? hconn, by simpa using hsession⟩

/-- **A session is served** by a broker that is connected, which is the one for its purpose, and
configured from its body. -/
theorem Sharing.served (h : Sharing hash as s)
    (hinj : Set.InjOn hash {body | ∃ c, openBody c as = some body}) (hheld : Held s)
    (hexact : RefcountsExact s) (hconn : s.connections[c]? = some conn)
    (hsession : conn.session = some id) {purpose : Int} (hopened : OpenedFor c as purpose) :
    (purpose = 1 → (s.processors id).readBroker.connected = true ∧
        ∃ body, openBody c as = some body ∧ (s.processors id).readBroker.ConfiguredFrom body) ∧
      (purpose = 2 → (s.processors id).writeBroker.connected = true ∧
        ∃ body, openBody c as = some body ∧ (s.processors id).writeBroker.ConfiguredFrom body) := by
  have hmem := List.mem_of_getElem? hconn
  obtain ⟨body, hbody, hpurpose⟩ := hopened
  obtain ⟨body', hbody', hhash⟩ :=
    h.processor c conn id hconn (h.consistent.session conn hmem id hsession)
  obtain rfl : body = body' := Option.some.inj (hbody.symm.trans hbody')
  have hdedicated := h.dedicated hinj id
  -- a broker of this processor is configured from the body of this connection
  have hsame : ∀ d body', openBody d as = some body' → hash body' = id → body' = body :=
    fun d body' hd hid => hinj ⟨d, hd⟩ ⟨c, hbody⟩ (hid.trans hhash.symm)
  rcases connected_of_session hheld hexact hconn hsession with hread | hwrite
  · obtain ⟨-, d, body', hd, hid, hone, hfrom⟩ := hdedicated.read hread
    obtain rfl := hsame d body' hd hid
    rw [hpurpose] at hone
    refine ⟨fun _ => ⟨hread, body', hbody, hfrom⟩, fun htwo => ?_⟩
    rw [hone] at htwo
    cases htwo
  · obtain ⟨-, d, body', hd, hid, htwo, hfrom⟩ := hdedicated.write hwrite
    obtain rfl := hsame d body' hd hid
    rw [hpurpose] at htwo
    refine ⟨fun hone => ?_, fun _ => ⟨hwrite, body', hbody, hfrom⟩⟩
    rw [htwo] at hone
    cases hone

/-- A usable body opens its broker, whoever has used the processor before. -/
theorem Sharing.opens (h : Sharing hash as s) {body : BSONObj} (husable : Usable body) (id : String) :
    BSON.getIntField body "purpose" = 1 ∧ ((s.processors id).readBroker.connected = true ∨
        (s.processors id).readBroker.Opens body) ∨
      BSON.getIntField body "purpose" = 2 ∧ ((s.processors id).writeBroker.connected = true ∨
        (s.processors id).writeBroker.Opens body) := by
  obtain ⟨hpurpose, hcomplete, hport⟩ := husable
  have hopens : ∀ b : Broker, b.inited = b.connected → b.connected = true ∨ b.Opens body := by
    intro b hinited
    rcases hconnected : b.connected with _ | _
    · right
      rw [Broker.Opens, hinited, hconnected, if_neg Bool.false_ne_true]
      exact ⟨hcomplete, hport⟩
    · exact Or.inl rfl
  rcases hpurpose with hone | htwo
  · exact Or.inl ⟨hone, hopens _ (h.read id).inited⟩
  · exact Or.inr ⟨htwo, hopens _ (h.write id).inited⟩

/-- **An orderly request can be answered**, if it is no READ that does not return. -/
theorem Sharing.answerable (h : Sharing hash as s)
    (hinj : Set.InjOn hash {body | ∃ c, openBody c as = some body}) (hheld : Held s)
    (hexact : RefcountsExact s) (hconn : s.connections[c]? = some conn) {body : BSONObj}
    {os : List PopOutcome} {cmd : Command} (horderly : OrderlyRequest M as s c conn body os cmd)
    (hreturns : cmd = .readCmd → ∀ id, conn.processor = some id →
      (s.processors id).readBroker.connected = true →
        (doRead M (s.processors id).readBroker os).isSome) :
    Answerable M hash s conn body os cmd := by
  have hmem := List.mem_of_getElem? hconn
  have hprocessor : ∀ id, conn.session = some id → conn.processor = some id :=
    h.consistent.session conn hmem
  cases cmd with
  | openCmd => exact horderly.imp_right fun husable => h.opens husable _
  | closeCmd =>
      obtain ⟨id, hid⟩ := Option.ne_none_iff_exists'.mp horderly
      exact ⟨id, hprocessor id hid, connected_of_session hheld hexact hconn hid⟩
  | readCmd =>
      obtain ⟨hsession, hopened, hlimited, hfits⟩ := horderly
      obtain ⟨id, hid⟩ := Option.ne_none_iff_exists'.mp hsession
      obtain ⟨hconnected, body', hbody', hfrom⟩ :=
        (h.served hinj hheld hexact hconn hid hopened).1 rfl
      refine ⟨id, hprocessor id hid, hconnected, ?_, hreturns rfl id (hprocessor id hid) hconnected,
        hfits id hid⟩
      rw [hfrom.limit]
      exact hlimited body' hbody'
  | writeCmd =>
      obtain ⟨hsession, hopened, hroomy, hdocs⟩ := horderly
      obtain ⟨id, hid⟩ := Option.ne_none_iff_exists'.mp hsession
      obtain ⟨docs, hdocs⟩ := Option.ne_none_iff_exists'.mp hdocs
      obtain ⟨hconnected, body', hbody', hfrom⟩ :=
        (h.served hinj hheld hexact hconn hid hopened).2 rfl
      refine ⟨id, hprocessor id hid, hconnected, docs, hdocs, Or.inr ?_⟩
      rw [hfrom.room, hfrom.queueSize, hfrom.limit]
      exact hroomy body' hbody'
  | rewindCmd =>
      obtain ⟨hsession, hopened⟩ := horderly
      obtain ⟨id, hid⟩ := Option.ne_none_iff_exists'.mp hsession
      exact ⟨id, hprocessor id hid, ((h.served hinj hheld hexact hconn hid hopened).1 rfl).1⟩
  | unknown n => exact horderly

/-! ## No exception -/

/-- An orderly event is no second close. -/
theorem noSecondClose_of_orderly (horderly : Orderly M as s a) : NoSecondClose s a := by
  rcases a with _ | ⟨c, _ | cmdObj, errmsg, os⟩ | c | c | ⟨id, read, write⟩
  · exact noSecondClose_of_closing rfl
  · exact horderly.elim
  · intro r hr hsession
    simp only [closing] at hr
    split_ifs at hr with hcmd
    obtain ⟨conn, hreader, hmap⟩ := Option.bind_eq_some_iff.mp hr
    obtain ⟨id, -, rfl⟩ := Option.map_eq_some_iff.mp hmap
    have hrequest := horderly.2 conn hreader
    rw [hcmd] at hrequest
    exact absurd hsession hrequest
  · exact horderly
  · exact noSecondClose_of_closing rfl
  · exact noSecondClose_of_closing rfl

/-- A READ that is an event has returned. -/
theorem isSome_doRead_of_process {cmdObj : BSONObj} {errmsg : Option String} {os : List PopOutcome}
    (h : s.process M hash c conn cmdObj errmsg os = some t)
    (hcmd : (parseRequest cmdObj).2.1 = .readCmd) (hid : conn.processor = some id)
    (hconnected : (s.processors id).readBroker.connected = true) :
    (doRead M (s.processors id).readBroker os).isSome := by
  have hvalid : (parseRequest cmdObj).1 = true := parseRequest_of_ne_unknown (by simp [hcmd])
  simp only [process, hid, Option.getD_some, Option.isSome_some, if_true, hcmd, reduceCtorEq, if_false,
    processRequest, hvalid, readRequest, hconnected] at h
  obtain ⟨r, hr, -⟩ := Option.map_eq_some_iff.mp h
  rw [hr]
  rfl

/-- **An orderly event does not end the program.** -/
theorem Sharing.fault_eq_none (h : Sharing hash as s) (hterse : Terse M)
    (hhash : ∀ body, hash body ≠ "")
    (hinj : Set.InjOn hash {body | ∃ c, openBody c as = some body}) (hheld : Held s)
    (hexact : RefcountsExact s) (horderly : Orderly M as s a)
    (hstep : Server.step M hash s a = some t) : t.fault = none := by
  have hfault := fault_of_step hstep
  rcases a with _ | ⟨c, _ | cmdObj, errmsg, os⟩ | c | c | ⟨id, read, write⟩
  · simp only [Server.step, hfault, Option.isSome_none, Bool.false_eq_true, if_false] at hstep
    cases hstep
    rfl
  · exact horderly.elim
  · obtain ⟨rfl, hrequest⟩ := horderly
    simp only [Server.step, hfault, Option.isSome_none, Bool.false_eq_true, if_false] at hstep
    obtain ⟨conn, hreader, hprocess⟩ := Option.bind_eq_some_iff.mp hstep
    have hconn := getElem_of_reader hreader
    obtain ⟨t', ht', hanswered⟩ := (answeredOnce_process_iff hterse hhash hfault hconn cmdObj os).mpr
      (h.answerable hinj hheld hexact hconn (hrequest conn hreader)
        fun hcmd _ => isSome_doRead_of_process hprocess hcmd)
    obtain rfl : t = t' := Option.some.inj (hprocess.symm.trans ht')
    by_contra hended
    exact not_answeredOnce_of_fault hended hanswered
  · obtain ⟨conn, -, rfl⟩ := eq_disconnect_of_step hstep
    unfold Server.disconnect
    split
    · rw [fault_close, hfault]
    · exact hfault
  · exact horderly.elim
  · simp only [Server.step, hfault, Option.isSome_none, Bool.false_eq_true, if_false, work] at hstep
    split_ifs at hstep
    cases hstep
    rfl

end orderly

/-- **Orderly clients.** Let no two OPEN bodies have the same hash. In every run of the server in which
MongoDB can be reached and the clients of all connections keep to the protocol, in whatever order their
requests come and whichever sessions they share: no exception leaves a handler, every count is exact,
and a request whose call returns is answered by one packet. -/
theorem fault_eq_none_of_orderly (M : Mongo) (hterse : Terse M) (hash : BSONObj → String)
    (hhash : ∀ body, hash body ≠ "") (as : List Action) (t : Server)
    (hrun : run (step M hash) start as = some t)
    (hinj : Set.InjOn hash {body | ∃ c, openBody c as = some body})
    (horderly : OrderlyRun M hash as) :
    t.fault = none ∧ RefcountsExact t ∧
      ∀ bs c cmdObj errmsg os, as = bs ++ [.packet c cmdObj errmsg os] →
        ∃ reply, t.sent c = [reply] := by
  have hexact : RefcountsExact start := by
    refine ⟨fun id => rfl, ?_⟩
    intro r hr
    cases hr
  have hsafe : t.fault = none ∧ RefcountsExact t := by
    refine @run_history_invariant _ _ (step M hash)
      (fun as t => Set.InjOn hash {body | ∃ c, openBody c as = some body} → OrderlyRun M hash as →
        t.fault = none ∧ RefcountsExact t) start ?_ (fun _ _ => ⟨rfl, hexact⟩) t as hrun hinj horderly
    intro as s a t hrun hs hstep hinj horderly
    obtain ⟨hbefore, ha⟩ := orderlyRun_concat.mp horderly
    have hinj' : Set.InjOn hash {body | ∃ c, openBody c as = some body} := by
      refine hinj.mono ?_
      rintro body ⟨c, hc⟩
      exact ⟨c, openBody_concat_of_eq_some hc a⟩
    obtain ⟨hfault, hexact⟩ := hs hinj' hbefore
    have hsharing : Sharing hash as s := sharing_run hrun hfault
    have hheld : Held s := run_invariant_of_step (fun _ _ _ hs hst => hs.step hst) held_start hrun
    exact ⟨hsharing.fault_eq_none hterse hhash hinj' hheld hexact (ha s hrun) hstep,
      (refcountsExact_step_iff hsharing.consistent hexact hstep).mpr
        (noSecondClose_of_orderly (ha s hrun))⟩
  refine ⟨hsafe.1, hsafe.2, ?_⟩
  rintro bs c cmdObj errmsg os rfl
  obtain ⟨s, -, hstep⟩ := run_concat_eq_some.mp hrun
  exact exists_sent_of_step hstep hsafe.1

/-- Two connections share a session; one closes it, and the other one rewinds it and goes. -/
def sampleOrderly : List Action :=
  [] ++ [.accept] ++ [.accept] ++ [.packet 0 (some (sampleRequest 100)) none []] ++
    [.packet 1 (some (sampleRequest 100)) none []] ++
    [.packet 0 (some (sampleRequest 101)) none []] ++
    [.packet 1 (some (sampleRequest 106)) none []] ++ [.disconnect 1]

/-- The sample options can be used. -/
theorem usable_sampleRequest : Usable (parseRequest (sampleRequest 100)).2.2 := by
  unfold Usable
  decide

/-- What the connection `c` is like after a schedule can be computed. -/
theorem forall_reader {as : List Action} {c : Nat} {P : Connection → Bool}
    (h : ((run (step Mongo.plain sampleHash) start as).all fun s => (s.reader c).all P) = true)
    (s : Server) (hs : run (step Mongo.plain sampleHash) start as = some s) (conn : Connection)
    (hconn : s.reader c = some conn) : P conn = true := by
  rw [hs, Option.all_some, hconn, Option.all_some] at h
  exact h

/-- The sample keeps to the protocol. -/
theorem orderlyRun_sample : OrderlyRun Mongo.plain sampleHash sampleOrderly := by
  simp only [sampleOrderly, orderlyRun_concat]
  refine ⟨⟨⟨⟨⟨⟨⟨orderlyRun_nil _ _, fun _ _ => trivial⟩, fun _ _ => trivial⟩, ?_⟩, ?_⟩, ?_⟩, ?_⟩, ?_⟩
  · exact fun s hs => ⟨rfl, fun conn hconn => Or.inr usable_sampleRequest⟩
  · exact fun s hs => ⟨rfl, fun conn hconn => Or.inr usable_sampleRequest⟩
  · refine fun s hs => ⟨rfl, fun conn hconn => ?_⟩
    exact Option.isSome_iff_ne_none.mp (@forall_reader _ _ (fun conn => conn.session.isSome)
      (by decide +kernel) s hs conn hconn)
  · refine fun s hs => ⟨rfl, fun conn hconn => ⟨?_, _, rfl, rfl⟩⟩
    exact Option.isSome_iff_ne_none.mp (@forall_reader _ _ (fun conn => conn.session.isSome)
      (by decide +kernel) s hs conn hconn)
  · intro s hs r hr hnone
    simp only [closing] at hr
    obtain ⟨conn, hconn, hmap⟩ := Option.bind_eq_some_iff.mp hr
    obtain ⟨id, -, rfl⟩ := Option.map_eq_some_iff.mp hmap
    have hsome := @forall_reader _ _ (fun conn => conn.session.isSome) (by decide +kernel) s hs conn
      hconn
    rw [hnone] at hsome
    cases hsome

/-- An orderly session, from its OPEN to its CLOSE. -/
theorem fault_eq_none_of_orderly_sample : ∃ t,
    run (step Mongo.plain sampleHash) start sampleOrderly = some t ∧ t.fault = none ∧
      (t.processors (sampleHash [])).refcount = 0 := by
  obtain ⟨t, ht⟩ := Option.isSome_iff_exists.mp
    (show (run (step Mongo.plain sampleHash) start sampleOrderly).isSome = true by decide +kernel)
  have hinj : Set.InjOn sampleHash {body | ∃ c, openBody c sampleOrderly = some body} := by
    have hbody : ∀ c body, openBody c sampleOrderly = some body →
        body = (parseRequest (sampleRequest 100)).2.2 := by
      intro c body h
      obtain ⟨a, hmem, ha⟩ := List.exists_of_findSome?_eq_some h
      simp only [sampleOrderly, List.nil_append, List.cons_append, List.mem_cons,
        List.not_mem_nil, or_false] at hmem
      rcases hmem with rfl | rfl | rfl | rfl | rfl | rfl | rfl
      case inl => cases ha
      case inr.inl => cases ha
      case inr.inr.inr.inr.inr.inr => cases ha
      all_goals
        simp only [Action.openBody] at ha
        split_ifs at ha with hopen
      · exact (Option.some.inj ha).symm
      · exact (Option.some.inj ha).symm
      · exact absurd hopen.2 (by decide)
      · exact absurd hopen.2 (by decide)
    rintro body ⟨c, hc⟩ body' ⟨d, hd⟩ -
    rw [hbody c body hc, hbody d body' hd]
  obtain ⟨hfault, hexact, -⟩ := fault_eq_none_of_orderly Mongo.plain terse_plain sampleHash
    (fun _ => by simp [sampleHash]) sampleOrderly t ht hinj orderlyRun_sample
  refine ⟨t, ht, hfault, ?_⟩
  rw [hexact.refcount]
  have hcount : ((run (step Mongo.plain sampleHash) start sampleOrderly).all
      fun s => s.openCount (sampleHash []) = 0) = true := by decide +kernel
  rw [ht] at hcount
  simpa using hcount

end Zbroker.Server
