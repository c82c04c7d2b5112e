import Zbroker.Found.Transition
import Zbroker.Server.Connections

/-!
# Reference counting

A CLOSE leaves `m_processor` in place, so a connection can close its processor again, with a
second CLOSE or by disconnecting.

* `Consistent s` — a client is open on the processor of its connection, and a connection has a
  processor only after its OPEN.
* `Effect s a t`, **`step_effect`** — what an event does to counts and sessions.
* `RefcountsExact s` — every count is the number of connections open on the processor, and
  `term` only ran when there were none.
* **`refcountsExact_iff`**: a run keeps that exactly when no connection closes a processor for a
  second time while another one is open on it.
`refcountsExact_step_iff` compares, for each event, the count with the number of the connections that are
open; a second close lowers the first alone.
-/

namespace Zbroker.Server

open Found.Transition

/-- A client is open on the processor of its connection, and a connection has a processor only
after its OPEN. -/
structure Consistent (s : Server) : Prop where
  session : ∀ conn ∈ s.connections, ∀ id, conn.session = some id → conn.processor = some id
  opened : ∀ conn ∈ s.connections, conn.processor ≠ none → conn.processorOpened = true

/-- What an event does to counts and sessions: nothing, an open, or a close. -/
inductive Effect (s : Server) (a : Action) (t : Server) : Prop
  | quiet (hclosing : s.closing a = none)
      (hrefcount : ∀ id, (t.processors id).refcount = (s.processors id).refcount)
      (hopen : ∀ id, t.openCount id = s.openCount id) (hterminated : t.terminated = s.terminated)
  | opened (id : String) (hclosing : s.closing a = none)
      (hrefcount : ∀ id', (t.processors id').refcount =
        (s.processors id').refcount + if id = id' then 1 else 0)
      (hopen : ∀ id', t.openCount id' = s.openCount id' + if id = id' then 1 else 0)
      (hterminated : t.terminated = s.terminated)
  | closed (id : String) (c : Nat) (conn conn' : Connection)
      (hclosing : s.closing a = some (conn, id)) (hconn : s.connections[c]? = some conn)
      (hprocessor : conn.processor = some id) (ht : t = s.close id c conn')

section sessions

variable {s t : Server} {c : Nat} {conn conn' : Connection}

/-- The sessions counted before and after a connection has changed. -/
theorem openCount_add_of_set (hconn : s.connections[c]? = some conn)
    (ht : t.connections = s.connections.set c conn') (id : String) :
    t.openCount id + (if conn.session = some id then 1 else 0) =
      s.openCount id + if conn'.session = some id then 1 else 0 := by
  obtain ⟨hlt, hget⟩ := List.getElem?_eq_some_iff.mp hconn
  rw [openCount, openCount, ht, List.countP_set hlt, hget]
  by_cases hsession : conn.session = some id
  · have hpos : 0 < s.connections.countP fun conn => conn.session = some id :=
      List.countP_pos_iff.mpr ⟨conn, List.mem_of_getElem? hconn, by simpa using hsession⟩
    simp only [hsession, decide_true, if_true, decide_eq_true_eq]
    omega
  · simp [hsession]

/-- A connection that changes and keeps its session changes no count. -/
theorem openCount_of_set (hconn : s.connections[c]? = some conn)
    (ht : t.connections = s.connections.set c conn') (hsession : conn'.session = conn.session)
    (id : String) : t.openCount id = s.openCount id := by
  have h := openCount_add_of_set hconn ht id
  rw [hsession] at h
  omega

/-- A connection that gets a session counts for its processor. -/
theorem openCount_of_opened (hconn : s.connections[c]? = some conn)
    (ht : t.connections = s.connections.set c conn') (hbefore : conn.session = none)
    {id : String} (hafter : conn'.session = some id) (id' : String) :
    t.openCount id' = s.openCount id' + if id = id' then 1 else 0 := by
  have h := openCount_add_of_set hconn ht id'
  simpa [hbefore, hafter] using h

/-- A change of one connection. -/
theorem Consistent.set (h : Consistent s) (ht : t.connections = s.connections.set c conn')
    (hsession : ∀ id, conn'.session = some id → conn'.processor = some id)
    (hopened : conn'.processor ≠ none → conn'.processorOpened = true) : Consistent t := by
  refine ⟨?_, ?_⟩
  · intro conn hmem id hid
    rw [ht] at hmem
    rcases List.mem_or_eq_of_mem_set hmem with hold | rfl
    · exact h.session conn hold id hid
    · exact hsession id hid
  · intro conn hmem hprocessor
    rw [ht] at hmem
    rcases List.mem_or_eq_of_mem_set hmem with hold | rfl
    · exact h.opened conn hold hprocessor
    · exact hopened hprocessor

end sessions

section effect

variable {s t : Server} {a : Action}

/-- The program ends. -/
theorem Effect.of_fault (h : s.closing a = none) (e : Exn) :
    Effect s a { s with fault := some e } :=
  .quiet h (fun _ => rfl) (fun _ => rfl) rfl

variable {M : Mongo} {c : Nat} {conn conn' : Connection} {id : String}

/-- A request that is executed and answered, and changes neither count nor session. -/
theorem Effect.of_answer (h : s.closing a = none) (hconn : s.connections[c]? = some conn)
    {p : Processor} (hp : p.refcount = (s.processors id).refcount)
    (hsession : conn'.session = conn.session) (body : BSONObj) :
    Effect s a (s.answer id p c conn' body) := by
  refine .quiet h ?_ (openCount_of_set hconn rfl hsession) rfl
  intro id'
  simp only [answer, update, Function.update_apply]
  split_ifs with heq
  · rw [heq, hp]
  · rfl

/-- Only a connection with a processor closes one. -/
theorem closing_packet (hreader : s.reader c = some conn) (cmdObj : BSONObj)
    (errmsg : Option String) (os : List PopOutcome) :
    s.closing (.packet c (some cmdObj) errmsg os) =
      if (parseRequest cmdObj).2.1 = .closeCmd then conn.processor.map fun id => (conn, id)
      else none := by
  rw [closing, hreader]
  rfl

/-- A packet. -/
theorem process_effect (hs : Consistent s) {hash : BSONObj → String} {cmdObj : BSONObj}
    {errmsg : Option String} {os : List PopOutcome} (hreader : s.reader c = some conn)
    (h : s.process M hash c conn cmdObj errmsg os = some t) :
    Effect s (.packet c (some cmdObj) errmsg os) t := by
  have hconn := getElem_of_reader hreader
  have hmem : conn ∈ s.connections := List.mem_of_getElem? hconn
  have hclosing := closing_packet hreader cmdObj errmsg os
  have hnone : (parseRequest cmdObj).2.1 ≠ .closeCmd →
      s.closing (.packet c (some cmdObj) errmsg os) = none := by
    intro hcmd
    rw [hclosing, if_neg hcmd]
  rcases process_cases h with ⟨e, hcmd⟩ | ⟨id, p, extra, hcmd, hid, hopened, hopen⟩ |
    ⟨id, reply, hcmd, -, -⟩ | ⟨id, t, -, hid, hexecuted⟩
  · refine .of_fault ?_ e
    rw [hclosing]
    split_ifs with hclose
    · rw [hcmd hclose]
      rfl
    · rfl
  · have hprocessor : conn.processor = none := by
      by_contra hsome
      rw [hs.opened conn hmem hsome] at hopened
      cases hopened
    have hsession : conn.session = none := by
      rw [Option.eq_none_iff_forall_not_mem]
      intro id' hid'
      have hsome := hs.session conn hmem id' hid'
      rw [hprocessor] at hsome
      cases hsome
    refine .opened id (hnone (by simp [hcmd])) ?_ (openCount_of_opened hconn rfl hsession rfl) rfl
    intro id'
    simp only [answer, update, Function.update_apply]
    by_cases heq : id' = id
    · rw [if_pos heq, if_pos heq.symm, heq, Processor.refcount_openFor hopen]
    · rw [if_neg heq, if_neg (Ne.symm heq), Nat.add_zero]
  · exact .quiet (hnone (by simp [hcmd])) (fun _ => rfl) (openCount_of_set hconn rfl rfl) rfl
  · rcases hexecuted with ⟨e, hcmd⟩ | ⟨body, hcmd⟩ | ⟨p, body, hcmd, hcount, -⟩
    · exact .of_fault (hnone hcmd) e
    · rw [if_pos hcmd, hid] at hclosing
      exact .closed id c conn _ hclosing hconn hid rfl
    · exact .of_answer (hnone hcmd) hconn hcount rfl body

/-- **What an event does** to counts and sessions. -/
theorem step_effect {hash : BSONObj → String} (hs : Consistent s)
    (h : step M hash s a = some t) : Effect s a t := by
  unfold step at h
  split at h
  · cases h
  · rcases a with _ | ⟨c, _ | cmdObj, errmsg, os⟩ | c | c | ⟨id, read, write⟩
    · rw [← Option.some.inj h]
      refine .quiet rfl (fun _ => rfl) ?_ rfl
      intro id
      simp [openCount, Connection.new]
    · obtain ⟨conn, -, rfl⟩ := Option.map_eq_some_iff.mp h
      exact .of_fault rfl _
    · obtain ⟨conn, hreader, hprocess⟩ := Option.bind_eq_some_iff.mp h
      exact process_effect hs hreader hprocess
    · obtain ⟨conn, hreader, rfl⟩ := Option.map_eq_some_iff.mp h
      have hconn := getElem_of_reader hreader
      have hclosing : s.closing (.disconnect c) = conn.processor.map fun id => (conn, id) := by
        rw [closing, hreader]
        rfl
      unfold disconnect
      rcases hprocessor : conn.processor with _ | id
      · rw [hprocessor] at hclosing
        exact .quiet hclosing (fun _ => rfl) (openCount_of_set hconn rfl rfl) rfl
      · rw [hprocessor] at hclosing
        exact .closed id c conn _ hclosing hconn hprocessor rfl
    · obtain ⟨conn, -, rfl⟩ := Option.map_eq_some_iff.mp h
      exact .of_fault rfl _
    · simp only [work] at h
      split_ifs at h
      rw [← Option.some.inj h]
      refine .quiet rfl ?_ (fun _ => rfl) rfl
      intro id'
      simp only [Function.update_apply]
      split_ifs with heq
      · rw [heq]
      · rfl

/-- The counts after a close. -/
theorem refcount_close (s : Server) (id : String) (c : Nat) (conn : Connection) (id' : String) :
    ((s.close id c conn).processors id').refcount =
      (s.processors id').refcount - if id' = id then 1 else 0 := by
  rw [processors_close, Function.update_apply]
  split_ifs with heq
  · rw [Processor.refcount_close, heq]
  · rfl

/-- The runs of `term` after a close. -/
theorem terminated_close (s : Server) (id : String) (c : Nat) (conn : Connection) :
    (s.close id c conn).terminated =
      if (s.processors id).refcount ≤ 1 then
        s.terminated ++ [(id, (s.close id c conn).openCount id)]
      else s.terminated := by
  have hcount : ∀ l : List (String × Nat),
      ({ s.update id (s.processors id).close.1 c { conn with session := none } with
        terminated := l } : Server).openCount id =
      (s.update id (s.processors id).close.1 c { conn with session := none }).openCount id :=
    fun _ => rfl
  unfold close
  dsimp only
  by_cases hlast : (s.processors id).refcount ≤ 1
  · rw [if_pos hlast, if_pos ((Processor.close_ran_term _).mpr hlast), hcount]
    rfl
  · rw [if_neg hlast, if_neg (mt (Processor.close_ran_term _).mp hlast)]
    rfl

/-- A state with the same connections is as consistent. -/
theorem Consistent.of_connections_eq (hs : Consistent s) (h : t.connections = s.connections) :
    Consistent t := by
  refine ⟨?_, ?_⟩
  · intro conn hmem
    rw [h] at hmem
    exact hs.session conn hmem
  · intro conn hmem
    rw [h] at hmem
    exact hs.opened conn hmem

/-- A packet leaves the connections consistent. -/
theorem Consistent.process (hs : Consistent s) {hash : BSONObj → String} {cmdObj : BSONObj}
    {errmsg : Option String} {os : List PopOutcome} (hreader : s.reader c = some conn)
    (h : s.process M hash c conn cmdObj errmsg os = some t) : Consistent t := by
  have hmem : conn ∈ s.connections := List.mem_of_getElem? (getElem_of_reader hreader)
  rcases process_cases h with ⟨e, -⟩ | ⟨id, p, extra, -, -, -, -⟩ | ⟨id, reply, -, hid, hopened⟩ |
    ⟨id, t, -, hid, hexecuted⟩
  · exact hs.of_connections_eq rfl
  · exact hs.set rfl (fun _ h => h) (fun _ => rfl)
  · refine hs.set rfl ?_ (fun _ => hopened)
    intro id' hsession
    rw [hid, hs.session conn hmem id' hsession]
    rfl
  · rcases hexecuted with ⟨e, -⟩ | ⟨body, -⟩ | ⟨p, body, -, -, -⟩
    · exact hs.of_connections_eq rfl
    · refine hs.set (connections_close _ _ _ _) ?_ (fun hsome => hs.opened conn hmem hsome)
      intro id' hsession
      cases hsession
    · exact hs.set rfl (hs.session conn hmem) (hs.opened conn hmem)

/-- Every event leaves the connections consistent. -/
theorem Consistent.step {hash : BSONObj → String} (hs : Consistent s)
    (h : step M hash s a = some t) : Consistent t := by
  unfold Server.step at h
  split at h
  · cases h
  · rcases a with _ | ⟨c, _ | cmdObj, errmsg, os⟩ | c | c | ⟨id, read, write⟩
    · rw [← Option.some.inj h]
      refine ⟨?_, ?_⟩
      · intro conn hmem
        rcases List.mem_append.mp hmem with hold | hnew
        · exact hs.session conn hold
        · rw [List.mem_singleton.mp hnew]
          intro id hid
          cases hid
      · intro conn hmem
        rcases List.mem_append.mp hmem with hold | hnew
        · exact hs.opened conn hold
        · rw [List.mem_singleton.mp hnew]
          exact fun hnone => absurd rfl hnone
    · obtain ⟨conn, -, rfl⟩ := Option.map_eq_some_iff.mp h
      exact hs.of_connections_eq rfl
    · obtain ⟨conn, hreader, hprocess⟩ := Option.bind_eq_some_iff.mp h
      exact hs.process hreader hprocess
    · obtain ⟨conn, hreader, rfl⟩ := Option.map_eq_some_iff.mp h
      have hmem : conn ∈ s.connections := List.mem_of_getElem? (getElem_of_reader hreader)
      unfold disconnect
      split
      · refine hs.set (connections_close _ _ _ _) ?_ (fun hnone => absurd rfl hnone)
        intro id hid
        cases hid
      · exact hs.set rfl (hs.session conn hmem) (hs.opened conn hmem)
    · obtain ⟨conn, -, rfl⟩ := Option.map_eq_some_iff.mp h
      exact hs.of_connections_eq rfl
    · simp only [work] at h
      split_ifs at h
      rw [← Option.some.inj h]
      exact hs.of_connections_eq rfl

end effect

/-! ## The count -/

/-- The count of every processor is the number of connections open on it, and `term` ran only
when there were none. -/
structure RefcountsExact (s : Server) : Prop where
  refcount : ∀ id, (s.processors id).refcount = s.openCount id
  terminated : ∀ r ∈ s.terminated, r.2 = 0

/-- If the event closes a processor for a connection that is no longer open on it, no other
connection is. -/
def NoSecondClose (s : Server) (a : Action) : Prop :=
  ∀ r, s.closing a = some r → r.1.session = none → s.openCount r.2 = 0

instance (s : Server) (a : Action) : Decidable (NoSecondClose s a) :=
  match h : s.closing a with
  | none => isTrue fun r hr => by cases h.symm.trans hr
  | some r =>
      decidable_of_iff (r.1.session = none → s.openCount r.2 = 0)
        ⟨fun hclose r' hr => by cases h.symm.trans hr; exact hclose, fun hall => hall r h⟩

section close

variable {M : Mongo} {hash : BSONObj → String} {s t : Server} {a : Action} {id : String} {c : Nat}
  {conn : Connection}

/-- An event that closes nothing is no second close. -/
theorem noSecondClose_of_closing (h : s.closing a = none) : NoSecondClose s a := by
  intro r hr
  rw [h] at hr
  cases hr

/-- What `term` has met when a close is over, if it was none before. -/
theorem terminated_close_eq_zero (hexact : RefcountsExact s)
    (hzero : s.openCount id ≤ 1 → (s.close id c conn).openCount id = 0) :
    ∀ r ∈ (s.close id c conn).terminated, r.2 = 0 := by
  intro r hr
  rw [terminated_close, hexact.refcount] at hr
  split_ifs at hr with hlast
  · rcases List.mem_append.mp hr with hold | hnew
    · exact hexact.terminated r hold
    · rw [List.mem_singleton.mp hnew]
      exact hzero hlast
  · exact hexact.terminated r hr

/-- The close of a connection that is open keeps the counts exact. -/
theorem RefcountsExact.close (hexact : RefcountsExact s)
    (hcount : ∀ id', (s.close id c conn).openCount id' + (if id = id' then 1 else 0) =
      s.openCount id') : RefcountsExact (s.close id c conn) := by
  have hone := hcount id
  rw [if_pos rfl] at hone
  refine ⟨?_, terminated_close_eq_zero hexact fun hlast => ?_⟩
  · intro id'
    rw [refcount_close, hexact.refcount, ← hcount id']
    by_cases heq : id' = id
    · rw [if_pos heq, if_pos heq.symm]
      omega
    · rw [if_neg heq, if_neg (Ne.symm heq)]
      rfl
  · omega

/-- The second close of a connection takes one off a count that it is no longer part of: that
goes well only at 0. -/
theorem refcountsExact_close_iff (hexact : RefcountsExact s)
    (hcount : ∀ id', (s.close id c conn).openCount id' = s.openCount id') :
    RefcountsExact (s.close id c conn) ↔ s.openCount id = 0 := by
  constructor
  · intro hafter
    have hid := hafter.refcount id
    rw [refcount_close, if_pos rfl, hcount, hexact.refcount] at hid
    omega
  · intro hzero
    refine ⟨?_, terminated_close_eq_zero hexact fun _ => ?_⟩
    · intro id'
      rw [refcount_close, hcount, hexact.refcount]
      split_ifs with heq
      · rw [heq]
        omega
      · rfl
    · rw [hcount, hzero]

/-- **One event** keeps the counts exact exactly when it is no second close of a processor that
is in use. -/
theorem refcountsExact_step_iff (hs : Consistent s) (hexact : RefcountsExact s)
    (hstep : step M hash s a = some t) : RefcountsExact t ↔ NoSecondClose s a := by
  rcases step_effect hs hstep with ⟨hclosing, hrefcount, hopen, hterminated⟩ |
    ⟨id, hclosing, hrefcount, hopen, hterminated⟩ |
    ⟨id, c, conn, conn', hclosing, hconn, hprocessor, rfl⟩
  · refine iff_of_true ⟨?_, ?_⟩ (noSecondClose_of_closing hclosing)
    · intro id
      rw [hrefcount, hopen, hexact.refcount]
    · rw [hterminated]
      exact hexact.terminated
  · refine iff_of_true ⟨?_, ?_⟩ (noSecondClose_of_closing hclosing)
    · intro id'
      rw [hrefcount, hopen, hexact.refcount]
    · rw [hterminated]
      exact hexact.terminated
  · have hcount : ∀ id', (s.close id c conn').openCount id' +
        (if conn.session = some id' then 1 else 0) = s.openCount id' := by
      intro id'
      have h := openCount_add_of_set hconn (connections_close s id c conn') id'
      simpa using h
    rcases hsession : conn.session with _ | id₀
    · simp only [hsession, reduceCtorEq, if_false, Nat.add_zero] at hcount
      rw [refcountsExact_close_iff hexact hcount]
      constructor
      · intro h r hr _
        rw [hclosing] at hr
        cases hr
        exact h
      · intro h
        exact h _ hclosing hsession
    · have hid : id₀ = id := by
        have h := hs.session conn (List.mem_of_getElem? hconn) id₀ hsession
        rw [hprocessor] at h
        exact (Option.some.inj h).symm
      subst hid
      refine iff_of_true (hexact.close fun id' => ?_) ?_
      · simpa [hsession] using hcount id'
      · intro r hr hnone
        rw [hclosing] at hr
        cases hr
        rw [hsession] at hnone
        cases hnone

end close

/-- There are no connections. -/
theorem consistent_start : Consistent start := by
  refine ⟨?_, ?_⟩
  · intro conn hmem
    cases hmem
  · intro conn hmem
    cases hmem

/-- **Reference counting.** In a run of the server every count is exact all along, and `term` runs
only on processors that nobody is open on, exactly when no connection closes a processor for a
second time while another one is open on it. -/
theorem refcountsExact_iff (M : Mongo) (hash : BSONObj → String) (as : List Action) (u : Server)
    (hrun : run (step M hash) start as = some u) :
    (∀ bs, bs <+: as → ∀ t, run (step M hash) start bs = some t → RefcountsExact t) ↔
      Guarded (step M hash) NoSecondClose start as := by
  have hexact : RefcountsExact start := by
    refine ⟨fun id => rfl, ?_⟩
    intro r hr
    cases hr
  have hall : Guarded (step M hash) (fun _ _ => True) start as :=
    guarded_of_forall (step M hash) _ (fun _ _ => trivial) start as
  exact @forall_prefix_iff_guarded _ _ (step M hash) NoSecondClose _ Consistent RefcountsExact
    (fun _ _ _ hs _ _ hst _ => hs.step hst)
    (fun _ _ _ hs hP _ hst => refcountsExact_step_iff hs hP hst) _ _ _ consistent_start hexact hall hrun

/-- A request with the command and the sample options for reading. -/
def sampleRequest (cmd : Int) : BSONObj :=
  [("cmd", .int cmd), ("body", .obj (("purpose", .int 1) :: Broker.sampleOptions 0 1 10))]

/-- The hash of the sample options, for evaluations. -/
def sampleHash : BSONObj → String := fun _ => "5d41402abc4b2a76b9719d911017c592"

/-- Two connections open the same options; the first one disconnects, the second one closes. -/
theorem refcountsExact_iff_sample : ∃ u,
    run (step Mongo.plain sampleHash) start
        [.accept, .accept, .packet 0 (some (sampleRequest 100)) none [],
          .packet 1 (some (sampleRequest 100)) none [], .disconnect 0,
          .packet 1 (some (sampleRequest 101)) none [], .disconnect 1] = some u ∧
      ∀ bs, bs <+: [.accept, .accept, .packet 0 (some (sampleRequest 100)) none [],
          .packet 1 (some (sampleRequest 100)) none [], .disconnect 0,
          .packet 1 (some (sampleRequest 101)) none [], .disconnect 1] →
        ∀ t, run (step Mongo.plain sampleHash) start bs = some t → RefcountsExact t := by
  refine ⟨_, rfl, (refcountsExact_iff Mongo.plain sampleHash _ _ rfl).mpr ?_⟩
  decide +kernel

/-- The first of two connections closes and disconnects: the processor is terminated while the
second one is open on it. -/
theorem not_refcountsExact_sample : ∃ t,
    run (step Mongo.plain sampleHash) start
        [.accept, .accept, .packet 0 (some (sampleRequest 100)) none [],
          .packet 1 (some (sampleRequest 100)) none [], .packet 0 (some (sampleRequest 101)) none [],
          .disconnect 0] = some t ∧
      t.fault = none ∧ t.terminated = [("5d41402abc4b2a76b9719d911017c592", 1)] ∧
      (t.connections.map Connection.session = [none, some "5d41402abc4b2a76b9719d911017c592"]) ∧
      ¬RefcountsExact t := by
  refine ⟨_, rfl, rfl, rfl, rfl, ?_⟩
  intro h
  exact absurd (h.terminated _ List.mem_cons_self) (by decide)

end Zbroker.Server
