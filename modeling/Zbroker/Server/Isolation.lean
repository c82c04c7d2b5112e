import Zbroker.Found.Unwinding
import Zbroker.Server.Sharing

/-!
# Sessions do not disturb each other

The connections whose OPENs have one hash share a processor. All others have other processors, and
reach that one neither with a request nor by disconnecting.

* `mine hash as id c` — the connection `c` opens the processor `id` somewhere in the schedule.
* `own hash as id` — the schedule without the packets and failed reads of all other connections
  and without the use of other brokers. The connections are still accepted, so that they keep their
  numbers.
* `Alike id c s u s' u'` — two events change the same processor and the same connection, and in the
  same way. **`process_alike`**: a request reads nothing but its processor and its connection.
* **`exists_own_run`**: what a run that has not ended in an exception leaves of a processor and of
  its connections, replies included, is what the connections of that processor bring about alone.

Exceptions are the one thing that a session can do to all others. What the brokers hold comes with
`work`: two sessions on one collection still meet there.
-/

namespace Zbroker.Server

open Found.Transition

/-! ## What concerns a processor -/

/-- The connection opens the processor. -/
def mine (hash : BSONObj → String) (as : List Action) (id : String) (c : Nat) : Bool :=
  decide ((openBody c as).map hash = some id)

/-- Whether an event concerns the processor. -/
def concerns (hash : BSONObj → String) (as : List Action) (id : String) : Action → Bool
  | .accept => true
  | .packet c _ _ _ => mine hash as id c
  | .disconnect c => mine hash as id c
  | .cut c => mine hash as id c
  | .work id' _ _ => decide (id' = id)

/-- The part of a schedule that concerns the processor. -/
def own (hash : BSONObj → String) (as : List Action) (id : String) : List Action :=
  as.filter (concerns hash as id)

/-- Two states that are the same to the connections of a processor. -/
structure Same (hash : BSONObj → String) (as : List Action) (id : String) (s s' : Server) : Prop
    where
  fault : s'.fault = none
  processor : s'.processors id = s.processors id
  length : s'.connections.length = s.connections.length
  connection : ∀ c, mine hash as id c = true → s'.connections[c]? = s.connections[c]?

/-- Two events, from `s` to `u` and from `s'` to `u'`, change the processor and the connection in the
same way, and nothing else. -/
structure Alike (id : String) (c : Nat) (s u s' u' : Server) : Prop where
  fault : u'.fault = none
  processors : ∃ p, u.processors = Function.update s.processors id p ∧
    u'.processors = Function.update s'.processors id p
  connections : ∃ conn, u.connections = s.connections.set c conn ∧
    u'.connections = s'.connections.set c conn

section alike

variable {M : Mongo} {hash : BSONObj → String} {s u s' u' : Server} {id : String} {c : Nat}
  {conn : Connection}

/-- Only the connection changes. -/
theorem Alike.of_connection (hfault : s'.fault = none) (hp : s'.processors id = s.processors id)
    (conn : Connection) :
    Alike id c s { s with connections := s.connections.set c conn }
      s' { s' with connections := s'.connections.set c conn } := by
  refine ⟨hfault, ⟨s.processors id, (Function.update_eq_self _ _).symm, ?_⟩, ⟨conn, rfl, rfl⟩⟩
  rw [← hp]
  exact (Function.update_eq_self _ _).symm

/-- A request is executed and answered. -/
theorem Alike.of_answer (hfault : s'.fault = none) (p : Processor) (conn : Connection)
    (body : BSONObj) : Alike id c s (s.answer id p c conn body) s' (s'.answer id p c conn body) :=
  ⟨hfault, ⟨p, rfl, rfl⟩, ⟨_, rfl, rfl⟩⟩

/-- A processor is closed. -/
theorem Alike.of_close (hfault : s'.fault = none) (hp : s'.processors id = s.processors id)
    (conn : Connection) : Alike id c s (s.close id c conn) s' (s'.close id c conn) := by
  refine ⟨(fault_close s' id c conn).trans hfault, ⟨(s.processors id).close.1, ?_, ?_⟩,
    ⟨_, connections_close s id c conn, connections_close s' id c conn⟩⟩
  · rw [processors_close]
  · rw [processors_close, hp]

/-- A request other than OPEN reads its processor and its connection only. -/
theorem processRequest_alike (hp : s'.processors id = s.processors id) (hfault' : s'.fault = none)
    {valid : Bool} {cmd : Command} {body : BSONObj} {os : List PopOutcome}
    (h : s.processRequest M id c conn valid cmd body os = some u) (hfault : u.fault = none) :
    ∃ u', s'.processRequest M id c conn valid cmd body os = some u' ∧ Alike id c s u s' u' := by
  unfold processRequest at h ⊢
  split_ifs at h ⊢
  · rcases cmd with _ | _ | _ | _ | _ | n
    · cases h
      cases hfault
    · cases h
      exact ⟨_, rfl, .of_close hfault' hp _⟩
    · simp only [readRequest, hp] at h ⊢
      split_ifs at h ⊢
      · obtain ⟨r, hr, rfl⟩ := Option.map_eq_some_iff.mp h
        rw [hr]
        rcases hanswer : r.answer with e | reply
        · rw [hanswer] at hfault
          cases hfault
        · refine ⟨_, rfl, ?_⟩
          simp only [hanswer]
          exact .of_answer hfault' _ conn reply
      · cases h
        cases hfault
    · simp only [writeRequest, hp] at h ⊢
      split_ifs at h ⊢
      · rcases hdocs : BSON.vals (BSON.getObjectField body "docs") with _ | docs
        · rw [hdocs] at h
          cases h
          cases hfault
        · rw [hdocs] at h
          dsimp only at h ⊢
          split_ifs at h ⊢
          cases h
          exact ⟨_, rfl, .of_answer hfault' _ conn _⟩
      · cases h
        cases hfault
    · cases h
      rw [hp]
      exact ⟨_, rfl, .of_answer hfault' _ conn _⟩
    · cases h
      cases hfault
  · cases h
    cases hfault

/-- The processor that a request is for. -/
def target (hash : BSONObj → String) (conn : Connection) (cmdObj : BSONObj) : String :=
  conn.processor.getD
    (if (parseRequest cmdObj).2.1 = .openCmd then hash (parseRequest cmdObj).2.2 else "")

/-- **A request reads its processor and its connection only**, and changes nothing else. -/
theorem process_alike {cmdObj : BSONObj} {errmsg : Option String} {os : List PopOutcome}
    (hp : s'.processors (target hash conn cmdObj) = s.processors (target hash conn cmdObj))
    (hfault' : s'.fault = none) (h : s.process M hash c conn cmdObj errmsg os = some u)
    (hfault : u.fault = none) :
    ∃ u', s'.process M hash c conn cmdObj errmsg os = some u' ∧
      Alike (target hash conn cmdObj) c s u s' u' := by
  unfold target at hp ⊢
  unfold process at h ⊢
  dsimp only at h ⊢
  generalize conn.processor.getD (if (parseRequest cmdObj).2.1 = .openCmd then
    hash (parseRequest cmdObj).2.2 else "") = id at h hp ⊢
  have hfind : s'.find id = s.find id := by rw [find, find, hp]
  rw [hfind, hp]
  split at h
  · cases h
    cases hfault
  · split_ifs at h ⊢
    · cases h
      refine ⟨_, rfl, ?_⟩
      unfold processOpen at hfault ⊢
      split_ifs at hfault ⊢
      · exact .of_connection hfault' hp _
      · split at hfault
        · cases hfault
        · exact .of_answer hfault' _ _ _
    · exact processRequest_alike hp hfault' h hfault

end alike

/-! ## Which processor a connection reaches -/

section reached

variable {M : Mongo} {hash : BSONObj → String} {s u : Server} {as bs : List Action} {a : Action}
  {id : String} {c : Nat} {conn : Connection}

/-- A run without an exception at its end has met none. -/
theorem fault_of_begin (hrun : run (step M hash) start as = some u) (hfault : u.fault = none)
    (hbegin : bs <+: as) (hs : run (step M hash) start bs = some s) : s.fault = none := by
  obtain ⟨cs, rfl⟩ := hbegin
  rw [run_append, hs, Option.bind_some] at hrun
  cases cs with
  | nil =>
      cases hrun
      exact hfault
  | cons a cs =>
      obtain ⟨t, ht, -⟩ := (run_cons_eq_some _).mp hrun
      exact fault_of_step ht

/-- The first OPEN of a connection is the first one of every longer schedule. -/
theorem openBody_of_begin {body : BSONObj} (hbegin : bs <+: as)
    (h : openBody c bs = some body) : openBody c as = some body := by
  obtain ⟨cs, rfl⟩ := hbegin
  rw [openBody, List.findSome?_append]
  exact Option.or_eq_some_iff.mpr (Or.inl h)

/-- A connection opens the processor that it holds. -/
theorem mine_of_processor (hs : Sharing hash bs s) (hbegin : bs <+: as)
    (hreader : s.reader c = some conn) {id' : String} (hid : conn.processor = some id') :
    mine hash as id c = decide (id' = id) := by
  obtain ⟨body, hbody, rfl⟩ := hs.processor c conn id' (getElem_of_reader hreader) hid
  rw [mine, openBody_of_begin hbegin hbody, Option.map_some]
  simp

/-- A connection opens the processor that its requests are for. -/
theorem mine_of_target (hs : Sharing hash bs s) {cmdObj : BSONObj} {errmsg : Option String}
    {os : List PopOutcome} (hbegin : bs ++ [.packet c (some cmdObj) errmsg os] <+: as)
    (hreader : s.reader c = some conn)
    (hstep : s.process M hash c conn cmdObj errmsg os = some u) (hfault : u.fault = none) :
    mine hash as id c = decide (target hash conn cmdObj = id) := by
  rcases hprocessor : conn.processor with _ | id'
  · obtain ⟨hconn, hreading⟩ := Option.filter_eq_some_iff.mp hreader
    obtain ⟨hunopened, hnone⟩ := hs.fresh c conn hconn hreading hprocessor
    rcases process_cases hstep with ⟨e, -⟩ | ⟨id', p, extra, hcmd, hid, -, -⟩ |
      ⟨id', reply, -, -, hopened⟩ | ⟨id', t, -, hid, -⟩
    · cases hfault
    · have hbody : openBody c (bs ++ [.packet c (some cmdObj) errmsg os]) =
          some (parseRequest cmdObj).2.2 := by
        rw [openBody_concat, hnone, Option.none_or, openBody_packet, if_pos ⟨rfl, hcmd⟩]
      rw [mine, openBody_of_begin hbegin hbody, Option.map_some, target, hprocessor,
        Option.getD_none, if_pos hcmd]
      simp
    · rw [hunopened] at hopened
      cases hopened
    · rw [hprocessor] at hid
      cases hid
  · rw [target, hprocessor, Option.getD_some]
    exact mine_of_processor hs ((List.prefix_append _ _).trans hbegin) hreader hprocessor

end reached

/-! ## One event -/

section same

variable {M : Mongo} {hash : BSONObj → String} {s u s' u' : Server} {as bs : List Action}
  {a : Action} {id id' : String} {c : Nat} {conn : Connection}

/-- A connection of the processor is read on both sides. -/
theorem Same.reader (h : Same hash as id s s') (hmine : mine hash as id c = true) :
    s'.reader c = s.reader c := by
  rw [Server.reader, Server.reader, h.connection c hmine]

/-- Both sides change in the same way. -/
theorem Same.of_alike (h : Same hash as id s s') (halike : Alike id c s u s' u') :
    Same hash as id u u' := by
  obtain ⟨hfault, ⟨p, hp, hp'⟩, ⟨conn, hconn, hconn'⟩⟩ := halike
  refine ⟨hfault, ?_, ?_, ?_⟩
  · rw [hp, hp', Function.update_self, Function.update_self]
  · rw [hconn, hconn', List.length_set, List.length_set, h.length]
  · intro d hd
    rw [hconn, hconn', List.getElem?_set, List.getElem?_set, h.length, h.connection d hd]

/-- A connection of another processor changes on one side. -/
theorem Same.of_other (h : Same hash as id s s') (hprocessor : u.processors id = s.processors id)
    (hmine : mine hash as id c = false) (hconnections : u.connections = s.connections.set c conn) :
    Same hash as id u s' := by
  refine ⟨h.fault, h.processor.trans hprocessor.symm, ?_, ?_⟩
  · rw [hconnections, List.length_set]
    exact h.length
  · intro d hd
    have hne : c ≠ d := by
      rintro rfl
      rw [hmine] at hd
      cases hd
    rw [hconnections, List.getElem?_set_ne hne]
    exact h.connection d hd

/-- **An event that concerns the processor** can happen without the others, and does the same. -/
theorem Same.kept (h : Same hash as id s s') (hs : Sharing hash bs s)
    (hbegin : bs ++ [a] <+: as) (hstep : step M hash s a = some u) (hfault : u.fault = none)
    (hconcerns : concerns hash as id a = true) :
    ∃ u', step M hash s' a = some u' ∧ Same hash as id u u' := by
  have hlive : s.fault = none := fault_of_step hstep
  have hbs : bs <+: as := (List.prefix_append _ _).trans hbegin
  unfold step at hstep ⊢
  rw [if_neg (by simp [hlive])] at hstep
  rw [if_neg (by simp [h.fault])]
  rcases a with _ | ⟨c, _ | cmdObj, errmsg, os⟩ | c | c | ⟨id', read, write⟩
  · cases hstep
    refine ⟨_, rfl, h.fault, h.processor, ?_, ?_⟩
    · simp only [List.length_append, h.length]
    · intro d hd
      simp only [List.getElem?_append, h.length, h.connection d hd]
  · obtain ⟨conn, -, rfl⟩ := Option.map_eq_some_iff.mp hstep
    cases hfault
  · obtain ⟨conn, hreader, hprocess⟩ := Option.bind_eq_some_iff.mp hstep
    have htarget : target hash conn cmdObj = id := by
      have hmine : mine hash as id c = decide (target hash conn cmdObj = id) :=
        mine_of_target hs hbegin hreader hprocess hfault
      exact of_decide_eq_true (hmine.symm.trans hconcerns)
    obtain ⟨u', hu', halike⟩ := process_alike (by rw [htarget, h.processor]) h.fault
      hprocess hfault
    rw [htarget] at halike
    refine ⟨u', ?_, h.of_alike halike⟩
    simp only [h.reader hconcerns, hreader, Option.bind_some]
    exact hu'
  · obtain ⟨conn, hreader, rfl⟩ := Option.map_eq_some_iff.mp hstep
    refine ⟨s'.disconnect c conn, ?_, h.of_alike (c := c) ?_⟩
    · simp only [h.reader hconcerns, hreader, Option.map_some]
    · unfold disconnect
      rcases hprocessor : conn.processor with _ | id'
      · exact .of_connection h.fault h.processor _
      · have hid : id' = id := by
          have hmine : mine hash as id c = decide (id' = id) :=
            mine_of_processor hs hbs hreader hprocessor
          exact of_decide_eq_true (hmine.symm.trans hconcerns)
        subst hid
        exact .of_close h.fault h.processor _
  · obtain ⟨conn, -, rfl⟩ := Option.map_eq_some_iff.mp hstep
    cases hfault
  · have hid : id' = id := of_decide_eq_true hconcerns
    subst hid
    simp only [work, h.processor] at hstep ⊢
    split_ifs at hstep ⊢ with hsettings
    cases hstep
    refine ⟨_, rfl, h.fault, ?_, h.length, h.connection⟩
    simp only [Function.update_self]

/-- **An event that does not concern the processor** leaves it and its connections as they are. -/
theorem Same.dropped (h : Same hash as id s s') (hs : Sharing hash bs s)
    (hbegin : bs ++ [a] <+: as) (hstep : step M hash s a = some u) (hfault : u.fault = none)
    (hconcerns : concerns hash as id a = false) : Same hash as id u s' := by
  have hlive : s.fault = none := fault_of_step hstep
  have hbs : bs <+: as := (List.prefix_append _ _).trans hbegin
  unfold step at hstep
  rw [if_neg (by simp [hlive])] at hstep
  rcases a with _ | ⟨c, _ | cmdObj, errmsg, os⟩ | c | c | ⟨id', read, write⟩
  · cases hconcerns
  · obtain ⟨conn, -, rfl⟩ := Option.map_eq_some_iff.mp hstep
    cases hfault
  · obtain ⟨conn, hreader, hprocess⟩ := Option.bind_eq_some_iff.mp hstep
    have htarget : target hash conn cmdObj ≠ id := by
      have hmine : mine hash as id c = decide (target hash conn cmdObj = id) :=
        mine_of_target hs hbegin hreader hprocess hfault
      exact of_decide_eq_false (hmine.symm.trans hconcerns)
    obtain ⟨-, -, -, ⟨p, hp, -⟩, ⟨conn', hconn', -⟩⟩ := process_alike rfl hlive hprocess hfault
    refine h.of_other ?_ hconcerns hconn'
    rw [hp, Function.update_of_ne (Ne.symm htarget)]
  · obtain ⟨conn, hreader, rfl⟩ := Option.map_eq_some_iff.mp hstep
    unfold disconnect
    rcases hprocessor : conn.processor with _ | id'
    · exact h.of_other rfl hconcerns rfl
    · have hid : id' ≠ id := by
        have hmine : mine hash as id c = decide (id' = id) :=
          mine_of_processor hs hbs hreader hprocessor
        exact of_decide_eq_false (hmine.symm.trans hconcerns)
      refine h.of_other ?_ hconcerns (connections_close _ _ _ _)
      rw [processors_close, Function.update_of_ne (Ne.symm hid)]
  · obtain ⟨conn, -, rfl⟩ := Option.map_eq_some_iff.mp hstep
    cases hfault
  · have hid : id' ≠ id := of_decide_eq_false hconcerns
    simp only [work] at hstep
    split_ifs at hstep with hsettings
    cases hstep
    refine ⟨h.fault, h.processor.trans ?_, h.length, h.connection⟩
    exact (Function.update_of_ne (Ne.symm hid) _ _).symm

end same

/-! ## A run -/

/-- **Isolation.** In a run of the server that has not ended in an exception, take any processor, and
leave out the packets and failed reads of all connections that do not open it, and the use of the
brokers of all others. What is left can happen on its own, and leaves the processor, its two brokers
with what they hold, and each of its connections, with the answer that was sent on it last, as the
whole run leaves them. -/
theorem exists_own_run (M : Mongo) (hash : BSONObj → String) (as : List Action) (s : Server)
    (hrun : run (step M hash) start as = some s) (hfault : s.fault = none) (id : String) :
    ∃ t, run (step M hash) start (own hash as id) = some t ∧ t.fault = none ∧
      t.processors id = s.processors id ∧
      ∀ c body, openBody c as = some body → hash body = id →
        t.connections[c]? = s.connections[c]? := by
  have hsharing : ∀ bs t, bs <+: as → run (step M hash) start bs = some t → Sharing hash bs t :=
    fun bs t hbegin ht => sharing_run ht (fault_of_begin hrun hfault hbegin ht)
  have hstart : Same hash as id start start := ⟨rfl, rfl, rfl, fun _ _ => rfl⟩
  obtain ⟨t, ht, hsame⟩ := exists_run_filter (concerns hash as id)
    (fun bs a t t' v hbegin ht hstep hR hkeep =>
      hR.kept (hsharing bs t ((List.prefix_append _ _).trans hbegin) ht) hbegin hstep
        (fault_of_begin hrun hfault hbegin (run_concat ht hstep)) hkeep)
    (fun bs a t t' v hbegin ht hstep hR hkeep =>
      hR.dropped (hsharing bs t ((List.prefix_append _ _).trans hbegin) ht) hbegin hstep
        (fault_of_begin hrun hfault hbegin (run_concat ht hstep)) hkeep)
    hstart hrun
  refine ⟨t, ht, hsame.fault, hsame.processor, ?_⟩
  intro c body hbody hhash
  apply hsame.connection
  rw [mine, hbody, Option.map_some, hhash]
  exact decide_eq_true rfl

/-- A connection reads and another one writes, and disconnects. -/
def sampleStrangers : List Action :=
  [.accept, .accept, .packet 0 (some (sampleOpen 1)) none [],
    .packet 1 (some (sampleOpen 2)) none [], .packet 0 (some (sampleRequest 106)) none [],
    .disconnect 1, .packet 0 (some (sampleRequest 101)) none []]

/-- Two sessions, of which the second is left out. -/
theorem exists_own_run_sample : ∃ s t,
    run (step Mongo.plain purposeHash) start sampleStrangers = some s ∧
      run (step Mongo.plain purposeHash) start
        (own purposeHash sampleStrangers "6512bd43d9caa6e02c990b0a82652dca") = some t ∧
      t.processors "6512bd43d9caa6e02c990b0a82652dca" =
        s.processors "6512bd43d9caa6e02c990b0a82652dca" ∧
      t.connections[0]? = s.connections[0]? := by
  obtain ⟨s, hs⟩ := Option.isSome_iff_exists.mp
    (show (run (step Mongo.plain purposeHash) start sampleStrangers).isSome = true by
      decide +kernel)
  have hfault : s.fault = none := by
    have h : (run (step Mongo.plain purposeHash) start sampleStrangers).map Server.fault =
        some none := by decide +kernel
    rw [hs] at h
    exact Option.some.inj h
  obtain ⟨t, ht, -, hprocessor, hconnection⟩ :=
    exists_own_run Mongo.plain purposeHash sampleStrangers s hs hfault
      "6512bd43d9caa6e02c990b0a82652dca"
  exact ⟨s, t, hs, ht, hprocessor,
    hconnection 0 (parseRequest (sampleOpen 1)).2.2 (by decide +kernel) (by decide +kernel)⟩

end Zbroker.Server
