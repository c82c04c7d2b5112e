import Zbroker.Server.Sharing

/-!
# How long a session lives

A processor is never taken out of the table; what comes and goes are its threads. An open starts
one, the close that takes `m_refcount` to zero ends them, and a connection that disconnects closes
the processor it holds, whether or not it has sent CLOSE.

* `Processor.Manned p` — a thread runs for each broker that is connected, and one is connected
  exactly if the count is positive.
* `holders s id` — the connections whose `m_processor` is the one under `id`.
* `Held s` — every processor is manned, none counts more opens than it has holders, and a
  connection that is no longer read holds nothing. **`Held.step`**: every event keeps that.
* **`no_thread_outlives_connections`**: in every reachable state, whatever the connections have
  sent, a thread runs only for a processor that a connection still holds.

The count may be too low, as a CLOSE leaves `m_processor` in place; it is never too high.
-/

namespace Zbroker

open Found.Transition

namespace Processor

/-- A thread runs for each broker that is connected, and one of the brokers is connected exactly if
the count is positive. -/
structure Manned (p : Processor) : Prop where
  read : p.readThread = p.readBroker.connected
  write : p.writeThread = p.writeBroker.connected
  counted : 0 < p.refcount ↔ p.readBroker.connected = true ∨ p.writeBroker.connected = true

section manned

variable {p q : Processor}

/-- A new processor has no thread. -/
theorem manned_new : Manned new := ⟨rfl, rfl, by decide⟩

/-- Only the brokers have changed, and are connected as before. -/
theorem Manned.of_brokers (h : p.Manned) {read write : Broker}
    (hread : read.connected = p.readBroker.connected)
    (hwrite : write.connected = p.writeBroker.connected) :
    Manned { p with readBroker := read, writeBroker := write } := by
  refine ⟨h.read.trans hread.symm, h.write.trans hwrite.symm, ?_⟩
  rw [hread, hwrite]
  exact h.counted

/-- A REWIND starts and ends none. -/
theorem Manned.rewind (h : p.Manned) : p.rewind.Manned := by
  unfold Processor.rewind
  split_ifs
  · exact @Manned.of_brokers p h p.readBroker.rewind p.writeBroker rfl rfl
  · exact h

/-- `term` ends both threads and closes both brokers. -/
theorem ended_term (hread : p.readThread = p.readBroker.connected)
    (hwrite : p.writeThread = p.writeBroker.connected) :
    p.term.readThread = false ∧ p.term.writeThread = false ∧
      p.term.readBroker.connected = false ∧ p.term.writeBroker.connected = false := by
  unfold Processor.term
  dsimp only
  rw [hread, hwrite, Bool.and_self]
  split_ifs with hr hw hw
  · exact ⟨rfl, rfl, rfl, rfl⟩
  · have hnone : p.writeBroker.connected = false := by simpa [hwrite] using hw
    exact ⟨rfl, hnone, rfl, hnone⟩
  · have hnone : p.readBroker.connected = false := Bool.eq_false_iff.mpr hr
    exact ⟨hread.trans hnone, rfl, hnone, rfl⟩
  · have hnoread : p.readBroker.connected = false := Bool.eq_false_iff.mpr hr
    have hnowrite : p.writeBroker.connected = false := by simpa [hwrite] using hw
    exact ⟨hread.trans hnoread, hwrite.trans hnowrite, hnoread, hnowrite⟩

/-- A close counts one off, or ends the threads. -/
theorem Manned.close (h : p.Manned) : p.close.1.Manned := by
  unfold Processor.close
  split_ifs with hmore
  · refine ⟨h.read, h.write, ?_⟩
    show 0 < p.refcount - 1 ↔ p.readBroker.connected = true ∨ p.writeBroker.connected = true
    rw [← h.counted]
    omega
  · obtain ⟨hread, hwrite, hreadBroker, hwriteBroker⟩ :=
      ended_term (p := { p with refcount := 0 }) h.read h.write
    refine ⟨hread.trans hreadBroker.symm, hwrite.trans hwriteBroker.symm, ?_⟩
    rw [refcount_term, hreadBroker, hwriteBroker]
    simp

/-- An open starts the thread of the broker that it connects. -/
theorem Manned.openFor (h : p.Manned) {connect : String → Option String} {purpose : Int}
    {obj : BSONObj} (hopen : p.openFor connect purpose obj = .ok q) : q.Manned := by
  unfold Processor.openFor at hopen
  split_ifs at hopen
  · rcases hread : p.openRead connect obj with e | r
    · rw [hread] at hopen
      cases hopen
    · rw [hread] at hopen
      cases hopen
      unfold openRead at hread
      split_ifs at hread with hconnected
      · cases hread
        exact ⟨h.read, h.write, iff_of_true (Nat.succ_pos _) (Or.inl hconnected)⟩
      · split at hread
        · cases hread
        · rename_i b hb
          cases hread
          obtain ⟨f, -, -, -, rfl⟩ := Broker.openOn_eq_ok hb
          exact ⟨rfl, h.write, iff_of_true (Nat.succ_pos _) (Or.inl rfl)⟩
  · rcases hwrite : p.openWrite connect obj with e | r
    · rw [hwrite] at hopen
      cases hopen
    · rw [hwrite] at hopen
      cases hopen
      unfold openWrite at hwrite
      split_ifs at hwrite with hconnected
      · cases hwrite
        exact ⟨h.read, h.write, iff_of_true (Nat.succ_pos _) (Or.inr hconnected)⟩
      · split at hwrite
        · cases hwrite
        · rename_i b hb
          cases hwrite
          obtain ⟨f, -, -, -, rfl⟩ := Broker.openOn_eq_ok hb
          exact ⟨h.read, rfl, iff_of_true (Nat.succ_pos _) (Or.inr rfl)⟩
  · cases hopen

end manned

end Processor

namespace Server

/-! ## Who holds a processor -/

/-- The number of connections that hold a processor: their `m_processor` is the one under this id. -/
def holders (s : Server) (id : String) : Nat :=
  s.connections.countP fun conn => conn.processor = some id

/-- Every processor is manned and counts no more opens than it has holders, and a connection that is
no longer read holds none. -/
structure Held (s : Server) : Prop where
  consistent : Consistent s
  manned : ∀ id, (s.processors id).Manned
  refcount : ∀ id, (s.processors id).refcount ≤ s.holders id
  released : ∀ conn ∈ s.connections, conn.reading = false → conn.processor = none

section held

variable {M : Mongo} {hash : BSONObj → String} {s t : Server} {a : Action} {id : String} {c : Nat}
  {conn conn' : Connection} {cmd : Command}

/-- The holders before and after a connection has changed. -/
theorem holders_add_of_set (hconn : s.connections[c]? = some conn)
    (ht : t.connections = s.connections.set c conn') (id : String) :
    t.holders id + (if conn.processor = some id then 1 else 0) =
      s.holders id + if conn'.processor = some id then 1 else 0 := by
  obtain ⟨hlt, hget⟩ := List.getElem?_eq_some_iff.mp hconn
  rw [holders, holders, ht, List.countP_set hlt, hget]
  by_cases hprocessor : conn.processor = some id
  · have hpos : 0 < s.connections.countP fun conn => conn.processor = some id :=
      List.countP_pos_iff.mpr ⟨conn, List.mem_of_getElem? hconn, by simpa using hprocessor⟩
    simp only [hprocessor, decide_true, if_true, decide_eq_true_eq]
    omega
  · simp [hprocessor]

/-- A processor that has changed is manned like the others. -/
theorem manned_update (h : ∀ id, (s.processors id).Manned) {p : Processor} (hp : p.Manned)
    (id id' : String) : (Function.update s.processors id p id').Manned := by
  rw [Function.update_apply]
  split_ifs
  · exact hp
  · exact h id'

/-- The processors stay manned when a request other than OPEN is executed. -/
theorem manned_processRequest (h : ∀ id, (s.processors id).Manned) {valid : Bool} {body : BSONObj}
    {os : List PopOutcome} (hstep : s.processRequest M id c conn valid cmd body os = some t)
    (id' : String) : (t.processors id').Manned := by
  unfold processRequest at hstep
  split_ifs at hstep
  · rcases cmd with _ | _ | _ | _ | _ | n
    · cases hstep
      exact h id'
    · cases hstep
      rw [processors_close]
      exact manned_update h (h id).close id id'
    · simp only [readRequest] at hstep
      split_ifs at hstep
      · obtain ⟨r, -, rfl⟩ := Option.map_eq_some_iff.mp hstep
        rcases r.answer with e | body
        · exact h id'
        · apply manned_update h
          exact ⟨(h id).read, (h id).write, (h id).counted⟩
      · cases hstep
        exact h id'
    · simp only [writeRequest] at hstep
      split_ifs at hstep
      · split at hstep
        · cases hstep
          exact h id'
        · split_ifs at hstep
          cases hstep
          exact manned_update h (h id) id id'
      · cases hstep
        exact h id'
    · cases hstep
      exact manned_update h (h id).rewind id id'
    · cases hstep
      exact h id'
  · cases hstep
    exact h id'

/-- The processors stay manned when a request is processed. -/
theorem manned_process (h : ∀ id, (s.processors id).Manned) {cmdObj : BSONObj}
    {errmsg : Option String} {os : List PopOutcome}
    (hstep : s.process M hash c conn cmdObj errmsg os = some t) (id' : String) :
    (t.processors id').Manned := by
  unfold process at hstep
  dsimp only at hstep
  generalize conn.processor.getD (if (parseRequest cmdObj).2.1 = .openCmd then
    hash (parseRequest cmdObj).2.2 else "") = id at hstep
  split at hstep
  · cases hstep
    exact h id'
  · rename_i p hp
    have hmanned : p.Manned := by
      unfold find at hp
      split_ifs at hp
      · cases hp
        exact h _
      · cases hp
        exact h _
    split_ifs at hstep
    · cases hstep
      unfold processOpen
      split_ifs
      · exact h id'
      · split
        · exact h id'
        · rename_i p' hopen
          exact manned_update h (hmanned.openFor hopen) _ id'
    · exact manned_processRequest h hstep id'

/-- The holders and the counts after a request. -/
theorem refcount_le_process (hs : Held s) {cmdObj : BSONObj} {errmsg : Option String}
    {os : List PopOutcome} (hreader : s.reader c = some conn)
    (hstep : s.process M hash c conn cmdObj errmsg os = some t) (id' : String) :
    (t.processors id').refcount ≤ t.holders id' := by
  have hconn := getElem_of_reader hreader
  have hbefore := hs.refcount id'
  rcases process_cases hstep with ⟨e, -⟩ | ⟨id, p, extra, -, -, hopened, hopen⟩ |
    ⟨id, reply, -, hid, -⟩ | ⟨id, t, -, hid, hexecuted⟩
  · exact hbefore
  · have hnone : conn.processor = none := by
      by_contra hsome
      rw [hs.consistent.opened conn (List.mem_of_getElem? hconn) hsome] at hopened
      cases hopened
    have hcount := holders_add_of_set (t := s.answer id p c
      { conn with processor := some id, processorOpened := true, session := some id }
      (packResponse M .ok extra none)) hconn rfl id'
    simp only [hnone, reduceCtorEq, if_false, Nat.add_zero, Option.some.injEq] at hcount
    rw [hcount]
    simp only [answer, update, Function.update_apply]
    split_ifs with heq heq' heq'
    · rw [Processor.refcount_openFor hopen, ← heq]
      exact Nat.succ_le_succ hbefore
    · exact absurd heq.symm heq'
    · exact absurd heq'.symm heq
    · exact hbefore
  · have hcount := holders_add_of_set (t := { s with
        connections := s.connections.set c
          { conn with processor := some id, sendBuffer := some reply } }) hconn rfl id'
    refine hbefore.trans ?_
    simp only [Option.some.injEq] at hcount
    split_ifs at hcount with hsome heq heq
    · omega
    · rw [hsome, Option.getD_some] at hid
      exact absurd hid heq
    · omega
    · omega
  · rcases hexecuted with ⟨e, -⟩ | ⟨body, -⟩ | ⟨p, body, -, hrefcount, -⟩
    · exact hbefore
    · have hcount := holders_add_of_set hconn
        (connections_close s id c { conn with sendBuffer := some ⟨id, body⟩ }) id'
      rw [refcount_close]
      simp only at hcount
      omega
    · have hcount := holders_add_of_set (t := s.answer id p c conn body) hconn rfl id'
      have hholders : (s.answer id p c conn body).holders id' = s.holders id' :=
        Nat.add_right_cancel hcount
      rw [hholders]
      show (Function.update s.processors id p id').refcount ≤ s.holders id'
      rw [Function.update_apply]
      split_ifs with heq
      · rw [hrefcount, ← heq]
        exact hbefore
      · exact hbefore

/-- A request leaves the read of its connection under way. -/
theorem released_process (hs : Held s) {cmdObj : BSONObj} {errmsg : Option String}
    {os : List PopOutcome} (hreader : s.reader c = some conn)
    (hstep : s.process M hash c conn cmdObj errmsg os = some t) :
    ∀ conn' ∈ t.connections, conn'.reading = false → conn'.processor = none := by
  have hreading : conn.reading = true := (Option.filter_eq_some_iff.mp hreader).2
  have hset : ∀ conn' : Connection, t.connections = s.connections.set c conn' →
      conn'.reading = conn.reading →
        ∀ conn'' ∈ t.connections, conn''.reading = false → conn''.processor = none := by
    intro conn' hconnections hsame conn'' hmem hnone
    rw [hconnections] at hmem
    rcases List.mem_or_eq_of_mem_set hmem with hold | rfl
    · exact hs.released conn'' hold hnone
    · rw [hsame, hreading] at hnone
      cases hnone
  rcases process_cases hstep with ⟨e, -⟩ | ⟨id, p, extra, -, -, -, -⟩ | ⟨id, reply, -, -, -⟩ |
    ⟨id, t, -, -, hexecuted⟩
  · exact hs.released
  · exact hset _ rfl rfl
  · exact hset _ rfl rfl
  · rcases hexecuted with ⟨e, -⟩ | ⟨body, -⟩ | ⟨p, body, -, -, -⟩
    · exact hs.released
    · exact hset _ (connections_close _ _ _ _) rfl
    · exact hset _ rfl rfl

/-- A connection that disconnects lets go of its processor, and closes it. -/
theorem Held.disconnect (hs : Held s) (hconsistent : Consistent (s.disconnect c conn))
    (hconn : s.connections[c]? = some conn) : Held (s.disconnect c conn) := by
  have hgone : ∀ conn' : Connection,
      (s.disconnect c conn).connections = s.connections.set c conn' → conn'.processor = none →
        ∀ conn'' ∈ (s.disconnect c conn).connections, conn''.reading = false →
          conn''.processor = none := by
    intro conn' hconnections hnone conn'' hmem hread
    rw [hconnections] at hmem
    rcases List.mem_or_eq_of_mem_set hmem with hold | rfl
    · exact hs.released conn'' hold hread
    · exact hnone
  unfold Server.disconnect at hconsistent hgone ⊢
  rcases hprocessor : conn.processor with _ | id
  · simp only [hprocessor] at hconsistent hgone ⊢
    refine ⟨hconsistent, hs.manned, ?_, hgone _ rfl rfl⟩
    intro id
    have hcount := holders_add_of_set (t := { s with
      connections := s.connections.set c { conn with processor := none, reading := false } })
      hconn rfl id
    rw [hprocessor] at hcount
    exact (hs.refcount id).trans (Nat.add_right_cancel hcount).ge
  · simp only [hprocessor] at hconsistent hgone ⊢
    refine ⟨hconsistent, ?_, ?_, hgone _ (connections_close _ _ _ _) rfl⟩
    · intro id'
      rw [processors_close]
      exact manned_update hs.manned (hs.manned id).close id id'
    · intro id'
      have hcount := holders_add_of_set hconn
        (connections_close s id c { conn with processor := none, reading := false }) id'
      have hbefore := hs.refcount id'
      rw [refcount_close]
      simp only [hprocessor, Option.some.injEq, reduceCtorEq, if_false] at hcount
      by_cases heq : id' = id
      · rw [if_pos heq.symm] at hcount
        rw [if_pos heq]
        omega
      · rw [if_neg (Ne.symm heq)] at hcount
        rw [if_neg heq]
        omega

/-- **Every event keeps the processors held.** -/
theorem Held.step (hs : Held s) (hstep : Server.step M hash s a = some t) : Held t := by
  have hconsistent := hs.consistent.step hstep
  unfold Server.step at hstep
  split at hstep
  · cases hstep
  · rcases a with _ | ⟨c, _ | cmdObj, errmsg, os⟩ | c | c | ⟨id, read, write⟩
    · cases hstep
      refine ⟨hconsistent, hs.manned, ?_, ?_⟩
      · intro id
        refine (hs.refcount id).trans ?_
        rw [holders, holders, List.countP_append]
        exact Nat.le_add_right _ _
      · intro conn hmem
        rcases List.mem_append.mp hmem with hold | hnew
        · exact hs.released conn hold
        · intro _
          rw [List.mem_singleton.mp hnew]
          rfl
    · obtain ⟨conn, -, rfl⟩ := Option.map_eq_some_iff.mp hstep
      exact ⟨hconsistent, hs.manned, hs.refcount, hs.released⟩
    · obtain ⟨conn, hreader, hprocess⟩ := Option.bind_eq_some_iff.mp hstep
      exact ⟨hconsistent, manned_process hs.manned hprocess,
        refcount_le_process hs hreader hprocess, released_process hs hreader hprocess⟩
    · obtain ⟨conn, hreader, rfl⟩ := Option.map_eq_some_iff.mp hstep
      exact hs.disconnect hconsistent (getElem_of_reader hreader)
    · obtain ⟨conn, -, rfl⟩ := Option.map_eq_some_iff.mp hstep
      exact ⟨hconsistent, hs.manned, hs.refcount, hs.released⟩
    · simp only [work] at hstep
      split_ifs at hstep with hsettings
      cases hstep
      refine ⟨hconsistent, ?_, ?_, hs.released⟩
      · apply manned_update hs.manned
        exact (hs.manned id).of_brokers (Broker.connected_eq_of_settings_eq hsettings.1)
          (Broker.connected_eq_of_settings_eq hsettings.2)
      · intro id'
        refine le_trans ?_ (hs.refcount id')
        simp only [Function.update_apply]
        split_ifs with heq
        · rw [heq]
        · exact le_rfl

/-- No processor is held. -/
theorem held_start : Held start := by
  refine ⟨consistent_start, fun _ => Processor.manned_new, fun _ => Nat.zero_le _, ?_⟩
  intro conn hmem
  cases hmem

end held

/-- **No thread outlives its connections.** In every reachable state, whatever requests the
connections have sent and however often they have closed: a processor counts at most the connections
that hold it, and its threads, one for each connected broker, run exactly as long as the count is
positive. So a thread runs only for a processor that some connection has opened and not
disconnected from. -/
theorem no_thread_outlives_connections (M : Mongo) (hash : BSONObj → String) (as : List Action)
    (t : Server) (hrun : run (step M hash) start as = some t) (id : String) :
    (t.processors id).refcount ≤ t.holders id ∧
      (t.processors id).readThread = (t.processors id).readBroker.connected ∧
      (t.processors id).writeThread = (t.processors id).writeBroker.connected ∧
      (((t.processors id).readThread = true ∨ (t.processors id).writeThread = true) ↔
        0 < (t.processors id).refcount) ∧
      (((t.processors id).readThread = true ∨ (t.processors id).writeThread = true) →
        ∃ conn ∈ t.connections, conn.reading = true ∧ conn.processorOpened = true ∧
          conn.processor = some id) := by
  have hheld : Held t := run_invariant_of_step (fun _ _ _ hs hst => hs.step hst) held_start hrun
  obtain ⟨hread, hwrite, hcounted⟩ := hheld.manned id
  have hiff : ((t.processors id).readThread = true ∨ (t.processors id).writeThread = true) ↔
      0 < (t.processors id).refcount := by
    rw [hread, hwrite, hcounted]
  refine ⟨hheld.refcount id, hread, hwrite, hiff, ?_⟩
  intro hthread
  have hpos : 0 < t.holders id := (hiff.mp hthread).trans_le (hheld.refcount id)
  obtain ⟨conn, hmem, hprocessor⟩ := List.countP_pos_iff.mp hpos
  have hprocessor : conn.processor = some id := by simpa using hprocessor
  refine ⟨conn, hmem, ?_, hheld.consistent.opened conn hmem (by simp [hprocessor]), hprocessor⟩
  by_contra hread
  rw [hheld.released conn hmem (Bool.eq_false_iff.mpr hread)] at hprocessor
  cases hprocessor

/-- One of two connections closes, which leaves the thread to the other one, and closes again. -/
def sampleClosedTwice : List Action :=
  [.accept, .accept, .packet 0 (some (sampleRequest 100)) none [],
    .packet 1 (some (sampleRequest 100)) none [], .packet 0 (some (sampleRequest 101)) none [],
    .packet 0 (some (sampleRequest 101)) none []]

/-- A session that is opened and closed. -/
theorem no_thread_outlives_connections_sample : ∃ t,
    run (step Mongo.plain sampleHash) start sampleClosedTwice = some t ∧
      (t.processors (sampleHash [])).refcount ≤ t.holders (sampleHash []) ∧
      ((t.processors (sampleHash [])).readThread = true ∨
        (t.processors (sampleHash [])).writeThread = true ↔
          0 < (t.processors (sampleHash [])).refcount) := by
  obtain ⟨t, ht⟩ := Option.isSome_iff_exists.mp
    (show (run (step Mongo.plain sampleHash) start sampleClosedTwice).isSome = true by decide +kernel)
  obtain ⟨hcount, -, -, hthread, -⟩ :=
    no_thread_outlives_connections Mongo.plain sampleHash _ t ht (sampleHash [])
  exact ⟨t, ht, hcount, hthread⟩

end Server

end Zbroker
