import Zbroker.Server.Socket

/-!
# What becomes of a session whose client is lost

A client can be lost at any byte, and `handle_write` closes the socket when a write fails; either
way it is the read under way that fails next. `handle_read_header` then closes the processor;
`handle_read_body` throws the `error_code`, for which nothing has a handler.

* `Counted`, `counted_run` — a connection with a session is being read, and its processor has not
  been closed for it.
* `Gone`, `gone_run` — a connection whose read of a header has failed never closes a processor
  again.
* `Released s c t` — the failed read leads to no exception, closes the processor of the
  connection once for all, and leaves the sessions of the others as they are.
* `Harmless s c id` — the close does not end the session of another connection.
* **`released_iff`**: that is so exactly when the read is one of a header and the close is
  harmless.
The failed read of a body throws, so what remains is the close after a header: it is the first close for
this connection (`Counted`), no other one follows (`Gone`), and it ends the session of others exactly when
it is not harmless (`sameSession_close_iff`).
-/

namespace Zbroker

open Found.Transition

/-! ## The processor -/

namespace Processor

/-- The brokers and threads are the same: all but the count. -/
def SameSession (p q : Processor) : Prop :=
  q.readBroker = p.readBroker ∧ q.writeBroker = p.writeBroker ∧ q.readThread = p.readThread ∧
    q.writeThread = p.writeThread

/-- `term` has a thread to end. -/
def running (p : Processor) : Bool :=
  p.readThread && p.readBroker.connected || p.writeThread && p.writeBroker.connected

/-- Without a thread there is nothing to wait for. -/
theorem term_of_not_running {p : Processor} (h : p.running = false) : p.term = p := by
  obtain ⟨hread, hwrite⟩ := Bool.or_eq_false_iff.mp h
  simp only [term, hread, hwrite, Bool.false_eq_true, if_false]

/-- A `term` with a thread to end closes a broker. -/
theorem not_sameSession_term {p : Processor} (h : p.running = true) : ¬p.SameSession p.term := by
  rintro ⟨hread, hwrite, -, -⟩
  rcases Bool.or_eq_true_iff.mp h with hrun | hrun
  · have hclosed : p.term.readBroker.connected = false := by
      unfold term
      rw [if_pos hrun]
      dsimp only
      split_ifs <;> rfl
    rw [hread, (Bool.and_eq_true_iff.mp hrun).2] at hclosed
    cases hclosed
  · have hclosed : p.term.writeBroker.connected = false := by
      unfold term
      rcases p.readThread && p.readBroker.connected with _ | _
      · simp only [Bool.false_eq_true, if_false, hrun, if_true]
        rfl
      · simp only [if_true, hrun]
        rfl
    rw [hwrite, (Bool.and_eq_true_iff.mp hrun).2] at hclosed
    cases hclosed

/-- **A close** leaves the session alone exactly when it is not the last or nothing runs. -/
theorem sameSession_close_iff (p : Processor) :
    p.SameSession p.close.1 ↔ 1 < p.refcount ∨ p.running = false := by
  unfold close
  split_ifs with hcount
  · exact iff_of_true ⟨rfl, rfl, rfl, rfl⟩ (Or.inl hcount)
  · rw [or_iff_right hcount]
    have hrunning : ({ p with refcount := 0 } : Processor).running = p.running := rfl
    constructor
    · intro hsame
      rcases hrun : p.running with _ | _
      · rfl
      · rw [hrun] at hrunning
        exact absurd hsame (not_sameSession_term hrunning)
    · intro hrun
      rw [hrun] at hrunning
      rw [term_of_not_running hrunning]
      exact ⟨rfl, rfl, rfl, rfl⟩

end Processor

namespace Host

/-! ## The connections that are open -/

/-- A connection with a session is being read; and no processor has been closed for it, nor for
one that has not been opened. -/
structure Counted (s : Host) : Prop where
  reading : ∀ (c : Nat) (conn : Connection), s.server.connections[c]? = some conn →
    conn.session ≠ none → conn.reading = true
  closes : ∀ (c : Nat) (sk : Socket) (conn : Connection), s.sockets[c]? = some sk →
    s.server.connections[c]? = some conn →
    conn.session ≠ none ∨ conn.processorOpened = false → sk.closes = 0

section counted

variable {M : Mongo} {hash : BSONObj → String} {heap : Heap} {fromjson : List UInt8 → Option BSONObj}
  {s t : Host} {a : Action}

/-- One connection changes, with its socket. -/
theorem Counted.set (h : Counted s) {c : Nat} {sk' : Socket} {conn' : Connection}
    (hsockets : t.sockets = s.sockets.set c sk')
    (hconnections : t.server.connections = s.server.connections.set c conn')
    (hreading : conn'.session ≠ none → conn'.reading = true)
    (hcloses : conn'.session ≠ none ∨ conn'.processorOpened = false → sk'.closes = 0) :
    Counted t := by
  refine ⟨?_, ?_⟩
  · intro d conn hconn hsession
    rw [hconnections] at hconn
    rcases Server.getElem_set_cases hconn with ⟨-, rfl⟩ | ⟨-, hold⟩
    · exact hreading hsession
    · exact h.reading d conn hold hsession
  · intro d sk conn hd hconn
    rw [hsockets] at hd
    rw [hconnections] at hconn
    rcases Server.getElem_set_cases hd with ⟨rfl, rfl⟩ | ⟨hne, hold⟩
    · rcases Server.getElem_set_cases hconn with ⟨-, rfl⟩ | ⟨hne, -⟩
      · exact hcloses
      · exact absurd rfl hne
    · rcases Server.getElem_set_cases hconn with ⟨heq, -⟩ | ⟨-, hconn⟩
      · exact absurd heq hne
      · exact h.closes d sk conn hold hconn

/-- A socket changes, and has closed as often. -/
theorem Counted.setSocket (h : Counted s) {c : Nat} {sk sk' : Socket} (hsk : s.sockets[c]? = some sk)
    (hcloses : sk'.closes = sk.closes) : Counted (s.setSocket c sk') := by
  refine ⟨h.reading, ?_⟩
  intro d sk'' conn hd hconn
  rcases Server.getElem_set_cases hd with ⟨rfl, rfl⟩ | ⟨-, hold⟩
  · rw [hcloses]
    exact h.closes d sk conn hsk hconn
  · exact h.closes d sk'' conn hold hconn

/-- What a packet closes: nothing, unless it is a CLOSE of a connection with a processor. -/
theorem closing_request {c : Nat} {p : InPacket} {errmsg : Option String} {os : List PopOutcome}
    {o : BSONObj} {conn : Connection} (ho : fromjson (p.body.takeWhile (· ≠ 0)) = some o)
    (hreader : s.server.reader c = some conn) :
    s.server.closing (request fromjson c p errmsg os) =
      if (parseRequest o).2.1 = .closeCmd then conn.processor.map fun id => (conn, id) else none := by
  rw [request, ho]
  exact Server.closing_packet hreader o errmsg os

/-- A connection is accepted. -/
theorem Counted.accept (h : Counted s) (hlength : s.sockets.length = s.server.connections.length)
    {u : Server} (hu : u.connections = s.server.connections ++ [Connection.new]) :
    Counted ⟨u, s.sockets ++ [Socket.new]⟩ := by
  refine ⟨?_, ?_⟩
  · intro c conn hconn hsession
    rw [hu] at hconn
    rcases Server.getElem_concat_cases hconn with hold | ⟨-, rfl⟩
    · exact h.reading c conn hold hsession
    · rfl
  · intro c sk conn hc hconn
    rw [hu] at hconn
    rcases Server.getElem_concat_cases hc with hold | ⟨-, rfl⟩
    · rcases Server.getElem_concat_cases hconn with hconn | ⟨hlast, -⟩
      · exact h.closes c sk conn hold hconn
      · rw [hlast, ← hlength, List.getElem?_eq_none le_rfl] at hold
        cases hold
    · exact fun _ => rfl

/-- A connection that is open after a request was so before. -/
theorem open_of_leaves {cmd : Command} {conn conn' : Connection}
    (hleaves : Server.Leaves cmd conn conn')
    (hopen : conn'.session ≠ none ∨ conn'.processorOpened = false) :
    conn.session ≠ none ∨ conn.processorOpened = false := by
  by_cases hopened : conn.processorOpened = false
  · exact Or.inr hopened
  · have hopened' : conn'.processorOpened = true := hleaves.opened (by simpa using hopened)
    rcases hopen with hsession | hfresh
    · by_cases hcmd : cmd = .closeCmd
      · exact absurd (hleaves.closed hcmd) hsession
      · rcases hleaves.session hcmd with heq | hfresh
        · rw [heq] at hsession
          exact Or.inl hsession
        · exact Or.inr hfresh
    · rw [hopened'] at hfresh
      cases hfresh

/-- A request that leaves its connection open closes no processor. -/
theorem closing_eq_none_of_leaves (hs : s.server.Consistent) {c : Nat} {p : InPacket}
    {errmsg : Option String} {os : List PopOutcome} {o : BSONObj} {conn conn' : Connection}
    (ho : fromjson (p.body.takeWhile (· ≠ 0)) = some o) (hreader : s.server.reader c = some conn)
    (hleaves : Server.Leaves (parseRequest o).2.1 conn conn')
    (hopen : conn'.session ≠ none ∨ conn'.processorOpened = false) :
    s.server.closing (request fromjson c p errmsg os) = none := by
  have hmem : conn ∈ s.server.connections :=
    List.mem_of_getElem? (Server.getElem_of_reader hreader)
  rw [closing_request ho hreader]
  split_ifs with hcmd
  · -- after a CLOSE there is no session, and a connection without a processor closes none
    rcases hopen with hsession | hfresh
    · exact absurd (hleaves.closed hcmd) hsession
    · rcases hprocessor : conn.processor with _ | id
      · rfl
      · rw [hleaves.opened (hs.opened conn hmem (by simp [hprocessor]))] at hfresh
        cases hfresh
  · rfl

/-- A client disconnects. -/
theorem Counted.disconnect (h : Counted s) (hs : s.server.Consistent) {c : Nat} {sk : Socket}
    {conn : Connection} (hsk : s.sockets[c]? = some sk) (hreader : s.server.reader c = some conn) :
    Counted ⟨s.server.disconnect c conn, s.sockets.set c (s.disconnected c sk)⟩ := by
  have hconn := Server.getElem_of_reader hreader
  have hmem : conn ∈ s.server.connections := List.mem_of_getElem? hconn
  obtain ⟨conn', hconnections, -, hopened, hsession⟩ :=
    Server.connections_disconnect s.server c conn
  have hnone : conn'.session = none := by
    rcases hsession with hnone | ⟨hprocessor, hsame⟩
    · exact hnone
    · rw [hsame, Option.eq_none_iff_forall_not_mem]
      intro id hid
      have hsome := hs.session conn hmem id hid
      rw [hprocessor] at hsome
      cases hsome
  apply h.set rfl hconnections (fun hopen => absurd hnone hopen)
  intro hopen
  have hfresh : conn.processorOpened = false := by
    rw [← hopened]
    exact hopen.resolve_left fun hne => hne hnone
  have hprocessor : conn.processor = none := by
    by_contra hsome
    rw [hs.opened conn hmem hsome] at hfresh
    cases hfresh
  have hclosing : s.server.closing (.disconnect c) = none := by
    rw [Server.closing, hreader, Option.bind_some, hprocessor]
    rfl
  show sk.closes + _ = 0
  rw [hclosing, h.closes c sk conn hsk hconn (Or.inr hfresh)]
  rfl

/-- **One event** keeps the counts of the connections that are open. -/
theorem Counted.step (h : Counted s) (hs : s.server.Consistent) {bs : List Server.Action}
    (hfits : Fits bs s) (hstep : Host.step M hash heap fromjson s a = some t)
    (hfault : t.server.fault = none) : Counted t := by
  rcases step_effect hstep with ⟨u, hu⟩ | ⟨c, e, sk, sk', hsk, he⟩ | ⟨c, sk, field, hsk, -, -⟩ |
    ⟨c, errmsg, os, sk, field, p, u, reply, data, hsk, -, -, -, hu, -, -⟩ |
    ⟨c, sk, u, hsk, -, -, hu⟩ | ⟨id, read, write, u, hu⟩ | ⟨_, u, hu⟩
  · exact h.accept hfits.length (Server.connections_accept hu)
  · exact h.setSocket hsk (reading_of_socketStep he).2.2
  · exact h.setSocket hsk rfl
  · obtain ⟨o, conn, conn', ho, hreader, hconnections, hleaves⟩ := Server.leaves_of_step hu hfault
    have hconn := Server.getElem_of_reader hreader
    apply h.set rfl hconnections
    · intro _
      rw [hleaves.reading]
      exact (Option.filter_eq_some_iff.mp hreader).2
    · intro hopen
      show sk.closes + _ = 0
      rw [closing_eq_none_of_leaves hs ho hreader hleaves hopen,
        h.closes c sk conn hsk hconn (open_of_leaves hleaves hopen)]
      rfl
  · obtain ⟨conn, hreader, rfl⟩ := Server.eq_disconnect_of_step hu
    exact h.disconnect hs hsk hreader
  · have hconnections : u.connections = s.server.connections := Server.connections_work hu
    refine ⟨?_, ?_⟩
    · intro c conn hconn
      rw [hconnections] at hconn
      exact h.reading c conn hconn
    · intro c sk conn hc hconn
      rw [hconnections] at hconn
      exact h.closes c sk conn hc hconn
  · exact absurd hfault hu

/-- In every reachable state but after an exception. -/
theorem counted_run {as : List Action} (hrun : run (Host.step M hash heap fromjson) start as = some t)
    (hfault : t.server.fault = none) : Counted t := by
  refine @run_history_invariant _ _ (Host.step M hash heap fromjson)
    (fun _ t => t.server.fault = none → Counted t) start ?_ ?_ t as hrun hfault
  · intro as s a t hs hcounted hstep hfault
    have hbefore : s.server.fault = none := fault_of_step hstep
    obtain ⟨bs, hserver, hfits⟩ := exists_server_run hs hbefore
    have hconsistent := (Server.sharing_run hserver hbefore).consistent
    exact (hcounted hbefore).step hconsistent hfits hstep hfault
  · intro _
    refine ⟨?_, ?_⟩
    · intro c conn hc
      cases hc
    · intro c sk conn hc
      cases hc

end counted

/-! ## The connections that are gone -/

/-- The read of a header has failed, after one close of the processor. -/
def Gone (c : Nat) (s : Host) : Prop :=
  ∃ sk, s.sockets[c]? = some sk ∧ sk.reading = .none ∧ sk.closes = 1

section gone

variable {M : Mongo} {hash : BSONObj → String} {heap : Heap} {fromjson : List UInt8 → Option BSONObj}
  {s t : Host} {a : Action} {c : Nat}

/-- The socket of a connection that is gone, after another one has changed. -/
theorem Gone.set {sk : Socket} {d : Nat} {sk' sk'' : Socket} (hsk : s.sockets[c]? = some sk)
    (hgone : sk.reading = .none ∧ sk.closes = 1) (hsk' : s.sockets[d]? = some sk')
    (hsame : sk'.reading = .none → sk''.reading = .none ∧ sk''.closes = sk'.closes)
    (hsockets : t.sockets = s.sockets.set d sk'') : Gone c t := by
  by_cases heq : d = c
  · subst heq
    rw [hsk] at hsk'
    cases hsk'
    obtain ⟨hreading, hcloses⟩ := hsame hgone.1
    refine ⟨sk'', ?_, hreading, by rw [hcloses, hgone.2]⟩
    rw [hsockets, List.getElem?_set_self (List.getElem?_eq_some_iff.mp hsk).1]
  · refine ⟨sk, ?_, hgone⟩
    rw [hsockets, List.getElem?_set_ne heq, hsk]

/-- A connection that is gone stays so. -/
theorem Gone.step (h : Gone c s) (hstep : Host.step M hash heap fromjson s a = some t) :
    Gone c t := by
  obtain ⟨sk, hsk, hgone⟩ := h
  rcases step_effect hstep with ⟨u, hu⟩ | ⟨d, e, sk', sk'', hsk', he⟩ | ⟨d, sk', field, hsk', hreading, -⟩ |
    ⟨d, errmsg, os, sk', field, p, u, reply, data, hsk', hreading, -, -, hu, -, -⟩ |
    ⟨d, sk', u, hsk', hreading, -, hu⟩ | ⟨id, read, write, u, hu⟩ | ⟨_, u, hu⟩
  · refine ⟨sk, ?_, hgone⟩
    rw [List.getElem?_append_left (List.getElem?_eq_some_iff.mp hsk).1, hsk]
  · obtain ⟨hreading, -, hcloses⟩ := reading_of_socketStep he
    exact .set hsk hgone hsk' (fun hnone => ⟨by rw [hreading, hnone], hcloses⟩) rfl
  · exact .set hsk hgone hsk' (fun hnone => by rw [hreading] at hnone; cases hnone) rfl
  · exact .set hsk hgone hsk' (fun hnone => by rw [hreading] at hnone; cases hnone) rfl
  · exact .set hsk hgone hsk' (fun hnone => by rw [hreading] at hnone; cases hnone) rfl
  · exact ⟨sk, hsk, hgone⟩
  · exact ⟨sk, hsk, hgone⟩

end gone

/-! ## A read that fails -/

variable (M : Mongo) (hash : BSONObj → String) (heap : Heap)
  (fromjson : List UInt8 → Option BSONObj)

/-- The server takes the loss of the connection `c` well: no exception leaves the handler, the
processor of the connection is closed for it once, now and for ever, and the sessions of the
others are as before. -/
structure Released (s : Host) (c : Nat) (t : Host) : Prop where
  quiet : t.server.fault = none
  once : ∀ bs u, run (step M hash heap fromjson) t bs = some u →
    ∃ sk, u.sockets[c]? = some sk ∧ sk.closes = 1
  others : ∀ (d : Nat) (conn : Connection), d ≠ c → s.server.connections[d]? = some conn →
    t.server.connections[d]? = some conn ∧ t.sockets[d]? = s.sockets[d]? ∧
      ∀ id, conn.session = some id →
        (s.server.processors id).SameSession (t.server.processors id)

/-- The close of a processor does not end the session of another connection: it is not the last
one by the count, or no thread runs, or no other connection is open on the processor. -/
def Harmless (s : Host) (c : Nat) (id : String) : Prop :=
  1 < (s.server.processors id).refcount ∨ (s.server.processors id).running = false ∨
    ∀ (d : Nat) (conn : Connection), d ≠ c → s.server.connections[d]? = some conn →
      conn.session ≠ some id

variable {M hash heap fromjson}

/-- The failed read of a header. -/
theorem released_of_header_iff {s : Host} {c : Nat} {sk : Socket} {conn : Connection} {id : String}
    (hfault : s.server.fault = none) (hsk : s.sockets[c]? = some sk)
    (hreader : s.server.reader c = some conn) (hprocessor : conn.processor = some id)
    (hcloses : sk.closes = 0) :
    Released M hash heap fromjson s c
        ⟨s.server.disconnect c conn, s.sockets.set c (s.disconnected c sk)⟩ ↔ Harmless s c id := by
  have hclosing : s.server.closing (.disconnect c) = some (conn, id) := by
    rw [Server.closing, hreader, Option.bind_some, hprocessor]
    rfl
  have hdisconnect : s.server.disconnect c conn =
      s.server.close id c { conn with processor := none, reading := false } := by
    rw [Server.disconnect, hprocessor]
  rw [hdisconnect]
  constructor
  · intro h
    by_cases hother : ∃ (d : Nat) (conn' : Connection), d ≠ c ∧
        s.server.connections[d]? = some conn' ∧ conn'.session = some id
    · obtain ⟨d, conn', hd, hconn', hsession⟩ := hother
      have hsame := (h.others d conn' hd hconn').2.2 id hsession
      rw [Server.processors_close, Function.update_self] at hsame
      rcases (Processor.sameSession_close_iff _).mp hsame with hcount | hrun
      · exact Or.inl hcount
      · exact Or.inr (Or.inl hrun)
    · refine Or.inr (Or.inr ?_)
      intro d conn' hd hconn' hsession
      exact hother ⟨d, conn', hd, hconn', hsession⟩
  · intro h
    refine ⟨?_, ?_, fun d conn' hd hconn' => ⟨?_, ?_, fun id' hid' => ?_⟩⟩
    · rw [Server.fault_close, hfault]
    · intro bs u hrun
      have hgone : Gone c ⟨s.server.close id c { conn with processor := none, reading := false },
          s.sockets.set c (s.disconnected c sk)⟩ := by
        refine ⟨s.disconnected c sk, ?_, rfl, ?_⟩
        · exact List.getElem?_set_self (List.getElem?_eq_some_iff.mp hsk).1
        · rw [disconnected, hclosing, hcloses]
          rfl
      obtain ⟨sk', hsk', -, hcloses'⟩ := run_invariant_of_step
        (fun s a t hs hstep => Gone.step hs hstep) hgone hrun
      exact ⟨sk', hsk', hcloses'⟩
    · rw [Server.connections_close, List.getElem?_set_ne (Ne.symm hd), hconn']
    · exact List.getElem?_set_ne (Ne.symm hd)
    · rw [Server.processors_close, Function.update_apply]
      split_ifs with heq
      · rw [heq] at hid' ⊢
        apply (Processor.sameSession_close_iff _).mpr
        rcases h with hcount | hrun | hnone
        · exact Or.inl hcount
        · exact Or.inr hrun
        · exact absurd hid' (hnone d conn' hd hconn')
      · exact ⟨rfl, rfl, rfl, rfl⟩

variable (M hash heap fromjson)

/-- **A lost client.** In every reachable state, when the stream of a connection with a session has
broken off or its socket was closed: a read is under way and can fail, and the server takes that
well exactly when it is the read of a header and the close of the processor does not end the
session of another connection. -/
theorem released_iff (as : List Action) (s : Host)
    (hrun : run (step M hash heap fromjson) start as = some s) (hfault : s.server.fault = none)
    (c : Nat) (sk : Socket) (hsk : s.sockets[c]? = some sk) (conn : Connection)
    (hconn : s.server.connections[c]? = some conn) (id : String)
    (hsession : conn.session = some id) (hended : sk.ended = true) :
    ∃ t, step M hash heap fromjson s (.readFailed c) = some t ∧
      (Released M hash heap fromjson s c t ↔ sk.reading = .header ∧ Harmless s c id) := by
  obtain ⟨bs, hserver, hfits⟩ := exists_server_run hrun hfault
  have hcounted : Counted s := counted_run hrun hfault
  have hreading : conn.reading = true := hcounted.reading c conn hconn (by simp [hsession])
  have hreader : s.server.reader c = some conn :=
    Option.filter_eq_some_iff.mpr ⟨hconn, hreading⟩
  have hprocessor : conn.processor = some id :=
    (Server.sharing_run hserver hfault).consistent.session conn (List.mem_of_getElem? hconn) id
      hsession
  have hcloses : sk.closes = 0 := hcounted.closes c sk conn hsk hconn (Or.inl (by simp [hsession]))
  have hstep : step M hash heap fromjson s (.readFailed c) = s.readFailed M hash c sk := by
    simp [step, hfault, hsk, hended]
  rw [hstep, readFailed]
  rcases hphase : sk.reading with _ | _ | field
  · exact absurd hphase ((hfits.reading c sk conn hsk hconn).mp hreading)
  · refine ⟨_, by simp only [Server.step, hfault, hreader]; rfl, ?_⟩
    rw [and_iff_right rfl]
    exact released_of_header_iff hfault hsk hreader hprocessor hcloses
  · -- the `error_code` that is thrown has no handler
    refine ⟨_, by simp only [Server.step, hfault, hreader]; rfl, ?_⟩
    refine iff_of_false ?_ (fun hcond => (by cases hcond.1))
    intro h
    cases h.quiet

/-- Two connections open the sample options. -/
def sampleOpened : List Action :=
  [.accept, .accept, .socket 0 (.arrive (samplePacket "" (Server.sampleRequest 100))), .headerRead 0,
    .bodyRead 0 none [], .socket 1 (.arrive (samplePacket "" (Server.sampleRequest 100))),
    .headerRead 1, .bodyRead 1 none []]

/-- The client of the first one is lost inside a header. -/
theorem released_iff_sample : ∃ s t,
    run (step Mongo.plain Server.sampleHash sampleHeap sampleFromjson) start
        (sampleOpened ++ [.socket 0 (.arrive [32, 32]), .socket 0 .hangUp]) = some s ∧
      step Mongo.plain Server.sampleHash sampleHeap sampleFromjson s (.readFailed 0) = some t ∧
      Released Mongo.plain Server.sampleHash sampleHeap sampleFromjson s 0 t := by
  have hrun : (run (step Mongo.plain Server.sampleHash sampleHeap sampleFromjson) start
      (sampleOpened ++ [.socket 0 (.arrive [32, 32]), .socket 0 .hangUp])).any
      (fun s => s.server.fault.isNone &&
        decide (1 < (s.server.processors (Server.sampleHash [])).refcount) &&
        ((s.sockets[0]?).any fun sk => sk.ended && decide (sk.reading = .header)) &&
        (s.server.connections[0]?).any fun conn =>
          decide (conn.session = some (Server.sampleHash []))) = true := by
    decide +kernel
  obtain ⟨s, hs, hend⟩ := (Option.any_eq_true _ _).mp hrun
  simp only [Bool.and_eq_true, decide_eq_true_eq, Option.isNone_iff_eq_none] at hend
  obtain ⟨⟨⟨hfault, hcount⟩, hsocket⟩, hconnection⟩ := hend
  obtain ⟨sk, hsk, hread⟩ := (Option.any_eq_true _ _).mp hsocket
  obtain ⟨conn, hconn, hsession⟩ := (Option.any_eq_true _ _).mp hconnection
  obtain ⟨hended, hreading⟩ := Bool.and_eq_true_iff.mp hread
  obtain ⟨t, ht, hiff⟩ := released_iff Mongo.plain Server.sampleHash sampleHeap sampleFromjson _ s hs
    hfault 0 sk hsk conn hconn _ (of_decide_eq_true hsession) hended
  exact ⟨s, t, hs, ht, hiff.mpr ⟨of_decide_eq_true hreading, Or.inl hcount⟩⟩

/-- The client of the first one is lost inside a body: the program ends, and with it the session
of the second one. -/
theorem not_released_sample : ∃ s t,
    run (step Mongo.plain Server.sampleHash sampleHeap sampleFromjson) start
        (sampleOpened ++ [.socket 0 (.arrive ((samplePacket "" sampleRewind).take 20)),
          .headerRead 0, .socket 0 .hangUp]) = some s ∧
      s.server.connections.map Connection.session =
        [some (Server.sampleHash []), some (Server.sampleHash [])] ∧
      step Mongo.plain Server.sampleHash sampleHeap sampleFromjson s (.readFailed 0) = some t ∧
      t.server.fault = some .errorCode ∧
      ¬Released Mongo.plain Server.sampleHash sampleHeap sampleFromjson s 0 t := by
  have hrun : (run (step Mongo.plain Server.sampleHash sampleHeap sampleFromjson) start
      (sampleOpened ++ [.socket 0 (.arrive ((samplePacket "" sampleRewind).take 20)),
        .headerRead 0, .socket 0 .hangUp])).any
      (fun s => decide (s.server.connections.map Connection.session =
          [some (Server.sampleHash []), some (Server.sampleHash [])]) &&
        (step Mongo.plain Server.sampleHash sampleHeap sampleFromjson s (.readFailed 0)).any
          fun t => decide (t.server.fault = some .errorCode)) = true := by
    decide +kernel
  obtain ⟨s, hs, hend⟩ := (Option.any_eq_true _ _).mp hrun
  obtain ⟨hsessions, hstep⟩ := Bool.and_eq_true_iff.mp hend
  obtain ⟨t, ht, hfault⟩ := (Option.any_eq_true _ _).mp hstep
  have herror : t.server.fault = some .errorCode := of_decide_eq_true hfault
  refine ⟨s, t, hs, of_decide_eq_true hsessions, ht, herror, ?_⟩
  intro h
  rw [h.quiet] at herror
  cases herror

end Host

end Zbroker
