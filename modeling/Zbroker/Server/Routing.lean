import Zbroker.Server.Socket

/-!
# Which processor executes a request

`connection::process` asks a packet for its id only when the connection has no processor, and what
it gets is empty: `in_packet::unpack()`, which would fill `m_packet_id` from the 32 bytes at the
start of a packet, is called nowhere on the way from the socket. A connection with a processor
does not ask at all.

* `Server.executor` — the processor whose `process` is called. `fault_of_executor`: without one
  the request ends the program; `frame_process`: with one no other processor changes, and the
  answer carries its id.
* `Host.pending` — the request in a packet that is about to be read, and the id it carries.
* `Routed`, `FromOpen` — the request is executed by the processor with that id; its connection
  has begun with the OPEN that the id belongs to.
* **`routed_iff`**: every request of a run is routed by its id exactly when it comes on such a
  connection.
The processor of a connection is that of its OPEN body (`Sharing`), and a connection without one asks with
the empty id; so each request is compared with the opener of its connection (`routed_iff_fromOpen`).
-/

namespace Zbroker

open Found.Transition

namespace Server

/-- The processor whose `process` is called for a request of the connection; there is none if the
look-up fails. -/
def executor (hash : BSONObj → String) (conn : Connection) (cmdObj : BSONObj) (s : Server) :
    Option String :=
  let r := parseRequest cmdObj
  let id := conn.processor.getD (if r.2.1 = .openCmd then hash r.2.2 else "")
  match if conn.processor.isSome then .ok (s.processors id) else s.find id with
  | .error _ => none
  | .ok _ => some id

section executor

variable {M : Mongo} {hash : BSONObj → String} {s t : Server} {c : Nat} {conn : Connection}
  {id : String} {cmdObj : BSONObj} {errmsg : Option String} {os : List PopOutcome}

/-- A request other than OPEN is executed by the processor of its connection. -/
theorem executor_eq (hcmd : (parseRequest cmdObj).2.1 ≠ .openCmd) :
    executor hash conn cmdObj s = conn.processor := by
  unfold executor
  dsimp only
  rcases conn.processor with _ | id
  · simp only [Option.getD_none, if_neg hcmd]
    rfl
  · rfl

/-- Without a processor to execute it, a request ends the program. -/
theorem fault_of_executor (h : executor hash conn cmdObj s = none)
    (hprocess : s.process M hash c conn cmdObj errmsg os = some t) : t.fault ≠ none := by
  unfold executor at h
  unfold process at hprocess
  dsimp only at h hprocess
  split at hprocess
  · cases hprocess
    simp
  · rename_i p hp
    rw [hp] at h
    cases h

/-- What is sent is what a request has left in `m_send_buffer`. -/
theorem eq_of_mem_sent (hconn : s.connections[c]? = some conn) {conn' : Connection}
    (ht : t.connections = s.connections.set c conn') {reply reply' : Reply}
    (hbuffer : conn'.sendBuffer = some reply) (h : reply' ∈ t.sent c) : reply' = reply := by
  rcases hfault : t.fault with _ | e
  · rw [sent_of_set hfault hconn ht hbuffer] at h
    exact List.mem_singleton.mp h
  · rw [sent_of_fault (by simp [hfault])] at h
    cases h

/-- **A request other than OPEN** that has a processor to execute it leaves the others as they are,
and its answer carries the id of this one. -/
theorem frame_process (hcmd : (parseRequest cmdObj).2.1 ≠ .openCmd)
    (h : executor hash conn cmdObj s = some id) (hconn : s.connections[c]? = some conn)
    (hprocess : s.process M hash c conn cmdObj errmsg os = some t) :
    (∀ id', id' ≠ id → t.processors id' = s.processors id') ∧
      ∀ reply ∈ t.sent c, reply.packetId = id := by
  rw [executor_eq hcmd] at h
  rcases process_cases hprocess with ⟨e, -⟩ | ⟨_, _, _, hopen, -⟩ | ⟨_, _, hopen, -⟩ |
    ⟨id₀, t, -, hid, hexecuted⟩
  · refine ⟨fun _ _ => rfl, ?_⟩
    intro reply hreply
    cases hreply
  · exact absurd hopen hcmd
  · exact absurd hopen hcmd
  · rw [hid] at h
    cases h
    rcases hexecuted with ⟨e, -⟩ | ⟨body, -⟩ | ⟨p, body, -, -, -⟩
    · refine ⟨fun _ _ => rfl, ?_⟩
      intro reply hreply
      cases hreply
    · refine ⟨?_, ?_⟩
      · intro id' hne
        rw [processors_close, Function.update_of_ne hne]
      · intro reply hreply
        rw [eq_of_mem_sent hconn (connections_close s id c _) rfl hreply]
    · refine ⟨fun id' hne => Function.update_of_ne hne _ _, ?_⟩
      intro reply hreply
      rw [eq_of_mem_sent hconn rfl rfl hreply]

end executor

end Server

namespace Host

variable (M : Mongo) (hash : BSONObj → String) (heap : Heap)
  (fromjson : List UInt8 → Option BSONObj)

/-- The id in a packet, and its request, when its body is read next. -/
def pending (s : Host) (c : Nat) : Option (List UInt8 × BSONObj) :=
  (s.sockets[c]?).bind fun sk =>
    match sk.reading with
    | .body field =>
        match receive heap field sk.incoming with
        | .ok p =>
            if p.bodyLength < packetIdLength then none
            else (fromjson (p.body.takeWhile (· ≠ 0))).map fun o => (p.raw.take packetIdLength, o)
        | .error _ => none
    | _ => none

/-- A request, if it is no OPEN, is executed by the processor whose id it carries: the 32 bytes are
those with which this processor has answered its OPEN. -/
def Routed (s : Host) : Action → Prop
  | .bodyRead c _ _ =>
      ∀ r ∈ pending heap fromjson s c, (parseRequest r.2).2.1 = .openCmd ∨
        ∃ conn ∈ s.server.connections[c]?,
          ∃ id ∈ Server.executor hash conn r.2 s.server, printId (bytesOf id) = r.1
  | _ => True

/-- A request, if it is no OPEN, comes on a connection whose first request was an OPEN, with a body
whose hash is the id that the request carries. -/
def FromOpen (s : Host) : Action → Prop
  | .bodyRead c _ _ =>
      ∀ r ∈ pending heap fromjson s c, (parseRequest r.2).2.1 = .openCmd ∨
        ∃ sk ∈ s.sockets[c]?, ∃ body ∈ sk.opener, printId (bytesOf (hash body)) = r.1
  | _ => True

instance (s : Host) : (a : Action) → Decidable (Routed hash heap fromjson s a)
  | .bodyRead c _ _ =>
      inferInstanceAs (Decidable (∀ r ∈ pending heap fromjson s c,
        (parseRequest r.2).2.1 = .openCmd ∨ ∃ conn ∈ s.server.connections[c]?,
          ∃ id ∈ Server.executor hash conn r.2 s.server, printId (bytesOf id) = r.1))
  | .accept | .socket _ _ | .headerRead _ | .readFailed _ | .work _ _ _ => isTrue trivial

instance (s : Host) : (a : Action) → Decidable (FromOpen hash heap fromjson s a)
  | .bodyRead c _ _ =>
      inferInstanceAs (Decidable (∀ r ∈ pending heap fromjson s c,
        (parseRequest r.2).2.1 = .openCmd ∨ ∃ sk ∈ s.sockets[c]?,
          ∃ body ∈ sk.opener, printId (bytesOf (hash body)) = r.1))
  | .accept | .socket _ _ | .headerRead _ | .readFailed _ | .work _ _ _ => isTrue trivial

section routed

variable {M hash heap fromjson} {s t : Host} {a : Action}

/-- A request that is about to be read has a socket that reads its body. -/
theorem reading_of_pending {c : Nat} {r : List UInt8 × BSONObj}
    (h : pending heap fromjson s c = some r) :
    ∃ sk field, s.sockets[c]? = some sk ∧ sk.reading = .body field := by
  obtain ⟨sk, hsk, h⟩ := Option.bind_eq_some_iff.mp h
  split at h
  · rename_i field hreading
    exact ⟨sk, field, hsk, hreading⟩
  · cases h

/-- **One request**: the processor of its connection is the one of the OPEN that the socket
remembers. -/
theorem routed_iff_fromOpen (hs : Simulates M hash s) (hfault : s.server.fault = none) :
    Routed hash heap fromjson s a ↔ FromOpen hash heap fromjson s a := by
  obtain ⟨bs, hserver, hfits⟩ := hs hfault
  have hsharing : Server.Sharing hash bs s.server := Server.sharing_run hserver hfault
  rcases a with _ | _ | _ | ⟨c, errmsg, os⟩ | _ | _
  · exact Iff.rfl
  · exact Iff.rfl
  · exact Iff.rfl
  · refine forall_congr' fun r => forall_congr' fun hr => ?_
    by_cases hcmd : (parseRequest r.2).2.1 = .openCmd
    · exact iff_of_true (Or.inl hcmd) (Or.inl hcmd)
    rw [or_iff_right hcmd, or_iff_right hcmd]
    obtain ⟨sk, field, hsk, hreading⟩ := reading_of_pending hr
    have hlt : c < s.server.connections.length := by
      rw [← hfits.length]
      exact (List.getElem?_eq_some_iff.mp hsk).1
    obtain ⟨conn, hconn⟩ : ∃ conn, s.server.connections[c]? = some conn :=
      ⟨_, List.getElem?_eq_getElem hlt⟩
    have hread : conn.reading = true :=
      (hfits.reading c sk conn hsk hconn).mpr (by simp [hreading])
    have hopener : sk.opener = Server.openBody c bs := hfits.opener c sk hsk
    have hprocessor : conn.processor = sk.opener.map hash := by
      rw [hopener]
      rcases hp : conn.processor with _ | id
      · rw [(hsharing.fresh c conn hconn hread hp).2]
        rfl
      · obtain ⟨body, hbody, rfl⟩ := hsharing.processor c conn id hconn hp
        rw [hbody]
        rfl
    simp only [hconn, hsk, Option.mem_def, Option.some.injEq, exists_eq_left',
      Server.executor_eq hcmd, hprocessor, Option.map_eq_some_iff, exists_exists_and_eq_and]
  · exact Iff.rfl
  · exact Iff.rfl

end routed

/-- **Routing.** In a run of the host every request but the OPENs is executed by the processor whose
id it carries, exactly when every such request comes on a connection whose first request was an
OPEN with that id. -/
theorem routed_iff (as : List Action) (u : Host)
    (hrun : run (step M hash heap fromjson) start as = some u) :
    Guarded (step M hash heap fromjson) (Routed hash heap fromjson) start as ↔
      Guarded (step M hash heap fromjson) (FromOpen hash heap fromjson) start as :=
  guarded_iff_of_run (fun _ _ _ hs hstep => Simulates.step hs hstep)
    (fun _ _ _ hs hstep => routed_iff_fromOpen hs (fault_of_step hstep)) simulates_start hrun

/-- An OPEN, and a REWIND with the id of its answer on the same connection. -/
def sampleSame : List Action :=
  [.accept, .socket 0 (.arrive (samplePacket "" (Server.sampleRequest 100))), .headerRead 0,
    .bodyRead 0 none [],
    .socket 0 (.arrive (samplePacket (Server.sampleHash []) sampleRewind)), .headerRead 0,
    .bodyRead 0 none []]

/-- A request of the connection that opened the session. -/
theorem routed_iff_sample :
    Guarded (step Mongo.plain Server.sampleHash sampleHeap sampleFromjson)
      (Routed Server.sampleHash sampleHeap sampleFromjson) start sampleSame := by
  obtain ⟨u, hu⟩ := Option.isSome_iff_exists.mp (show (run (step Mongo.plain Server.sampleHash
    sampleHeap sampleFromjson) start sampleSame).isSome = true by decide +kernel)
  apply (routed_iff Mongo.plain Server.sampleHash sampleHeap sampleFromjson _ u hu).mpr
  decide +kernel

/-- The REWIND comes on a second connection instead. -/
def sampleSecond : List Action :=
  [.accept, .accept, .socket 0 (.arrive (samplePacket "" (Server.sampleRequest 100))),
    .headerRead 0, .bodyRead 0 none [],
    .socket 1 (.arrive (samplePacket (Server.sampleHash []) sampleRewind)), .headerRead 1,
    .bodyRead 1 none []]

/-- There is no processor under the id by which it is looked up. -/
theorem not_routed_sample : ∃ t,
    run (step Mongo.plain Server.sampleHash sampleHeap sampleFromjson) start sampleSecond = some t ∧
      t.server.fault = some (.assertion "processor_id.size() > 0") ∧
      ¬Guarded (step Mongo.plain Server.sampleHash sampleHeap sampleFromjson)
        (Routed Server.sampleHash sampleHeap sampleFromjson) start sampleSecond := by
  have hrun : (run (step Mongo.plain Server.sampleHash sampleHeap sampleFromjson) start
      sampleSecond).any
      (fun t => decide (t.server.fault = some (.assertion "processor_id.size() > 0"))) = true := by
    decide +kernel
  obtain ⟨t, ht, hfault⟩ := (Option.any_eq_true _ _).mp hrun
  refine ⟨t, ht, of_decide_eq_true hfault, ?_⟩
  decide +kernel

end Host

end Zbroker
