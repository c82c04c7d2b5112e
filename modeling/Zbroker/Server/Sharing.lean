import Mathlib.Data.Set.Function
import Zbroker.Server.Refcount
import Zbroker.Session.Effect
import Zbroker.Session.Updates

/-!
# Which processor a connection has

`openBody c as` is the body of the first OPEN that the connection `c` has sent in the schedule
`as`. A connection finds its processor by the hash of that body and keeps it until it
disconnects; the processor may be closed and opened again by others meanwhile.

* `Change`, **`step_change`** — what an event that is no exception does to the processors of the
  connections and to the settings of the brokers: a connection is accepted, one is opened, or
  all that was configured stays or is closed.
* `Sharing hash as t` — the invariant: processors are those of the hashes of the bodies, and a
  connected broker is configured from a body with the hash of its processor. **`sharing_run`**: it
  holds in every reachable state of the server.
* `Dedicated` — of the brokers of a processor the one is connected that its bodies are for.
  `Sharing.dedicated`: so it is, if no two bodies have the same hash.
* `work_of_readSession`, `work_of_writeSession` — the steps of the threads are events of the
  server.
`Sharing` is kept by every event (`Sharing.step`), which is read off `Change`: a connection is accepted,
opened, or kept with its processor, and a broker is configured by the OPEN that connects it.
-/

namespace Zbroker

open Found.Transition

/-! ## What stays -/

/-- The connection keeps its processor, or has disconnected. -/
def Connection.Keeps (conn conn' : Connection) : Prop :=
  conn'.processor = conn.processor ∧ conn'.processorOpened = conn.processorOpened ∧
      conn'.reading = conn.reading ∨
    conn'.processor = none ∧ conn'.reading = false

/-- A connection keeps what it has. -/
theorem Connection.Keeps.refl (conn : Connection) : conn.Keeps conn := Or.inl ⟨rfl, rfl, rfl⟩

namespace Processor

/-- What an open that succeeds does to a broker that is to be open. -/
def Opened (connect : String → Option String) (body : BSONObj) (b b' : Broker) : Prop :=
  b' = b ∧ b.connected = true ∨
    b.connected = false ∧ b.openOn connect (some body) = (b', none)

/-- An open that succeeds is one for reading or one for writing. -/
theorem openFor_cases {connect : String → Option String} {purpose : Int} {body : BSONObj}
    {p p' : Processor} (h : p.openFor connect purpose body = .ok p') :
    purpose = 1 ∧ p'.writeBroker = p.writeBroker ∧
        Opened connect body p.readBroker p'.readBroker ∨
      purpose = 2 ∧ p'.readBroker = p.readBroker ∧
        Opened connect body p.writeBroker p'.writeBroker := by
  unfold openFor at h
  split_ifs at h with hread hwrite
  · rcases hopen : p.openRead connect body with e | q
    · rw [hopen] at h
      cases h
    · rw [hopen] at h
      cases h
      refine Or.inl ⟨hread, ?_⟩
      unfold openRead at hopen
      split_ifs at hopen with hconnected
      · cases hopen
        exact ⟨rfl, Or.inl ⟨rfl, hconnected⟩⟩
      · split at hopen
        · cases hopen
        · rename_i b hb
          cases hopen
          exact ⟨rfl, Or.inr ⟨by simpa using hconnected, hb⟩⟩
  · rcases hopen : p.openWrite connect body with e | q
    · rw [hopen] at h
      cases h
    · rw [hopen] at h
      cases h
      refine Or.inr ⟨hwrite, ?_⟩
      unfold openWrite at hopen
      split_ifs at hopen with hconnected
      · cases hopen
        exact ⟨rfl, Or.inl ⟨rfl, hconnected⟩⟩
      · split at hopen
        · cases hopen
        · rename_i b hb
          cases hopen
          exact ⟨rfl, Or.inr ⟨by simpa using hconnected, hb⟩⟩
  · cases h

end Processor

namespace Server

/-! ## The bodies -/

/-- The body, if the event is an OPEN of the connection. -/
def Action.openBody (c : Nat) : Action → Option BSONObj
  | .packet c' (some cmdObj) _ _ =>
      if c' = c ∧ (parseRequest cmdObj).2.1 = .openCmd then some (parseRequest cmdObj).2.2 else none
  | _ => none

/-- The body of the first OPEN of a connection. -/
def openBody (c : Nat) (as : List Action) : Option BSONObj := as.findSome? (Action.openBody c)

/-- One event more. -/
theorem openBody_concat (c : Nat) (as : List Action) (a : Action) :
    openBody c (as ++ [a]) = (openBody c as).or (a.openBody c) := by
  rw [openBody, List.findSome?_append]
  congr 1
  rcases h : a.openBody c with _ | body
  · simp [h]
  · simp [h]

/-- The first OPEN stays the first. -/
theorem openBody_concat_of_eq_some {c : Nat} {as : List Action} {body : BSONObj}
    (h : openBody c as = some body) (a : Action) : openBody c (as ++ [a]) = some body := by
  rw [openBody_concat, h, Option.some_or]

/-! ## What an event changes -/

/-- What an event does to the processors of the connections and to the settings of the brokers. -/
inductive Change (hash : BSONObj → String) (s : Server) (a : Action) (t : Server) : Prop
  /-- A connection is accepted. -/
  | accepted (hopen : ∀ c, a.openBody c = none)
      (hconnections : t.connections = s.connections ++ [Connection.new])
      (hprocessors : t.processors = s.processors)
  /-- A connection finds its processor and opens it. -/
  | opened (c : Nat) (conn conn' : Connection) (body : BSONObj) (connect : String → Option String)
      (p' : Processor) (hreader : s.reader c = some conn) (hbefore : conn.processor = none)
      (hbody : a.openBody c = some body) (hother : ∀ d, d ≠ c → a.openBody d = none)
      (hopen : (s.processors (hash body)).openFor connect (BSON.getIntField body "purpose") body =
        .ok p')
      (hafter : conn'.processor = some (hash body) ∧ conn'.processorOpened = true)
      (hconnections : t.connections = s.connections.set c conn')
      (hprocessors : t.processors = Function.update s.processors (hash body) p')
  /-- The connections have the processors they had, or disconnect; all brokers keep their
  settings or are closed. -/
  | kept (hlength : t.connections.length = s.connections.length)
      (hopen : ∀ (c : Nat) (body : BSONObj), a.openBody c = some body →
        ∃ conn : Connection, s.connections[c]? = some conn ∧ conn.processor ≠ none)
      (hconn : ∀ (c : Nat) (conn' : Connection), t.connections[c]? = some conn' →
        ∃ conn : Connection, s.connections[c]? = some conn ∧ conn.Keeps conn')
      (hkeeps : ∀ id, (s.processors id).Keeps (t.processors id))

section change

variable {M : Mongo} {hash : BSONObj → String} {s t : Server} {a : Action} {c : Nat} {id : String}
  {conn conn' : Connection}

/-- No connection changes. -/
theorem Change.of_connections_eq (hopen : ∀ c, a.openBody c = none)
    (hconnections : t.connections = s.connections)
    (hkeeps : ∀ id, (s.processors id).Keeps (t.processors id)) : Change hash s a t := by
  refine .kept (by rw [hconnections]) ?_ ?_ hkeeps
  · intro d body hbody
    rw [hopen d] at hbody
    cases hbody
  · intro d conn' hd
    rw [hconnections] at hd
    exact ⟨conn', hd, Connection.Keeps.refl conn'⟩

/-- One connection changes, and keeps its processor or disconnects. -/
theorem Change.of_set (hopen : ∀ d body, a.openBody d = some body → d = c ∧ conn.processor ≠ none)
    (hconn : s.connections[c]? = some conn)
    (hconnections : t.connections = s.connections.set c conn') (hconn' : conn.Keeps conn')
    (hkeeps : ∀ id, (s.processors id).Keeps (t.processors id)) : Change hash s a t := by
  refine .kept ?_ ?_ ?_ hkeeps
  · rw [hconnections, List.length_set]
  · intro d body hbody
    obtain ⟨rfl, hprocessor⟩ := hopen d body hbody
    exact ⟨conn, hconn, hprocessor⟩
  · intro d conn'' hd
    rw [hconnections] at hd
    rcases getElem_set_cases hd with ⟨rfl, rfl⟩ | ⟨-, hd⟩
    · exact ⟨conn, hconn, hconn'⟩
    · exact ⟨conn'', hd, Connection.Keeps.refl conn''⟩

/-- One processor changes, and its brokers keep their settings or are closed. -/
theorem keeps_update {p : Processor} (h : (s.processors id).Keeps p) (id' : String) :
    (s.processors id').Keeps (Function.update s.processors id p id') := by
  rw [Function.update_apply]
  split_ifs with heq
  · rw [heq]
    exact h
  · exact Processor.Keeps.refl _

/-- The bodies in a packet. -/
theorem openBody_packet (cmdObj : BSONObj) (errmsg : Option String) (os : List PopOutcome)
    (d : Nat) :
    (Action.packet c (some cmdObj) errmsg os).openBody d =
      if c = d ∧ (parseRequest cmdObj).2.1 = .openCmd then some (parseRequest cmdObj).2.2
      else none := rfl

/-- A packet has no body of another connection. -/
theorem openBody_packet_of_ne {d : Nat} (h : d ≠ c) (cmdObj : Option BSONObj)
    (errmsg : Option String) (os : List PopOutcome) :
    (Action.packet c cmdObj errmsg os).openBody d = none := by
  rcases cmdObj with _ | cmdObj
  · rfl
  · rw [openBody_packet, if_neg fun hand => h hand.1.symm]

/-- A packet. -/
theorem process_change {cmdObj : BSONObj} {errmsg : Option String} {os : List PopOutcome}
    (hs : Consistent s) (hreader : s.reader c = some conn)
    (h : s.process M hash c conn cmdObj errmsg os = some t) (hfault : t.fault = none)
    (hfresh : conn.processor = none → conn.processorOpened = false) :
    Change hash s (.packet c (some cmdObj) errmsg os) t := by
  have hconn := getElem_of_reader hreader
  have hmem : conn ∈ s.connections := List.mem_of_getElem? hconn
  have hquiet : (parseRequest cmdObj).2.1 ≠ .openCmd → ∀ d body,
      (Action.packet c (some cmdObj) errmsg os).openBody d = some body →
        d = c ∧ conn.processor ≠ none := by
    intro hcmd d body hbody
    rw [openBody_packet, if_neg fun hand => hcmd hand.2] at hbody
    cases hbody
  rcases process_cases h with ⟨e, -⟩ | ⟨id, p, extra, hcmd, hid, hopened, hopen⟩ |
    ⟨id, reply, hcmd, hid, hopened⟩ | ⟨id, t, hcmd, hid, hexecuted⟩
  · cases hfault
  · have hprocessor : conn.processor = none := by
      by_contra hsome
      rw [hs.opened conn hmem hsome] at hopened
      cases hopened
    rw [hprocessor, Option.getD_none] at hid
    subst hid
    refine .opened c conn _ (parseRequest cmdObj).2.2 (fun _ => errmsg) p hreader hprocessor ?_
      (fun d hd => openBody_packet_of_ne hd _ _ _) hopen ⟨rfl, rfl⟩ rfl rfl
    rw [openBody_packet, if_pos ⟨rfl, hcmd⟩]
  · have hsome : conn.processor ≠ none := by
      intro hnone
      rw [hfresh hnone] at hopened
      cases hopened
    obtain ⟨id', hid'⟩ := Option.ne_none_iff_exists'.mp hsome
    rw [hid', Option.getD_some] at hid
    subst hid
    refine .of_set ?_ hconn rfl (Or.inl ⟨hid'.symm, rfl, rfl⟩) fun id => Processor.Keeps.refl _
    intro d body hbody
    rw [openBody_packet] at hbody
    split_ifs at hbody with hand
    exact ⟨hand.1.symm, hsome⟩
  · rcases hexecuted with ⟨e, -⟩ | ⟨body, -⟩ | ⟨p, body, -, -, hkeeps⟩
    · cases hfault
    · refine .of_set (hquiet hcmd) hconn (connections_close s id c _) (Or.inl ⟨rfl, rfl, rfl⟩) ?_
      intro id'
      rw [processors_close]
      exact keeps_update (Processor.keeps_close _) id'
    · exact .of_set (hquiet hcmd) hconn rfl (Connection.Keeps.refl conn) (keeps_update hkeeps)

/-- **What an event changes**, if it is no exception. -/
theorem step_change (hs : Consistent s)
    (hfresh : ∀ c conn, s.reader c = some conn → conn.processor = none →
      conn.processorOpened = false)
    (h : step M hash s a = some t) (hfault : t.fault = none) : Change hash s a t := by
  unfold step at h
  split at h
  · cases h
  · rcases a with _ | ⟨c, _ | cmdObj, errmsg, os⟩ | c | c | ⟨id, read, write⟩
    · cases h
      exact .accepted (fun _ => rfl) rfl rfl
    · obtain ⟨conn, -, rfl⟩ := Option.map_eq_some_iff.mp h
      cases hfault
    · obtain ⟨conn, hreader, hprocess⟩ := Option.bind_eq_some_iff.mp h
      exact process_change hs hreader hprocess hfault (hfresh c conn hreader)
    · obtain ⟨conn, hreader, rfl⟩ := Option.map_eq_some_iff.mp h
      have hconn := getElem_of_reader hreader
      unfold disconnect
      rcases hprocessor : conn.processor with _ | id
      · refine .of_set ?_ hconn rfl (Or.inr ⟨rfl, rfl⟩) fun id => Processor.Keeps.refl _
        intro d body hbody
        cases hbody
      · refine .of_set ?_ hconn (connections_close s id c _) (Or.inr ⟨rfl, rfl⟩) ?_
        · intro d body hbody
          cases hbody
        · intro id'
          rw [processors_close]
          exact keeps_update (Processor.keeps_close _) id'
    · obtain ⟨conn, -, rfl⟩ := Option.map_eq_some_iff.mp h
      cases hfault
    · simp only [work] at h
      split_ifs at h with hsettings
      cases h
      exact .of_connections_eq (fun _ => rfl) rfl
        (keeps_update ⟨Or.inl hsettings.1, Or.inl hsettings.2⟩)

end change

/-! ## The invariant -/

/-- Which brokers of the processor under an id are connected, and from what: the read broker from
the body of an OPEN for reading that has this hash, the write broker from one for writing. -/
structure Configured (hash : BSONObj → String) (as : List Action) (id : String) (purpose : Int)
    (b : Broker) : Prop where
  inited : b.inited = b.connected
  body : b.connected = true → ∃ c body, openBody c as = some body ∧ hash body = id ∧
    BSON.getIntField body "purpose" = purpose ∧ b.ConfiguredFrom body

/-- Connections have the processors of their bodies, and brokers are configured from these. -/
structure Sharing (hash : BSONObj → String) (as : List Action) (t : Server) : Prop where
  consistent : Consistent t
  processor : ∀ c conn id, t.connections[c]? = some conn → conn.processor = some id →
    ∃ body, openBody c as = some body ∧ hash body = id
  fresh : ∀ c conn, t.connections[c]? = some conn → conn.reading = true →
    conn.processor = none → conn.processorOpened = false ∧ openBody c as = none
  absent : ∀ c, t.connections[c]? = none → openBody c as = none
  read : ∀ id, Configured hash as id 1 (t.processors id).readBroker
  write : ∀ id, Configured hash as id 2 (t.processors id).writeBroker

section sharing

variable {M : Mongo} {hash : BSONObj → String} {as : List Action} {s t : Server} {a : Action}
  {id : String} {purpose : Int} {b b' : Broker}

/-- There is nothing to share. -/
theorem sharing_start : Sharing hash [] start := by
  refine ⟨consistent_start, ?_, ?_, fun c _ => rfl, ?_, ?_⟩
  · intro c conn id hconn
    cases hconn
  · intro c conn hconn
    cases hconn
  · intro id
    refine ⟨rfl, ?_⟩
    intro hconnected
    cases hconnected
  · intro id
    refine ⟨rfl, ?_⟩
    intro hconnected
    cases hconnected

/-- A broker that keeps its settings stays configured. -/
theorem Configured.of_keeps (h : Configured hash as id purpose b) (hkeeps : b.Keeps b')
    (a : Action) : Configured hash (as ++ [a]) id purpose b' := by
  refine ⟨hkeeps.inited_eq h.inited, ?_⟩
  intro hconnected
  obtain ⟨hsettings, hbefore⟩ := hkeeps.settings_eq hconnected
  obtain ⟨c, body, hbody, hhash, hpurpose, hfrom⟩ := h.body hbefore
  exact ⟨c, body, openBody_concat_of_eq_some hbody a, hhash, hpurpose,
    hfrom.of_settings_eq hsettings⟩

/-- The broker that an OPEN is for is configured. -/
theorem Configured.of_opened (h : Configured hash as id purpose b) {connect : String → Option String}
    {c : Nat} {body : BSONObj} (hopened : Processor.Opened connect body b b')
    (hbody : openBody c (as ++ [a]) = some body) (hhash : hash body = id)
    (hpurpose : BSON.getIntField body "purpose" = purpose) :
    Configured hash (as ++ [a]) id purpose b' := by
  rcases hopened with ⟨rfl, -⟩ | ⟨hbefore, hopen⟩
  · exact h.of_keeps (Or.inl rfl) a
  · have hinited : b.inited = false := by rw [h.inited, hbefore]
    obtain ⟨hfrom, hinited', hconnected'⟩ := Broker.configuredFrom_of_openOn hinited hopen
    exact ⟨by rw [hinited', hconnected'], fun _ => ⟨c, body, hbody, hhash, hpurpose, hfrom⟩⟩

/-- A connection that was just accepted has neither a processor nor a body. -/
theorem Sharing.of_accepted (h : Sharing hash as s) (ht : Consistent t)
    (hopen : ∀ c, a.openBody c = none)
    (hconnections : t.connections = s.connections ++ [Connection.new])
    (hprocessors : t.processors = s.processors) : Sharing hash (as ++ [a]) t := by
  have hbodies : ∀ c, openBody c (as ++ [a]) = openBody c as := by
    intro c
    rw [openBody_concat, hopen c, Option.or_none]
  have hconn : ∀ (c : Nat) (conn : Connection), t.connections[c]? = some conn →
      s.connections[c]? = some conn ∨ s.connections[c]? = none ∧ conn = Connection.new := by
    intro c conn hc
    rw [hconnections] at hc
    rcases getElem_concat_cases hc with hold | ⟨rfl, rfl⟩
    · exact Or.inl hold
    · exact Or.inr ⟨List.getElem?_eq_none le_rfl, rfl⟩
  refine ⟨ht, ?_, ?_, ?_, ?_, ?_⟩
  · intro c conn id hc hid
    rw [hbodies]
    rcases hconn c conn hc with hold | ⟨-, rfl⟩
    · exact h.processor c conn id hold hid
    · cases hid
  · intro c conn hc hreading hnone
    rw [hbodies]
    rcases hconn c conn hc with hold | ⟨hnew, rfl⟩
    · exact h.fresh c conn hold hreading hnone
    · exact ⟨rfl, h.absent c hnew⟩
  · intro c hc
    rw [hbodies]
    apply h.absent
    rw [hconnections, List.getElem?_eq_none_iff, List.length_append] at hc
    rw [List.getElem?_eq_none_iff]
    omega
  · intro id
    rw [hprocessors]
    exact (h.read id).of_keeps (Or.inl rfl) a
  · intro id
    rw [hprocessors]
    exact (h.write id).of_keeps (Or.inl rfl) a

/-- A connection that finds its processor has the body of this OPEN, and the broker that it is
for is configured from it. -/
theorem Sharing.of_opened (h : Sharing hash as s) (ht : Consistent t) {c : Nat}
    {conn conn' : Connection} {body : BSONObj} {connect : String → Option String} {p' : Processor}
    (hconn : s.connections[c]? = some conn) (hnew : openBody c as = none)
    (hbody : a.openBody c = some body) (hother : ∀ d, d ≠ c → a.openBody d = none)
    (hopen : (s.processors (hash body)).openFor connect (BSON.getIntField body "purpose") body =
      .ok p')
    (hafter : conn'.processor = some (hash body))
    (hconnections : t.connections = s.connections.set c conn')
    (hprocessors : t.processors = Function.update s.processors (hash body) p') :
    Sharing hash (as ++ [a]) t := by
  have hmine : openBody c (as ++ [a]) = some body := by
    rw [openBody_concat, hnew, hbody, Option.none_or]
  have hbodies : ∀ d, d ≠ c → openBody d (as ++ [a]) = openBody d as := by
    intro d hd
    rw [openBody_concat, hother d hd, Option.or_none]
  have hget : ∀ (d : Nat) (conn'' : Connection), t.connections[d]? = some conn'' →
      d = c ∧ conn'' = conn' ∨ d ≠ c ∧ s.connections[d]? = some conn'' := by
    intro d conn'' hd
    rw [hconnections] at hd
    exact getElem_set_cases hd
  refine ⟨ht, ?_, ?_, ?_, ?_, ?_⟩
  · intro d conn'' id hd hid
    rcases hget d conn'' hd with ⟨rfl, rfl⟩ | ⟨hdc, hold⟩
    · rw [hafter] at hid
      exact ⟨body, hmine, Option.some.inj hid⟩
    · rw [hbodies d hdc]
      exact h.processor d conn'' id hold hid
  · intro d conn'' hd hreading hnone
    rcases hget d conn'' hd with ⟨rfl, rfl⟩ | ⟨hdc, hold⟩
    · rw [hafter] at hnone
      cases hnone
    · rw [hbodies d hdc]
      exact h.fresh d conn'' hold hreading hnone
  · intro d hd
    rw [hconnections, List.getElem?_eq_none_iff, List.length_set] at hd
    have hdc : d ≠ c := by
      rintro rfl
      have hlt := (List.getElem?_eq_some_iff.mp hconn).1
      omega
    rw [hbodies d hdc]
    exact h.absent d (List.getElem?_eq_none hd)
  · intro id
    rw [hprocessors, Function.update_apply]
    split_ifs with heq
    · subst heq
      rcases Processor.openFor_cases hopen with ⟨hpurpose, -, hread⟩ | ⟨-, hread, -⟩
      · exact (h.read _).of_opened hread hmine rfl hpurpose
      · rw [hread]
        exact (h.read _).of_keeps (Or.inl rfl) a
    · exact (h.read id).of_keeps (Or.inl rfl) a
  · intro id
    rw [hprocessors, Function.update_apply]
    split_ifs with heq
    · subst heq
      rcases Processor.openFor_cases hopen with ⟨-, hwrite, -⟩ | ⟨hpurpose, -, hwrite⟩
      · rw [hwrite]
        exact (h.write _).of_keeps (Or.inl rfl) a
      · exact (h.write _).of_opened hwrite hmine rfl hpurpose
    · exact (h.write id).of_keeps (Or.inl rfl) a

/-- Nothing else touches a processor of a connection or the settings of a broker, but to close
them. -/
theorem Sharing.of_kept (h : Sharing hash as s) (ht : Consistent t)
    (hlength : t.connections.length = s.connections.length)
    (hopen : ∀ (c : Nat) (body : BSONObj), a.openBody c = some body →
      ∃ conn : Connection, s.connections[c]? = some conn ∧ conn.processor ≠ none)
    (hconn : ∀ (c : Nat) (conn' : Connection), t.connections[c]? = some conn' →
      ∃ conn : Connection, s.connections[c]? = some conn ∧ conn.Keeps conn')
    (hkeeps : ∀ id, (s.processors id).Keeps (t.processors id)) : Sharing hash (as ++ [a]) t := by
  have hbodies : ∀ c, openBody c (as ++ [a]) = openBody c as := by
    intro c
    rw [openBody_concat]
    rcases hbody : a.openBody c with _ | body
    · exact Option.or_none
    · obtain ⟨conn, hc, hprocessor⟩ := hopen c body hbody
      obtain ⟨id, hid⟩ := Option.ne_none_iff_exists'.mp hprocessor
      obtain ⟨body', hbody', -⟩ := h.processor c conn id hc hid
      rw [hbody', Option.some_or]
  refine ⟨ht, ?_, ?_, ?_, fun id => (h.read id).of_keeps (hkeeps id).1 a, fun id => (h.write
    id).of_keeps (hkeeps id).2 a⟩
  · intro c conn' id hc hid
    rw [hbodies]
    obtain ⟨conn, hold, ⟨hprocessor, -, -⟩ | ⟨hprocessor, -⟩⟩ := hconn c conn' hc
    · exact h.processor c conn id hold (by rw [← hprocessor, hid])
    · rw [hprocessor] at hid
      cases hid
  · intro c conn' hc hreading hnone
    rw [hbodies]
    obtain ⟨conn, hold, ⟨hprocessor, hopened, hread⟩ | ⟨-, hread⟩⟩ := hconn c conn' hc
    · rw [hopened]
      exact h.fresh c conn hold (by rw [← hread, hreading]) (by rw [← hprocessor, hnone])
    · rw [hread] at hreading
      cases hreading
  · intro c hc
    rw [hbodies]
    apply h.absent
    rw [List.getElem?_eq_none_iff] at hc ⊢
    omega

/-- **Every event that is no exception keeps the invariant.** -/
theorem Sharing.step (h : Sharing hash as s) (hstep : step M hash s a = some t)
    (hfault : t.fault = none) : Sharing hash (as ++ [a]) t := by
  have hfresh : ∀ c conn, s.reader c = some conn → conn.processor = none →
      conn.processorOpened = false ∧ openBody c as = none := by
    intro c conn hreader
    obtain ⟨hconn, hreading⟩ := Option.filter_eq_some_iff.mp hreader
    exact h.fresh c conn hconn hreading
  have ht : Consistent t := h.consistent.step hstep
  rcases @step_change M hash s t a h.consistent
      (fun c conn hreader hnone => (hfresh c conn hreader hnone).1) hstep hfault with
    ⟨hopen, hconnections, hprocessors⟩ |
    ⟨c, conn, conn', body, connect, p', hreader, hbefore, hbody, hother, hopen, hafter,
      hconnections, hprocessors⟩ |
    ⟨hlength, hopen, hconn, hkeeps⟩
  · exact h.of_accepted ht hopen hconnections hprocessors
  · exact h.of_opened ht (getElem_of_reader hreader) (hfresh c conn hreader hbefore).2 hbody hother
      hopen hafter.1 hconnections hprocessors
  · exact h.of_kept ht hlength hopen hconn hkeeps

/-- **Every run that has not ended in an exception keeps the invariant.** -/
theorem sharing_run (hrun : run (Server.step M hash) start as = some t) (hfault : t.fault = none) :
    Sharing hash as t := by
  refine @run_history_invariant _ _ (Server.step M hash) (fun as t => t.fault = none → Sharing hash
    as t) start ?_ (fun _ => sharing_start) t as hrun hfault
  intro as s a t _ hs hstep hfault
  refine (hs ?_).step hstep hfault
  exact fault_of_step hstep

end sharing

/-! ## What a processor is for -/

/-- A processor serves the OPEN bodies with its id as their hash: a broker that is connected is
configured from one of them and is the one for its purpose, and the other is not connected. -/
structure Dedicated (hash : BSONObj → String) (as : List Action) (id : String) (p : Processor) :
    Prop where
  read : p.readBroker.connected = true → p.writeBroker.connected = false ∧
    ∃ c body, openBody c as = some body ∧ hash body = id ∧ BSON.getIntField body "purpose" = 1 ∧
      p.readBroker.ConfiguredFrom body
  write : p.writeBroker.connected = true → p.readBroker.connected = false ∧
    ∃ c body, openBody c as = some body ∧ hash body = id ∧ BSON.getIntField body "purpose" = 2 ∧
      p.writeBroker.ConfiguredFrom body

/-- If no two bodies have the same hash, only one of the brokers of a processor is connected. -/
theorem Sharing.dedicated {hash : BSONObj → String} {as : List Action} {t : Server}
    (h : Sharing hash as t) (hinj : Set.InjOn hash {body | ∃ c, openBody c as = some body})
    (id : String) : Dedicated hash as id (t.processors id) := by
  have hnot : (t.processors id).readBroker.connected = true →
      (t.processors id).writeBroker.connected = true → False := by
    intro hread hwrite
    obtain ⟨c, body, hbody, hhash, hpurpose, -⟩ := (h.read id).body hread
    obtain ⟨d, body', hbody', hhash', hpurpose', -⟩ := (h.write id).body hwrite
    have heq : body = body' := hinj ⟨c, hbody⟩ ⟨d, hbody'⟩ (by rw [hhash, hhash'])
    rw [heq, hpurpose'] at hpurpose
    cases hpurpose
  refine ⟨fun hread => ⟨?_, (h.read id).body hread⟩, fun hwrite => ⟨?_, (h.write id).body hwrite⟩⟩
  · exact Bool.eq_false_iff.mpr (hnot hread)
  · exact Bool.eq_false_iff.mpr fun hread => hnot hread hwrite

/-- An OPEN for reading or for writing. -/
def sampleOpen (purpose : Int) : BSONObj :=
  [("cmd", .int 100), ("body", .obj (("purpose", .int purpose) :: Broker.sampleOptions 0 1 10))]

/-- A hash that tells the two apart. -/
def purposeHash (body : BSONObj) : String :=
  if BSON.getIntField body "purpose" = 1 then "6512bd43d9caa6e02c990b0a82652dca"
  else "c20ad4d76fe97759aa27a0c99bff6710"

/-! ## The threads -/

/-- A step of a read session but those of `term` is an event of the server. -/
theorem work_of_readSession {M : Mongo} {seconds : Nat} {s t : ReadSession.State}
    {a : ReadSession.Action} (h : ReadSession.step M seconds s a = some t) (hterm : a ≠ .term)
    (hio : s.io ≠ .joining) {u : Server} {id : String}
    (hbroker : (u.processors id).readBroker = s.broker) :
    u.work id t.broker (u.processors id).writeBroker = some { u with
      processors := Function.update u.processors id
        { u.processors id with readBroker := t.broker } } := by
  rw [work, if_pos]
  exact ⟨by rw [hbroker, ReadSession.settings_step h hterm hio], rfl⟩

/-- A step of a write session but those of `term` is an event of the server. -/
theorem work_of_writeSession {s t : WriteSession.State} {a : WriteSession.Action}
    (h : WriteSession.step s a = some t) (hclose : a ≠ .close) (hio : s.io ≠ .joining)
    {u : Server} {id : String} (hbroker : (u.processors id).writeBroker = s.broker) :
    u.work id (u.processors id).readBroker t.broker = some { u with
      processors := Function.update u.processors id
        { u.processors id with writeBroker := t.broker } } := by
  rw [work, if_pos]
  exact ⟨rfl, by rw [hbroker, WriteSession.settings_step h hclose hio]⟩

end Server

end Zbroker
