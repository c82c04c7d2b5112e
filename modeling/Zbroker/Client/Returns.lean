import Zbroker.Client.Calls

/-!
# Calls return

A client waits for a whole response, the server for a whole header and then for a whole body, and what
is sent of a response may be any part of it. None of them waits for the other for good, as long as the
handler of the request returns.

* `Handled … data errmsg os s v` — the handler of a request returns: with these outcomes it takes the
  server from `s` to `v`, and there is memory for the request. Which handlers do is said elsewhere: a
  READ may wait on `m_con_query`, or in a pop without a deadline, for good, a CLOSE in `term`, and a
  WRITE goes on for good when its queue has no capacity. Some end the program.
* `Socket.Receiving` — what a socket keeps until it is lost: a read is under way, and its buffer was
  reserved.
* `Returns … c n errmsg os calls` — at most `n` events of the connection `c` lead to a state in which
  the calls `calls` have returned.
* `Reached` — the states of the runs. There is one lemma for each place where a call may be:
  `returns_of_received`, `returns_of_answered`, `returns_of_body`, `returns_of_arrived`. Each takes
  the event that leads to the next place, so that the last one needs no other.
* **`exists_return`**: a call that is waited for returns, whatever the outcomes are with which its
  handler does, and with the answer that the handler gave.
-/

namespace Zbroker

open Found.Chunks Found.Transition

/-! ## The handler of a request -/

/-- The text of a request: what follows its header and its id, up to the first zero. -/
def requestText (data : List UInt8) : List UInt8 :=
  (data.drop (headerLength + packetIdLength)).takeWhile (· ≠ 0)

/-- The handler of the request `data` on the connection `c` returns: there is memory for the request,
and with the outcomes `errmsg` and `os` the server is `v` after it, with no exception. -/
structure Handled (M : Mongo) (hash : BSONObj → String) (heap : Heap)
    (fromjson : List UInt8 → Option BSONObj) (c : Nat) (data : List UInt8)
    (errmsg : Option String) (os : List PopOutcome) (s v : Server) : Prop where
  room : ∃ n, InPacket.reserve heap (data.length - headerLength) = .ok n
  step : Server.step M hash s (.packet c (fromjson (requestText data)) errmsg os) = some v
  fault : v.fault = none

/-- The text of the packet in which a request is received. -/
theorem body_of_request {field : HeaderField} {incoming : List UInt8}
    (hle : packetIdLength ≤ incoming.length) :
    (InPacket.mk incoming.length [] (incoming ++ [0])).body.takeWhile (· ≠ 0) =
      requestText (field.val ++ incoming) := by
  have hbody : (InPacket.mk incoming.length [] (incoming ++ [0])).body =
      incoming.drop packetIdLength := by
    show ((incoming ++ [0]).drop packetIdLength).take (incoming.length - packetIdLength) = _
    rw [List.drop_append_of_le_length hle]
    exact List.take_left' List.length_drop
  have hdata : (field.val ++ incoming).drop (headerLength + packetIdLength) =
      incoming.drop packetIdLength := by
    rw [← List.drop_drop, List.drop_left' field.property]
  rw [requestText, hbody, hdata]

/-- A response within the limits is packed. -/
theorem pack_of_within {M : Mongo} {reply : Reply} (h : reply.Within M) :
    Host.pack M reply = .ok (responseBytes M reply) := by
  unfold Host.pack OutPacket.pack
  dsimp only [OutPacket.setPacketId, OutPacket.setBody]
  rw [if_pos (by rw [h.packetId]; decide)]
  rfl

/-- What a socket keeps until it is lost: a read is under way, and the buffer for a body was
reserved. -/
structure Socket.Receiving (heap : Heap) (sk : Socket) : Prop where
  reading : sk.reading = .none → sk.ended = true
  closed : sk.closed = true → sk.ended = true
  reserved : ∀ field, sk.reading = .body field → ∃ n, InPacket.reserve heap field.decode = .ok n

/-- The read of a header is under way. -/
theorem Socket.Receiving.of_header {heap : Heap} {sk : Socket} (hreading : sk.reading = .header)
    (hclosed : sk.closed = true → sk.ended = true) : sk.Receiving heap := by
  refine ⟨?_, hclosed, ?_⟩
  · intro hnone
    rw [hreading] at hnone
    cases hnone
  · intro field hbody
    rw [hreading] at hbody
    cases hbody

namespace Host

variable {M : Mongo} {hash : BSONObj → String} {heap : Heap} {fromjson : List UInt8 → Option BSONObj}
  {s t : Host} {a : Action} {c : Nat} {sk sk' : Socket}

/-- What happens to a socket by itself. -/
theorem receiving_of_socketStep (h : sk.Receiving heap) {e : Socket.Event}
    (he : sk.step e = some sk') : sk'.Receiving heap := by
  obtain ⟨hreading, -⟩ := reading_of_socketStep he
  have hkeeps : (sk.ended = true → sk'.ended = true) ∧
      (sk'.closed = true → sk.closed = true ∨ sk'.ended = true) := by
    rcases e with bytes | _ | ⟨i, bytes⟩ | i | i
    · simp only [Socket.step] at he
      split_ifs at he
      cases he
      exact ⟨id, Or.inl⟩
    · cases he
      exact ⟨fun _ => rfl, Or.inl⟩
    · obtain ⟨w, -, he⟩ := Option.bind_eq_some_iff.mp he
      split_ifs at he
      cases he
      exact ⟨id, Or.inl⟩
    · obtain ⟨w, -, he⟩ := Option.bind_eq_some_iff.mp he
      split_ifs at he
      cases he
      exact ⟨id, Or.inl⟩
    · obtain ⟨w, -, rfl⟩ := Option.map_eq_some_iff.mp he
      exact ⟨fun _ => rfl, fun _ => Or.inr rfl⟩
  refine ⟨?_, ?_, ?_⟩
  · intro hnone
    exact hkeeps.1 (h.reading (hreading.symm.trans hnone))
  · intro hclosed
    rcases hkeeps.2 hclosed with hbefore | hended
    · exact hkeeps.1 (h.closed hbefore)
    · exact hended
  · intro field hbody
    exact h.reserved field (hreading.symm.trans hbody)

/-- The buffer for the body is reserved when its header has been read. -/
theorem reserved_of_headerRead (hsk : s.sockets[c]? = some sk)
    (hstep : step M hash heap fromjson s (.headerRead c) = some t) (hfault : t.server.fault = none) :
    ∃ (field : HeaderField) (n : Nat), field.val = sk.incoming.take headerLength ∧
      InPacket.reserve heap field.decode = .ok n ∧ t = s.setSocket c
        { sk with incoming := sk.incoming.drop headerLength, reading := .body field } := by
  unfold step at hstep
  split_ifs at hstep
  simp only [hsk, Option.bind_some] at hstep
  split_ifs at hstep
  unfold headerRead at hstep
  split_ifs at hstep
  dsimp only at hstep
  split at hstep
  · cases hstep
    cases hfault
  · rename_i n hn
    cases hstep
    exact ⟨_, n, rfl, hn, rfl⟩

/-- **Every event keeps the sockets receiving**, if it is no exception. -/
theorem receiving_step (h : ∀ (d : Nat) sk, s.sockets[d]? = some sk → sk.Receiving heap)
    (hstep : step M hash heap fromjson s a = some t) (hfault : t.server.fault = none) :
    ∀ (d : Nat) sk, t.sockets[d]? = some sk → sk.Receiving heap := by
  have hset {c : Nat} {sk sk' : Socket} (hsk : s.sockets[c]? = some sk)
      (hkeep : sk.Receiving heap → sk'.Receiving heap) :
      ∀ (d : Nat) sk, (s.sockets.set c sk')[d]? = some sk → sk.Receiving heap := by
    intro d sk'' hd
    rcases Server.getElem_set_cases hd with ⟨rfl, rfl⟩ | ⟨-, hold⟩
    · exact hkeep (h d sk hsk)
    · exact h d sk'' hold
  rcases step_effect hstep with ⟨u, hu⟩ | ⟨c, e, sk, sk', hsk, he⟩ |
    ⟨c, sk, field, hsk, hreading, hfield⟩ |
    ⟨c, errmsg, os, sk, field, p, u, reply, data, hsk, hreading, hp, -, hu, -, -⟩ |
    ⟨c, sk, u, hsk, hreading, hended, hu⟩ | ⟨id, read, write, u, hu⟩ | ⟨_, u, hu⟩
  · intro d sk hd
    rcases Server.getElem_concat_cases hd with hold | ⟨-, rfl⟩
    · exact h d sk hold
    · exact .of_header rfl fun hclosed => absurd hclosed Bool.false_ne_true
  · exact hset hsk fun hkeep => receiving_of_socketStep hkeep he
  · obtain ⟨field', n, -, hn, heq⟩ := reserved_of_headerRead hsk hstep hfault
    rw [heq]
    apply hset hsk
    intro hkeep
    refine ⟨fun hnone => Reading.noConfusion hnone, hkeep.closed, ?_⟩
    intro field'' hbody
    cases hbody
    exact ⟨n, hn⟩
  · exact hset hsk fun hkeep => .of_header rfl hkeep.closed
  · exact hset hsk fun hkeep => ⟨fun _ => hended, hkeep.closed, fun _ hbody => Reading.noConfusion hbody⟩
  · exact h
  · exact absurd hfault hu

end Host

/-! ## The return of a call -/

namespace Net

/-- The events of a connection and of its client; what a request asks of MongoDB and of the pops has
these outcomes. -/
def Action.On (c : Nat) (errmsg : Option String) (os : List PopOutcome) : Action → Prop
  | .send d _ | .arrive d _ | .recv d _ => d = c
  | .host (.socket d _) | .host (.headerRead d) => d = c
  | .host (.bodyRead d errmsg' os') => d = c ∧ errmsg' = errmsg ∧ os' = os
  | _ => False

/-- At most `n` events of the connection lead to a state in which the calls of its client that have
returned are `calls`, and none is waited for. -/
def Returns (M : Mongo) (hash : BSONObj → String) (heap : Heap)
    (fromjson : List UInt8 → Option BSONObj) (c n : Nat) (errmsg : Option String)
    (os : List PopOutcome) (calls : List (List UInt8 × DecodedPacket)) (t : Net) : Prop :=
  ∃ bs u k, run (step M hash heap fromjson) t bs = some u ∧ bs.length ≤ n ∧
    (∀ b ∈ bs, b.Proper ∧ b.On c errmsg os) ∧
    u.callers[c]? = some k ∧ k.awaiting = none ∧ k.returned = calls

section returns

variable {M : Mongo} {hash : BSONObj → String} {heap : Heap} {fromjson : List UInt8 → Option BSONObj}
  {s t : Net} {a : Action} {as : List Action} {c m n : Nat} {sk : Socket} {k : Caller}
  {calls : List (List UInt8 × DecodedPacket)} {data : List UInt8} {reply : Reply}
  {es : List (List UInt8 × Reply)} {errmsg : Option String} {os : List PopOutcome} {v : Server}

/-- A bound that is greater. -/
theorem Returns.mono (h : Returns M hash heap fromjson c m errmsg os calls t) (hle : m ≤ n) :
    Returns M hash heap fromjson c n errmsg os calls t := by
  obtain ⟨bs, u, k, hrun, hlength, hbs, hend⟩ := h
  exact ⟨bs, u, k, hrun, hlength.trans hle, hbs, hend⟩

/-- One event more at the start. -/
theorem Returns.cons (h : Returns M hash heap fromjson c n errmsg os calls t)
    (hstep : step M hash heap fromjson s a = some t) (hproper : a.Proper) (hon : a.On c errmsg os) :
    Returns M hash heap fromjson c (n + 1) errmsg os calls s := by
  obtain ⟨bs, u, k, hrun, hlength, hbs, hend⟩ := h
  refine ⟨a :: bs, u, k, ?_, Nat.succ_le_succ hlength, ?_, hend⟩
  · rw [run_cons, hstep]
    exact hrun
  · exact List.forall_mem_cons.mpr ⟨⟨hproper, hon⟩, hbs⟩

/-- An event of the host that no client brings about is an event. -/
theorem step_host {b : Host.Action} {u : Host} (hclient : b.fromClient = false)
    (hu : Host.step M hash heap fromjson s.host b = some u) :
    step M hash heap fromjson s (.host b) = some { s with host := u } := by
  simp only [step, hclient, Bool.false_eq_true, if_false, hu, Option.map_some]

variable (M hash heap fromjson) in
/-- The state of a net after the events `as`. -/
structure Reached (as : List Action) (t : Net) : Prop where
  run : run (step M hash heap fromjson) start as = some t
  lines : Lines M hash heap fromjson as t
  receiving : t.host.server.fault = none →
    ∀ (d : Nat) sk, t.host.sockets[d]? = some sk → sk.Receiving heap

/-- An event leads to such a state again. -/
theorem Reached.step (h : Reached M hash heap fromjson as s)
    (hhash : ∀ body, (hash body).utf8ByteSize ≤ packetIdLength) (hterse : ShortRefusal M)
    (hstep : Net.step M hash heap fromjson s a = some t) (hproper : a.Proper) :
    Reached M hash heap fromjson (as ++ [a]) t := by
  refine ⟨run_concat h.run hstep, h.lines.step hhash hterse h.run hstep hproper, ?_⟩
  intro hfault
  rcases host_of_step hstep with heq | ⟨b, hb⟩
  · rw [heq] at hfault ⊢
    exact h.receiving hfault
  · exact Host.receiving_step (h.receiving (Host.fault_of_step hb)) hb hfault

variable (M hash heap fromjson) in
/-- The last request that the connection has taken is `data`, answered with `reply`, and its call has
not returned; `es` was exchanged before. -/
structure Owed (as : List Action) (c : Nat) (k : Caller) (es : List (List UInt8 × Reply))
    (data : List UInt8) (reply : Reply) : Prop where
  last : observed (step M hash heap fromjson) (exchange c) start as = es ++ [(data, reply)]
  returned : k.returned.length = es.length

/-- An event at which nothing is exchanged leaves it so. -/
theorem Owed.concat (h : Owed M hash heap fromjson as c k es data reply)
    (hrun : run (step M hash heap fromjson) start as = some s)
    (hstep : step M hash heap fromjson s a = some t) (hsee : exchange c s a t = none) :
    Owed M hash heap fromjson (as ++ [a]) c k es data reply := by
  refine ⟨?_, h.returned⟩
  rw [observed_concat hrun hstep, hsee, Option.toList_none, List.append_nil]
  exact h.last

/-! ## Where a call may be -/

/-- Bytes may be found by one read, when more has not arrived yet. -/
theorem exists_socket {b : List UInt8} (h : b ≠ []) :
    ∃ socket : RubySocket, socket.contents = b ∧ socket.chunk = b ∧ socket.ending.isSome :=
  ⟨⟨[b], some (.standard "IO::WaitReadable"), by simpa using h⟩, List.append_nil b, rfl, rfl⟩

/-- **The response is there**: the call returns. -/
theorem returns_of_received (h : Reached M hash heap fromjson as t)
    (hsk : t.host.sockets[c]? = some sk) (hk : t.callers[c]? = some k)
    (howed : Owed M hash heap fromjson as c k es data reply)
    (hall : sk.received = sk.packed.flatten) :
    Returns M hash heap fromjson c 1 errmsg os (k.returned ++ [answeredCall M (data, reply)]) t := by
  obtain ⟨-, hpacked, hwithin, hphase⟩ := h.lines.line c sk k hsk hk
  rw [howed.last] at hpacked hwithin hphase
  cases hphase with
  | settled data' hw hwire hret =>
      have hlength := howed.returned
      rw [hret, List.length_map, List.length_append, List.length_singleton] at hlength
      omega
  | answered es' data' reply' hes hw hwire hret hre =>
      obtain ⟨rfl, hlast⟩ := List.append_inj' hes rfl
      cases hlast
      have hreply : reply.Within M := hwithin (data, reply) (by simp)
      have hlength := length_responseBytes hreply
      have hread : sk.received.drop k.consumed = responseBytes M reply := by
        rw [hall, hpacked, List.map_append, List.flatten_append, hre, List.drop_left]
        exact List.append_nil _
      -- all of it is found by the first read
      obtain ⟨socket, hcontents, hchunk, hending⟩ := exists_socket (b := responseBytes M reply)
        (by rw [← List.length_pos_iff, hlength, headerLength]; omega)
      have hheader : headerSize ≤ socket.chunk.length := by
        rw [hchunk, hlength, headerLength, headerSize]
        omega
      have hframe : socket.contents = frame (printId (bytesOf reply.packetId))
          (bytesOf (M.jsonString reply.body)) ++ [] := by
        rw [hcontents, List.append_nil, responseBytes]
      have hrecv := recvPacket_frame hreply.packetId hreply.body hframe hheader
      obtain ⟨k', hk', hnone, hret'⟩ : ∃ k', k.recv sk.received socket = some k' ∧
          k'.awaiting = none ∧ k'.returned = k.returned ++ [(data, responsePacket M reply)] := by
        rw [Caller.recv, hw, Option.bind_some, if_pos ⟨hcontents.trans hread.symm, hending⟩, hrecv]
        exact ⟨_, rfl, rfl, rfl⟩
      have hstep : Net.step M hash heap fromjson t (.recv c socket) = some (t.setCaller c k') := by
        simp only [Net.step, hsk, hk, Option.bind_some, hk', Option.map_some]
      obtain ⟨hc, -⟩ := List.getElem?_eq_some_iff.mp hk
      have hend : (t.setCaller c k').callers[c]? = some k' := List.getElem?_set_self hc
      exact Returns.cons ⟨[], _, k', rfl, le_rfl, fun _ hb => absurd hb List.not_mem_nil,
        hend, hnone, hret'⟩ hstep hheader rfl

/-- **The request was answered**: what is left of the response is sent. -/
theorem returns_of_answered (h : Reached M hash heap fromjson as t)
    (hhash : ∀ body, (hash body).utf8ByteSize ≤ packetIdLength) (hterse : ShortRefusal M)
    (hfault : t.host.server.fault = none) (hsk : t.host.sockets[c]? = some sk)
    (hk : t.callers[c]? = some k) (hopen : sk.closed = false)
    (howed : Owed M hash heap fromjson as c k es data reply) :
    Returns M hash heap fromjson c 2 errmsg os (k.returned ++ [answeredCall M (data, reply)]) t := by
  have horderly := (h.lines.line c sk k hsk hk).orderly
  by_cases hall : sk.received = sk.packed.flatten
  · exact (returns_of_received h hsk hk howed hall).mono (by omega)
  · obtain ⟨w, hw, hrest⟩ : ∃ w ∈ sk.writes, w.rest ≠ [] := by
      by_contra hnone
      push Not at hnone
      have hsound := horderly.sound hopen
      rw [List.flatMap_eq_nil_iff.mpr hnone, List.append_nil] at hsound
      exact hall hsound
    obtain ⟨i, hi⟩ := List.mem_iff_getElem?.mp hw
    obtain ⟨ws, ws', hwrites, -, -⟩ := Socket.exists_eq_append hi
    have hu : Host.step M hash heap fromjson t.host (.socket c (.send i w.rest)) =
        some (t.host.setSocket c (sk.send i w w.rest)) := by
      have hevent : sk.step (.send i w.rest) = some (sk.send i w w.rest) := by
        rw [Socket.step, hi, Option.bind_some,
          if_pos ⟨hopen, le_rfl, fun _ => List.prefix_refl _⟩]
      have hlive : ¬t.host.server.fault.isSome = true := by simp [hfault]
      simp only [Host.step, if_neg hlive, hsk, Option.bind_some, hevent, Option.map_some]
    obtain ⟨hc, -⟩ := List.getElem?_eq_some_iff.mp hsk
    have hstep := step_host rfl hu
    refine (returns_of_received (h.step hhash hterse hstep trivial) (List.getElem?_set_self hc) hk
      (howed.concat h.run hstep rfl) ?_).cons hstep trivial rfl
    -- the other writes have nothing left
    have hsound := horderly.sound hopen
    have hnone : ∀ w' ∈ ws ++ ws', w'.rest = [] := fun w' hw' =>
      ((horderly.others hopen hwrites).1 w' hw').resolve_left hrest
    rw [hwrites, Socket.flatMap_rest hnone] at hsound
    exact hsound

/-- A socket that still receives is not closed. -/
theorem open_of_reached (h : Reached M hash heap fromjson as t)
    (hfault : t.host.server.fault = none) (hsk : t.host.sockets[c]? = some sk)
    (hended : sk.ended = false) : sk.closed = false := by
  rw [Bool.eq_false_iff]
  intro hclosed
  rw [(h.receiving hfault c sk hsk).closed hclosed] at hended
  cases hended

/-- **The request is there, and its header was read**: the body is read, and the request answered. -/
theorem returns_of_body (h : Reached M hash heap fromjson as t)
    (hhash : ∀ body, (hash body).utf8ByteSize ≤ packetIdLength) (hterse : ShortRefusal M)
    (hsk : t.host.sockets[c]? = some sk) (hk : t.callers[c]? = some k) (hended : sk.ended = false)
    (hanswer : k.returned.length = sk.packed.length) (hdata : IsRequest data) {field : HeaderField}
    (hreading : sk.reading = .body field) (harrived : field.val ++ sk.incoming = data)
    (hhandled : Handled M hash heap fromjson c data errmsg os t.host.server v) :
    ∃ reply, v.sent c = [reply] ∧ Returns M hash heap fromjson c 3 errmsg os
      (k.returned ++ [answeredCall M (data, reply)]) t := by
  have hfault := Server.fault_of_step hhandled.step
  have hlive : ¬t.host.server.fault.isSome = true := by simp [hfault]
  have hline := h.lines.line c sk k hsk hk
  obtain ⟨hc, -⟩ := List.getElem?_eq_some_iff.mp hsk
  obtain ⟨hdecode, hid⟩ := hdata.decode_add (show field.val ++ sk.incoming <+: data by rw [harrived])
  have hlength : field.decode = sk.incoming.length := by
    have hall := congrArg List.length harrived
    rw [List.length_append, field.property] at hall
    omega
  -- the packet that is received, and the answer of its handler
  set p : InPacket := ⟨sk.incoming.length, [], sk.incoming ++ [0]⟩ with hp
  have hreceive : receive heap field sk.incoming = .ok p := by
    obtain ⟨n, hreserve⟩ := (h.receiving hfault c sk hsk).reserved field hreading
    rw [receive, hreserve]
    dsimp only
    rw [if_neg (by omega), hlength, List.take_length]
  have hrequest : Host.request fromjson c p errmsg os =
      .packet c (fromjson (requestText data)) errmsg os := by
    rw [Host.request, hp, @body_of_request field _ (by omega), harrived]
  obtain ⟨reply, hsent⟩ := Server.exists_sent_of_step hhandled.step hhandled.fault
  have hwithin : reply.Within M := by
    obtain ⟨bs, hserver, -⟩ := h.lines.simulates hfault
    exact Server.within_of_step (Server.sharing_run hserver hfault) hhash hterse hhandled.step
      (by simp [hsent])
  obtain ⟨u, hserver, hsockets, hu⟩ : ∃ u : Host, u.server = v ∧ u.sockets = t.host.sockets.set c
      ((t.host.taken c p (.packet c (fromjson (requestText data)) errmsg os) sk).write
        (responseBytes M reply)) ∧
      Host.step M hash heap fromjson t.host (.bodyRead c errmsg os) = some u := by
    refine ⟨⟨v, _⟩, rfl, rfl, ?_⟩
    have hshort : ¬p.bodyLength < packetIdLength := by
      rw [hp]
      dsimp only
      omega
    simp only [Host.step, if_neg hlive, hsk, Option.bind_some, hreading, hreceive, Host.bodyRead,
      if_neg hshort, hrequest, hhandled.step, Option.map_some, Host.respond, hsent,
      pack_of_within hwithin]
  have hstep := step_host rfl hu
  have hsee : exchange c t (.host (.bodyRead c errmsg os)) { t with host := u } =
      some (data, reply) := by
    simp only [exchange, if_pos, hsk, Option.bind_some, hreading, hserver, hsent, List.head?_cons,
      Option.map_some]
    rw [hlength, List.take_length, harrived]
  have howed : Owed M hash heap fromjson (as ++ [.host (.bodyRead c errmsg os)]) c k
      (observed (Net.step M hash heap fromjson) (exchange c) start as) data reply := by
    refine ⟨?_, ?_⟩
    · rw [observed_concat h.run hstep, hsee, Option.toList_some]
    · rw [hanswer, hline.packed, List.length_map]
  refine ⟨reply, hsent, ?_⟩
  have hopen := open_of_reached h hfault hsk hended
  have hsk' : u.sockets[c]? = some ((t.host.taken c p
      (.packet c (fromjson (requestText data)) errmsg os) sk).write (responseBytes M reply)) := by
    rw [hsockets]
    exact List.getElem?_set_self hc
  exact (returns_of_answered (h.step hhash hterse hstep trivial) hhash hterse
    (hserver ▸ hhandled.fault) hsk' hk hopen howed).cons hstep trivial ⟨rfl, rfl, rfl⟩

/-- **The request is there**: its header is read, unless it was, and then its body. -/
theorem returns_of_arrived (h : Reached M hash heap fromjson as t)
    (hhash : ∀ body, (hash body).utf8ByteSize ≤ packetIdLength) (hterse : ShortRefusal M)
    (hsk : t.host.sockets[c]? = some sk) (hk : t.callers[c]? = some k) (hended : sk.ended = false)
    (hanswer : k.returned.length = sk.packed.length) (hdata : IsRequest data)
    (harrived : sk.reading.begun ++ sk.incoming = data)
    (hhandled : Handled M hash heap fromjson c data errmsg os t.host.server v) :
    ∃ reply, v.sent c = [reply] ∧ Returns M hash heap fromjson c 4 errmsg os
      (k.returned ++ [answeredCall M (data, reply)]) t := by
  have hfault := Server.fault_of_step hhandled.step
  rcases hreading : sk.reading with _ | _ | field
  · rw [(h.receiving hfault c sk hsk).reading hreading] at hended
    cases hended
  · have hlive : ¬t.host.server.fault.isSome = true := by simp [hfault]
    obtain ⟨hc, -⟩ := List.getElem?_eq_some_iff.mp hsk
    rw [hreading] at harrived
    replace harrived : sk.incoming = data := harrived
    have hlong : headerLength ≤ sk.incoming.length := by
      obtain ⟨packetId, body, hid, hbody, hframe⟩ := hdata
      have hlength := @length_frame _ body hid (by simp only [headerLength]; omega)
      rw [← hframe, ← harrived] at hlength
      omega
    -- the header, and the memory that it asks for
    let field : HeaderField := ⟨sk.incoming.take headerLength, List.length_take_of_le hlong⟩
    have hdecode : field.decode = data.length - headerLength := by
      have hprefix : field.val ++ [] <+: data := by
        rw [List.append_nil, ← harrived]
        exact List.take_prefix _ _
      have := (hdata.decode_add hprefix).1
      omega
    obtain ⟨n, hreserve⟩ := hhandled.room
    rw [← hdecode] at hreserve
    have hu : Host.step M hash heap fromjson t.host (.headerRead c) = some (t.host.setSocket c
        { sk with incoming := sk.incoming.drop headerLength, reading := .body field }) := by
      simp only [Host.step, if_neg hlive, hsk, Option.bind_some, hreading, if_true, Host.headerRead,
        dif_pos (List.length_take_of_le hlong)]
      rw [show InPacket.reserve heap (HeaderField.decode ⟨_, _⟩) = .ok n from hreserve]
    have hstep := step_host rfl hu
    obtain ⟨reply, hsent, hreturns⟩ := returns_of_body (h.step hhash hterse hstep trivial) hhash hterse
      (List.getElem?_set_self hc) hk hended hanswer hdata rfl
      (by rw [← harrived]; exact List.take_append_drop _ _) hhandled
    exact ⟨reply, hsent, hreturns.cons hstep trivial rfl⟩
  · rw [hreading] at harrived
    obtain ⟨reply, hsent, hreturns⟩ :=
      returns_of_body h hhash hterse hsk hk hended hanswer hdata hreading harrived hhandled
    exact ⟨reply, hsent, hreturns.mono (by omega)⟩

/-- **The states of a run.** -/
theorem reached_run (hhash : ∀ body, (hash body).utf8ByteSize ≤ packetIdLength)
    (hterse : ShortRefusal M) (hrun : run (step M hash heap fromjson) start as = some t)
    (hproper : ∀ a ∈ as, a.Proper) : Reached M hash heap fromjson as t := by
  refine @run_history_invariant _ _ (Net.step M hash heap fromjson)
    (fun as t => (∀ a ∈ as, a.Proper) → Reached M hash heap fromjson as t) start ?_ ?_ t as hrun
    hproper
  · intro as s a t _ hs hstep hall
    exact (hs fun b hb => hall b (List.mem_append_left _ hb)).step hhash hterse hstep
      (hall a (List.mem_append_right _ List.mem_cons_self))
  · intro _
    refine ⟨rfl, lines_start, ?_⟩
    intro _ d sk hd
    cases hd

end returns

/-- **Calls return.** In every state of a run that no exception has ended, let a client wait for the
response to its request `data`, and its connection be not lost. If the request was not answered yet, let
`errmsg` and `os` be any outcomes with which its handler returns, and `v` the server after it. Then at
most five events of this connection alone, with these outcomes, lead to the return of the call, whatever
the other clients wait for, and wherever the bytes are; and the answer is the one that the handler gave,
if it was not answered before. -/
theorem exists_return (M : Mongo) (hash : BSONObj → String) (heap : Heap)
    (fromjson : List UInt8 → Option BSONObj)
    (hhash : ∀ body, (hash body).utf8ByteSize ≤ packetIdLength) (hterse : ShortRefusal M)
    (as : List Action) (t : Net) (hrun : run (step M hash heap fromjson) start as = some t)
    (hproper : ∀ a ∈ as, a.Proper) (hfault : t.host.server.fault = none) (c : Nat) (sk : Socket)
    (k : Caller) (hsk : t.host.sockets[c]? = some sk) (hk : t.callers[c]? = some k)
    (data : List UInt8) (hawaiting : k.awaiting = some data) (hended : sk.ended = false)
    (errmsg : Option String) (os : List PopOutcome) (v : Server)
    (hhandled : k.returned.length = sk.packed.length →
      Handled M hash heap fromjson c data errmsg os t.host.server v) :
    ∃ reply, (k.returned.length = sk.packed.length → v.sent c = [reply]) ∧
      Returns M hash heap fromjson c 5 errmsg os (k.returned ++ [answeredCall M (data, reply)]) t := by
  have h : Reached M hash heap fromjson as t := reached_run hhash hterse hrun hproper
  have hline := h.lines.line c sk k hsk hk
  cases hline.phase with
  | settled data' hw hwire hret =>
      obtain ⟨hdata', hdata⟩ : k.awaiting = some data' ∧ IsRequest data' := by
        rcases hw with ⟨hnone, -⟩ | hasked
        · rw [hnone] at hawaiting
          cases hawaiting
        · exact hasked
      obtain rfl : data' = data := Option.some.inj (hdata'.symm.trans hawaiting)
      have hanswer : k.returned.length = sk.packed.length := by
        rw [hret, hline.packed, List.length_map, List.length_map]
      -- what is on its way arrives
      have hlive : ¬t.host.server.fault.isSome = true := by simp [hfault]
      have hstep : step M hash heap fromjson t (.arrive c k.flight.length) =
          some ⟨t.host.setSocket c
              { sk with incoming := sk.incoming ++ k.flight.take k.flight.length },
            t.callers.set c { k with flight := k.flight.drop k.flight.length }⟩ := by
        simp only [step, hk, Option.bind_some, Host.step, if_neg hlive, hsk, Socket.step, hended,
          Bool.false_eq_true, if_false, Option.map_some]
      obtain ⟨hc, -⟩ := List.getElem?_eq_some_iff.mp hsk
      obtain ⟨hc', -⟩ := List.getElem?_eq_some_iff.mp hk
      have harrived : sk.reading.begun ++ (sk.incoming ++ k.flight.take k.flight.length) = data' := by
        rw [List.take_length, ← List.append_assoc]
        exact hwire.left hended
      obtain ⟨reply, hsent, hreturns⟩ := returns_of_arrived (h.step hhash hterse hstep trivial) hhash
        hterse (List.getElem?_set_self hc) (List.getElem?_set_self hc') hended hanswer hdata harrived
        (hhandled hanswer)
      exact ⟨reply, fun _ => hsent, hreturns.cons hstep trivial rfl⟩
  | answered es' data' reply hes hw hwire hret =>
      obtain rfl : data' = data := Option.some.inj (hw.symm.trans hawaiting)
      have howed : Owed M hash heap fromjson as c k es' data' reply :=
        ⟨hes, by rw [hret, List.length_map]⟩
      refine ⟨reply, ?_, (returns_of_answered h hhash hterse hfault hsk hk
        (open_of_reached h hfault hsk hended) howed).mono (by omega)⟩
      intro hanswer
      rw [howed.returned, hline.packed, hes, List.length_map, List.length_append] at hanswer
      simp at hanswer

/-- The second call of the sample is a REWIND, of which a part has arrived. Its handler returns. -/
theorem exists_return_sample : ∃ t k reply,
    run (step Mongo.plain Server.sampleHash sampleHeap Host.sampleFromjson) start
        (sampleCalls.take 9) = some t ∧ t.callers[0]? = some k ∧
      k.awaiting = some (Host.samplePacket "" Host.sampleRewind) ∧
      Returns Mongo.plain Server.sampleHash sampleHeap Host.sampleFromjson 0 5 none []
        (k.returned ++
          [answeredCall Mongo.plain (Host.samplePacket "" Host.sampleRewind, reply)]) t := by
  obtain ⟨t, ht, hend⟩ := (Option.any_eq_true _ _).mp
    (show (run (step Mongo.plain Server.sampleHash sampleHeap Host.sampleFromjson) start
      (sampleCalls.take 9)).any (fun t => (t.host.sockets[0]?).any (fun sk => !sk.ended) &&
        ((t.callers[0]?).any (fun k =>
          decide (k.awaiting = some (Host.samplePacket "" Host.sampleRewind))) &&
        (t.host.server.fault.isNone &&
          (Server.step Mongo.plain Server.sampleHash t.host.server (.packet 0 (Host.sampleFromjson
            (requestText (Host.samplePacket "" Host.sampleRewind))) none [])).any
            fun v => v.fault.isNone))) = true by decide +kernel)
  obtain ⟨hsocket, hend⟩ := Bool.and_eq_true_iff.mp hend
  obtain ⟨hcaller, hend⟩ := Bool.and_eq_true_iff.mp hend
  obtain ⟨hfault, hserver⟩ := Bool.and_eq_true_iff.mp hend
  obtain ⟨sk, hsk, hended⟩ := (Option.any_eq_true _ _).mp hsocket
  obtain ⟨k, hk, hawaiting⟩ := (Option.any_eq_true _ _).mp hcaller
  obtain ⟨v, hv, hvfault⟩ := (Option.any_eq_true _ _).mp hserver
  obtain ⟨reply, -, hreturns⟩ := exists_return Mongo.plain Server.sampleHash sampleHeap
    Host.sampleFromjson (fun _ => by rw [Server.sampleHash]; decide) shortRefusal_plain
    (sampleCalls.take 9) t ht (fun a ha => proper_sampleCalls a (List.mem_of_mem_take ha))
    (Option.isNone_iff_eq_none.mp hfault) 0 sk k hsk hk (Host.samplePacket "" Host.sampleRewind)
    (of_decide_eq_true hawaiting) (by simpa using hended) none [] v
    (fun _ => ⟨⟨_, rfl⟩, hv, Option.isNone_iff_eq_none.mp hvfault⟩)
  exact ⟨t, k, reply, ht, hk, of_decide_eq_true hawaiting, hreturns⟩

end Net

end Zbroker
