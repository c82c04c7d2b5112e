import Zbroker.Packet.ClientPacket
import Zbroker.Server.Socket

/-!
# The requests that a connection takes

A connection reads a header, then as many bytes as the header says, and hands the packet to the server,
again and again. The bytes arrive in any pieces, and between two reads anything may happen to the other
connections and to the responses.

* `arrived c as`, `packetsTaken … c as` — what has arrived on the connection, and the packets that were
  taken off it, each with its id and its body.
* `Intake heap sk bytes ps` — the bytes that arrived are those of the packets taken, the header that was
  read, and what is left on the socket. It holds of every socket (`Receives`, `Receives.step`).
* **`requests_eq_packetsOf`**: the requests that the server handles for a connection are the first
  packets of its stream, in order, and all of them when the read under way has to wait.
The run of the host is projected to one of the server (`Simulates`); its requests are the packets taken,
and these are read off the stream one by one (`Intake.body`).
-/

namespace Zbroker

open Found.Transition Found.Codec

/-- What has been read of the packet that is being read. -/
def Reading.begun : Reading → List UInt8
  | .body field => field.val
  | _ => []

/-- What arrives on a socket. -/
def Socket.Event.arrival : Socket.Event → List UInt8
  | .arrive bytes => bytes
  | _ => []

/-- The command object of a request of the connection. -/
def Server.Action.requestOf (c : Nat) : Server.Action → Option (Option BSONObj)
  | .packet d cmdObj _ _ => if d = c then some cmdObj else none
  | _ => none

namespace Host

/-- What arrives on the connection in an event. -/
def Action.arrival (c : Nat) : Action → List UInt8
  | .socket d e => if d = c then e.arrival else []
  | _ => []

/-- All that has arrived on the connection. -/
def arrived (c : Nat) (as : List Action) : List UInt8 := as.flatMap (Action.arrival c)

/-- The packet that `handle_read_body` finds on the connection: the id and the body. -/
def packetTaken (heap : Heap) (c : Nat) (s : Host) (a : Action) (_ : Host) :
    Option (List UInt8 × List UInt8) :=
  match a with
  | .bodyRead d _ _ =>
      if d = c then
        (s.sockets[c]?).bind fun sk =>
          match sk.reading with
          | .body field =>
              (receive heap field sk.incoming).toOption.map fun p =>
                (p.raw.take packetIdLength, p.body)
          | _ => none
      else none
  | _ => none

/-- The packets that a run takes off the socket of the connection. -/
def packetsTaken (M : Mongo) (hash : BSONObj → String) (heap : Heap)
    (fromjson : List UInt8 → Option BSONObj) (c : Nat) (as : List Action) :
    List (List UInt8 × List UInt8) :=
  observed (step M hash heap fromjson) (packetTaken heap c) start as

end Host

/-! ## One packet -/

section packet

variable {heap : Heap} {field : HeaderField} {following : List UInt8} {p : InPacket}

/-- A packet that is received has so many bytes as its header says. -/
theorem eq_of_receive (h : receive heap field following = .ok p) :
    heap.fits field.requested = true ∧ 0 ≤ field.number ∧ field.number ≤ following.length ∧
      p = ⟨field.decode, [], following.take field.decode ++ [0]⟩ := by
  rcases receive_eq heap field following with ⟨hfits, hn, hlen, heq⟩ | ⟨-, e, heq⟩
  · rw [h] at heq
    exact ⟨hfits, hn, hlen, Except.ok.inj heq⟩
  · rw [h] at heq
    cases heq

/-- **A packet** is read off any stream that begins with its header and its bytes. -/
theorem reads_receiveNext (h : receive heap field following = .ok p)
    (hid : packetIdLength ≤ p.bodyLength) :
    Reads (receiveNext heap) (field.val ++ following.take field.decode)
      (p.raw.take packetIdLength, p.body) := by
  intro rest
  obtain ⟨hfits, hn, hlen, rfl⟩ := eq_of_receive h
  have hdecode := field.decode_of_nonneg hn
  have htaken : (following.take field.decode).length = field.decode :=
    List.length_take_of_le (by omega)
  replace hid : packetIdLength ≤ field.decode := hid
  have hcond : heap.fits field.requested = true ∧ (packetIdLength : Int) ≤ field.number ∧
      field.number ≤ (following.take field.decode ++ rest).length := by
    refine ⟨hfits, by omega, ?_⟩
    rw [List.length_append, htaken]
    omega
  obtain ⟨htake, hbody⟩ := @take_and_body_of_le following field.decode hid (by omega)
  rw [List.append_assoc, receiveNext_append, if_pos hcond, htake, hbody,
    List.take_append_of_le_length (by omega), List.take_take, Nat.min_eq_left hid,
    List.drop_append_of_le_length (by omega), List.take_append_of_le_length, List.drop_left' htaken,
    List.drop_take, List.take_take, Nat.min_self]
  rw [List.length_drop, htaken]

/-- No packet is read before all its bytes are there. -/
theorem receiveNext_of_short (hshort : following.length < field.decode) :
    receiveNext heap (field.val ++ following) = none := by
  rw [receiveNext_append, if_neg]
  rintro ⟨-, hid, hlen⟩
  have hdecode := field.decode_of_nonneg (by omega)
  omega

end packet

/-! ## The bytes of a socket -/

/-- Of the bytes that arrived on a socket the packets `ps` were taken, and answered; then comes what was
read of the next one, what was not read yet, and what is lost with a failed write. -/
structure Intake (heap : Heap) (sk : Socket) (bytes : List UInt8)
    (ps : List (List UInt8 × List UInt8)) : Prop where
  split : ∃ ws lost, (∀ w ∈ ws, w ≠ []) ∧ List.Forall₂ (Reads (receiveNext heap)) ws ps ∧
    bytes = ws.flatten ++ (sk.reading.begun ++ sk.incoming ++ lost) ∧ (sk.closed = false → lost = [])
  ended : sk.closed = true → sk.ended = true
  answered : sk.packed.length = ps.length

section intake

variable {heap : Heap} {sk sk' : Socket} {bytes : List UInt8} {ps : List (List UInt8 × List UInt8)}

/-- Nothing has arrived on a new socket. -/
theorem intake_new (heap : Heap) : Intake heap Socket.new [] [] :=
  ⟨⟨[], [], by simp, .nil, rfl, fun _ => rfl⟩, (fun h => by cases h), rfl⟩

/-- What happens to a socket by itself. -/
theorem Intake.socketStep (h : Intake heap sk bytes ps) {e : Socket.Event}
    (he : sk.step e = some sk') : Intake heap sk' (bytes ++ e.arrival) ps := by
  obtain ⟨⟨ws, lost, hws, hreads, hbytes, hlost⟩, hended, hanswered⟩ := h
  rcases e with more | _ | ⟨i, sent⟩ | i | i
  · simp only [Socket.step] at he
    split_ifs at he with hend
    cases he
    -- on a socket that is not closed, nothing is lost
    have hopen : sk.closed = false := Bool.eq_false_iff.mpr fun hclosed => hend (hended hclosed)
    rw [hlost hopen, List.append_nil] at hbytes
    refine ⟨⟨ws, [], hws, hreads, ?_, fun _ => rfl⟩, hended, hanswered⟩
    rw [hbytes]
    simp [Socket.Event.arrival]
  · cases he
    refine ⟨⟨ws, lost, hws, hreads, ?_, hlost⟩, fun _ => rfl, hanswered⟩
    rw [hbytes]
    exact List.append_nil _
  · obtain ⟨w, -, he⟩ := Option.bind_eq_some_iff.mp he
    split_ifs at he
    cases he
    refine ⟨⟨ws, lost, hws, hreads, ?_, hlost⟩, hended, hanswered⟩
    rw [hbytes]
    exact List.append_nil _
  · obtain ⟨w, -, he⟩ := Option.bind_eq_some_iff.mp he
    split_ifs at he
    cases he
    refine ⟨⟨ws, lost, hws, hreads, ?_, hlost⟩, hended, hanswered⟩
    rw [hbytes]
    exact List.append_nil _
  · obtain ⟨w, -, rfl⟩ := Option.map_eq_some_iff.mp he
    refine ⟨⟨ws, sk.incoming.drop sk.reading.length ++ lost, hws, hreads, ?_, fun h => by cases h⟩,
      fun _ => rfl, hanswered⟩
    rw [hbytes]
    simp only [Socket.Event.arrival, Socket.writeFailed, List.append_nil, List.append_assoc]
    rw [← List.append_assoc (sk.incoming.take _), List.take_append_drop]

/-- A header is read. -/
theorem Intake.header (h : Intake heap sk bytes ps) (hreading : sk.reading = .header)
    {field : HeaderField} (hfield : field.val = sk.incoming.take headerLength) :
    Intake heap { sk with incoming := sk.incoming.drop headerLength, reading := .body field }
      bytes ps := by
  obtain ⟨⟨ws, lost, hws, hreads, hbytes, hlost⟩, hended, hanswered⟩ := h
  refine ⟨⟨ws, lost, hws, hreads, ?_, hlost⟩, hended, hanswered⟩
  rw [hbytes, hreading]
  simp only [Reading.begun, List.nil_append]
  rw [hfield, List.take_append_drop]

/-- A body is read. -/
theorem Intake.body (h : Intake heap sk bytes ps) {field : HeaderField} {p : InPacket}
    (hreading : sk.reading = .body field) (hp : receive heap field sk.incoming = .ok p)
    (hid : packetIdLength ≤ p.bodyLength) (hincoming : sk'.incoming = sk.incoming.drop p.bodyLength)
    (hnext : sk'.reading = .header) (hclosed : sk'.closed = sk.closed)
    (hended' : sk'.ended = sk.ended) {data : List UInt8} (hpacked : sk'.packed = sk.packed ++ [data]) :
    Intake heap sk' bytes (ps ++ [(p.raw.take packetIdLength, p.body)]) := by
  obtain ⟨⟨ws, lost, hws, hreads, hbytes, hlost⟩, hended, hanswered⟩ := h
  refine ⟨⟨ws ++ [field.val ++ sk.incoming.take field.decode], lost, ?_, ?_, ?_, ?_⟩, ?_, ?_⟩
  · intro w hw
    rcases List.mem_append.mp hw with hw | hw
    · exact hws w hw
    · rw [List.mem_singleton.mp hw, ← List.length_pos_iff, List.length_append, field.property,
        headerLength]
      omega
  · exact List.rel_append hreads (.cons (reads_receiveNext hp hid) .nil)
  · have hlength : p.bodyLength = field.decode := by rw [(eq_of_receive hp).2.2.2]
    rw [hbytes, hreading, hnext, hincoming, hlength]
    simp only [Reading.begun, List.flatten_append, List.flatten_singleton, List.nil_append,
      List.append_assoc]
    rw [← List.append_assoc (sk.incoming.take _), List.take_append_drop]
  · rw [hclosed]
    exact hlost
  · rw [hclosed, hended']
    exact hended
  · rw [hpacked, List.length_append, List.length_append, hanswered]
    rfl

/-- The read of a header fails. -/
theorem Intake.disconnected (h : Intake heap sk bytes ps) (hreading : sk.reading = .header) (k : Nat) :
    Intake heap { sk with reading := .none, closes := k } bytes ps := by
  obtain ⟨⟨ws, lost, hws, hreads, hbytes, hlost⟩, hended, hanswered⟩ := h
  rw [hreading] at hbytes
  exact ⟨⟨ws, lost, hws, hreads, hbytes, hlost⟩, hended, hanswered⟩

/-- **The packets taken** are the first ones of the stream. -/
theorem Intake.prefix_packetsOf (h : Intake heap sk bytes ps) :
    ps <+: packetsOf (receiveNext heap) bytes := by
  obtain ⟨⟨ws, lost, hws, hreads, hbytes, -⟩, -, -⟩ := h
  rw [hbytes]
  exact Found.Codec.prefix_packetsOf hws hreads

/-- They are all packets of the stream when the read under way has to wait. -/
theorem Intake.eq_packetsOf (h : Intake heap sk bytes ps) (hopen : sk.closed = false)
    (hwaits : sk.incoming.length < sk.reading.length) :
    ps = packetsOf (receiveNext heap) bytes := by
  obtain ⟨⟨ws, lost, hws, hreads, hbytes, hlost⟩, -, -⟩ := h
  rw [hbytes, hlost hopen, List.append_nil]
  refine (packetsOf_eq hws hreads ?_).symm
  rcases hreading : sk.reading with _ | _ | field
  · rw [hreading] at hwaits
    cases hwaits
  · rw [hreading] at hwaits
    rw [receiveNext, dif_neg]
    simp only [Reading.begun, Reading.length, List.nil_append, List.length_take] at hwaits ⊢
    omega
  · rw [hreading] at hwaits
    exact receiveNext_of_short hwaits

end intake

/-! ## All sockets -/

namespace Host

variable {M : Mongo} {hash : BSONObj → String} {heap : Heap} {fromjson : List UInt8 → Option BSONObj}
  {s t : Host} {a : Action} {as : List Action} {c : Nat}

variable (M hash heap fromjson) in
/-- What has been received in a run: on each socket, and by the server. -/
structure Receives (as : List Action) (t : Host) : Prop where
  stream : ∀ c sk, t.sockets[c]? = some sk →
    Intake heap sk (arrived c as) (packetsTaken M hash heap fromjson c as)
  absent : ∀ c, t.sockets[c]? = none →
    arrived c as = [] ∧ packetsTaken M hash heap fromjson c as = []
  server : ∃ bs, run (Server.step M hash) Server.start bs = some t.server ∧
    ∀ c, bs.filterMap (Server.Action.requestOf c) =
      (packetsTaken M hash heap fromjson c as).map fun p => fromjson (p.2.takeWhile (· ≠ 0))

/-- There are no sockets yet. -/
theorem receives_start : Receives M hash heap fromjson [] start := by
  refine ⟨?_, fun c _ => ⟨rfl, rfl⟩, [], rfl, fun c => rfl⟩
  intro c sk hsk
  cases hsk

/-- What has arrived after one event more. -/
theorem arrived_concat (c : Nat) (as : List Action) (a : Action) :
    arrived c (as ++ [a]) = arrived c as ++ a.arrival c := by
  simp [arrived]

/-- The packets that were taken after one event more. -/
theorem packetsTaken_concat (hrun : run (step M hash heap fromjson) start as = some s)
    (hstep : step M hash heap fromjson s a = some t) (c : Nat) :
    packetsTaken M hash heap fromjson c (as ++ [a]) =
      packetsTaken M hash heap fromjson c as ++ (packetTaken heap c s a t).toList :=
  observed_concat hrun hstep

/-- An event that is no body that was read, and at most one for the server that is no packet. -/
theorem Receives.quiet (h : Receives M hash heap fromjson as s)
    (hrun : run (step M hash heap fromjson) start as = some s)
    (hstep : step M hash heap fromjson s a = some t)
    (hbody : ∀ c errmsg os, a ≠ .bodyRead c errmsg os)
    (hserver : t.server = s.server ∨ ∃ b, Server.step M hash s.server b = some t.server ∧
      ∀ c, b.requestOf c = none)
    (hstream : ∀ c sk', t.sockets[c]? = some sk' →
      (∃ sk, s.sockets[c]? = some sk ∧ ∀ bytes ps, Intake heap sk bytes ps →
        Intake heap sk' (bytes ++ a.arrival c) ps) ∨
      s.sockets[c]? = none ∧ sk' = Socket.new ∧ a.arrival c = [])
    (habsent : ∀ c, t.sockets[c]? = none → s.sockets[c]? = none ∧ a.arrival c = []) :
    Receives M hash heap fromjson (as ++ [a]) t := by
  have hnone : ∀ c, packetTaken heap c s a t = none := by
    intro c
    cases a with
    | bodyRead d errmsg os => exact absurd rfl (hbody d errmsg os)
    | _ => rfl
  have htaken : ∀ c, packetsTaken M hash heap fromjson c (as ++ [a]) =
      packetsTaken M hash heap fromjson c as := by
    intro c
    rw [packetsTaken_concat hrun hstep, hnone]
    exact List.append_nil _
  refine ⟨?_, ?_, ?_⟩
  · intro c sk' hsk'
    rw [arrived_concat, htaken]
    rcases hstream c sk' hsk' with ⟨sk, hsk, hkeep⟩ | ⟨hsk, rfl, harrival⟩
    · exact hkeep _ _ (h.stream c sk hsk)
    · obtain ⟨hbytes, hps⟩ := h.absent c hsk
      rw [hbytes, hps, harrival]
      exact intake_new heap
  · intro c hc
    obtain ⟨hsk, harrival⟩ := habsent c hc
    rw [arrived_concat, htaken, harrival, List.append_nil]
    exact h.absent c hsk
  · obtain ⟨bs, hbs, hrequests⟩ := h.server
    rcases hserver with heq | ⟨b, hb, hquiet⟩
    · refine ⟨bs, by rw [heq]; exact hbs, fun c => ?_⟩
      rw [htaken]
      exact hrequests c
    · refine ⟨bs ++ [b], run_concat hbs hb, fun c => ?_⟩
      rw [htaken, List.filterMap_append, hrequests c]
      simp [hquiet c]

/-- An event of one socket that is no body that was read. -/
theorem Receives.set (h : Receives M hash heap fromjson as s)
    (hrun : run (step M hash heap fromjson) start as = some s)
    (hstep : step M hash heap fromjson s a = some t)
    (hbody : ∀ c errmsg os, a ≠ .bodyRead c errmsg os)
    (hserver : t.server = s.server ∨ ∃ b, Server.step M hash s.server b = some t.server ∧
      ∀ c, b.requestOf c = none) {d : Nat} {sk sk' : Socket} (hsk : s.sockets[d]? = some sk)
    (hsockets : t.sockets = s.sockets.set d sk') (harrival : ∀ c, c ≠ d → a.arrival c = [])
    (hkeep : ∀ bytes ps, Intake heap sk bytes ps → Intake heap sk' (bytes ++ a.arrival d) ps) :
    Receives M hash heap fromjson (as ++ [a]) t := by
  apply h.quiet hrun hstep hbody hserver
  · intro c sk'' hc
    rw [hsockets] at hc
    rcases Server.getElem_set_cases hc with ⟨rfl, rfl⟩ | ⟨hne, hold⟩
    · exact Or.inl ⟨sk, hsk, hkeep⟩
    · refine Or.inl ⟨sk'', hold, fun bytes ps hstream => ?_⟩
      rw [harrival c hne, List.append_nil]
      exact hstream
  · intro c hc
    rw [hsockets, List.getElem?_set] at hc
    split_ifs at hc with heq hlt
    · subst heq
      rw [List.getElem?_eq_none (not_lt.mp hlt)] at hsk
      cases hsk
    · exact ⟨hc, harrival c fun hcd => heq hcd.symm⟩

/-- A body that was read is a packet taken, and a request of its connection. -/
theorem Receives.body (h : Receives M hash heap fromjson as s)
    (hrun : run (step M hash heap fromjson) start as = some s) {d : Nat} {errmsg : Option String}
    {os : List PopOutcome} (hstep : step M hash heap fromjson s (.bodyRead d errmsg os) = some t)
    {sk sk' : Socket} {field : HeaderField} {p : InPacket} (hsk : s.sockets[d]? = some sk)
    (hreading : sk.reading = .body field) (hp : receive heap field sk.incoming = .ok p)
    (hserver : Server.step M hash s.server (request fromjson d p errmsg os) = some t.server)
    (hsockets : t.sockets = s.sockets.set d sk')
    (hkeep : ∀ bytes ps, Intake heap sk bytes ps →
      Intake heap sk' bytes (ps ++ [(p.raw.take packetIdLength, p.body)])) :
    Receives M hash heap fromjson (as ++ [.bodyRead d errmsg os]) t := by
  have harrived : ∀ c, arrived c (as ++ [.bodyRead d errmsg os]) = arrived c as := by
    intro c
    rw [arrived_concat]
    exact List.append_nil _
  have htaken : ∀ c, packetsTaken M hash heap fromjson c (as ++ [.bodyRead d errmsg os]) =
      packetsTaken M hash heap fromjson c as ++
        if d = c then [(p.raw.take packetIdLength, p.body)] else [] := by
    intro c
    rw [packetsTaken_concat hrun hstep]
    congr 1
    by_cases hdc : d = c
    · subst hdc
      simp [packetTaken, hsk, hreading, hp, Except.toOption]
    · simp [packetTaken, hdc]
  refine ⟨?_, ?_, ?_⟩
  · intro c sk'' hc
    rw [hsockets] at hc
    rw [harrived, htaken]
    rcases Server.getElem_set_cases hc with ⟨rfl, rfl⟩ | ⟨hne, hold⟩
    · rw [if_pos rfl]
      exact hkeep _ _ (h.stream c sk hsk)
    · rw [if_neg fun hdc => hne hdc.symm, List.append_nil]
      exact h.stream c sk'' hold
  · intro c hc
    rw [hsockets, List.getElem?_set] at hc
    rw [harrived, htaken]
    split_ifs at hc with heq hlt
    · subst heq
      rw [List.getElem?_eq_none (not_lt.mp hlt)] at hsk
      cases hsk
    · rw [if_neg heq, List.append_nil]
      exact h.absent c hc
  · obtain ⟨bs, hbs, hrequests⟩ := h.server
    refine ⟨bs ++ [request fromjson d p errmsg os], run_concat hbs hserver, fun c => ?_⟩
    rw [htaken, List.filterMap_append, List.map_append, hrequests c]
    by_cases hdc : d = c
    · simp [request, Server.Action.requestOf, hdc]
    · simp [request, Server.Action.requestOf, hdc]

/-- **One event** leaves on each socket what its stream has left, and hands a packet that it takes to
the server. -/
theorem Receives.step (h : Receives M hash heap fromjson as s)
    (hrun : run (Host.step M hash heap fromjson) start as = some s)
    (hstep : Host.step M hash heap fromjson s a = some t) (hfault : t.server.fault = none) :
    Receives M hash heap fromjson (as ++ [a]) t := by
  rcases step_effect hstep with ⟨u, hu⟩ | ⟨d, e, sk, sk', hsk, he⟩ |
    ⟨d, sk, field, hsk, hreading, hfield⟩ |
    ⟨d, errmsg, os, sk, field, p, u, reply, data, hsk, hreading, hp, hid, hu, -, -⟩ |
    ⟨d, sk, u, hsk, hreading, -, hu⟩ | ⟨id, read, write, u, hu⟩ | ⟨_, u, hu⟩
  · refine h.quiet hrun hstep (by simp) (Or.inr ⟨.accept, hu, fun _ => rfl⟩) ?_ ?_
    · intro c sk' hc
      rcases Server.getElem_concat_cases hc with hold | ⟨rfl, rfl⟩
      · refine Or.inl ⟨sk', hold, fun bytes ps hstream => ?_⟩
        rw [show Action.accept.arrival c = [] from rfl, List.append_nil]
        exact hstream
      · exact Or.inr ⟨List.getElem?_eq_none le_rfl, rfl, rfl⟩
    · intro c hc
      rw [List.getElem?_eq_none_iff, List.length_append] at hc
      exact ⟨List.getElem?_eq_none (by omega), rfl⟩
  · refine h.set hrun hstep (by simp) (Or.inl rfl) hsk rfl ?_ ?_
    · intro c hne
      exact if_neg fun hdc => hne hdc.symm
    · intro bytes ps hstream
      rw [show (Action.socket d e).arrival d = e.arrival from if_pos rfl]
      exact hstream.socketStep he
  · refine h.set hrun hstep (by simp) (Or.inl rfl) hsk rfl (fun _ _ => rfl) ?_
    intro bytes ps hstream
    rw [show (Action.headerRead d).arrival d = [] from rfl, List.append_nil]
    exact hstream.header hreading hfield
  · refine h.body hrun hstep hsk hreading hp hu rfl ?_
    intro bytes ps hstream
    exact hstream.body hreading hp hid rfl rfl rfl rfl rfl
  · refine h.set hrun hstep (by simp) (Or.inr ⟨.disconnect d, hu, fun _ => rfl⟩) hsk rfl
      (fun _ _ => rfl) ?_
    intro bytes ps hstream
    rw [show (Action.readFailed d).arrival d = [] from rfl, List.append_nil]
    exact hstream.disconnected hreading _
  · refine h.quiet hrun hstep (by simp) (Or.inr ⟨.work id read write, hu, fun _ => rfl⟩) ?_ ?_
    · intro c sk' hc
      refine Or.inl ⟨sk', hc, fun bytes ps hstream => ?_⟩
      rw [show (Action.work id read write).arrival c = [] from rfl, List.append_nil]
      exact hstream
    · intro c hc
      exact ⟨hc, rfl⟩
  · exact absurd hfault hu

/-- **Every run receives so.** -/
theorem receives_run (hrun : run (Host.step M hash heap fromjson) start as = some t)
    (hfault : t.server.fault = none) : Receives M hash heap fromjson as t := by
  refine @run_history_invariant _ _ (Host.step M hash heap fromjson)
    (fun as t => t.server.fault = none → Receives M hash heap fromjson as t) start ?_
    (fun _ => receives_start) t as hrun hfault
  intro as s a t hrun hs hstep hfault
  exact (hs (fault_of_step hstep)).step hrun hstep hfault

/-- **The requests of a connection.** What the server does in a run of the host is a run of its own.
The requests in it of each connection are the first packets of what has arrived there, in order, in
whatever pieces it came and whatever happened in between, and each was answered by one response; and
they are all of these, when the socket is open and the read under way has to wait for more. -/
theorem requests_eq_packetsOf (M : Mongo) (hash : BSONObj → String) (heap : Heap)
    (fromjson : List UInt8 → Option BSONObj) (as : List Action) (t : Host)
    (hrun : run (step M hash heap fromjson) start as = some t) (hfault : t.server.fault = none) :
    ∃ bs, run (Server.step M hash) Server.start bs = some t.server ∧
      ∀ c sk, t.sockets[c]? = some sk → ∃ ps,
        bs.filterMap (Server.Action.requestOf c) =
          ps.map (fun p => fromjson (p.2.takeWhile (· ≠ 0))) ∧
        sk.packed.length = ps.length ∧ ps <+: packetsOf (receiveNext heap) (arrived c as) ∧
        (sk.closed = false → sk.incoming.length < sk.reading.length →
          ps = packetsOf (receiveNext heap) (arrived c as)) := by
  have h : Receives M hash heap fromjson as t := receives_run hrun hfault
  obtain ⟨bs, hbs, hrequests⟩ := h.server
  refine ⟨bs, hbs, ?_⟩
  intro c sk hsk
  have hstream := h.stream c sk hsk
  exact ⟨packetsTaken M hash heap fromjson c as, hrequests c, hstream.answered,
    hstream.prefix_packetsOf, hstream.eq_packetsOf⟩

/-- An OPEN and a REWIND in three pieces: the first ends in the header of the OPEN, the second in that
of the REWIND. -/
def samplePieces : List Action :=
  [.accept, .socket 0 (.arrive ((samplePacket "" (Server.sampleRequest 100)).take 10)),
    .socket 0 (.arrive ((samplePacket "" (Server.sampleRequest 100)).drop 10 ++
      (samplePacket "" sampleRewind).take 5)),
    .headerRead 0, .bodyRead 0 none [],
    .socket 0 (.arrive ((samplePacket "" sampleRewind).drop 5)), .headerRead 0, .bodyRead 0 none []]

/-- A request that arrives in pieces. -/
theorem requests_eq_packetsOf_sample : ∃ t bs,
    run (step Mongo.plain Server.sampleHash sampleHeap sampleFromjson) start samplePieces = some t ∧
      run (Server.step Mongo.plain Server.sampleHash) Server.start bs = some t.server ∧
      bs.filterMap (Server.Action.requestOf 0) =
        [some (Server.sampleRequest 100), some sampleRewind] := by
  obtain ⟨t, ht, hend⟩ := (Option.any_eq_true _ _).mp
    (show (run (step Mongo.plain Server.sampleHash sampleHeap sampleFromjson) start
      samplePieces).any (fun t => t.server.fault.isNone && (t.sockets[0]?).any fun sk =>
        !sk.closed && decide (sk.incoming.length < sk.reading.length)) = true by decide +kernel)
  obtain ⟨hfault, hsocket⟩ := Bool.and_eq_true_iff.mp hend
  obtain ⟨sk, hsk, hwaits⟩ := (Option.any_eq_true _ _).mp hsocket
  obtain ⟨hopen, hshort⟩ := Bool.and_eq_true_iff.mp hwaits
  obtain ⟨bs, hbs, hrequests⟩ := requests_eq_packetsOf Mongo.plain Server.sampleHash sampleHeap
    sampleFromjson samplePieces t ht (Option.isNone_iff_eq_none.mp hfault)
  obtain ⟨ps, hps, -, -, hall⟩ := hrequests 0 sk hsk
  refine ⟨t, bs, ht, hbs, hps.trans ?_⟩
  rw [hall (by simpa using hopen) (of_decide_eq_true hshort)]
  decide +kernel

end Host

end Zbroker
