import Zbroker.Server.Socket

/-!
# Pipelined requests

`handle_read_body` starts the write of a response and reads the next header, whether or not the
write is over; and all responses of a connection go through its one `m_send_buffer`.

* `Socket.Intact`, `Host.Intact` — what the client has received is a prefix of the packed
  responses in order, no write has lost its buffer, and there is one write at most.
* `Socket.Sound` — what was received and what is still to be sent are all responses together,
  until the socket is closed.
* `WriteOver s a` — a request is taken only when the write of the one before is over.
* **`intact_iff`**: a run keeps all sockets intact exactly when it takes its requests like that.
`intact_step` says for each event that an intact host stays intact exactly when the event is `WriteOver`;
a write that has lost its buffer never gets it back.
-/

namespace Zbroker

open Found.Transition

namespace Socket

/-- What the client has received is a prefix of the packed responses, in the order of the
requests; no write has lost its buffer, and there is one write at most. -/
structure Intact (sk : Socket) : Prop where
  received : sk.received <+: sk.packed.flatten
  buffer : ∀ w ∈ sk.writes, w.intact = true
  single : sk.writes.length ≤ 1

/-- Until the socket is closed, what was received and what is still to be sent are the packed
responses. -/
def Sound (sk : Socket) : Prop :=
  sk.closed = false → sk.received ++ sk.writes.flatMap Write.rest = sk.packed.flatten

section step

variable {sk sk' : Socket} {i : Nat} {w : Write}

/-- The only write. -/
theorem Intact.writes_eq (h : sk.Intact) (hw : sk.writes[i]? = some w) :
    i = 0 ∧ sk.writes = [w] := by
  have hsingle := h.single
  rcases hwrites : sk.writes with _ | ⟨w', _ | ⟨w'', ws⟩⟩
  · rw [hwrites] at hw
    cases hw
  · rw [hwrites] at hw
    rcases i with _ | i
    · cases hw
      exact ⟨rfl, rfl⟩
    · cases hw
  · rw [hwrites, List.length_cons, List.length_cons] at hsingle
    omega

/-- A part of the only write is sent. -/
theorem Intact.send (h : sk.Intact) (hsound : sk.Sound) (hopen : sk.closed = false)
    (hw : sk.writes[i]? = some w) {bytes : List UInt8} (hbytes : bytes <+: w.rest) :
    (sk.send i w bytes).Intact ∧ (sk.send i w bytes).Sound := by
  obtain ⟨rfl, hwrites⟩ := h.writes_eq hw
  obtain ⟨rest, hrest⟩ := hbytes
  have hall : sk.received ++ bytes ++ rest = sk.packed.flatten := by
    have hsk := hsound hopen
    rw [hwrites, List.flatMap_singleton, ← hrest, ← List.append_assoc] at hsk
    exact hsk
  have hleft : ({ w with sent := w.sent + bytes.length } : Write).rest = rest := by
    show w.data.drop (w.sent + bytes.length) = rest
    rw [← List.drop_drop]
    show w.rest.drop bytes.length = rest
    rw [← hrest, List.drop_left]
  refine ⟨⟨⟨rest, hall⟩, ?_, ?_⟩, ?_⟩
  · intro w' hw'
    rw [Socket.send, hwrites, List.set_cons_zero, List.mem_singleton] at hw'
    rw [hw']
    exact h.buffer w (by rw [hwrites]; exact List.mem_singleton_self w)
  · rw [Socket.send, hwrites]
    exact le_rfl
  · intro _
    rw [Socket.send, hwrites, List.set_cons_zero, List.flatMap_singleton, hleft]
    exact hall

/-- The only write is over, or fails. -/
theorem Intact.eraseIdx (h : sk.Intact) (hw : sk.writes[i]? = some w) :
    sk.writes.eraseIdx i = [] := by
  obtain ⟨rfl, hwrites⟩ := h.writes_eq hw
  rw [hwrites]
  rfl

/-- What happens to a socket by itself leaves it intact. -/
theorem Intact.step (h : sk.Intact) (hsound : sk.Sound) {e : Event} (he : sk.step e = some sk') :
    sk'.Intact ∧ sk'.Sound := by
  rcases e with bytes | _ | ⟨i, bytes⟩ | i | i
  · simp only [Socket.step] at he
    split_ifs at he
    cases he
    exact ⟨⟨h.received, h.buffer, h.single⟩, hsound⟩
  · cases he
    exact ⟨⟨h.received, h.buffer, h.single⟩, hsound⟩
  · obtain ⟨w, hw, he⟩ := Option.bind_eq_some_iff.mp he
    split_ifs at he with hsend
    cases he
    have hmem : w ∈ sk.writes := List.mem_of_getElem? hw
    exact h.send hsound hsend.1 hw (hsend.2.2 (h.buffer w hmem))
  · obtain ⟨w, hw, he⟩ := Option.bind_eq_some_iff.mp he
    split_ifs at he with hrest
    cases he
    have hnone := h.eraseIdx hw
    refine ⟨⟨h.received, ?_, ?_⟩, ?_⟩
    · intro w' hw'
      rw [hnone] at hw'
      cases hw'
    · rw [hnone]
      exact Nat.zero_le 1
    · intro hopen
      have hsk := hsound hopen
      rw [(h.writes_eq hw).2, List.flatMap_singleton, hrest] at hsk
      rw [hnone]
      exact hsk
  · obtain ⟨w, hw, rfl⟩ := Option.map_eq_some_iff.mp he
    have hnone := h.eraseIdx hw
    refine ⟨⟨h.received, ?_, ?_⟩, ?_⟩
    · intro w' hw'
      rw [writeFailed, hnone] at hw'
      cases hw'
    · rw [writeFailed, hnone]
      exact Nat.zero_le 1
    · intro hopen
      cases hopen

/-- **The write of a response** leaves the socket intact exactly when no other write is under
way. -/
theorem intact_write_iff (h : sk.Intact) (data : List UInt8) :
    (sk.write data).Intact ↔ sk.writes = [] := by
  constructor
  · intro hwrite
    have hsingle := hwrite.single
    simp only [write, List.length_append, List.length_map, List.length_singleton] at hsingle
    exact List.length_eq_zero_iff.mp (by omega)
  · intro hnone
    refine ⟨?_, ?_, ?_⟩
    · rw [write, List.flatten_append]
      exact h.received.trans (List.prefix_append _ _)
    · intro w hw
      rw [write, hnone, List.map_nil, List.nil_append, List.mem_singleton] at hw
      rw [hw]
    · rw [write, hnone]
      exact le_rfl

/-- A write that is the only one is sound. -/
theorem Sound.write (h : sk.Sound) (hnone : sk.writes = []) (data : List UInt8) :
    (sk.write data).Sound := by
  intro hopen
  have hsk := h hopen
  rw [hnone, List.flatMap_nil, List.append_nil] at hsk
  rw [Socket.write, hnone, List.map_nil, List.nil_append, List.flatMap_singleton,
    List.flatten_append, hsk, List.flatten_singleton]
  rfl

end step

end Socket

namespace Host

/-- Every socket is intact. -/
def Intact (s : Host) : Prop := ∀ (c : Nat) (sk : Socket), s.sockets[c]? = some sk → sk.Intact

/-- Every socket is sound. -/
def Sound (s : Host) : Prop := ∀ (c : Nat) (sk : Socket), s.sockets[c]? = some sk → sk.Sound

variable (M : Mongo) (hash : BSONObj → String) (heap : Heap)
  (fromjson : List UInt8 → Option BSONObj)

/-- The event ends the program. -/
def Ends (s : Host) (a : Action) : Prop :=
  ∀ t, step M hash heap fromjson s a = some t → t.server.fault ≠ none

/-- A request is taken when no write of its connection is under way, unless it ends the
program. -/
def WriteOver (s : Host) : Action → Prop
  | .bodyRead c errmsg os =>
      (∀ sk ∈ s.sockets[c]?, sk.writes = []) ∨ Ends M hash heap fromjson s (.bodyRead c errmsg os)
  | _ => True

instance (s : Host) (a : Action) : Decidable (Ends M hash heap fromjson s a) :=
  match h : step M hash heap fromjson s a with
  | none => isTrue fun t ht => by cases h.symm.trans ht
  | some t =>
      decidable_of_iff (t.server.fault ≠ none)
        ⟨fun hfault t' ht => by cases h.symm.trans ht; exact hfault, fun hall => hall t h⟩

instance (s : Host) (a : Action) : Decidable (WriteOver M hash heap fromjson s a) := by
  unfold WriteOver
  split <;> infer_instance

section step

variable {M hash heap fromjson} {s t : Host} {a : Action} {c : Nat} {sk sk' : Socket}

/-- What holds of every socket before one of them changes holds of every socket after it exactly
if it holds of that one. -/
theorem forall_set_iff {P : Socket → Prop} {l : List Socket}
    (h : ∀ (d : Nat) (sk : Socket), l[d]? = some sk → P sk) (hsk : l[c]? = some sk) :
    (∀ (d : Nat) (sk'' : Socket), (l.set c sk')[d]? = some sk'' → P sk'') ↔ P sk' := by
  constructor
  · intro hall
    apply hall c
    exact List.getElem?_set_self (List.getElem?_eq_some_iff.mp hsk).1
  · intro hone d sk'' hd
    rcases Server.getElem_set_cases hd with ⟨-, rfl⟩ | ⟨-, hold⟩
    · exact hone
    · exact h d sk'' hold

/-- **One event** keeps the sockets intact exactly when it takes no request while a write is under
way; and as long as they are intact they are sound. -/
theorem intact_step (hsound : s.Sound) (hintact : s.Intact)
    (hstep : step M hash heap fromjson s a = some t) :
    (t.Intact ↔ WriteOver M hash heap fromjson s a) ∧ (t.Intact → t.Sound) := by
  have hquiet : ∀ {t : Host}, WriteOver M hash heap fromjson s a → t.Intact ∧ t.Sound →
      (t.Intact ↔ WriteOver M hash heap fromjson s a) ∧ (t.Intact → t.Sound) := by
    intro t hover ht
    exact ⟨iff_of_true ht.1 hover, fun _ => ht.2⟩
  rcases step_effect hstep with ⟨u, hu⟩ | ⟨c, e, sk, sk', hsk, he⟩ | ⟨c, sk, field, hsk, -, -⟩ |
    ⟨c, errmsg, os, sk, field, p, u, reply, data, hsk, -, -, -, hu, hsent, -⟩ |
    ⟨c, sk, u, hsk, -, -, hu⟩ | ⟨id, read, write, u, hu⟩ | ⟨_, u, hu⟩
  · refine hquiet trivial ⟨?_, ?_⟩
    · intro c sk hc
      rcases Server.getElem_concat_cases hc with hold | ⟨-, rfl⟩
      · exact hintact c sk hold
      · exact ⟨List.nil_prefix, fun w hw => (by cases hw), Nat.zero_le 1⟩
    · intro c sk hc
      rcases Server.getElem_concat_cases hc with hold | ⟨-, rfl⟩
      · exact hsound c sk hold
      · exact fun _ => rfl
  · obtain ⟨hsk', hsound'⟩ := (hintact c sk hsk).step (hsound c sk hsk) he
    exact hquiet trivial ⟨(forall_set_iff hintact hsk).mpr hsk',
      (forall_set_iff hsound hsk).mpr hsound'⟩
  · obtain ⟨hreceived, hbuffer, hsingle⟩ := hintact c sk hsk
    exact hquiet trivial ⟨(forall_set_iff hintact hsk).mpr ⟨hreceived, hbuffer, hsingle⟩,
      (forall_set_iff hsound hsk).mpr (hsound c sk hsk)⟩
  · -- a response: its write is the only one if the last one is over
    obtain ⟨hreceived, hbuffer, hsingle⟩ := hintact c sk hsk
    have htaken : (s.taken c p (request fromjson c p errmsg os) sk).Intact :=
      ⟨hreceived, hbuffer, hsingle⟩
    have hiff := (forall_set_iff hintact hsk).trans (Socket.intact_write_iff htaken data)
    have hgoes : ¬Ends M hash heap fromjson s (.bodyRead c errmsg os) := by
      intro hends
      apply hends _ hstep
      by_contra hfault
      rw [Server.sent_of_fault hfault] at hsent
      cases hsent
    refine ⟨hiff.trans ⟨fun hnone => Or.inl fun sk' hsk' => ?_, ?_⟩, ?_⟩
    · rw [hsk] at hsk'
      cases hsk'
      exact hnone
    · intro hover
      exact hover.resolve_right hgoes sk hsk
    · intro ht
      have hnone : sk.writes = [] := hiff.mp ht
      exact (forall_set_iff hsound hsk).mpr (Socket.Sound.write (hsound c sk hsk) hnone data)
  · obtain ⟨hreceived, hbuffer, hsingle⟩ := hintact c sk hsk
    exact hquiet trivial ⟨(forall_set_iff hintact hsk).mpr ⟨hreceived, hbuffer, hsingle⟩,
      (forall_set_iff hsound hsk).mpr (hsound c sk hsk)⟩
  · exact hquiet trivial ⟨hintact, hsound⟩
  · have hends : Ends M hash heap fromjson s a := by
      intro t' ht'
      rw [hstep] at ht'
      cases ht'
      exact hu
    refine hquiet ?_ ⟨hintact, hsound⟩
    unfold WriteOver
    split
    · exact Or.inr hends
    · trivial

end step

/-- **Pipelined requests.** All along a run of the host, what every client has received is a
prefix of its packed responses, no write has lost its buffer and no two writes are under way on
one socket, exactly when every request is taken while no write of its connection is under way,
or ends the program. -/
theorem intact_iff (as : List Action) (u : Host)
    (hrun : run (step M hash heap fromjson) start as = some u) :
    (∀ bs, bs <+: as → ∀ t, run (step M hash heap fromjson) start bs = some t → t.Intact) ↔
      Guarded (step M hash heap fromjson) (WriteOver M hash heap fromjson) start as := by
  have hstart : start.Sound ∧ start.Intact := by
    refine ⟨?_, ?_⟩
    · intro c sk hc
      cases hc
    · intro c sk hc
      cases hc
  have hall : Guarded (step M hash heap fromjson) (fun _ _ => True) start as :=
    guarded_of_forall (step M hash heap fromjson) _ (fun _ _ => trivial) start as
  exact @forall_prefix_iff_guarded _ _ (step M hash heap fromjson)
    (WriteOver M hash heap fromjson) _ Sound Intact
    (fun _ _ _ hs hP _ hst ht => (intact_step hs hP hst).2 ht)
    (fun _ _ _ hs hP _ hst => (intact_step hs hP hst).1) _ _ _ hstart.1 hstart.2 hall hrun

/-- The packet that answers a sample request. -/
def sampleAnswer (extra : String) : List UInt8 :=
  frame (printId (bytesOf (Server.sampleHash [])))
    (bytesOf (BSON.text (packResponse Mongo.plain .ok extra none)))

/-- An OPEN and a REWIND at once; the REWIND is taken when the answer to the OPEN was sent, in two
parts. -/
def sampleInTurn : List Action :=
  [.accept,
    .socket 0 (.arrive (samplePacket "" (Server.sampleRequest 100) ++ samplePacket "" sampleRewind)),
    .headerRead 0, .bodyRead 0 none [],
    .socket 0 (.send 0 ((sampleAnswer "Open Action").take 20)), .headerRead 0,
    .socket 0 (.send 0 ((sampleAnswer "Open Action").drop 20)), .socket 0 (.written 0),
    .bodyRead 0 none []]

/-- Requests that wait for their answers. -/
theorem intact_iff_sample : ∃ u,
    run (step Mongo.plain Server.sampleHash sampleHeap sampleFromjson) start sampleInTurn = some u ∧
      ∀ bs, bs <+: sampleInTurn → ∀ t,
        run (step Mongo.plain Server.sampleHash sampleHeap sampleFromjson) start bs = some t →
          t.Intact := by
  obtain ⟨u, hu⟩ := Option.isSome_iff_exists.mp (show (run (step Mongo.plain Server.sampleHash
    sampleHeap sampleFromjson) start sampleInTurn).isSome = true by decide +kernel)
  refine ⟨u, hu, (intact_iff Mongo.plain Server.sampleHash sampleHeap sampleFromjson _ u hu).mpr ?_⟩
  decide +kernel

/-- The REWIND is taken when three bytes of the answer to the OPEN have been sent: its own answer
takes the buffer, and comes next. -/
theorem not_intact_sample : ∃ t,
    run (step Mongo.plain Server.sampleHash sampleHeap sampleFromjson) start
        [.accept,
          .socket 0 (.arrive
            (samplePacket "" (Server.sampleRequest 100) ++ samplePacket "" sampleRewind)),
          .headerRead 0, .bodyRead 0 none [],
          .socket 0 (.send 0 ((sampleAnswer "Open Action").take 3)), .headerRead 0,
          .bodyRead 0 none [], .socket 0 (.send 1 (sampleAnswer "Rewind Action"))] = some t ∧
      t.server.fault = none ∧ ¬t.Intact := by
  have hrun : (run (step Mongo.plain Server.sampleHash sampleHeap sampleFromjson) start
        [.accept,
          .socket 0 (.arrive
            (samplePacket "" (Server.sampleRequest 100) ++ samplePacket "" sampleRewind)),
          .headerRead 0, .bodyRead 0 none [],
          .socket 0 (.send 0 ((sampleAnswer "Open Action").take 3)), .headerRead 0,
          .bodyRead 0 none [], .socket 0 (.send 1 (sampleAnswer "Rewind Action"))]).any
      (fun t => t.server.fault.isNone &&
        (t.sockets[0]?).any fun sk => !decide (sk.received <+: sk.packed.flatten)) = true := by
    decide +kernel
  obtain ⟨t, ht, hend⟩ := (Option.any_eq_true _ _).mp hrun
  obtain ⟨hfault, hsocket⟩ := Bool.and_eq_true_iff.mp hend
  obtain ⟨sk, hsk, hreceived⟩ := (Option.any_eq_true _ _).mp hsocket
  refine ⟨t, ht, Option.isNone_iff_eq_none.mp hfault, ?_⟩
  intro hintact
  have hin := (hintact 0 sk hsk).received
  simp [hin] at hreceived

end Host

end Zbroker
