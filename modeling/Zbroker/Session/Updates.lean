import Zbroker.Found.Transition
import Zbroker.Session.Write

/-!
# What becomes of the updates that are written

* `Effect s a t` — what a step can do, and **`step_effect`**: it does one of these things.
* `settings_step` — no step but those of `term` touches the settings of the broker.
* `Conserves b s` — what was passed on, what the update thread has in its hand, what is queued
  and the rest of the request under way, from its back, are the documents of the requests, each
  request from its back.
* `Phases s` — the update thread exits only in a session that is being closed.
* **`survivesClose_iff`**: when `term` has returned, every update of an answered request was
  passed on once exactly when the update thread found the queue empty as it exited.
`Conserves` and `Phases` are kept by every step, as `Effect` says of each what it moves. When `term` has
returned, the requests are what was passed on and what is still queued; and the queue is as the update
thread left it, since no WRITE is under way any more.
-/

namespace Zbroker.WriteSession

open Found.Transition

/-! ## Where the documents are -/

/-- What the update thread has popped and not passed on. -/
def Updater.inHand : Updater → List BSONObj
  | .updating obj => [obj]
  | _ => []

/-- What the request under way has not pushed yet. -/
def Io.rest : Io → List BSONObj
  | .writing _ tmp | .entering _ tmp | .pushWait _ tmp _ => tmp
  | _ => []

/-- The documents of the request under way. -/
def Io.pending : Io → List (List BSONObj)
  | .writing docs _ | .entering docs _ | .pushWait docs _ _ => [docs]
  | _ => []

/-- Whether `term` has begun. -/
def Io.ending : Io → Bool
  | .waitDone | .joining | .closed => true
  | _ => false

/-- What is on its way to the update thread, in the order it will come. -/
def State.onTheWay (s : State) : List BSONObj :=
  s.updater.inHand ++ s.broker.queue.queue ++ s.io.rest.reverse

@[simp] theorem inHand_updating (obj : BSONObj) : (Updater.updating obj).inHand = [obj] := rfl
@[simp] theorem rest_writing (docs tmp : List BSONObj) : (Io.writing docs tmp).rest = tmp := rfl
@[simp] theorem pending_writing (docs tmp : List BSONObj) :
    (Io.writing docs tmp).pending = [docs] := rfl

/-! ## What a step can do -/

/-- The update thread is where it was, as far as its documents and its end are concerned. -/
structure Updater.Same (u v : Updater) : Prop where
  inHand : v.inHand = u.inHand
  exited : v = .exited ↔ u = .exited

/-- The io thread is where it was, as far as its documents and its end are concerned. -/
structure Io.Same (p q : Io) : Prop where
  rest : q.rest = p.rest
  pending : q.pending = p.pending
  ending : q.ending = p.ending
  closed : q = .closed ↔ p = .closed

/-- The update thread as it is. -/
theorem Updater.Same.refl (u : Updater) : u.Same u := ⟨rfl, Iff.rfl⟩

/-- The io thread as it is. -/
theorem Io.Same.refl (p : Io) : p.Same p := ⟨rfl, rfl, rfl, Iff.rfl⟩

/-- A notification of the update thread moves no document. -/
theorem Updater.same_notify (u : Updater) : u.Same u.notify := by
  cases u <;> exact ⟨rfl, by simp [Updater.notify]⟩

/-- A notification of the io thread moves no document. -/
theorem Io.same_notify (p : Io) : p.Same p.notify := by
  cases p <;> exact ⟨rfl, rfl, rfl, by simp [Io.notify]⟩

/-- The effects of the steps. -/
inductive Effect (s : State) : Action → State → Prop
  /-- The threads move on with the documents they have. -/
  | threads (a : Action) (u : Updater) (p : Io) (hu : s.updater.Same u) (hp : s.io.Same p) :
      Effect s a { s with updater := u, io := p }
  /-- The program ends. -/
  | fault (a : Action) (e : Exn) : Effect s a { s with fault := some e }
  /-- The update thread takes the front of the queue. -/
  | pop (a : Action) (obj : BSONObj) (rest : List BSONObj) (hhand : s.updater.inHand = [])
      (hexited : s.updater ≠ .exited) (hqueue : s.broker.queue.queue = obj :: rest) :
      Effect s a (s.popped obj rest)
  /-- It passes on what it has in its hand. -/
  | passOn (a : Action) (obj : BSONObj) (hu : s.updater = .updating obj) :
      Effect s a (s.passOn obj)
  /-- It leaves its handler. -/
  | leave (hu : s.updater = .timedOut) : Effect s .updater
      { s with updater := if s.broker.doExit then .exited else .popping }
  /-- The io thread pushes from the back of its vector. -/
  | push (a : Action) (docs tmp : List BSONObj) (hrest : s.io.rest = tmp)
      (hpending : s.io.pending = [docs]) (hending : s.io.ending = false) :
      Effect s a (s.push docs tmp)
  /-- It answers a request. -/
  | answer (a : Action) (docs : List BSONObj) (hio : s.io = .writing docs []) :
      Effect s a (s.acknowledge docs)
  /-- It takes a request. -/
  | request (a : Action) (docs : List BSONObj) (hio : s.io = .idle) : Effect s a
      { s with
        io := .writing docs docs, log := { s.log with requests := s.log.requests ++ [docs] } }
  /-- It begins with `term`. -/
  | term (a : Action) (hio : s.io = .idle) : Effect s a s.startTerm
  /-- `term` returns. -/
  | close (a : Action) (hio : s.io = .joining) (hu : s.updater = .exited) : Effect s a
      { s with broker := s.broker.close, io := .closed }

section effect

variable {s t : State}

/-- A step that moves the update thread on with the document it has, if any. -/
theorem Effect.of_updater (a : Action) {u : Updater} (hu : s.updater.Same u) :
    Effect s a { s with updater := u } :=
  .threads a u s.io hu (Io.Same.refl s.io)

/-- A step that moves the io thread on with the documents it has. -/
theorem Effect.of_io (a : Action) {p : Io} (hp : s.io.Same p) : Effect s a { s with io := p } :=
  .threads a s.updater p (Updater.Same.refl s.updater) hp

/-- The steps of the update thread. -/
theorem updaterStep_effect (h : s.updaterStep = some t) : Effect s .updater t := by
  unfold State.updaterStep at h
  rcases hu : s.updater with _ | _ | w | obj | _ | _
  · simp only [hu, Option.some.injEq] at h
    subst h
    exact .of_updater _ ⟨by rw [hu]; rfl, by simp [hu]⟩
  · simp only [hu, Option.some.injEq] at h
    subst h
    unfold State.enterPop
    split
    · exact .threads _ _ _ ⟨by rw [hu]; rfl, by simp [hu]⟩ (Io.same_notify _)
    · exact .pop _ _ _ (by rw [hu]; rfl) (by simp [hu]) (by assumption)
  · rcases w with _ | _ | _
    · simp [hu] at h
    · simp only [hu, Option.some.injEq] at h
      subst h
      unfold State.resumePop
      split
      · exact .fault _ _
      · exact .pop _ _ _ (by rw [hu]; rfl) (by simp [hu]) (by assumption)
    · simp only [hu, Option.some.injEq] at h
      subst h
      exact .of_updater _ ⟨by rw [hu]; rfl, by simp [hu]⟩
  · simp only [hu, Option.some.injEq] at h
    subst h
    exact .passOn _ obj hu
  · simp only [hu, Option.some.injEq] at h
    subst h
    exact .leave hu
  · simp [hu] at h

/-- The steps of the io thread in a request or in `term`. -/
theorem ioStep_effect (h : s.ioStep = some t) : Effect s .io t := by
  unfold State.ioStep at h
  rcases hio : s.io with _ | ⟨docs, tmp⟩ | ⟨docs, tmp⟩ | ⟨docs, tmp, w⟩ | _ | _ | _
  · simp [hio] at h
  · simp only [hio, Option.some.injEq] at h
    subst h
    split_ifs with hempty
    · rw [List.isEmpty_iff] at hempty
      exact .answer _ docs (by rw [hio, hempty])
    · exact .of_io _ ⟨by rw [hio]; rfl, by rw [hio]; rfl, by rw [hio]; rfl, by simp [hio]⟩
  · simp only [hio, Option.some.injEq] at h
    subst h
    unfold State.enterPush
    split
    · exact .fault _ _
    · split_ifs
      · exact .threads _ _ _ (Updater.same_notify _)
          ⟨by rw [hio]; rfl, by rw [hio]; rfl, by rw [hio]; rfl, by simp [hio]⟩
      · exact .push _ docs tmp (by rw [hio]; rfl) (by rw [hio]; rfl) (by rw [hio]; rfl)
  · rcases w with _ | _ | _
    · simp [hio] at h
    · simp only [hio, Option.some.injEq] at h
      subst h
      exact .push _ docs tmp (by rw [hio]; rfl) (by rw [hio]; rfl) (by rw [hio]; rfl)
    · simp [hio] at h
  · simp only [hio] at h
    split_ifs at h
    cases h
    exact .of_io _ ⟨by rw [hio]; rfl, by rw [hio]; rfl, by rw [hio]; rfl, by simp [hio]⟩
  · simp only [hio] at h
    split at h
    · rename_i hu
      cases h
      exact .close _ hio hu
    · cases h
  · simp [hio] at h

/-- The deadline of a pop, and a wake-up, change only how the wait goes on. -/
theorem Updater.same_of_expire {u v : Updater} (h : u.expire = some v) : u.Same v := by
  unfold Updater.expire at h
  split at h
  · obtain ⟨w, -, rfl⟩ := Option.map_eq_some_iff.mp h
    exact ⟨rfl, by simp⟩
  · cases h

/-- A wake-up of the update thread moves no document. -/
theorem Updater.same_of_wake {u v : Updater} (h : u.wake = some v) : u.Same v := by
  unfold Updater.wake at h
  split at h
  · cases h
    exact ⟨rfl, by simp⟩
  · cases h

/-- A wake-up of the io thread moves no document. -/
theorem Io.same_of_wake {p q : Io} (h : p.wake = some q) : p.Same q := by
  unfold Io.wake at h
  split at h
  · cases h
    exact ⟨rfl, rfl, rfl, by simp⟩
  · cases h

/-- **What a step can do.** -/
theorem step_effect {a : Action} (h : step s a = some t) : Effect s a t := by
  unfold step at h
  split at h
  · cases h
  · rcases a with _ | _ | _ | _ | _ | _ | body | _
    · exact updaterStep_effect h
    · obtain ⟨u, hu, rfl⟩ := Option.map_eq_some_iff.mp h
      exact .of_updater _ (Updater.same_of_expire hu)
    · obtain ⟨u, hu, rfl⟩ := Option.map_eq_some_iff.mp h
      exact .of_updater _ (Updater.same_of_wake hu)
    · simp only at h
      split at h
      · cases h
        exact .fault _ _
      · cases h
    · exact ioStep_effect h
    · obtain ⟨p, hp, rfl⟩ := Option.map_eq_some_iff.mp h
      exact .of_io _ (Io.same_of_wake hp)
    · simp only at h
      split_ifs at h with hio
      cases h
      unfold State.startWrite
      split_ifs
      · split
        · exact .fault _ _
        · exact .request _ _ hio
      · exact .fault _ _
    · simp only at h
      split_ifs at h with hio
      cases h
      exact .term _ hio

/-! ## The settings -/

/-- The update thread leaves its broker the settings. -/
theorem settings_updaterStep (h : s.updaterStep = some t) :
    t.broker.settings = s.broker.settings := by
  unfold State.updaterStep at h
  split at h
  · cases h
    rfl
  · cases h
    unfold State.enterPop
    split <;> rfl
  · cases h
  · cases h
    unfold State.resumePop
    split <;> rfl
  · cases h
    rfl
  · cases h
    rfl
  · cases h
    rfl
  · cases h

/-- A request leaves the broker the settings, and so does `term` until it returns. -/
theorem settings_ioStep (h : s.ioStep = some t) (hio : s.io ≠ .joining) :
    t.broker.settings = s.broker.settings := by
  have hpush : ∀ docs tmp, (s.push docs tmp).broker.settings = s.broker.settings := by
    intro docs tmp
    unfold State.push Broker.settings SizedQueue.clear
    simp only [SizedQueue.limitSize_fill]
  unfold State.ioStep at h
  split at h
  · cases h
  · cases h
    split_ifs <;> rfl
  · cases h
    unfold State.enterPush
    split
    · rfl
    · split_ifs
      · rfl
      · exact hpush _ _
  · cases h
    exact hpush _ _
  · cases h
  · split_ifs at h
    cases h
    rfl
  · rename_i hjoining
    exact absurd hjoining hio
  · cases h

/-- **The settings of a write broker stay** from its `open` to `term`. -/
theorem settings_step {a : Action} (h : step s a = some t) (hclose : a ≠ .close)
    (hio : s.io ≠ .joining) : t.broker.settings = s.broker.settings := by
  unfold step at h
  split at h
  · cases h
  · rcases a with _ | _ | _ | _ | _ | _ | body | _
    · exact settings_updaterStep h
    · obtain ⟨u, -, rfl⟩ := Option.map_eq_some_iff.mp h
      rfl
    · obtain ⟨u, -, rfl⟩ := Option.map_eq_some_iff.mp h
      rfl
    · dsimp only at h
      split at h <;> cases h
      rfl
    · exact settings_ioStep h hio
    · obtain ⟨p, -, rfl⟩ := Option.map_eq_some_iff.mp h
      rfl
    · dsimp only at h
      split_ifs at h
      cases h
      unfold State.startWrite
      split_ifs
      · split <;> rfl
      · rfl
    · exact absurd rfl hclose

end effect

/-! ## Nothing is lost, repeated or moved -/

/-- What was passed on and what is on its way are the documents of the requests, each from its
back; and all requests but the one under way were answered. -/
structure Conserves (b : Broker) (s : State) : Prop where
  docset : s.broker.docset = b.docset
  applied : s.log.applied ++ s.onTheWay.map (updateOp b.docset) =
    ((s.log.requests.map List.reverse).flatten).map (updateOp b.docset)
  answered : s.log.requests = s.log.acknowledged ++ s.io.pending

/-- It is so when the session has been opened. -/
theorem conserves_opened {connect : String → Option String} {options : BSONObj} {b : Broker}
    (hopen : Broker.new.openOn connect (some options) = (b, none)) :
    Conserves b (State.opened b) := by
  refine ⟨rfl, ?_, rfl⟩
  have hqueue : b.queue.queue = [] := (Broker.fresh_of_openOn hopen).queue
  simp [State.opened, State.onTheWay, Updater.inHand, Io.rest, hqueue]

section step

variable {b : Broker} {s t : State}

/-- A step that moves documents along and logs nothing. -/
theorem Conserves.of_log_eq (h : Conserves b s) (hdocset : t.broker.docset = s.broker.docset)
    (hway : t.onTheWay = s.onTheWay) (hpending : t.io.pending = s.io.pending)
    (hlog : t.log = s.log) : Conserves b t := by
  refine ⟨hdocset.trans h.docset, ?_, ?_⟩
  · rw [hlog, hway]
    exact h.applied
  · rw [hlog, hpending]
    exact h.answered

/-- **Every step conserves the updates**, apart from the turning round of each request. -/
theorem Conserves.step {a : Action} (h : Conserves b s) (hstep : step s a = some t) :
    Conserves b t := by
  have happlied := h.applied
  have hanswered := h.answered
  rcases step_effect hstep with ⟨_, u, p, hu, hp⟩ | ⟨_, e⟩ | ⟨_, obj, rest, hhand, hexited, hqueue⟩ |
    ⟨_, obj, hu⟩ | hu | ⟨_, docs, tmp, hrest, hpending, hending⟩ | ⟨_, docs, hio⟩ |
    ⟨_, docs, hio⟩ | ⟨_, hio⟩ | ⟨_, hio, hu⟩
  · refine h.of_log_eq rfl ?_ hp.pending rfl
    simp only [State.onTheWay, hu.inHand, hp.rest]
  · exact h.of_log_eq rfl rfl rfl rfl
  · refine h.of_log_eq rfl ?_ (Io.same_notify s.io).pending rfl
    simp [State.onTheWay, State.popped, hhand, hqueue, (Io.same_notify s.io).rest]
  · -- the document leaves the hand and is the next one passed on
    refine ⟨h.docset, ?_, hanswered⟩
    simp only [State.onTheWay, hu, inHand_updating, List.cons_append, List.nil_append,
      List.map_cons] at happlied
    simpa [State.passOn, State.onTheWay, Updater.inHand, h.docset] using happlied
  · refine h.of_log_eq rfl ?_ rfl rfl
    simp only [State.onTheWay, hu]
    split_ifs <;> rfl
  · -- the back of the vector moves to the back of the queue
    refine h.of_log_eq rfl ?_ hpending.symm rfl
    have hmoved := SizedQueue.queue_fill_append s.broker.queue tmp
    simp only [State.onTheWay, State.push, rest_writing, (Updater.same_notify s.updater).inHand,
      hrest, List.append_assoc, hmoved]
  · rw [hio, pending_writing] at hanswered
    simp only [State.onTheWay, hio] at happlied
    exact ⟨h.docset, happlied, by simpa [State.acknowledge, Io.pending] using hanswered⟩
  · -- the documents of the request are the last ones on their way
    rw [hio] at hanswered
    simp only [State.onTheWay, hio, Io.rest, List.reverse_nil, List.append_nil] at happlied
    refine ⟨h.docset, ?_, ?_⟩
    · simp only [State.onTheWay, rest_writing, List.map_append, List.flatten_append,
        List.map_cons, List.map_nil, List.flatten_cons, List.flatten_nil, List.append_nil]
      rw [← happlied]
      simp
    · simp [hanswered, Io.pending]
  · unfold State.startTerm
    split_ifs
    · exact h.of_log_eq rfl (by simp [State.onTheWay, hio, Io.rest]) (by simp [hio, Io.pending]) rfl
    · exact h.of_log_eq rfl (by simp [State.onTheWay, hio, Io.rest]) (by simp [hio, Io.pending]) rfl
  · exact h.of_log_eq rfl (by simp [State.onTheWay, hio, Io.rest, Broker.close, Broker.reset])
      (by simp [hio, Io.pending]) rfl

end step

/-! ## Closing -/

/-- The session is connected until `term` has returned, only `term` sets the exit flag, and the
update thread exits only when the flag is set; `term` returns after that. -/
structure Phases (s : State) : Prop where
  connected : s.io ≠ .closed → s.broker.connected = true
  doExit : s.broker.doExit = true → s.io.ending = true
  exited : s.updater = .exited → s.io.ending = true
  closed : s.io = .closed → s.updater = .exited

/-- It is so when the session has been opened. -/
theorem phases_opened {connect : String → Option String} {options : BSONObj} {b : Broker}
    (hopen : Broker.new.openOn connect (some options) = (b, none)) : Phases (State.opened b) := by
  have hfresh := Broker.fresh_of_openOn hopen
  refine ⟨fun _ => hfresh.connected, ?_, ?_, ?_⟩
  · intro h
    rw [show (State.opened b).broker.doExit = false from hfresh.doExit] at h
    cases h
  · intro h
    cases h
  · intro h
    cases h

section closing

variable {s t : State}

/-- A step that leaves the flags and moves neither thread to its end. -/
theorem Phases.of_flags_eq (h : Phases s) (hconnected : t.broker.connected = s.broker.connected)
    (hexit : t.broker.doExit = s.broker.doExit) (hending : t.io.ending = s.io.ending)
    (hclosed : t.io = .closed ↔ s.io = .closed)
    (hupdater : t.updater = .exited ↔ s.updater = .exited) : Phases t := by
  refine ⟨?_, ?_, ?_, ?_⟩
  · intro hio
    rw [hconnected]
    exact h.connected fun hs => hio (hclosed.mpr hs)
  · intro hdo
    rw [hending]
    exact h.doExit (hexit ▸ hdo)
  · intro hu
    rw [hending]
    exact h.exited (hupdater.mp hu)
  · intro hio
    exact hupdater.mpr (h.closed (hclosed.mp hio))

/-- **The order of the end** is kept by every step. -/
theorem Phases.step {a : Action} (h : Phases s) (hstep : step s a = some t) : Phases t := by
  rcases step_effect hstep with ⟨_, u, p, hu, hp⟩ | ⟨_, e⟩ | ⟨_, obj, rest, hhand, hexited, hqueue⟩ |
    ⟨_, obj, hu⟩ | hu | ⟨_, docs, tmp, hrest, hpending, hending⟩ | ⟨_, docs, hio⟩ |
    ⟨_, docs, hio⟩ | ⟨_, hio⟩ | ⟨_, hio, hu⟩
  · exact h.of_flags_eq rfl rfl hp.ending hp.closed hu.exited
  · exact h.of_flags_eq rfl rfl rfl Iff.rfl Iff.rfl
  · have hio := Io.same_notify s.io
    exact h.of_flags_eq rfl rfl hio.ending hio.closed (by simp [State.popped, hexited])
  · exact h.of_flags_eq rfl rfl rfl Iff.rfl (by simp [hu, State.passOn])
  · refine ⟨h.connected, h.doExit, ?_, ?_⟩
    · intro hexited
      simp only at hexited
      split_ifs at hexited with hdo
      exact h.doExit hdo
    · intro hclosed
      have hnot := h.closed hclosed
      rw [hu] at hnot
      cases hnot
  · have hio : s.io ≠ .closed := by
      intro hclosed
      rw [hclosed] at hending
      cases hending
    exact h.of_flags_eq rfl rfl hending.symm (by simp [State.push, hio])
      (Updater.same_notify s.updater).exited
  · exact h.of_flags_eq rfl rfl (by simp [State.acknowledge, hio, Io.ending])
      (by simp [State.acknowledge, hio]) Iff.rfl
  · exact h.of_flags_eq rfl rfl (by simp [hio, Io.ending]) (by simp [hio]) Iff.rfl
  · have hconnected : s.broker.connected = true := h.connected (by simp [hio])
    rw [State.startTerm, if_pos hconnected]
    exact ⟨fun _ => hconnected, fun _ => rfl, fun _ => rfl, fun hclosed => by cases hclosed⟩
  · exact ⟨fun hnot => absurd rfl hnot, fun _ => rfl, fun _ => rfl, fun _ => hu⟩

/-- Once the update thread has exited, nothing moves in the queue. -/
theorem queue_of_exited {a : Action} (h : Phases s) (hexited : s.updater = .exited)
    (hstep : step s a = some t) :
    t.updater = .exited ∧ t.broker.queue.queue = s.broker.queue.queue := by
  have hending := h.exited hexited
  rcases step_effect hstep with ⟨_, u, p, hu, hp⟩ | ⟨_, e⟩ | ⟨_, obj, rest, hhand, hnot, hqueue⟩ |
    ⟨_, obj, hu⟩ | hu | ⟨_, docs, tmp, hrest, hpending, hnot⟩ | ⟨_, docs, hio⟩ |
    ⟨_, docs, hio⟩ | ⟨_, hio⟩ | ⟨_, hio, hu⟩
  · exact ⟨hu.exited.mpr hexited, rfl⟩
  · exact ⟨hexited, rfl⟩
  · exact absurd hexited hnot
  · rw [hexited] at hu
    cases hu
  · rw [hexited] at hu
    cases hu
  · rw [hending] at hnot
    cases hnot
  · exact ⟨hexited, rfl⟩
  · exact ⟨hexited, rfl⟩
  · unfold State.startTerm
    split_ifs
    · exact ⟨hexited, rfl⟩
    · exact ⟨hexited, rfl⟩
  · exact ⟨hexited, rfl⟩

/-- The update thread exits from its handler, when it reads that the exit flag is set. -/
theorem exited_of_step {a : Action} (hstep : step s a = some t) (hbefore : s.updater ≠ .exited)
    (hafter : t.updater = .exited) :
    s.updater = .timedOut ∧ a = .updater ∧ s.broker.doExit = true ∧
      t.broker.queue.queue = s.broker.queue.queue := by
  rcases step_effect hstep with ⟨_, u, p, hu, hp⟩ | ⟨_, e⟩ | ⟨_, obj, rest, hhand, hnot, hqueue⟩ |
    ⟨_, obj, hu⟩ | hu | ⟨_, docs, tmp, hrest, hpending, hnot⟩ | ⟨_, docs, hio⟩ |
    ⟨_, docs, hio⟩ | ⟨_, hio⟩ | ⟨_, hio, hu⟩
  · exact absurd (hu.exited.mp hafter) hbefore
  · exact absurd hafter hbefore
  · cases hafter
  · cases hafter
  · simp only at hafter
    split_ifs at hafter with hdo
    exact ⟨hu, rfl, hdo, rfl⟩
  · exact absurd ((Updater.same_notify s.updater).exited.mp hafter) hbefore
  · exact absurd hafter hbefore
  · exact absurd hafter hbefore
  · unfold State.startTerm at hafter
    split_ifs at hafter
    · exact absurd hafter hbefore
    · exact absurd hafter hbefore
  · exact absurd hu hbefore

/-- If the update thread is in its handler and finds the exit flag set, the queue is empty. -/
def EmptyAtExit (s : State) (a : Action) : Prop :=
  s.updater = .timedOut → a = .updater → s.broker.doExit = true → s.broker.queue.queue = []

instance (s : State) (a : Action) : Decidable (EmptyAtExit s a) :=
  inferInstanceAs (Decidable (_ → _ → _ → _))

/-- Nothing is left behind in the queue when the update thread has exited. -/
def NothingLeft (s : State) : Prop := s.updater = .exited → s.broker.queue.queue = []

/-- A step leaves nothing behind exactly when the update thread does not exit with it, or finds
the queue empty. -/
theorem nothingLeft_step_iff {a : Action} (h : Phases s) (hs : NothingLeft s)
    (hstep : step s a = some t) : NothingLeft t ↔ EmptyAtExit s a := by
  constructor
  · rintro hleft hu rfl hdo
    have ht : t = { s with updater := .exited } := by
      unfold step at hstep
      split at hstep
      · cases hstep
      · simp only [State.updaterStep, hu, hdo, if_true, Option.some.injEq] at hstep
        exact hstep.symm
    subst ht
    exact hleft rfl
  · intro hempty hafter
    by_cases hbefore : s.updater = .exited
    · rw [(queue_of_exited h hbefore hstep).2]
      exact hs hbefore
    · obtain ⟨hu, ha, hdo, hqueue⟩ := exited_of_step hstep hbefore hafter
      rw [hqueue]
      exact hempty hu ha hdo

/-- A run leaves nothing behind exactly when the update thread finds the queue empty as it
exits. -/
theorem nothingLeft_iff_guarded {as : List Action} (h : Phases s) (hs : NothingLeft s)
    (hrun : run step s as = some t) : NothingLeft t ↔ Guarded step EmptyAtExit s as := by
  have hall : Guarded step (fun _ _ => True) s as :=
    guarded_of_forall step _ (fun _ _ => trivial) s as
  have hexact : (∀ bs, bs <+: as → ∀ u, run step s bs = some u → NothingLeft u) ↔
      Guarded step EmptyAtExit s as :=
    @forall_prefix_iff_guarded _ _ step EmptyAtExit _ Phases NothingLeft
      (fun _ _ _ hI _ _ hst _ => hI.step hst)
      (fun _ _ _ hI hP _ hst => nothingLeft_step_iff hI hP hst) _ _ _ h hs hall hrun
  rw [← hexact]
  constructor
  · -- what is left behind at some point stays there to the end
    rintro hleft bs ⟨cs, rfl⟩ u hu hexited
    rw [run_append, hu] at hrun
    have huPhases : Phases u := run_invariant_of_step (fun _ _ _ hI hst => hI.step hst) h hu
    have hstays : ∀ v a w, (Phases v ∧ v.updater = .exited ∧
        v.broker.queue.queue = u.broker.queue.queue) → step v a = some w →
        Phases w ∧ w.updater = .exited ∧ w.broker.queue.queue = u.broker.queue.queue := by
      rintro v a w ⟨hv, hvExited, hvQueue⟩ hst
      obtain ⟨hwExited, hwQueue⟩ := queue_of_exited hv hvExited hst
      exact ⟨hv.step hst, hwExited, hwQueue.trans hvQueue⟩
    obtain ⟨-, htExited, htQueue⟩ := run_invariant_of_step hstays ⟨huPhases, hexited, rfl⟩ hrun
    rw [← htQueue]
    exact hleft htExited
  · intro hprefix
    exact hprefix as List.prefix_rfl t hrun

end closing

/-- The body of a WRITE request with the documents. -/
def writeBody (docs : List BSONObj) : BSONObj := [("docs", .obj (BSON.indexed 0 docs))]

/-- The documents of the body are read back. -/
theorem vals_writeBody (docs : List BSONObj) :
    BSON.vals (BSON.getObjectField (writeBody docs) "docs") = some docs :=
  BSON.vals_indexed 0 docs

/-- An update of the document with the id `i`. -/
def sampleUpdate (i : OID) : BSONObj :=
  [("query", .obj [("_id", .oid i)]), ("doc", .obj [("brand", .str "Nokia")])]

/-- The documents of the answered requests. -/
def Log.written (l : Log) : List BSONObj := l.acknowledged.flatten

/-- When `term` has returned, what was passed on and what is left in the queue are the updates of
the answered requests. -/
theorem Conserves.perm_of_closed {b : Broker} {s : State} (h : Conserves b s) (hp : Phases s)
    (hclosed : s.io = .closed) :
    (s.log.applied ++ s.broker.queue.queue.map (updateOp b.docset)).Perm
      (s.log.written.map (updateOp b.docset)) := by
  have happlied := h.applied
  have hanswered := h.answered
  rw [hclosed] at hanswered
  simp only [Io.pending, List.append_nil] at hanswered
  simp only [State.onTheWay, hclosed, hp.closed hclosed, Updater.inHand, Io.rest,
    List.reverse_nil, List.append_nil, List.nil_append, hanswered] at happlied
  rw [happlied]
  exact (SizedQueue.flatten_map_reverse_perm s.log.acknowledged).map _

/-- Every update of an answered request was passed on exactly once. -/
def AllApplied (b : Broker) (s : State) : Prop :=
  s.log.applied.Perm (s.log.written.map (updateOp b.docset))

/-- **Answered writes survive the end** of the session exactly when the update thread finds the
queue empty as it exits. -/
theorem survivesClose_iff (connect : String → Option String) (options : BSONObj) (b : Broker)
    (hopen : Broker.new.openOn connect (some options) = (b, none)) (as : List Action) (t : State)
    (hrun : run step (State.opened b) as = some t) (hclosed : t.io = .closed) :
    AllApplied b t ↔ Guarded step EmptyAtExit (State.opened b) as := by
  have hphases : Phases t :=
    run_invariant_of_step (fun _ _ _ h hst => h.step hst) (phases_opened hopen) hrun
  have hconserves : Conserves b t :=
    run_invariant_of_step (fun _ _ _ h hst => h.step hst) (conserves_opened hopen) hrun
  have hperm := hconserves.perm_of_closed hphases hclosed
  have hstart : NothingLeft (State.opened b) := fun h => by cases h
  rw [← nothingLeft_iff_guarded (phases_opened hopen) hstart hrun]
  constructor
  · intro hall hexited
    have hlength := hperm.length_eq
    rw [List.length_append, List.length_map, ← hall.length_eq] at hlength
    apply List.eq_nil_of_length_eq_zero
    omega
  · intro hleft
    rw [hleft (hphases.closed hclosed), List.map_nil, List.append_nil] at hperm
    exact hperm

/-- A request whose update is passed on before the deadline of the next pop. -/
theorem survivesClose_iff_sample : ∃ t,
    run step (State.opened (Broker.sampleBroker 0 1 10))
        [.updater, .write (writeBody [sampleUpdate 1]), .io, .io, .io, .updater, .updater,
          .updater, .close, .updExpire, .updater, .updater, .io, .io] = some t ∧
      t.io = .closed ∧ AllApplied (Broker.sampleBroker 0 1 10) t := by
  refine ⟨_, rfl, rfl, (survivesClose_iff (fun _ => none) (Broker.sampleOptions 0 1 10) _
    (by decide) [.updater, .write (writeBody [sampleUpdate 1]), .io, .io, .io, .updater, .updater,
      .updater, .close, .updExpire, .updater, .updater, .io, .io] _ rfl rfl).mpr ?_⟩
  decide +kernel

/-- The deadline of the pop passes, then a request is answered and the session closed, and the
update thread exits with the update in the queue. -/
theorem not_allApplied_sample :
    Broker.new.openOn (fun _ => none) (some (Broker.sampleOptions 0 1 10)) =
        (Broker.sampleBroker 0 1 10, none) ∧
      ∃ t, run step (State.opened (Broker.sampleBroker 0 1 10))
          [.updater, .updater, .updExpire, .write (writeBody [sampleUpdate 1]), .io, .io, .io,
            .close, .updater, .updater, .io, .io] = some t ∧
        t.io = .closed ∧ t.log.acknowledged = [[sampleUpdate 1]] ∧ t.log.applied = [] ∧
        ¬AllApplied (Broker.sampleBroker 0 1 10) t := by
  refine ⟨by decide, _, rfl, rfl, rfl, rfl, ?_⟩
  intro h
  exact absurd h.length_eq (by decide)

end Zbroker.WriteSession
