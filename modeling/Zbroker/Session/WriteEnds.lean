import Zbroker.Found.Ranking
import Zbroker.Session.Updates

/-!
# Every WRITE is answered, and every CLOSE returns

`term` of a write session waits for the update thread, and a WRITE for room in the queue, which the
update thread makes. Neither waits for good, as long as no wait of a `pop` ends before it is notified.

* `UpdaterStep`, `IoStep`, `Step` — the steps with the positions they are taken from;
  **`step_cases`**: these are all.
* `Paced s` — a pop waits at an empty queue and a push at a full one, each thread that is notified
  finds what it waited for, and no step can fail.
* `State.left` — how much there is still to do. Every step of a thread lowers it; a deadline of `pop`
  raises it, unless the session is being closed (`Paced.left_lt`, `Paced.left_expire`).
* **`requests_end`**: the threads never stand still in a request or in `term`, and the number of
  their steps is bounded.

`Paced` is kept by the steps of each thread (`Paced.updaterStep`, `Paced.ioStep`), and gives a step in
every state that is not at rest (`Paced.exists_step`). That the measure falls is seen thread by thread
too, and a notification is paid for by the step that gives it.
-/

namespace Zbroker.WriteSession

open Found.Transition

variable {s t : State}

/-! ## The steps -/

/-- The steps of the update thread. -/
inductive UpdaterStep (s : State) : State → Prop
  | start (hu : s.updater = .starting) : UpdaterStep s { s with updater := .popping }
  | wait (hu : s.updater = .popping) (hqueue : s.broker.queue.queue = []) :
      UpdaterStep s { s with updater := .popWait .waiting, io := s.io.notify }
  | pop (obj : BSONObj) (rest : List BSONObj)
      (hu : s.updater = .popping ∨ s.updater = .popWait .notified)
      (hqueue : s.broker.queue.queue = obj :: rest) : UpdaterStep s (s.popped obj rest)
  | miss (hu : s.updater = .popWait .notified) (hqueue : s.broker.queue.queue = []) :
      UpdaterStep s { s with fault := some (.outOfBounds "m_queue.front()") }
  | giveUp (hu : s.updater = .popWait .expired) : UpdaterStep s { s with updater := .timedOut }
  | passOn (obj : BSONObj) (hu : s.updater = .updating obj) : UpdaterStep s (s.passOn obj)
  | leave (hu : s.updater = .timedOut) :
      UpdaterStep s { s with updater := if s.broker.doExit then .exited else .popping }

/-- The steps of the io thread in a request or in `term`. -/
inductive IoStep (s : State) : State → Prop
  | answer (docs : List BSONObj) (hio : s.io = .writing docs []) : IoStep s (s.acknowledge docs)
  | turn (docs tmp : List BSONObj) (hio : s.io = .writing docs tmp) (htmp : tmp ≠ []) :
      IoStep s { s with io := .entering docs tmp }
  | refuse (docs tmp : List BSONObj) (e : Exn) (hio : s.io = .entering docs tmp)
      (hcheck : s.broker.checkStatus = some e) : IoStep s { s with fault := some e }
  | wait (docs tmp : List BSONObj) (hio : s.io = .entering docs tmp)
      (hfull : s.broker.queue.isFull = true) :
      IoStep s { s with updater := s.updater.notify, io := .pushWait docs tmp .waiting }
  | push (docs tmp : List BSONObj) (hio : s.io = .entering docs tmp)
      (hfull : s.broker.queue.isFull = false) : IoStep s (s.push docs tmp)
  | resume (docs tmp : List BSONObj) (hio : s.io = .pushWait docs tmp .notified) :
      IoStep s (s.push docs tmp)
  | done (hio : s.io = .waitDone) (hu : s.updater.holdsMutex = false) :
      IoStep s { s with io := .joining }
  | close (hio : s.io = .joining) (hu : s.updater = .exited) :
      IoStep s { s with broker := s.broker.close, io := .closed }

/-- The steps of a session. -/
inductive Step (s : State) : Action → State → Prop
  | updater (t : State) (h : UpdaterStep s t) : Step s .updater t
  | io (t : State) (h : IoStep s t) : Step s .io t
  | expire (hu : s.updater = .popWait .waiting) :
      Step s .updExpire { s with updater := .popWait .expired }
  | wake (hu : s.updater = .popWait .waiting) :
      Step s .updWake { s with updater := .popWait .notified }
  | throw (obj : BSONObj) (hu : s.updater = .updating obj) :
      Step s .updThrow { s with fault := some .driver }
  | ioWake (docs tmp : List BSONObj) (hio : s.io = .pushWait docs tmp .waiting) :
      Step s .ioWake { s with io := .pushWait docs tmp .notified }
  | write (body : BSONObj) (docs : List BSONObj) (hio : s.io = .idle)
      (hdocs : BSON.vals (BSON.getObjectField body "docs") = some docs) :
      Step s (.write body)
        { s with
          io := .writing docs docs, log := { s.log with requests := s.log.requests ++ [docs] } }
  | refuse (body : BSONObj) (e : Exn) (hio : s.io = .idle) :
      Step s (.write body) { s with fault := some e }
  | term (hio : s.io = .idle) : Step s .close s.startTerm

/-- The update thread has no other steps: one case for each position. -/
theorem updaterStep_cases (h : s.updaterStep = some t) : UpdaterStep s t := by
  unfold State.updaterStep at h
  split at h
  · rename_i hu
    cases h
    exact .start hu
  · rename_i hu
    cases h
    unfold State.enterPop
    split
    · rename_i hqueue
      exact .wait hu hqueue
    · rename_i obj rest hqueue
      exact .pop obj rest (Or.inl hu) hqueue
  · cases h
  · rename_i hu
    cases h
    unfold State.resumePop
    split
    · rename_i hqueue
      exact .miss hu hqueue
    · rename_i obj rest hqueue
      exact .pop obj rest (Or.inr hu) hqueue
  · rename_i hu
    cases h
    exact .giveUp hu
  · rename_i obj hu
    cases h
    exact .passOn obj hu
  · rename_i hu
    cases h
    exact .leave hu
  · cases h

/-- The io thread has no other steps. -/
theorem ioStep_cases (h : s.ioStep = some t) : IoStep s t := by
  unfold State.ioStep at h
  split at h
  · cases h
  · rename_i docs tmp hio
    cases h
    split_ifs with hempty
    · rw [List.isEmpty_iff] at hempty
      subst hempty
      exact .answer docs hio
    · exact .turn docs tmp hio (by simpa using hempty)
  · rename_i docs tmp hio
    cases h
    unfold State.enterPush
    split
    · rename_i e hcheck
      exact .refuse docs tmp e hio hcheck
    · split_ifs with hfull
      · exact .wait docs tmp hio hfull
      · exact .push docs tmp hio (by simpa using hfull)
  · rename_i docs tmp hio
    cases h
    exact .resume docs tmp hio
  · cases h
  · rename_i hio
    split_ifs at h with hu
    cases h
    exact .done hio (by simpa using hu)
  · rename_i hio
    split at h
    · rename_i hu
      cases h
      exact .close hio hu
    · cases h
  · cases h

/-- **What a step does, and from where.** -/
theorem step_cases {a : Action} (h : step s a = some t) : s.fault = none ∧ Step s a t := by
  unfold step at h
  split at h
  · cases h
  rename_i hfault
  refine ⟨by simpa using hfault, ?_⟩
  rcases a with _ | _ | _ | _ | _ | _ | body | _
  · exact .updater t (updaterStep_cases h)
  · obtain ⟨u, hu, rfl⟩ := Option.map_eq_some_iff.mp h
    unfold Updater.expire at hu
    split at hu
    · rename_i w hw
      rcases w with _ | _ | _ <;> cases hu
      exact .expire hw
    · cases hu
  · obtain ⟨u, hu, rfl⟩ := Option.map_eq_some_iff.mp h
    unfold Updater.wake at hu
    split at hu
    · rename_i hw
      cases hu
      exact .wake hw
    · cases hu
  · dsimp only at h
    split at h
    · rename_i obj hu
      cases h
      exact .throw obj hu
    · cases h
  · exact .io t (ioStep_cases h)
  · obtain ⟨p, hp, rfl⟩ := Option.map_eq_some_iff.mp h
    unfold Io.wake at hp
    split at hp
    · rename_i docs tmp hw
      cases hp
      exact .ioWake docs tmp hw
    · cases hp
  · dsimp only at h
    split_ifs at h with hio
    cases h
    unfold State.startWrite
    split_ifs
    · split
      · exact .refuse body _ hio
      · rename_i docs hdocs
        exact .write body docs hio hdocs
    · exact .refuse body _ hio
  · dsimp only at h
    split_ifs at h with hio
    cases h
    exact .term hio

/-! ## Where the threads can be -/

/-- A pop waits at an empty queue, and finds a document when it is notified. -/
def Updater.Placed (q : SizedQueue BSONObj) : Updater → Prop
  | .popWait .waiting => q.queue = []
  | .popWait .notified => q.queue ≠ []
  | _ => True

/-- A request pushes what it has; it waits at a full queue, without a deadline. -/
def Io.Placed (q : SizedQueue BSONObj) : Io → Prop
  | .entering _ tmp => tmp ≠ []
  | .pushWait _ tmp w => tmp ≠ [] ∧ w ≠ .expired ∧ (w = .waiting → q.isFull = true)
  | _ => True

/-- Where the threads are while no pop is woken without a notification. -/
structure Paced (s : State) : Prop where
  phases : Phases s
  room : 1 ≤ s.broker.queue.limitSize
  usable : s.io ≠ .closed → s.broker.checkStatus = none
  exiting : s.io = .waitDone ∨ s.io = .joining → s.broker.doExit = true
  updater : s.updater.Placed s.broker.queue
  io : s.io.Placed s.broker.queue

/-- A notification leaves the io thread where it may be. -/
theorem Io.Placed.notify {p : Io} {q : SizedQueue BSONObj} (h : p.Placed q)
    (q' : SizedQueue BSONObj) : p.notify.Placed q' := by
  rcases p with _ | _ | _ | ⟨docs, tmp, _ | _ | _⟩ | _ | _ | _
  case pushWait.waiting => exact ⟨h.1, by simp [Wait.notify], by simp [Wait.notify]⟩
  case pushWait.notified => exact ⟨h.1, by simp [Wait.notify], by simp [Wait.notify]⟩
  case pushWait.expired => exact absurd rfl h.2.1
  case entering => exact h
  all_goals trivial

/-- A notified pop finds a document. -/
theorem Updater.placed_notify (u : Updater) {q : SizedQueue BSONObj} (hq : q.queue ≠ []) :
    u.notify.Placed q := by
  rcases u with _ | _ | ⟨_ | _ | _⟩ | _ | _ | _
  case popWait.waiting => exact hq
  case popWait.notified => exact hq
  all_goals trivial

/-- A queue that has room for something and is full is not empty. -/
theorem ne_nil_of_isFull {q : SizedQueue BSONObj} (hroom : 1 ≤ q.limitSize) (hfull : q.isFull = true) :
    q.queue ≠ [] := by
  rintro hnil
  simp only [SizedQueue.isFull, hnil, List.length_nil, decide_eq_true_eq] at hfull
  omega

/-- The loop of `push` leaves something in the queue. -/
theorem fill_ne_nil {q : SizedQueue BSONObj} {items : List BSONObj} (hroom : 1 ≤ q.limitSize)
    (hitems : items ≠ []) : (q.fill items).1.queue ≠ [] := by
  intro hnil
  have hle := SizedQueue.length_le_fill q items
  rw [hnil, List.length_nil, Nat.le_zero, List.length_eq_zero_iff] at hle
  have hfull : q.isFull = false := by
    simp only [SizedQueue.isFull, hle, List.length_nil, decide_eq_false_iff_not]
    omega
  have hlt := SizedQueue.length_fill_lt hfull hitems
  have happend := congrArg List.length (SizedQueue.queue_fill_append q items)
  rw [hnil, hle] at happend
  simp only [List.nil_append, List.length_reverse] at happend
  omega

/-- It is so when the session has been opened. -/
theorem paced_opened {connect : String → Option String} {options : BSONObj} {b : Broker}
    (hopen : Broker.new.openOn connect (some options) = (b, none))
    (hroom : 1 ≤ b.queue.limitSize) : Paced (State.opened b) := by
  have hfresh := Broker.fresh_of_openOn hopen
  refine ⟨phases_opened hopen, hroom, fun _ => ?_, ?_, trivial, trivial⟩
  · simp [State.opened, Broker.checkStatus, hfresh.inited, hfresh.connected]
  · rintro (h | h) <;> cases h

section paced

/-- A step that leaves the capacity and the flags, and does not go on in `term`. -/
theorem Paced.of_flags_eq (h : Paced s) (hphases : Phases t)
    (hroom : t.broker.queue.limitSize = s.broker.queue.limitSize)
    (hcheck : t.broker.checkStatus = s.broker.checkStatus)
    (hexit : t.broker.doExit = s.broker.doExit) (hclosed : t.io = .closed ↔ s.io = .closed)
    (hending : t.io = .waitDone ∨ t.io = .joining → s.io = .waitDone ∨ s.io = .joining)
    (hupdater : t.updater.Placed t.broker.queue) (hio : t.io.Placed t.broker.queue) : Paced t := by
  refine ⟨hphases, hroom ▸ h.room, fun hopen => ?_, fun hterm => ?_, hupdater, hio⟩
  · rw [hcheck]
    exact h.usable fun hs => hopen (hclosed.mpr hs)
  · rw [hexit]
    exact h.exiting (hending hterm)

/-- A notification closes nothing. -/
@[simp] theorem notify_eq_closed (p : Io) : p.notify = .closed ↔ p = .closed := by
  cases p <;> simp [Io.notify]

/-- It leaves the io thread in `term`. -/
theorem ending_notify {p : Io} (h : p.notify = .waitDone ∨ p.notify = .joining) :
    p = .waitDone ∨ p = .joining := by
  cases p <;> simp_all [Io.notify]

/-- The update thread keeps its place. -/
theorem Paced.updaterStep (h : Paced s) (hphases : Phases t) (hstep : UpdaterStep s t) : Paced t := by
  cases hstep with
  | start hu => exact h.of_flags_eq hphases rfl rfl rfl Iff.rfl id trivial h.io
  | wait hu hqueue =>
      exact h.of_flags_eq hphases rfl rfl rfl (notify_eq_closed _) ending_notify hqueue
        (h.io.notify _)
  | pop obj rest hu hqueue =>
      exact h.of_flags_eq hphases rfl rfl rfl (notify_eq_closed _) ending_notify trivial
        (h.io.notify _)
  | miss hu hqueue => exact h.of_flags_eq hphases rfl rfl rfl Iff.rfl id h.updater h.io
  | giveUp hu => exact h.of_flags_eq hphases rfl rfl rfl Iff.rfl id trivial h.io
  | passOn obj hu => exact h.of_flags_eq hphases rfl rfl rfl Iff.rfl id trivial h.io
  | leave hu =>
      refine h.of_flags_eq hphases rfl rfl rfl Iff.rfl id ?_ h.io
      show (if s.broker.doExit = true then Updater.exited else .popping).Placed s.broker.queue
      split_ifs <;> trivial

/-- A push leaves a document for the update thread. -/
theorem Paced.push (h : Paced s) {docs tmp : List BSONObj} (hphases : Phases (s.push docs tmp))
    (htmp : tmp ≠ []) (hopen : s.io ≠ .closed) : Paced (s.push docs tmp) :=
  h.of_flags_eq hphases (SizedQueue.limitSize_fill _ _) rfl rfl
    ⟨fun hclosed => (by cases hclosed), fun hclosed => absurd hclosed hopen⟩
    (fun hterm => by rcases hterm with hterm | hterm <;> cases hterm)
    (s.updater.placed_notify (fill_ne_nil h.room htmp)) trivial

/-- The io thread keeps its place. -/
theorem Paced.ioStep (h : Paced s) (hphases : Phases t) (hstep : IoStep s t) : Paced t := by
  have hplaced := h.io
  cases hstep with
  | answer docs hio =>
      exact h.of_flags_eq hphases rfl rfl rfl (by simp [State.acknowledge, hio])
        (by simp [State.acknowledge]) h.updater trivial
  | turn docs tmp hio htmp =>
      exact h.of_flags_eq hphases rfl rfl rfl (by simp [hio]) (by simp) h.updater htmp
  | refuse docs tmp e hio hcheck => exact h.of_flags_eq hphases rfl rfl rfl Iff.rfl id h.updater h.io
  | wait docs tmp hio hfull =>
      rw [hio] at hplaced
      exact h.of_flags_eq hphases rfl rfl rfl (by simp [hio]) (by simp)
        (s.updater.placed_notify (ne_nil_of_isFull h.room hfull)) ⟨hplaced, by simp, fun _ => hfull⟩
  | push docs tmp hio hfull =>
      rw [hio] at hplaced
      exact h.push hphases hplaced (by simp [hio])
  | resume docs tmp hio =>
      rw [hio] at hplaced
      exact h.push hphases hplaced.1 (by simp [hio])
  | done hio hu =>
      exact ⟨hphases, h.room, fun _ => h.usable (by simp [hio]), fun _ => h.exiting (Or.inl hio),
        h.updater, trivial⟩
  | close hio hu =>
      refine ⟨hphases, h.room, fun hopen => absurd rfl hopen, ?_, ?_, trivial⟩
      · rintro (hterm | hterm) <;> cases hterm
      · show s.updater.Placed _
        rw [hu]
        trivial

/-- **Every step keeps the threads in their places**, but for a pop that is woken for nothing. -/
theorem Paced.step {a : Action} (h : Paced s) (ha : a ≠ .updWake) (hstep : step s a = some t) :
    Paced t := by
  have hphases := h.phases.step hstep
  have hplaced := h.io
  obtain ⟨-, hcases⟩ := step_cases hstep
  cases hcases with
  | updater t hupdater => exact h.updaterStep hphases hupdater
  | io t hio => exact h.ioStep hphases hio
  | expire hu => exact h.of_flags_eq hphases rfl rfl rfl Iff.rfl id trivial h.io
  | wake hu => exact absurd rfl ha
  | throw obj hu => exact h.of_flags_eq hphases rfl rfl rfl Iff.rfl id h.updater h.io
  | ioWake docs tmp hio =>
      rw [hio] at hplaced
      exact h.of_flags_eq hphases rfl rfl rfl (by simp [hio]) (by simp) h.updater
        ⟨hplaced.1, by simp, by simp⟩
  | write body docs hio hdocs =>
      exact h.of_flags_eq hphases rfl rfl rfl (by simp [hio]) (by simp) h.updater trivial
  | refuse body e hio => exact h.of_flags_eq hphases rfl rfl rfl Iff.rfl id h.updater h.io
  | term hio =>
      have hconnected := h.phases.connected (by simp [hio])
      rw [State.startTerm, if_pos hconnected] at hphases ⊢
      exact ⟨hphases, h.room, fun _ => h.usable (by simp [hio]), fun _ => rfl, h.updater, trivial⟩

end paced

/-! ## How much there is to do -/

/-- How far the update thread is from its next wait, or from its end once `m_do_exit` is set. -/
def Updater.left (doExit : Bool) : Updater → Nat
  | .starting | .updating _ => 5
  | .popping | .popWait .notified => 4
  | .popWait .waiting => 3
  | .popWait .expired => if doExit then 2 else 6
  | .timedOut => if doExit then 1 else 5
  | .exited => 0

/-- How far the io thread is from its next wait in `push`, or from its end. A wait that is notified
leads back to the loop. -/
def Io.left : Io → Nat
  | .pushWait _ _ .notified => 4
  | .writing _ _ | .waitDone => 2
  | .entering _ _ | .joining => 1
  | .pushWait _ _ _ | .idle | .closed => 0

/-- How much there is still to do: a document in the queue has to be passed on, which lets the io
thread go on, and one of the request under way has to be pushed before. -/
def State.left (s : State) : Nat :=
  s.updater.left s.broker.doExit + s.io.left + 6 * s.broker.queue.queue.length +
    9 * s.io.rest.length

/-- What a step from outside adds to it. -/
def Action.grant : Action → Nat
  | .updater | .io => 0
  | .updExpire => 4
  | .updWake => 2
  | .updThrow => 1
  | .ioWake => 5
  | .write body =>
      3 + 9 * ((BSON.vals (BSON.getObjectField body "docs")).elim 0 List.length)
  | .close => 3

/-- A notified push has at most one round more to do. -/
theorem left_notify_le (p : Io) : p.notify.left ≤ p.left + 4 := by
  rcases p with _ | _ | _ | ⟨docs, tmp, _ | _ | _⟩ | _ | _ | _ <;> simp [Io.notify, Wait.notify, Io.left]

/-- A notified pop has at most one step more to do. -/
theorem Updater.left_notify_le (u : Updater) (doExit : Bool) :
    u.notify.left doExit ≤ u.left doExit + 1 := by
  rcases u with _ | _ | ⟨_ | _ | _⟩ | _ | _ | _ <;>
    simp [Updater.notify, Wait.notify, Updater.left]

/-- With `m_do_exit` set there is not more to do for the update thread. -/
theorem Updater.left_exit_le (u : Updater) (doExit : Bool) : u.left true ≤ u.left doExit := by
  rcases u with _ | _ | ⟨_ | _ | _⟩ | _ | _ | _ <;> cases doExit <;> simp [Updater.left]

section left

/-- A full queue is not one that a pop waits at. -/
theorem Paced.notify_updater (h : Paced s) (hqueue : s.broker.queue.queue ≠ []) :
    s.updater.notify = s.updater := by
  have hplaced := h.updater
  rcases hu : s.updater with _ | _ | ⟨_ | _ | _⟩ | _ | _ | _
  case popWait.waiting =>
    rw [hu] at hplaced
    exact absurd hplaced hqueue
  all_goals rfl

/-- An empty queue is not one that a push waits at. -/
theorem Paced.notify_io (h : Paced s) (hqueue : s.broker.queue.queue = []) : s.io.notify = s.io := by
  have hplaced := h.io
  rcases hio : s.io with _ | _ | _ | ⟨docs, tmp, _ | _ | _⟩ | _ | _ | _
  case pushWait.waiting =>
    rw [hio] at hplaced
    exact absurd hqueue (ne_nil_of_isFull h.room (hplaced.2.2 rfl))
  all_goals rfl

/-- The update thread gets on. -/
theorem Paced.left_updaterStep (h : Paced s) (hstep : UpdaterStep s t) : t.left < s.left := by
  cases hstep with
  | start hu => simp [State.left, hu, Updater.left]
  | wait hu hqueue => simp [State.left, h.notify_io hqueue, hu, Updater.left]
  | pop obj rest hu hqueue =>
      have hnotify := left_notify_le s.io
      have hrest := (Io.same_notify s.io).rest
      have hleft : s.updater.left s.broker.doExit = 4 := by
        rcases hu with hu | hu <;> simp [hu, Updater.left]
      have hleft' : (s.popped obj rest).updater.left (s.popped obj rest).broker.doExit = 5 := rfl
      simp only [State.left, hleft, hleft', hqueue, List.length_cons]
      simp only [State.popped, hrest]
      omega
  | miss hu hqueue =>
      have hplaced := h.updater
      rw [hu] at hplaced
      exact absurd hqueue hplaced
  | giveUp hu =>
      simp only [State.left, hu, Updater.left]
      split_ifs <;> omega
  | passOn obj hu => simp [State.left, State.passOn, hu, Updater.left]
  | leave hu =>
      simp only [State.left, hu]
      split_ifs with hexit <;> simp [hexit, Updater.left]

/-- A push moves documents on. -/
theorem left_push_add (s : State) (docs tmp : List BSONObj) :
    (s.push docs tmp).left + 3 * ((s.push docs tmp).broker.queue.queue.length) ≤
      s.updater.left s.broker.doExit + 3 + 9 * (s.broker.queue.queue.length + tmp.length) := by
  have hnotify := Updater.left_notify_le s.updater s.broker.doExit
  have hmoved := congrArg List.length (SizedQueue.queue_fill_append s.broker.queue tmp)
  simp only [List.length_append, List.length_reverse] at hmoved
  simp only [State.left, State.push, Io.left, rest_writing]
  omega

/-- The io thread gets on. -/
theorem Paced.left_ioStep (h : Paced s) (hstep : IoStep s t) : t.left < s.left := by
  have hplaced := h.io
  cases hstep with
  | answer docs hio => simp [State.left, State.acknowledge, hio, Io.left, Io.rest]
  | turn docs tmp hio htmp => simp [State.left, hio, Io.left, Io.rest]
  | refuse docs tmp e hio hcheck =>
      rw [h.usable (by simp [hio])] at hcheck
      cases hcheck
  | wait docs tmp hio hfull =>
      simp [State.left, h.notify_updater (ne_nil_of_isFull h.room hfull), hio, Io.left, Io.rest]
  | push docs tmp hio hfull =>
      rw [hio] at hplaced
      have hadd := left_push_add s docs tmp
      have hlt := SizedQueue.length_fill_lt hfull hplaced
      have hmoved := congrArg List.length (SizedQueue.queue_fill_append s.broker.queue tmp)
      simp only [List.length_append, List.length_reverse] at hmoved
      have hqueue : s.broker.queue.queue.length <
          (s.push docs tmp).broker.queue.queue.length := by
        show _ < (s.broker.queue.fill tmp).1.queue.length
        omega
      simp only [State.left, hio, Io.left, Io.rest] at hadd ⊢
      omega
  | resume docs tmp hio =>
      have hadd := left_push_add s docs tmp
      have hqueue : s.broker.queue.queue.length ≤
          (s.push docs tmp).broker.queue.queue.length := SizedQueue.length_le_fill _ _
      simp only [State.left, hio, Io.left, Io.rest] at hadd ⊢
      omega
  | done hio hu => simp [State.left, hio, Io.left, Io.rest]
  | close hio hu => simp [State.left, hio, hu, Io.left, Io.rest, Updater.left, Broker.close, Broker.reset]

/-- **Every step gets the session on**, up to what it grants. -/
theorem Paced.left_lt {a : Action} (h : Paced s) (ha : a ≠ .updWake)
    (hstep : WriteSession.step s a = some t) : t.left < s.left + a.grant := by
  obtain ⟨-, hcases⟩ := step_cases hstep
  cases hcases with
  | updater t hupdater => exact h.left_updaterStep hupdater
  | io t hio => exact h.left_ioStep hio
  | expire hu =>
      simp only [State.left, hu, Updater.left, Action.grant]
      split_ifs <;> omega
  | wake hu => exact absurd rfl ha
  | throw obj hu => exact Nat.lt_succ_self _
  | ioWake docs tmp hio =>
      simp only [State.left, hio, Io.left, Io.rest, Action.grant]
      omega
  | write body docs hio hdocs =>
      simp only [State.left, hio, Io.left, Io.rest, Action.grant, hdocs, Option.elim_some,
        List.length_nil]
      omega
  | refuse body e hio =>
      simp only [State.left, Action.grant]
      omega
  | term hio =>
      have hexit := s.updater.left_exit_le s.broker.doExit
      unfold State.startTerm
      split_ifs
      · simp only [State.left, hio, Io.left, Io.rest, Action.grant, List.length_nil]
        omega
      · simp only [State.left, hio, Io.left, Io.rest, Action.grant, List.length_nil]
        omega

/-- In `term`, the deadline of the pop gets the session on as well. -/
theorem Paced.left_expire (h : Paced s) (hending : s.io.ending = true)
    (hstep : WriteSession.step s .updExpire = some t) : t.left < s.left := by
  obtain ⟨-, hcases⟩ := step_cases hstep
  cases hcases with
  | expire hu =>
      have hopen : s.io ≠ .closed := by
        intro hclosed
        have hexited := h.phases.closed hclosed
        rw [hu] at hexited
        cases hexited
      have hexit : s.broker.doExit = true := by
        apply h.exiting
        rcases hio : s.io <;> simp_all [Io.ending]
      simp [State.left, hu, hexit, Updater.left]

end left

/-! ## The end -/

/-- What the two threads do by themselves, and the deadline of `pop`. -/
def Action.Own (a : Action) : Prop := a = .updater ∨ a = .io ∨ a = .updExpire

/-- The steps of the threads grant four for every deadline, and nothing else. -/
theorem sum_grant_of_own {as : List Action} (h : ∀ a ∈ as, a.Own) :
    (as.map Action.grant).sum = 4 * as.count .updExpire := by
  induction as with
  | nil => rfl
  | cons a as ih =>
      obtain ⟨ha, has⟩ := List.forall_mem_cons.mp h
      rw [List.map_cons, List.sum_cons, ih has, List.count_cons]
      rcases ha with rfl | rfl | rfl
      · simp [Action.grant]
      · simp [Action.grant]
      · simp only [Action.grant, beq_self_eq_true, if_true]
        omega

section ends

/-- What the threads do by themselves does not fail. -/
theorem Paced.fault_eq {a : Action} (h : Paced s) (ha : a.Own)
    (hstep : WriteSession.step s a = some t) : t.fault = none := by
  obtain ⟨hfault, hcases⟩ := step_cases hstep
  have hplaced := h.updater
  cases hcases with
  | updater t hupdater =>
      cases hupdater with
      | miss hu hqueue =>
          rw [hu] at hplaced
          exact absurd hqueue hplaced
      | _ => exact hfault
  | io t hio =>
      cases hio with
      | refuse docs tmp e hio hcheck =>
          rw [h.usable (by simp [hio])] at hcheck
          cases hcheck
      | _ => exact hfault
  | expire hu => exact hfault
  | _ => simp [Action.Own] at ha

/-- **The threads do not stand still** in a request or in `term`: one of them has a step, or, in
`term`, the deadline of the pop is to come. -/
theorem Paced.exists_step (h : Paced s) (hfault : s.fault = none) :
    s.io = .idle ∨ s.io = .closed ∨ ∃ a t,
      (a = .updater ∨ a = .io ∨ a = .updExpire ∧ s.io.ending = true) ∧
        WriteSession.step s a = some t := by
  have hplaced := h.io
  have hio : ∀ t, s.ioStep = some t → WriteSession.step s .io = some t := fun t ht => by
    simp [WriteSession.step, hfault, ht]
  -- the update thread has a step wherever it does not wait
  have hupdater : s.updater ≠ .exited → s.updater ≠ .popWait .waiting →
      ∃ t, WriteSession.step s .updater = some t := by
    intro hexited hwait
    simp only [WriteSession.step, hfault, Option.isSome_none, Bool.false_eq_true, if_false,
      State.updaterStep]
    rcases hu : s.updater with _ | _ | ⟨_ | _ | _⟩ | _ | _ | _
    case popWait.waiting => exact absurd hu hwait
    case exited => exact absurd hu hexited
    all_goals exact ⟨_, rfl⟩
  -- while `term` waits for it, its own wait ends with the deadline
  have hterm : s.io.ending = true → s.updater ≠ .exited → ∃ a t,
      (a = .updater ∨ a = .io ∨ a = .updExpire ∧ s.io.ending = true) ∧
        WriteSession.step s a = some t := by
    intro hending hexited
    by_cases hwait : s.updater = .popWait .waiting
    · refine ⟨.updExpire, { s with updater := .popWait .expired }, Or.inr (Or.inr ⟨rfl, hending⟩), ?_⟩
      simp [WriteSession.step, hfault, hwait, Updater.expire, Wait.expire]
    · obtain ⟨t, ht⟩ := hupdater hexited hwait
      exact ⟨.updater, t, Or.inl rfl, ht⟩
  rcases hs : s.io with _ | ⟨docs, tmp⟩ | ⟨docs, tmp⟩ | ⟨docs, tmp, _ | _ | _⟩ | _ | _ | _
  case idle => exact Or.inl rfl
  case closed => exact Or.inr (Or.inl rfl)
  all_goals refine Or.inr (Or.inr ?_)
  case writing => exact ⟨.io, _, Or.inr (Or.inl rfl), hio _ (by rw [State.ioStep, hs])⟩
  case entering => exact ⟨.io, _, Or.inr (Or.inl rfl), hio _ (by rw [State.ioStep, hs])⟩
  case pushWait.notified => exact ⟨.io, _, Or.inr (Or.inl rfl), hio _ (by rw [State.ioStep, hs])⟩
  case pushWait.expired =>
    rw [hs] at hplaced
    exact absurd rfl hplaced.2.1
  case pushWait.waiting =>
    -- the queue is full, so that the update thread does not wait, and it has not exited
    rw [hs] at hplaced
    have hqueue := ne_nil_of_isFull h.room (hplaced.2.2 rfl)
    have hexited : s.updater ≠ .exited := by
      intro hexited
      have hending := h.phases.exited hexited
      rw [hs] at hending
      cases hending
    have hwait : s.updater ≠ .popWait .waiting := by
      intro hwait
      have hempty := h.updater
      rw [hwait] at hempty
      exact hqueue hempty
    obtain ⟨t, ht⟩ := hupdater hexited hwait
    exact ⟨.updater, t, Or.inl rfl, ht⟩
  case waitDone =>
    by_cases hu : s.updater.holdsMutex = true
    · rw [hs] at hterm
      apply hterm rfl
      intro hexited
      rw [hexited] at hu
      cases hu
    · refine ⟨.io, { s with io := .joining }, Or.inr (Or.inl rfl), hio _ ?_⟩
      simp [State.ioStep, hs, hu]
  case joining =>
    by_cases hexited : s.updater = .exited
    · refine ⟨.io, { s with broker := s.broker.close, io := .closed }, Or.inr (Or.inl rfl), hio _ ?_⟩
      simp [State.ioStep, hs, hexited]
    · rw [hs] at hterm
      exact hterm rfl hexited

/-- What has begun with `term` stays in it. -/
theorem ending_of_step {a : Action} (hending : s.io.ending = true)
    (hstep : WriteSession.step s a = some t) : t.io.ending = true := by
  rcases step_effect hstep with ⟨_, u, p, hu, hp⟩ | ⟨_, e⟩ | _ | ⟨_, obj, hu⟩ | hu |
    ⟨_, docs, tmp, hrest, hpending, hnot⟩ | ⟨_, docs, hio⟩ | ⟨_, docs, hio⟩ | ⟨_, hio⟩ | ⟨_, hio, hu⟩
  · exact hp.ending.trans hending
  · exact hending
  · exact (Io.same_notify s.io).ending.trans hending
  · exact hending
  · exact hending
  · rw [hnot] at hending
    cases hending
  · rw [hio] at hending
    cases hending
  · rw [hio] at hending
    cases hending
  · rw [hio] at hending
    cases hending
  · rfl

/-- **Requests end.** In every run of a write session with room in its queue in which no pop is woken
without a notification, from every state without a fault: what the threads do by themselves does not
fail; while a WRITE is not answered or `term` has not returned, one of them has a step, or the deadline
of the pop is to come in `term`; and the number of their steps is bounded by what there is to do and,
outside of `term`, by the deadlines that pass. -/
theorem requests_end (connect : String → Option String) (options : BSONObj) (b : Broker)
    (hopen : Broker.new.openOn connect (some options) = (b, none)) (hroom : 1 ≤ b.queue.limitSize)
    (as : List Action) (s : State) (hrun : run step (State.opened b) as = some s)
    (hwake : ∀ a ∈ as, a ≠ .updWake) (hfault : s.fault = none) (bs : List Action) (t : State)
    (hown : ∀ a ∈ bs, a.Own) (hbs : run step s bs = some t) :
    t.fault = none ∧
      (t.io = .idle ∨ t.io = .closed ∨ ∃ a u,
        (a = .updater ∨ a = .io ∨ a = .updExpire ∧ t.io.ending = true) ∧ step t a = some u) ∧
      bs.length ≤ s.left + 4 * bs.count .updExpire ∧
      (s.io.ending = true → bs.length ≤ s.left) := by
  have hne : ∀ a : Action, a.Own → a ≠ .updWake := by
    rintro a (rfl | rfl | rfl) <;> simp
  have hpaced : Paced s := run_invariant (fun _ _ _ h ha hst => h.step ha hst)
    (paced_opened hopen hroom) (guarded_of_forall_mem _ hwake) hrun
  have hguarded : Guarded step (fun _ a => a.Own) s bs := guarded_of_forall_mem _ hown
  obtain ⟨hpaced', hfault'⟩ := run_invariant (I := fun s => Paced s ∧ s.fault = none)
    (fun _ _ _ h ha hst => ⟨h.1.step (hne _ ha) hst, h.1.fault_eq ha hst⟩) ⟨hpaced, hfault⟩
    hguarded hbs
  refine ⟨hfault', hpaced'.exists_step hfault', ?_, fun hending => ?_⟩
  · have hranked : Ranked step (fun _ a => a.Own) Paced State.left Action.grant :=
      ⟨fun _ _ _ h ha hst => h.step (hne _ ha) hst,
        fun _ _ _ h ha hst => h.left_lt (hne _ ha) hst⟩
    have hle := hranked.length_le hpaced hguarded hbs
    rw [sum_grant_of_own hown] at hle
    omega
  · have hranked : Ranked step (fun _ a => a.Own) (fun s => Paced s ∧ s.io.ending = true)
        State.left (fun _ => 0) := by
      refine ⟨fun s a t h ha hst => ⟨h.1.step (hne _ ha) hst, ?_⟩, fun s a t h ha hst => ?_⟩
      · exact ending_of_step h.2 hst
      · rcases ha with rfl | rfl | rfl
        · exact h.1.left_lt (by simp) hst
        · exact h.1.left_lt (by simp) hst
        · exact h.1.left_expire h.2 hst
    have hle := hranked.length_le ⟨hpaced, hending⟩ hguarded hbs
    have hzero : (bs.map fun _ => 0).sum = 0 := by simp
    omega

/-- A CLOSE comes right after a WRITE was answered; the update is passed on, and `term` returns. -/
theorem requests_end_sample : ∃ s t,
    run step (State.opened (Broker.sampleBroker 0 1 10))
        [.updater, .write (writeBody [sampleUpdate 1]), .io, .io, .io, .close] = some s ∧
      run step s [.updater, .updater, .updater, .updExpire, .updater, .updater, .io, .io] =
        some t ∧ t.io = .closed ∧ t.fault = none ∧ 8 ≤ s.left := by
  obtain ⟨s, hs, hfault, hending, t, ht, hclosed⟩ : ∃ s,
      run step (State.opened (Broker.sampleBroker 0 1 10))
        [.updater, .write (writeBody [sampleUpdate 1]), .io, .io, .io, .close] = some s ∧
      s.fault = none ∧ s.io.ending = true ∧ ∃ t,
        run step s [.updater, .updater, .updater, .updExpire, .updater, .updater, .io, .io] =
          some t ∧ t.io = .closed := ⟨_, rfl, rfl, rfl, _, rfl, rfl⟩
  obtain ⟨hfault', -, -, hbound⟩ := requests_end (fun _ => none) (Broker.sampleOptions 0 1 10)
    (Broker.sampleBroker 0 1 10) (by decide) (by decide) _ s hs (by simp) hfault
    [.updater, .updater, .updater, .updExpire, .updater, .updater, .io, .io] t
    (by simp [Action.Own]) ht
  exact ⟨s, t, hs, ht, hclosed, hfault', hbound hending⟩

end ends

end Zbroker.WriteSession
