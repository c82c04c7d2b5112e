import Zbroker.Found.Transition
import Zbroker.Session.Read

/-!
# What a step of a read session can do

* `ReaderStep`, `IoStep`, `Effect` — the steps of the read thread, those of the io thread in a
  call, and those of the session, each with the position it is taken from. **`step_effect`**:
  these are all.
* `settings_step` — no step but those of `term` touches the settings of the broker.
* `Placed s` — where the two threads can be: a pop waits at an empty queue and a push at a full
  one, the queue holds no more than its capacity, and `m_reach_end` is not set in the push loop.
  **`Placed.step`**: every step keeps it.
-/

namespace Zbroker.ReadSession

open Found.Transition

variable {M : Mongo} {seconds : Nat} {s t : State}

/-! ## The steps -/

/-- A query that ended well. -/
def State.stored (c : Broker) (s : State) : State :=
  { s with
    broker := c, reader := .returned c.jsonDocCache, io := s.io.notifyQuery
    log := { s.log with stored := s.log.stored ++ [c.jsonDocCache] } }

/-- The read thread begins to wait in `push`. -/
def State.waitPush (docs : List BSONObj) (s : State) : State :=
  { s with reader := .pushWait docs .waiting, io := s.io.notify }

/-- The io thread begins to wait in `pop`. -/
def State.waitPop (k : Call) (s : State) : State :=
  { s with reader := s.reader.notify, io := .popWait k .waiting }

/-- The steps of the read thread. -/
inductive ReaderStep (M : Mongo) (s : State) : State → Prop
  | turn (hr : s.reader = .loop) :
      ReaderStep M s { s with reader := if s.broker.doExit then .exited else .starting }
  | start (hr : s.reader = .starting) : ReaderStep M s s.startQuery
  | fetch (conditions : BSONObj) (hr : s.reader = .querying conditions) :
      ReaderStep M s (s.fetchQuery M conditions)
  | store (c : Broker) (hr : s.reader = .fetched) (hc : s.broker.queryStore = (c, none)) :
      ReaderStep M s (s.stored c)
  | fail (e : Exn) (hr : s.reader = .fetched) (hc : s.broker.queryStore = (s.broker, some e)) :
      ReaderStep M s { s with fault := some e }
  | branch (docs : List BSONObj) (hr : s.reader = .returned docs) :
      ReaderStep M s (s.branch docs)
  | test (docs : List BSONObj) (hr : s.reader = .pushing docs) :
      ReaderStep M s { s with
        reader := if docs.isEmpty || s.broker.doExit then .loop else .entering docs }
  | wait (docs : List BSONObj) (hr : s.reader = .entering docs)
      (hfull : s.broker.queue.isFull = true) : ReaderStep M s (s.waitPush docs)
  | push (docs : List BSONObj) (hr : s.reader = .entering docs ∧ s.broker.queue.isFull = false ∨
      s.reader = .pushWait docs .notified) : ReaderStep M s (s.push docs)
  | giveUp (docs : List BSONObj) (hr : s.reader = .pushWait docs .expired) :
      ReaderStep M s { s with reader := if s.broker.doExit then .loop else .pushing docs }
  | rise (hr : s.reader = .sleeping) : ReaderStep M s { s with reader := .loop }

/-- The steps of the io thread in a call. -/
inductive IoStep (M : Mongo) (s : State) : State → Prop
  | refuse (k : Call) (e : Exn) (hio : s.io = .entering k) (he : s.broker.checkStatus = some e) :
      IoStep M s { s with io := k.onThrow }
  | wait (k : Call) (hio : s.io = .entering k) (hqueue : s.broker.queue.queue = []) :
      IoStep M s (s.waitPop k)
  | pop (k : Call) (d : BSONObj) (rest : List BSONObj)
      (hio : s.io = .entering k ∨ s.io = .popWait k .notified)
      (hqueue : s.broker.queue.queue = d :: rest) : IoStep M s (s.popped k d rest)
  | fault (e : Exn) (hio : (∃ k, s.io = .popWait k .notified) ∨ s.io = .termSize ∨
      s.io = .termReach) : IoStep M s { s with fault := some e }
  | timeOut (k : Call) (hio : s.io = .popWait k .expired) : IoStep M s { s with io := k.onThrow }
  | handle (k : Call) (hio : s.io = .timedOut k) :
      IoStep M s { s with io := if s.broker.querying then .queryEnter k else k.onTimeout s.broker }
  | queryEnter (k : Call) (hio : s.io = .queryEnter k) :
      IoStep M s { s with io := .queryWait k .waiting }
  | queryLeave (k : Call) (hio : s.io = .queryWait k .notified) :
      IoStep M s { s with io := k.onTimeout s.broker }
  | respond (conn : Nat) (docs : List BSONObj) (ret : Option Nat)
      (hio : s.io = .responding conn docs ret) : IoStep M s (s.respond M conn docs ret)
  | reach (hio : s.io = .termSize) (hqueue : s.broker.queue.queue = []) :
      IoStep M s { s with io := .termReach }
  | join (hio : s.io = .termReach) (hreach : s.broker.reachEnd = true) :
      IoStep M s { s with io := .joining }
  | last (f : BatchPop) (hio : s.io = .termSize ∧ s.broker.queue.queue ≠ [] ∨
      s.io = .termReach ∧ s.broker.reachEnd = false) (hf : BatchPop.start s.broker 1 = .ok f) :
      IoStep M s { s with io := .entering (.term f) }
  | close (hio : s.io = .joining) (hr : s.reader = .exited) :
      IoStep M s { s with broker := s.broker.close, io := .closed }

/-- The steps of the session. -/
inductive Effect (M : Mongo) (seconds : Nat) (s : State) : Action → State → Prop
  | reader (t : State) (h : ReaderStep M s t) : Effect M seconds s .reader t
  | io (t : State) (h : IoStep M s t) : Effect M seconds s .io t
  | readerExpire (docs : List BSONObj) (hr : s.reader = .pushWait docs .waiting)
      (hseconds : 0 < seconds) :
      Effect M seconds s .readerExpire { s with reader := .pushWait docs .expired }
  | readerWake (docs : List BSONObj) (hr : s.reader = .pushWait docs .waiting) :
      Effect M seconds s .readerWake { s with reader := .pushWait docs .notified }
  | ioExpire (k : Call) (hio : s.io = .popWait k .waiting) (hseconds : k.seconds ≠ 0) :
      Effect M seconds s .ioExpire { s with io := .popWait k .expired }
  | popWake (k : Call) (hio : s.io = .popWait k .waiting) :
      Effect M seconds s .ioWake { s with io := .popWait k .notified }
  | queryWake (k : Call) (hio : s.io = .queryWait k .waiting) :
      Effect M seconds s .ioWake { s with io := .queryWait k .notified }
  | read (conn : Nat) (hio : s.io = .idle) : Effect M seconds s (.read conn) (s.startRead conn)
  | pop (n : Nat) (hio : s.io = .idle) :
      Effect M seconds s (.pop n) { s with io := .entering (.pop n) }
  | rewind (hio : s.io = .idle) : Effect M seconds s .rewind s.rewind
  | term (hio : s.io = .idle) : Effect M seconds s .term s.startTerm
  | insert (d : Document) (hd : d.oid ∉ s.coll.map Document.oid) :
      Effect M seconds s (.insert d) { s with coll := s.coll ++ [d] }

/-- A `queryStore` that ends well moves the position, counts the query and ends it. -/
theorem eq_of_queryStore {c c' : Broker} (h : c.queryStore = (c', none)) :
    c' = { c with
      lastDocId := c'.lastDocId, queryCount := c.queryCount + 1, querying := false } := by
  unfold Broker.queryStore at h
  split at h
  · cases h
    rfl
  · split at h
    · cases h
    · cases h
      rfl

/-- A `queryStore` that fails leaves the broker as it is. -/
theorem eq_of_queryStore_error {c c' : Broker} {e : Exn} (h : c.queryStore = (c', some e)) :
    c' = c := by
  unfold Broker.queryStore at h
  split at h
  · cases h
  · split at h
    · cases h
      rfl
    · cases h

/-- The steps of the read thread are these. -/
theorem readerStep_cases (h : s.readerStep M = some t) : ReaderStep M s t := by
  unfold State.readerStep at h
  cases hr : s.reader with
  | loop =>
      simp only [hr, Option.some.injEq] at h
      subst h
      exact .turn hr
  | starting =>
      simp only [hr, Option.some.injEq] at h
      subst h
      exact .start hr
  | querying conditions =>
      simp only [hr, Option.some.injEq] at h
      subst h
      exact .fetch conditions hr
  | fetched =>
      simp only [hr, Option.some.injEq] at h
      subst h
      unfold State.storeQuery
      rcases hc : s.broker.queryStore with ⟨c, _ | e⟩
      · exact .store c hr hc
      · have hsame := eq_of_queryStore_error hc
        subst hsame
        exact .fail e hr hc
  | returned docs =>
      simp only [hr, Option.some.injEq] at h
      subst h
      exact .branch docs hr
  | pushing docs =>
      simp only [hr, Option.some.injEq] at h
      subst h
      exact .test docs hr
  | entering docs =>
      simp only [hr] at h
      split_ifs at h with hfull
      · cases h
        exact .wait docs hr hfull
      · cases h
        exact .push docs (Or.inl ⟨hr, by simpa using hfull⟩)
  | pushWait docs w =>
      rcases w with _ | _ | _
      · simp [hr] at h
      · simp only [hr, Option.some.injEq] at h
        subst h
        exact .push docs (Or.inr hr)
      · simp only [hr, Option.some.injEq] at h
        subst h
        exact .giveUp docs hr
  | sleeping =>
      simp only [hr, Option.some.injEq] at h
      subst h
      exact .rise hr
  | exited => simp [hr] at h

/-- The pop of `term`, from one of its two tests. -/
theorem termPop_cases (hio : s.io = .termSize ∧ s.broker.queue.queue ≠ [] ∨
    s.io = .termReach ∧ s.broker.reachEnd = false) : IoStep M s s.termPop := by
  unfold State.termPop
  rcases hf : BatchPop.start s.broker 1 with e | f
  · refine .fault e (Or.inr ?_)
    exact hio.imp And.left And.left
  · exact .last f hio hf

/-- The steps of the io thread in a call are these. -/
theorem ioStep_cases (h : s.ioStep M = some t) : IoStep M s t := by
  unfold State.ioStep at h
  cases hio : s.io with
  | idle => simp [hio] at h
  | entering k =>
      simp only [hio, Option.some.injEq] at h
      subst h
      unfold State.enterPop
      split
      · exact .refuse k _ hio (by assumption)
      · split
        · exact .wait k hio (by assumption)
        · exact .pop k _ _ (Or.inl hio) (by assumption)
  | popWait k w =>
      rcases w with _ | _ | _
      · simp [hio] at h
      · simp only [hio, Option.some.injEq] at h
        subst h
        unfold State.resumePop
        split
        · exact .fault _ (Or.inl ⟨k, hio⟩)
        · exact .pop k _ _ (Or.inr hio) (by assumption)
      · simp only [hio, Option.some.injEq] at h
        subst h
        exact .timeOut k hio
  | timedOut k =>
      simp only [hio, Option.some.injEq] at h
      subst h
      exact .handle k hio
  | queryEnter k =>
      simp only [hio, Option.some.injEq] at h
      subst h
      exact .queryEnter k hio
  | queryWait k w =>
      rcases w with _ | _ | _
      · simp [hio] at h
      · simp only [hio, Option.some.injEq] at h
        subst h
        exact .queryLeave k hio
      · simp [hio] at h
  | responding conn docs ret =>
      simp only [hio, Option.some.injEq] at h
      subst h
      exact .respond conn docs ret hio
  | termSize =>
      simp only [hio, Option.some.injEq] at h
      subst h
      split_ifs with hempty
      · exact .reach hio (List.isEmpty_iff.mp hempty)
      · exact termPop_cases (Or.inl ⟨hio, fun hnil => hempty (List.isEmpty_iff.mpr hnil)⟩)
  | termReach =>
      simp only [hio, Option.some.injEq] at h
      subst h
      split_ifs with hreach
      · exact .join hio hreach
      · exact termPop_cases (Or.inr ⟨hio, by simpa using hreach⟩)
  | joining =>
      simp only [hio] at h
      split at h
      · cases h
        exact .close hio (by assumption)
      · cases h
  | closed => simp [hio] at h

/-- A deadline of the read thread is one of a wait in `push`. -/
theorem reader_expire_eq_some {r r' : Reader} (h : r.expire seconds = some r') :
    ∃ docs, r = .pushWait docs .waiting ∧ 0 < seconds ∧ r' = .pushWait docs .expired := by
  unfold Reader.expire at h
  split at h
  · rename_i docs w
    split_ifs at h with hseconds
    rcases w with _ | _ | _
    · cases h
      exact ⟨docs, rfl, hseconds, rfl⟩
    · cases h
    · cases h
  · cases h

/-- A deadline of the io thread is one of a wait in `pop`. -/
theorem io_expire_eq_some {p p' : Io} (h : p.expire = some p') :
    ∃ k, p = .popWait k .waiting ∧ k.seconds ≠ 0 ∧ p' = .popWait k .expired := by
  unfold Io.expire at h
  split at h
  · rename_i k w
    split_ifs at h with hseconds
    rcases w with _ | _ | _
    · cases h
      exact ⟨k, rfl, hseconds, rfl⟩
    · cases h
    · cases h
  · cases h

/-- A program that has ended takes no step. -/
theorem fault_of_step {a : Action} (h : step M seconds s a = some t) : s.fault = none := by
  by_contra hfault
  have hsome : s.fault.isSome = true := Option.isSome_iff_ne_none.mpr hfault
  unfold step at h
  rw [if_pos hsome] at h
  cases h

/-- **What a step can do.** -/
theorem step_effect {a : Action} (h : step M seconds s a = some t) : Effect M seconds s a t := by
  unfold step at h
  split at h
  · cases h
  cases a with
  | reader => exact .reader t (readerStep_cases h)
  | readerExpire =>
      obtain ⟨r, hr, rfl⟩ := Option.map_eq_some_iff.mp h
      obtain ⟨docs, hdocs, hseconds, rfl⟩ := reader_expire_eq_some hr
      exact .readerExpire docs hdocs hseconds
  | readerWake =>
      obtain ⟨r, hr, rfl⟩ := Option.map_eq_some_iff.mp h
      unfold Reader.wake at hr
      split at hr
      · rename_i docs hdocs
        cases hr
        exact .readerWake docs hdocs
      · cases hr
  | io => exact .io t (ioStep_cases h)
  | ioExpire =>
      obtain ⟨p, hp, rfl⟩ := Option.map_eq_some_iff.mp h
      obtain ⟨k, hk, hseconds, rfl⟩ := io_expire_eq_some hp
      exact .ioExpire k hk hseconds
  | ioWake =>
      obtain ⟨p, hp, rfl⟩ := Option.map_eq_some_iff.mp h
      unfold Io.wake at hp
      split at hp
      · rename_i k hk
        cases hp
        exact .popWake k hk
      · rename_i k hk
        cases hp
        exact .queryWake k hk
      · cases hp
  | read conn =>
      simp only at h
      split_ifs at h with hio
      cases h
      exact .read conn hio
  | pop n =>
      simp only at h
      split_ifs at h with hio
      cases h
      exact .pop n hio
  | rewind =>
      simp only at h
      split_ifs at h with hio
      cases h
      exact .rewind hio
  | term =>
      simp only at h
      split_ifs at h with hio
      cases h
      exact .term hio
  | insert d =>
      simp only at h
      split_ifs at h with hd
      cases h
      exact .insert d hd

/-- What the read thread does to the io thread: it may notify it. -/
theorem ReaderStep.io (h : ReaderStep M s t) :
    t.io = s.io ∨ t.io = s.io.notify ∨ t.io = s.io.notifyQuery := by
  cases h with
  | store c hr hc => exact Or.inr (Or.inr rfl)
  | wait docs hr hfull => exact Or.inr (Or.inl rfl)
  | push docs hr => exact Or.inr (Or.inl rfl)
  | branch docs hr =>
      unfold State.branch
      split_ifs
      · exact Or.inl rfl
      · exact Or.inl rfl
  | _ => exact Or.inl rfl

/-- The read thread takes nothing out of the queue. -/
theorem ReaderStep.queue_eq_nil (h : ReaderStep M s t) (hnil : t.broker.queue.queue = []) :
    s.broker.queue.queue = [] := by
  cases h with
  | store c hr hc =>
      have hc' := eq_of_queryStore hc
      have hqueue : c.queue = s.broker.queue := by rw [hc']
      rw [← hqueue]
      exact hnil
  | push docs hr =>
      have hle := SizedQueue.length_le_fill s.broker.queue docs
      rw [show (s.broker.queue.fill docs).1.queue = [] from hnil] at hle
      exact List.length_eq_zero_iff.mp (Nat.le_zero.mp hle)
  | branch docs hr =>
      unfold State.branch at hnil
      split_ifs at hnil
      · exact hnil
      · exact hnil
  | _ => exact hnil

/-! ## The settings -/

/-- The read thread leaves its broker the settings. -/
theorem ReaderStep.settings (h : ReaderStep M s t) : t.broker.settings = s.broker.settings := by
  cases h with
  | store c hr hc =>
      have hc' := eq_of_queryStore hc
      show c.settings = s.broker.settings
      rw [hc']
      rfl
  | push docs hr =>
      unfold State.push Broker.settings SizedQueue.clear
      simp only [SizedQueue.limitSize_fill]
  | branch docs hr =>
      unfold State.branch
      split_ifs <;> rfl
  | _ => rfl

/-- A call of the io thread leaves the broker the settings, apart from the end of `term`. -/
theorem IoStep.settings (h : IoStep M s t) (hio : s.io ≠ .joining) :
    t.broker.settings = s.broker.settings := by
  cases h with
  | close hjoining hr => exact absurd hjoining hio
  | respond conn docs ret hio =>
      unfold State.respond
      split <;> rfl
  | _ => rfl

/-- **The settings of a read broker stay** from its `open` to `term`. -/
theorem settings_step {a : Action} (h : step M seconds s a = some t) (hterm : a ≠ .term)
    (hio : s.io ≠ .joining) : t.broker.settings = s.broker.settings := by
  rcases step_effect h with ⟨_, hreader⟩ | ⟨_, hio'⟩ | _ | _ | _ | _ | _ | ⟨conn, -⟩ | _ | _ | _ | _
  · exact hreader.settings
  · exact hio'.settings hio
  · rfl
  · rfl
  · rfl
  · rfl
  · rfl
  · unfold State.startRead
    split_ifs
    · split <;> rfl
    · rfl
  · rfl
  · unfold State.rewind
    split_ifs <;> rfl
  · exact absurd rfl hterm
  · rfl

/-! ## Where the threads can be -/

/-- In the loop that pushes a page. -/
def Reader.inPush : Reader → Bool
  | .pushing _ | .entering _ | .pushWait _ _ => true
  | _ => false

/-- Where the threads can be, in a session that was opened. -/
structure Placed (s : State) : Prop where
  opened : s.io ≠ .closed → s.broker.checkStatus = none
  empty : ∀ k, s.io = .popWait k .waiting → s.broker.queue.queue = []
  full : ∀ docs, s.reader = .pushWait docs .waiting → s.broker.queue.isFull = true
  length : s.broker.queue.queue.length ≤ s.broker.queue.limitSize
  reachEnd : s.reader.inPush = true → s.broker.reachEnd = false
  query : ∀ k, s.io ≠ .queryWait k .expired

/-- It is so when the session has been opened. -/
theorem placed_opened {connect : String → Option String} {options : BSONObj} {b : Broker}
    (hopen : Broker.new.openOn connect (some options) = (b, none)) (coll : List Document) :
    Placed (State.opened coll b) := by
  have hfresh := Broker.fresh_of_openOn hopen
  refine ⟨?_, ?_, ?_, ?_, ?_, ?_⟩
  · intro _
    simp [State.opened, Broker.checkStatus, hfresh.inited, hfresh.connected]
  · intro _ hio
    cases hio
  · intro _ hr
    cases hr
  · simp [State.opened, hfresh.queue]
  · intro hr
    cases hr
  · intro _ hio
    cases hio

section Placed

/-- Only the reader has moved on. -/
theorem Placed.of_reader (h : Placed s) {r : Reader} (hfull : ∀ docs, r ≠ .pushWait docs .waiting)
    (hpush : r.inPush = true → s.broker.reachEnd = false) : Placed { s with reader := r } :=
  ⟨h.opened, h.empty, fun docs hr => absurd hr (hfull docs), h.length, hpush, h.query⟩

/-- Only the io thread has moved on, not to a wait. -/
theorem Placed.of_io (h : Placed s) {p : Io} (hopened : s.io ≠ .closed)
    (hpop : ∀ k, p ≠ .popWait k .waiting) (hquery : ∀ k, p ≠ .queryWait k .expired) :
    Placed { s with io := p } :=
  ⟨fun _ => h.opened hopened, fun k hk => absurd hk (hpop k), h.full, h.length, h.reachEnd, hquery⟩

/-- In no wait, and not done with the session. -/
def Io.runs : Io → Bool
  | .popWait _ _ | .queryWait _ _ | .closed => false
  | _ => true

/-- Behind a pop that has thrown, a call is in no wait. -/
theorem runs_onThrow (k : Call) : k.onThrow.runs = true := by cases k <;> rfl

/-- Behind a pop that has brought a document, a call is in no wait. -/
theorem runs_onItem (d : BSONObj) (k : Call) : (k.onItem d).runs = true := by
  cases k with
  | pop n => rfl
  | read conn f =>
      show (Io.ofRead conn (f.onItem d)).runs = true
      rcases f.onItem d with _ | _ <;> rfl
  | term f =>
      show (Io.ofTerm (f.onItem d)).runs = true
      rcases f.onItem d with _ | _ <;> rfl

/-- Behind the handler of a timeout, a call is in no wait. -/
theorem runs_onTimeout (b : Broker) (k : Call) : (k.onTimeout b).runs = true := by
  cases k with
  | pop n => rfl
  | read conn f =>
      show (Io.ofRead conn (f.onTimeout b)).runs = true
      rcases f.onTimeout b with _ | _ <;> rfl
  | term f =>
      show (Io.ofTerm (f.onTimeout b)).runs = true
      rcases f.onTimeout b with _ | _ <;> rfl

/-- Only the io thread has moved on, to where it does not wait. -/
theorem Placed.of_runs (h : Placed s) {p : Io} (hopened : s.io ≠ .closed) (hp : p.runs = true) :
    Placed { s with io := p } := by
  apply h.of_io hopened
  · rintro k rfl
    cases hp
  · rintro k rfl
    cases hp

/-- A notified pop does not wait. -/
theorem Io.notify_ne_popWait (p : Io) (k : Call) : p.notify ≠ .popWait k .waiting := by
  rcases p with _ | _ | ⟨k', _ | _ | _⟩ | _ | _ | _ | _ | _ | _ | _ | _ <;> rintro ⟨⟩

/-- Nor does a notified wait on a query. -/
theorem Io.notifyQuery_ne_queryWait (p : Io) (k : Call) : p.notifyQuery ≠ .queryWait k .waiting := by
  rcases p with _ | _ | _ | _ | _ | ⟨k', _ | _ | _⟩ | _ | _ | _ | _ | _ <;> rintro ⟨⟩

/-- A notified push does not wait. -/
theorem Reader.notify_ne_pushWait (r : Reader) (docs : List BSONObj) :
    r.notify ≠ .pushWait docs .waiting := by
  rcases r with _ | _ | _ | _ | _ | _ | _ | ⟨docs', _ | _ | _⟩ | _ | _ <;> rintro ⟨⟩

@[simp] theorem Reader.inPush_notify (r : Reader) : r.notify.inPush = r.inPush := by
  cases r <;> rfl

/-- A notification of the pops leaves the waits on a query as they are. -/
theorem Io.notify_eq_queryWait {p : Io} {k : Call} {w : Wait} (h : p.notify = .queryWait k w) :
    p = .queryWait k w := by
  cases p <;> first | exact h | cases h

/-- A notification of the waits on a query leaves the pops as they are. -/
theorem Io.notifyQuery_eq_popWait {p : Io} {k : Call} {w : Wait}
    (h : p.notifyQuery = .popWait k w) : p = .popWait k w := by
  cases p <;> first | exact h | cases h

/-- A notification makes no deadline pass. -/
theorem Io.notifyQuery_ne_expired {p : Io} {k : Call} (h : p ≠ .queryWait k .expired) :
    p.notifyQuery ≠ .queryWait k .expired := by
  rcases p with _ | _ | _ | _ | _ | ⟨k', _ | _ | _⟩ | _ | _ | _ | _ | _
  case queryWait.expired => exact h
  all_goals rintro ⟨⟩

/-- **A step of the read thread leaves the threads placed.** -/
theorem Placed.readerStep (h : Placed s) (hstep : ReaderStep M s t) : Placed t := by
  cases hstep with
  | turn hr =>
      split_ifs
      · exact h.of_reader (fun _ hd => by cases hd) (fun hp => by cases hp)
      · exact h.of_reader (fun _ hd => by cases hd) (fun hp => by cases hp)
  | start hr =>
      exact ⟨h.opened, h.empty, fun _ hd => (by cases hd), h.length, fun hp => (by cases hp), h.query⟩
  | fetch conditions hr =>
      exact ⟨h.opened, h.empty, fun _ hd => (by cases hd), h.length, fun hp => (by cases hp), h.query⟩
  | store c hr hc =>
      have hc' := eq_of_queryStore hc
      have hqueue : c.queue = s.broker.queue := by rw [hc']
      have hstatus : c.checkStatus = s.broker.checkStatus := by rw [hc']; rfl
      refine ⟨?_, ?_, fun _ hd => (by cases hd), ?_, fun hp => (by cases hp),
        fun k => Io.notifyQuery_ne_expired (h.query k)⟩
      · intro hio
        show c.checkStatus = none
        rw [hstatus]
        apply h.opened
        intro hclosed
        apply hio
        show s.io.notifyQuery = .closed
        rw [hclosed]
        rfl
      · intro k hk
        show c.queue.queue = []
        rw [hqueue]
        exact h.empty k (Io.notifyQuery_eq_popWait hk)
      · show c.queue.queue.length ≤ c.queue.limitSize
        rw [hqueue]
        exact h.length
  | fail e hr hc => exact ⟨h.opened, h.empty, h.full, h.length, h.reachEnd, h.query⟩
  | branch docs hr =>
      unfold State.branch
      split_ifs
      · exact ⟨h.opened, h.empty, fun _ hd => (by cases hd), h.length, fun hp => (by cases hp),
          h.query⟩
      · exact ⟨h.opened, h.empty, fun _ hd => (by cases hd), h.length, fun _ => rfl, h.query⟩
  | test docs hr =>
      have hreach : s.broker.reachEnd = false := h.reachEnd (by rw [hr]; rfl)
      split_ifs
      · exact h.of_reader (fun _ hd => by cases hd) (fun _ => hreach)
      · exact h.of_reader (fun _ hd => by cases hd) (fun _ => hreach)
  | wait docs hr hfull =>
      have hreach : s.broker.reachEnd = false := h.reachEnd (by rw [hr]; rfl)
      refine ⟨?_, ?_, fun _ _ => hfull, h.length, fun _ => hreach,
        fun k hk => h.query k (Io.notify_eq_queryWait hk)⟩
      · intro hio
        apply h.opened
        intro hclosed
        apply hio
        show s.io.notify = .closed
        rw [hclosed]
        rfl
      · intro k hk
        exact absurd hk (Io.notify_ne_popWait s.io k)
  | push docs hr =>
      have hreach : s.broker.reachEnd = false := by
        apply h.reachEnd
        rcases hr with ⟨hr, -⟩ | hr
        · rw [hr]
          rfl
        · rw [hr]
          rfl
      refine ⟨?_, ?_, fun _ hd => (by cases hd), ?_, fun _ => hreach,
        fun k hk => h.query k (Io.notify_eq_queryWait hk)⟩
      · intro hio
        apply h.opened
        intro hclosed
        apply hio
        show s.io.notify = .closed
        rw [hclosed]
        rfl
      · intro k hk
        exact absurd hk (Io.notify_ne_popWait s.io k)
      · exact SizedQueue.length_fill_le h.length
  | giveUp docs hr =>
      have hreach : s.broker.reachEnd = false := h.reachEnd (by rw [hr]; rfl)
      split_ifs
      · exact h.of_reader (fun _ hd => by cases hd) (fun _ => hreach)
      · exact h.of_reader (fun _ hd => by cases hd) (fun _ => hreach)
  | rise hr => exact h.of_reader (fun _ hd => by cases hd) (fun hp => by cases hp)

/-- An item was taken by a call. -/
theorem Placed.popped (h : Placed s) (hopened : s.io ≠ .closed) {k : Call} {d : BSONObj}
    {rest : List BSONObj} (hqueue : s.broker.queue.queue = d :: rest) : Placed (s.popped k d rest) := by
  have hlength := h.length
  rw [hqueue, List.length_cons] at hlength
  have hruns : (k.onItem d).runs = true := runs_onItem d k
  refine ⟨fun _ => h.opened hopened, ?_, ?_, ?_, ?_, ?_⟩
  · intro k' hk
    rw [show k.onItem d = .popWait k' .waiting from hk] at hruns
    cases hruns
  · intro docs hr
    exact absurd hr (Reader.notify_ne_pushWait s.reader docs)
  · show rest.length ≤ s.broker.queue.limitSize
    omega
  · intro hp
    rw [show (s.popped k d rest).reader = s.reader.notify from rfl, Reader.inPush_notify] at hp
    exact h.reachEnd hp
  · intro k' hk
    rw [show k.onItem d = .queryWait k' .expired from hk] at hruns
    cases hruns

/-- **A step of the io thread in a call leaves the threads placed.** -/
theorem Placed.ioStep (h : Placed s) (hstep : IoStep M s t) : Placed t := by
  cases hstep with
  | refuse k e hio he => exact h.of_runs (by rw [hio]; rintro ⟨⟩) (runs_onThrow k)
  | wait k hio hqueue =>
      refine ⟨fun _ => h.opened (by rw [hio]; rintro ⟨⟩), fun _ _ => hqueue, ?_, h.length, ?_,
        fun _ hk => by cases hk⟩
      · intro docs hr
        exact absurd hr (Reader.notify_ne_pushWait s.reader docs)
      · intro hp
        rw [show (s.waitPop k).reader = s.reader.notify from rfl, Reader.inPush_notify] at hp
        exact h.reachEnd hp
  | pop k d rest hio hqueue =>
      refine h.popped ?_ hqueue
      rcases hio with hio | hio
      · rw [hio]
        rintro ⟨⟩
      · rw [hio]
        rintro ⟨⟩
  | fault e hio => exact ⟨h.opened, h.empty, h.full, h.length, h.reachEnd, h.query⟩
  | timeOut k hio => exact h.of_runs (by rw [hio]; rintro ⟨⟩) (runs_onThrow k)
  | handle k hio =>
      split_ifs
      · exact h.of_runs (by rw [hio]; rintro ⟨⟩) rfl
      · exact h.of_runs (by rw [hio]; rintro ⟨⟩) (runs_onTimeout s.broker k)
  | queryEnter k hio =>
      exact h.of_io (by rw [hio]; rintro ⟨⟩) (fun _ hk => by cases hk) (fun _ hk => by cases hk)
  | queryLeave k hio => exact h.of_runs (by rw [hio]; rintro ⟨⟩) (runs_onTimeout s.broker k)
  | respond conn docs ret hio =>
      have hidle := h.of_runs (p := .idle) (by rw [hio]; rintro ⟨⟩) rfl
      unfold State.respond
      split
      · exact ⟨hidle.opened, hidle.empty, hidle.full, hidle.length, hidle.reachEnd, hidle.query⟩
      · exact ⟨hidle.opened, hidle.empty, hidle.full, hidle.length, hidle.reachEnd, hidle.query⟩
  | reach hio hqueue => exact h.of_runs (by rw [hio]; rintro ⟨⟩) rfl
  | join hio hreach => exact h.of_runs (by rw [hio]; rintro ⟨⟩) rfl
  | last f hio hf =>
      apply h.of_runs _ rfl
      rcases hio with ⟨hio, -⟩ | ⟨hio, -⟩
      · rw [hio]
        rintro ⟨⟩
      · rw [hio]
        rintro ⟨⟩
  | close hio hr =>
      refine ⟨fun hopened => absurd rfl hopened, fun _ hk => (by cases hk), ?_, h.length,
        fun _ => rfl, fun _ hk => (by cases hk)⟩
      intro docs hd
      rw [show s.reader = .pushWait docs .waiting from hd] at hr
      cases hr

/-- **Every step leaves the threads placed.** -/
theorem Placed.step {a : Action} (h : Placed s) (hstep : step M seconds s a = some t) :
    Placed t := by
  rcases step_effect hstep with ⟨_, hreader⟩ | ⟨_, hio⟩ | ⟨docs, hr, -⟩ | ⟨docs, hr⟩ | ⟨k, hio, -⟩ |
    ⟨k, hio⟩ | ⟨k, hio⟩ | ⟨conn, hio⟩ | ⟨n, hio⟩ | hio | hio | ⟨d, -⟩
  · exact h.readerStep hreader
  · exact h.ioStep hio
  · exact h.of_reader (fun _ hd => by cases hd) fun _ => h.reachEnd (by rw [hr]; rfl)
  · exact h.of_reader (fun _ hd => by cases hd) fun _ => h.reachEnd (by rw [hr]; rfl)
  · exact h.of_io (by rw [hio]; rintro ⟨⟩) (fun _ hk => by cases hk) (fun _ hk => by cases hk)
  · exact h.of_io (by rw [hio]; rintro ⟨⟩) (fun _ hk => by cases hk) (fun _ hk => by cases hk)
  · exact h.of_io (by rw [hio]; rintro ⟨⟩) (fun _ hk => by cases hk) (fun _ hk => by cases hk)
  · have hopened : s.io ≠ .closed := by rw [hio]; rintro ⟨⟩
    unfold State.startRead
    split_ifs
    · split
      · exact ⟨h.opened, h.empty, h.full, h.length, h.reachEnd, h.query⟩
      · exact h.of_runs hopened rfl
    · exact ⟨h.opened, h.empty, h.full, h.length, h.reachEnd, h.query⟩
  · exact h.of_runs (by rw [hio]; rintro ⟨⟩) rfl
  · unfold State.rewind
    split_ifs
    · exact ⟨h.opened, h.empty, h.full, h.length, fun _ => rfl, h.query⟩
    · exact h
  · have hopened : s.io ≠ .closed := by rw [hio]; rintro ⟨⟩
    unfold State.startTerm
    split_ifs with hconnected
    · exact ⟨fun _ => h.opened hopened, fun _ hk => (by cases hk), h.full, h.length, h.reachEnd,
        fun _ hk => (by cases hk)⟩
    · exact ⟨fun hclosed => absurd rfl hclosed, fun _ hk => (by cases hk), h.full, h.length,
        h.reachEnd, fun _ hk => (by cases hk)⟩
  · exact ⟨h.opened, h.empty, h.full, h.length, h.reachEnd, h.query⟩

end Placed

end Zbroker.ReadSession
