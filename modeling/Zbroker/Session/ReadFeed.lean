import Zbroker.Found.Feed
import Zbroker.Session.Effect

/-!
# A read session is a feed

* `source M b` — the collection as a source that is read page by page: positions are the values
  of `m_last_doc_id`, requests the prepared conditions of the session opened as `b`.
* `feed s` — the bookkeeping of a state: what the read thread holds, the queue, what the request
  under way has collected, and the logs.
* `Configured b s` — the fields of the broker that only `init`, `open` and `close` write are
  those of `b`, until the session is closed.
* `Allows M s a m` — which moves an action can be: only a REWIND rewinds, only an answer without
  its documents loses, only a pop by itself or that of `term` takes for nobody, and only `term`
  closes.
* **`step_isMove`**: every step of a session is a move of its feed.
* `Live b s` — the session opened as `b` has not been terminated. **`Live.step`** is what its
  steps can do.
* `Serving b s` — a live session in which every document left the queue for a READ. It stays so
  (`Serving.step`) as long as every answer can carry its documents, `Answered`.
-/

namespace Zbroker.ReadSession

open Found Found.Transition

/-! ## The feed of a state -/

/-- The collection, read page by page by the queries of the session opened as `b`. -/
def source (M : Mongo) (b : Broker) :
    Source (List Document) (Option OID) BSONObj BSONObj where
  ask last := Broker.prepareCondition { b with lastDocId := last }
  find coll conditions := M.find coll conditions .asc b.limit b.skip b.queryFields
  advance last page :=
    match page.getLast? with
    | none => some last
    | some doc => (BSON.objectID doc).map some
  advance_nil _ := rfl

/-- The documents the read thread holds. -/
def Reader.held : Reader → List BSONObj
  | .returned docs | .pushing docs | .entering docs | .pushWait docs _ => docs
  | _ => []

/-- The query in flight; `cache` is `m_json_doc_cache`. -/
def Reader.flight (cache : List BSONObj) : Reader → Flight BSONObj BSONObj
  | .querying conditions => .asked conditions
  | .fetched => .got cache
  | _ => .idle

/-- The documents a READ request has collected. -/
def Call.taken : Call → List BSONObj
  | .read _ f => f.docs
  | _ => []

/-- The documents the READ request under way has collected. -/
def Io.taken : Io → List BSONObj
  | .entering k | .popWait k _ | .timedOut k | .queryEnter k | .queryWait k _ => k.taken
  | .responding _ docs _ => docs
  | _ => []

/-- What the io thread is in: nothing, a pop by itself, a READ, or `term`. -/
inductive Kind where
  | free
  | alone
  | serving
  | ending
  deriving DecidableEq, Repr

/-- What a call is part of. -/
def Call.kind : Call → Kind
  | .pop _ => .alone
  | .read _ _ => .serving
  | .term _ => .ending

/-- What the io thread is in. -/
def Io.kind : Io → Kind
  | .idle => .free
  | .entering k | .popWait k _ | .timedOut k | .queryEnter k | .queryWait k _ => k.kind
  | .responding _ _ _ => .serving
  | .termSize | .termReach | .joining | .closed => .ending

/-- What an action begins. -/
def Action.kind : Action → Kind
  | .pop _ => .alone
  | .read _ => .serving
  | .term => .ending
  | _ => .free

/-- The documents in the answers so far. -/
def Log.delivered (l : Log) : List BSONObj := l.responses.flatMap fun r => carried r.2

/-- The feed of a state. -/
def feed (s : State) : Feed (List Document) (Option OID) BSONObj BSONObj where
  contents := s.coll
  position := s.broker.lastDocId
  flight := s.reader.flight s.broker.jsonDocCache
  held := s.reader.held
  queue := s.broker.queue.queue
  taken := s.io.taken
  exiting := s.broker.doExit
  rewound := s.log.rewound
  popped := s.log.popped
  delivered := s.log.delivered
  stored := s.log.stored
  issued := s.log.issued

/-! ## What stays as opened -/

/-- The fields that only `init`, `open` and `close` write. -/
structure Config where
  conditions : BSONObj
  fields : BSONObj
  hasFields : Bool
  limit : Int
  skip : Int
  readRetry : Int
  connected : Bool

/-- The configuration of a broker. -/
def config (b : Broker) : Config :=
  ⟨b.conditions, b.fields, b.hasFields, b.limit, b.skip, b.readRetry, b.connected⟩

/-- The broker is configured as `b`, or the session is closed. -/
def Configured (b : Broker) (s : State) : Prop :=
  config s.broker = config b ∨ s.io = .closed ∧ s.reader = .exited

/-- The moves that an action can be. -/
def Allows (M : Mongo) (s : State) (a : Action) : Move → Prop
  | .lose => ∃ conn docs ret,
      s.io = .responding conn docs ret ∧ docs ≠ [] ∧ ¬Sendable M docs ∧ a = .io
  | .rewind => a = .rewind
  | .change => ∃ d, a = .insert d
  | .take => s.io.kind = .alone ∨ s.io.kind = .ending
  | .exit => a = .term
  | .close => s.io.kind = .ending
  | .store => s.reader = .fetched ∧ a = .reader
  | _ => True

/-! ## Every step is a move -/

/-- A step of the session is a move of its feed. -/
structure IsMove (M : Mongo) (b : Broker) (s : State) (a : Action) (t : State) : Prop where
  configured : Configured b t
  kind : t.io.kind = .free ∨ t.io.kind = s.io.kind ∨ t.io.kind = a.kind
  moves : ∃ m, Feed.Step (source M b) none (feed s) m (feed t) ∧ Allows M s a m

variable {M : Mongo} {b : Broker}

/-- A step that leaves the feed as it is. -/
theorem IsMove.of_feed_eq {s t : State} {a : Action} (hc : config t.broker = config b)
    (hio : t.io = s.io) (h : feed t = feed s) : IsMove M b s a t := by
  refine ⟨Or.inl hc, Or.inr (Or.inl (by rw [hio])), .quiet, ?_, trivial⟩
  rw [h]
  exact .quiet _

/-- A step that only moves the threads on, with the documents they have. -/
theorem IsMove.of_threads {s : State} {r : Reader} {p : Io} {a : Action}
    (hc : config s.broker = config b) (hheld : r.held = s.reader.held)
    (hflight : r.flight s.broker.jsonDocCache = s.reader.flight s.broker.jsonDocCache)
    (htaken : p.taken = s.io.taken)
    (hkind : p.kind = .free ∨ p.kind = s.io.kind ∨ p.kind = a.kind) :
    IsMove M b s a { s with reader := r, io := p } := by
  refine ⟨Or.inl hc, hkind, .quiet, ?_, trivial⟩
  have hfeed : feed { s with reader := r, io := p } = feed s := by
    simp only [feed, hheld, hflight, htaken]
  rw [hfeed]
  exact .quiet _

/-- A step that only moves the read thread on, with the documents it has. -/
theorem IsMove.of_reader {s : State} {r : Reader} {a : Action}
    (hc : config s.broker = config b) (hheld : r.held = s.reader.held)
    (hflight : r.flight s.broker.jsonDocCache = s.reader.flight s.broker.jsonDocCache) :
    IsMove M b s a { s with reader := r } :=
  IsMove.of_threads hc hheld hflight rfl (Or.inr (Or.inl rfl))

/-- A step that only moves the io thread on, with the documents it has. -/
theorem IsMove.of_io {s : State} {p : Io} {a : Action} (hc : config s.broker = config b)
    (htaken : p.taken = s.io.taken)
    (hkind : p.kind = .free ∨ p.kind = s.io.kind ∨ p.kind = a.kind) :
    IsMove M b s a { s with io := p } :=
  IsMove.of_threads hc rfl rfl htaken hkind

/-- The read thread gives up what it holds, at exit. -/
theorem IsMove.of_drop {s : State} {a : Action} (hc : config s.broker = config b)
    (hexit : s.broker.doExit = true)
    (hflight : s.reader.flight s.broker.jsonDocCache = .idle) :
    IsMove M b s a { s with reader := .loop } := by
  refine ⟨Or.inl hc, Or.inr (Or.inl rfl), .drop, ?_, trivial⟩
  have hfeed : feed { s with reader := .loop } = { feed s with held := [] } := by
    simp only [feed, hflight]
    rfl
  rw [hfeed]
  exact .drop (feed s) hexit

@[simp] theorem held_notify (r : Reader) : r.notify.held = r.held := by cases r <;> rfl

@[simp] theorem flight_notify (cache : List BSONObj) (r : Reader) :
    r.notify.flight cache = r.flight cache := by
  cases r <;> rfl

@[simp] theorem taken_notify (p : Io) : p.notify.taken = p.taken := by cases p <;> rfl

@[simp] theorem taken_notifyQuery (p : Io) : p.notifyQuery.taken = p.taken := by cases p <;> rfl

@[simp] theorem kind_notify (p : Io) : p.notify.kind = p.kind := by cases p <;> rfl

@[simp] theorem kind_notifyQuery (p : Io) : p.notifyQuery.kind = p.kind := by cases p <;> rfl

/-- The conditions a query is sent with. -/
theorem ask_source {c : Broker} (hc : config c = config b) :
    (source M b).ask c.lastDocId = c.prepareCondition := by
  have hconditions : c.conditions = b.conditions := congrArg Config.conditions hc
  show Broker.prepareCondition { b with lastDocId := c.lastDocId } = c.prepareCondition
  unfold Broker.prepareCondition
  rw [hconditions]

/-- The page the database answers with. -/
theorem find_source {c : Broker} (hc : config c = config b) (coll : List Document)
    (conditions : BSONObj) :
    (source M b).find coll conditions =
      M.find coll conditions .asc c.limit c.skip c.queryFields := by
  have hfields : c.fields = b.fields := congrArg Config.fields hc
  have hhasFields : c.hasFields = b.hasFields := congrArg Config.hasFields hc
  have hlimit : c.limit = b.limit := congrArg Config.limit hc
  have hskip : c.skip = b.skip := congrArg Config.skip hc
  show M.find coll conditions .asc b.limit b.skip b.queryFields = _
  rw [hlimit, hskip, Broker.queryFields, Broker.queryFields, hfields, hhasFields]

/-- Only a query whose skip is not negative ends well: the server refuses any other, and the object it
returns has no `_id`. -/
theorem skip_nonneg_of_advance {coll : List Document} {conditions : BSONObj} {k k' : Option OID}
    (hk : (source M b).advance k ((source M b).find coll conditions) = some k') : 0 ≤ b.skip := by
  by_contra hneg
  obtain ⟨refusal, hfind, hid⟩ := M.find_of_neg coll conditions .asc b.limit b.skip b.queryFields
    (not_le.mp hneg)
  simp only [source, hfind, List.getLast?_singleton, hid, Option.map_none] at hk
  cases hk

/-- A `queryStore` that ends well moves the position to the last document of the cache. -/
theorem advance_of_queryStore {c c' : Broker} (h : c.queryStore = (c', none)) :
    (source M b).advance c.lastDocId c.jsonDocCache = some c'.lastDocId := by
  unfold Broker.queryStore at h
  show (match c.jsonDocCache.getLast? with
    | none => some c.lastDocId
    | some doc => (BSON.objectID doc).map some) = _
  rcases hlast : c.jsonDocCache.getLast? with _ | doc
  · rw [hlast] at h
    cases h
    rfl
  · rw [hlast] at h
    simp only at h
    rcases hid : BSON.objectID doc with _ | id
    · simp [hid] at h
    · rw [hid] at h
      cases h
      simp only [hid]
      rfl

/-- The critical section of a push that does not wait. -/
theorem push_isMove {s : State} {a : Action} {docs : List BSONObj}
    (hc : config s.broker = config b) (hheld : s.reader.held = docs)
    (hflight : s.reader.flight s.broker.jsonDocCache = .idle) : IsMove M b s a (s.push docs) := by
  refine ⟨Or.inl hc, Or.inr (Or.inl (kind_notify s.io)), .push, ?_, trivial⟩
  have hmoved := SizedQueue.queue_fill_append s.broker.queue docs
  have hstep : Feed.Step (source M b) none (feed s) .push
      { feed s with
        queue := (s.broker.queue.fill docs).1.queue, held := (s.broker.queue.fill docs).2 } := by
    apply Feed.Step.push
    show _ = s.broker.queue.queue ++ s.reader.held.reverse
    rw [hheld]
    exact hmoved
  have hfeed : feed (s.push docs) = { feed s with
      queue := (s.broker.queue.fill docs).1.queue, held := (s.broker.queue.fill docs).2 } := by
    simp only [feed, State.push, taken_notify, hflight]
    rfl
  rw [hfeed]
  exact hstep

/-- A query goes out, with the conditions for the position reached. -/
theorem startQuery_isMove {s : State} {a : Action} (hc : config s.broker = config b)
    (hr : s.reader = .starting) : IsMove M b s a s.startQuery := by
  refine ⟨Or.inl hc, Or.inr (Or.inl rfl), .ask, ?_, trivial⟩
  have hstep : Feed.Step (source M b) none (feed s) .ask _ := .ask (feed s) (by
    simp [feed, hr, Reader.flight])
  have hfeed : feed s.startQuery = { feed s with
      flight := .asked s.broker.prepareCondition, rewound := false
      issued := s.log.issued ++ [(s.log.rewound, s.broker.prepareCondition)] } := by
    simp only [feed, State.startQuery, hr]
    rfl
  rw [hfeed, ← ask_source hc]
  exact hstep

/-- The database answers. -/
theorem fetchQuery_isMove {s : State} {a : Action} {conditions : BSONObj}
    (hc : config s.broker = config b) (hr : s.reader = .querying conditions) :
    IsMove M b s a (s.fetchQuery M conditions) := by
  refine ⟨Or.inl hc, Or.inr (Or.inl rfl), .fetch, ?_, trivial⟩
  have hstep : Feed.Step (source M b) none (feed s) .fetch _ := .fetch (feed s) conditions (by
    simp [feed, hr, Reader.flight])
  have hfeed : feed (s.fetchQuery M conditions) = { feed s with
      flight := .got ((source M b).find s.coll conditions) } := by
    rw [find_source hc]
    simp only [feed, State.fetchQuery, hr]
    rfl
  rw [hfeed]
  exact hstep

/-- The last part of a query. -/
theorem stored_isMove {s : State} {c : Broker} (hc : config s.broker = config b)
    (hr : s.reader = .fetched) (hstore : s.broker.queryStore = (c, none)) :
    IsMove M b s .reader (s.stored c) := by
  have hc' := eq_of_queryStore hstore
  have hcache : c.jsonDocCache = s.broker.jsonDocCache := by rw [hc']
  have hqueue : c.queue = s.broker.queue := by rw [hc']
  have hexit : c.doExit = s.broker.doExit := by rw [hc']
  have hconfig : config c = config s.broker := by rw [hc']; rfl
  refine ⟨Or.inl (hconfig.trans hc), Or.inr (Or.inl (kind_notifyQuery s.io)), .store, ?_, hr, rfl⟩
  have hstep : Feed.Step (source M b) none (feed s) .store
      { feed s with
        flight := .idle, held := s.broker.jsonDocCache, position := c.lastDocId
        stored := s.log.stored ++ [s.broker.jsonDocCache] } := by
    apply Feed.Step.store
    · simp [feed, hr, Reader.flight]
    · simp [feed, hr, Reader.held]
    · exact advance_of_queryStore hstore
  have hfeed : feed (s.stored c) =
      { feed s with
        flight := .idle, held := s.broker.jsonDocCache, position := c.lastDocId
        stored := s.log.stored ++ [s.broker.jsonDocCache] } := by
    simp only [feed, State.stored, Reader.flight, Reader.held, taken_notifyQuery, hcache, hqueue,
      hexit]
    rfl
  rw [hfeed]
  exact hstep

/-- **The read thread's steps are moves.** -/
theorem readerStep_isMove {s t : State} (hc : config s.broker = config b)
    (h : ReaderStep M s t) : IsMove M b s .reader t := by
  cases h with
  | turn hr =>
      split_ifs
      · apply IsMove.of_reader hc <;> simp [hr, Reader.held, Reader.flight]
      · apply IsMove.of_reader hc <;> simp [hr, Reader.held, Reader.flight]
  | start hr => exact startQuery_isMove hc hr
  | fetch conditions hr => exact fetchQuery_isMove hc hr
  | store c hr hstore => exact stored_isMove hc hr hstore
  | fail e hr hstore => exact IsMove.of_feed_eq hc rfl rfl
  | branch docs hr =>
      unfold State.branch
      split_ifs with hdocs
      · rw [List.isEmpty_iff] at hdocs
        apply IsMove.of_feed_eq
        · exact hc
        · rfl
        · simp only [feed, hr, hdocs]
          rfl
      · apply IsMove.of_feed_eq
        · exact hc
        · rfl
        · simp only [feed, hr]
          rfl
  | test docs hr =>
      split_ifs with hend
      · rcases docs with _ | ⟨d, docs⟩
        · apply IsMove.of_reader hc <;> simp [hr, Reader.held, Reader.flight]
        · apply IsMove.of_drop hc
          · simpa using hend
          · rw [hr]
            rfl
      · apply IsMove.of_reader hc <;> simp [hr, Reader.held, Reader.flight]
  | wait docs hr hfull =>
      apply IsMove.of_threads hc <;> simp [hr, Reader.held, Reader.flight]
  | push docs hr =>
      rcases hr with ⟨hr, -⟩ | hr
      · apply push_isMove hc
        · rw [hr]
          rfl
        · rw [hr]
          rfl
      · apply push_isMove hc
        · rw [hr]
          rfl
        · rw [hr]
          rfl
  | giveUp docs hr =>
      split_ifs with hexit
      · apply IsMove.of_drop hc hexit
        rw [hr]
        rfl
      · apply IsMove.of_reader hc <;> simp [hr, Reader.held, Reader.flight]
  | rise hr => apply IsMove.of_reader hc <;> simp [hr, Reader.held, Reader.flight]

/-! ## The io thread's steps -/

@[simp] theorem taken_ofRead (conn : Nat) (r : BatchStep) : (Io.ofRead conn r).taken = r.docs := by
  cases r <;> rfl

@[simp] theorem taken_ofTerm (r : BatchStep) : (Io.ofTerm r).taken = [] := by cases r <;> rfl

@[simp] theorem kind_ofRead (conn : Nat) (r : BatchStep) : (Io.ofRead conn r).kind = .serving := by
  cases r <;> rfl

@[simp] theorem kind_ofTerm (r : BatchStep) : (Io.ofTerm r).kind = .ending := by cases r <;> rfl

/-- A pop that throws leaves what was collected. -/
@[simp] theorem taken_onThrow (k : Call) : k.onThrow.taken = k.taken := by cases k <;> rfl

/-- The handler of `batch_pop` leaves what was collected. -/
@[simp] theorem taken_onTimeout (b : Broker) (k : Call) : (k.onTimeout b).taken = k.taken := by
  cases k with
  | pop seconds => rfl
  | read conn f => exact (taken_ofRead conn _).trans (docs_onTimeout b f)
  | term f => exact taken_ofTerm _

/-- A call goes on as what it is part of, or ends. -/
theorem kind_onItem (d : BSONObj) (k : Call) :
    (k.onItem d).kind = .free ∨ (k.onItem d).kind = k.kind := by
  cases k with
  | pop seconds => exact Or.inl rfl
  | read conn f => exact Or.inr (kind_ofRead conn _)
  | term f => exact Or.inr (kind_ofTerm _)

/-- A timeout keeps the kind of a call, or ends it. -/
theorem kind_onThrow (k : Call) : k.onThrow.kind = .free ∨ k.onThrow.kind = k.kind := by
  cases k with
  | pop seconds => exact Or.inl rfl
  | _ => exact Or.inr rfl

/-- The handler of a timeout keeps the kind of a call, or ends it. -/
theorem kind_onTimeout (b : Broker) (k : Call) :
    (k.onTimeout b).kind = .free ∨ (k.onTimeout b).kind = k.kind := by
  cases k with
  | pop seconds => exact Or.inl rfl
  | read conn f => exact Or.inr (kind_ofRead conn _)
  | term f => exact Or.inr (kind_ofTerm _)

/-- The io thread is in the call `k`. -/
structure Io.InCall (p : Io) (k : Call) : Prop where
  taken : p.taken = k.taken
  kind : p.kind = k.kind

/-- A call is under way in front of its pop. -/
theorem inCall_entering (k : Call) : (Io.entering k).InCall k := ⟨rfl, rfl⟩
/-- A call is under way in the wait of its pop. -/
theorem inCall_popWait (k : Call) (w : Wait) : (Io.popWait k w).InCall k := ⟨rfl, rfl⟩
/-- A call is under way in its handler. -/
theorem inCall_timedOut (k : Call) : (Io.timedOut k).InCall k := ⟨rfl, rfl⟩
/-- A call is under way in front of the wait on `m_con_query`. -/
theorem inCall_queryEnter (k : Call) : (Io.queryEnter k).InCall k := ⟨rfl, rfl⟩
/-- A call is under way in the wait on `m_con_query`. -/
theorem inCall_queryWait (k : Call) (w : Wait) : (Io.queryWait k w).InCall k := ⟨rfl, rfl⟩

/-- The io thread goes from one point of a call to another, or ends it, with what was
collected. -/
theorem IsMove.of_inCall {s : State} {p : Io} {k : Call} {a : Action} (hc : config s.broker = config b)
    (hk : s.io.InCall k) (htaken : p.taken = k.taken) (hkind : p.kind = .free ∨ p.kind = k.kind) :
    IsMove M b s a { s with io := p } := by
  apply IsMove.of_io hc (htaken.trans hk.taken.symm)
  rw [hk.kind]
  exact hkind.imp id Or.inl

/-- `pop` takes the front of the queue: for the READ request under way, or for nobody. -/
theorem popped_isMove {s : State} {a : Action} {k : Call} {d : BSONObj} {rest : List BSONObj}
    (hc : config s.broker = config b) (hk : s.io.InCall k) (hqueue : s.broker.queue.queue = d :: rest) :
    IsMove M b s a (s.popped k d rest) := by
  have hc' : Configured b (s.popped k d rest) := Or.inl hc
  have hkind : (k.onItem d).kind = .free ∨ (k.onItem d).kind = s.io.kind ∨
      (k.onItem d).kind = a.kind := by
    rw [hk.kind]
    exact (kind_onItem d k).imp id Or.inl
  have hfeed : feed (s.popped k d rest) = { feed s with
      queue := rest, popped := s.log.popped ++ [d], taken := (k.onItem d).taken } := by
    simp only [feed, State.popped, held_notify, flight_notify]
    rfl
  -- a pop for nobody
  have htake : (k.onItem d).taken = [] → k.taken = [] → k.kind = .alone ∨ k.kind = .ending →
      IsMove M b s a (s.popped k d rest) := by
    intro hitem hnone hnobody
    refine ⟨hc', hkind, .take, ?_, ?_⟩
    · rw [hfeed, hitem.trans (hk.taken.trans hnone).symm]
      exact .take (feed s) d rest hqueue
    · show s.io.kind = .alone ∨ s.io.kind = .ending
      rw [hk.kind]
      exact hnobody
  cases k with
  | pop seconds => exact htake rfl rfl (Or.inl rfl)
  | term f => exact htake (taken_ofTerm _) rfl (Or.inr rfl)
  | read conn f =>
      refine ⟨hc', hkind, .collect, ?_, trivial⟩
      have hitem : (Call.onItem d (.read conn f)).taken = s.io.taken ++ [d] := by
        rw [hk.taken]
        simp [Call.onItem, Call.taken]
      rw [hfeed, hitem]
      exact .collect (feed s) d rest hqueue

/-- The bookkeeping of an answer: what it carries is delivered, and nothing stays collected. -/
theorem feed_respond (s : State) (conn : Nat) (docs : List BSONObj) (ret : Option Nat) :
    feed (s.respond M conn docs ret) =
      { feed s with
        delivered := s.log.delivered ++ carriedBy (readResponse M docs ret), taken := [] } := by
  unfold State.respond
  rcases hbody : readResponse M docs ret with e | body
  · simp only [feed, carriedBy, List.append_nil]
    rfl
  · simp only [feed, Log.delivered, carriedBy, List.flatMap_append, List.flatMap_cons,
      List.flatMap_nil, List.append_nil]
    rfl

/-- An answer changes neither the broker nor what the read thread has. -/
theorem respond_frame (s : State) (conn : Nat) (docs : List BSONObj) (ret : Option Nat) :
    (s.respond M conn docs ret).broker = s.broker ∧
      (s.respond M conn docs ret).reader = s.reader ∧ (s.respond M conn docs ret).io = .idle := by
  unfold State.respond
  split <;> exact ⟨rfl, rfl, rfl⟩

/-- The answer to a READ delivers what was collected, or loses it. -/
theorem respond_isMove {s : State} {conn : Nat} {docs : List BSONObj} {ret : Option Nat}
    (hc : config s.broker = config b) (hio : s.io = .responding conn docs ret) :
    IsMove M b s .io (s.respond M conn docs ret) := by
  have htaken : s.io.taken = docs := by rw [hio]; rfl
  obtain ⟨hbroker, hreader, hidle⟩ := respond_frame (M := M) s conn docs ret
  have hc' : Configured b (s.respond M conn docs ret) := by
    refine Or.inl ?_
    rw [hbroker]
    exact hc
  have hkind : (s.respond M conn docs ret).io.kind = .free := by rw [hidle]; rfl
  have hcarried := carried_readResponse (M := M) docs ret
  have hfeed := feed_respond (M := M) s conn docs ret
  have hdeliver : carriedBy (readResponse M docs ret) = docs →
      IsMove M b s .io (s.respond M conn docs ret) := by
    intro h
    refine ⟨hc', Or.inl hkind, .deliver, ?_, trivial⟩
    rw [hfeed, h, ← htaken]
    exact .deliver (feed s)
  by_cases hsend : Sendable M docs
  · exact hdeliver (hcarried.1 hsend)
  · rcases eq_or_ne docs [] with hnil | hne
    · exact hdeliver ((hcarried.2 hsend).trans hnil.symm)
    · refine ⟨hc', Or.inl hkind, .lose, ?_, conn, docs, ret, hio, hne, hsend, rfl⟩
      rw [hfeed, hcarried.2 hsend, List.append_nil]
      exact .lose (feed s)

/-- The end of `term`: the read thread has ended, and the broker is reset. -/
theorem close_isMove {s : State} {a : Action} (hexited : s.reader = .exited)
    (hio : s.io = .joining) :
    IsMove M b s a { s with broker := s.broker.close, io := .closed } := by
  have hkind : s.io.kind = .ending := by rw [hio]; rfl
  refine ⟨Or.inr ⟨rfl, hexited⟩, Or.inr (Or.inl hkind.symm), .close, ?_, hkind⟩
  have hfeed : feed { s with broker := s.broker.close, io := .closed } =
      { feed s with position := none, exiting := false } := by
    simp only [feed, hio]
    rfl
  rw [hfeed]
  exact .close (feed s)

/-- `term` goes on, with nothing collected. -/
theorem term_isMove {s : State} {p : Io} {a : Action} (hc : config s.broker = config b)
    (hio : s.io = .termSize ∨ s.io = .termReach) (htaken : p.taken = [])
    (hkind : p.kind = .ending) : IsMove M b s a { s with io := p } := by
  rcases hio with hio | hio
  · apply IsMove.of_io hc
    · rw [htaken, hio]
      rfl
    · rw [hkind, hio]
      exact Or.inr (Or.inl rfl)
  · apply IsMove.of_io hc
    · rw [htaken, hio]
      rfl
    · rw [hkind, hio]
      exact Or.inr (Or.inl rfl)

/-- **The io thread's steps are moves.** -/
theorem ioStep_isMove {s t : State} (hc : config s.broker = config b) (h : IoStep M s t) :
    IsMove M b s .io t := by
  cases h with
  | refuse k e hio he =>
      have hk : s.io.InCall k := by rw [hio]; exact inCall_entering k
      exact IsMove.of_inCall hc hk (taken_onThrow k) (kind_onThrow k)
  | wait k hio hqueue =>
      have hk : s.io.InCall k := by rw [hio]; exact inCall_entering k
      apply IsMove.of_threads hc (held_notify _) (flight_notify _ _)
      · exact hk.taken.symm
      · exact Or.inr (Or.inl hk.kind.symm)
  | pop k d rest hio hqueue =>
      have hk : s.io.InCall k := by
        rcases hio with hio | hio
        · rw [hio]
          exact inCall_entering k
        · rw [hio]
          exact inCall_popWait k _
      exact popped_isMove hc hk hqueue
  | fault e hio => exact IsMove.of_feed_eq hc rfl rfl
  | timeOut k hio =>
      have hk : s.io.InCall k := by rw [hio]; exact inCall_popWait k _
      exact IsMove.of_inCall hc hk (taken_onThrow k) (kind_onThrow k)
  | handle k hio =>
      have hk : s.io.InCall k := by rw [hio]; exact inCall_timedOut k
      split_ifs
      · exact IsMove.of_inCall hc hk rfl (Or.inr rfl)
      · exact IsMove.of_inCall hc hk (taken_onTimeout _ k) (kind_onTimeout _ k)
  | queryEnter k hio =>
      have hk : s.io.InCall k := by rw [hio]; exact inCall_queryEnter k
      exact IsMove.of_inCall hc hk rfl (Or.inr rfl)
  | queryLeave k hio =>
      have hk : s.io.InCall k := by rw [hio]; exact inCall_queryWait k _
      exact IsMove.of_inCall hc hk (taken_onTimeout _ k) (kind_onTimeout _ k)
  | respond conn docs ret hio => exact respond_isMove hc hio
  | reach hio hqueue => exact term_isMove hc (Or.inl hio) rfl rfl
  | join hio hreach => exact term_isMove hc (Or.inr hio) rfl rfl
  | last f hio hf => exact term_isMove hc (hio.imp And.left And.left) rfl rfl
  | close hio hr => exact close_isMove hr hio

/-! ## Requests, deadlines and the collection -/

/-- A request is taken between two calls, with nothing collected. -/
theorem taken_of_idle {s : State} (hio : s.io = .idle) : s.io.taken = [] := by rw [hio]; rfl

/-- A READ starts with nothing collected. -/
theorem startRead_isMove {s : State} {conn : Nat} (hc : config s.broker = config b) (hio : s.io = .idle) :
    IsMove M b s (.read conn) (s.startRead conn) := by
  unfold State.startRead
  split_ifs
  · rcases hstart : BatchPop.start s.broker (toSizeT s.broker.limit) with e | f
    · exact IsMove.of_feed_eq hc rfl rfl
    · have hdocs : f.docs = [] := docs_start hstart
      apply IsMove.of_io hc
      · exact hdocs.trans (taken_of_idle hio).symm
      · exact Or.inr (Or.inr rfl)
  · exact IsMove.of_feed_eq hc rfl rfl

/-- A REWIND starts the logs again. -/
theorem rewind_isMove {s : State} (hc : config s.broker = config b) (hio : s.io = .idle) :
    IsMove M b s .rewind s.rewind := by
  unfold State.rewind
  split_ifs
  · exact ⟨Or.inl hc, Or.inr (Or.inl rfl), .rewind, .rewind (feed s) (taken_of_idle hio), rfl⟩
  · exact IsMove.of_feed_eq hc rfl rfl

/-- `term` sets the exit flag. -/
theorem startTerm_isMove {s : State} (hc : config s.broker = config b) (hio : s.io = .idle) :
    IsMove M b s .term s.startTerm := by
  have htaken := taken_of_idle hio
  unfold State.startTerm
  split_ifs
  · refine ⟨Or.inl hc, Or.inr (Or.inr rfl), .exit, ?_, rfl⟩
    have hfeed : feed { s with broker := { s.broker with doExit := true }, io := .termSize } =
        { feed s with exiting := true } := by
      simp only [feed, htaken]
      rfl
    rw [hfeed]
    exact .exit (feed s)
  · exact IsMove.of_io hc htaken.symm (Or.inr (Or.inr rfl))

/-- In a closed session only the collection changes. -/
theorem eq_insert_of_closed {seconds : Nat} {s t : State} {a : Action} (hio : s.io = .closed)
    (hreader : s.reader = .exited) (h : Effect M seconds s a t) :
    ∃ d, a = .insert d ∧ t = { s with coll := s.coll ++ [d] } := by
  cases h with
  | reader t h => cases h <;> simp_all
  | io t h => cases h <;> simp_all
  | insert d hd => exact ⟨d, rfl, rfl⟩
  | _ => simp_all

/-- **Every step of a session is a move of its feed.** -/
theorem step_isMove {seconds : Nat} {s t : State} {a : Action} (hb : Configured b s)
    (h : step M seconds s a = some t) : IsMove M b s a t := by
  rcases hb with hc | ⟨hclosed, hexited⟩
  · cases step_effect h with
    | reader t h => exact readerStep_isMove hc h
    | io t h => exact ioStep_isMove hc h
    | readerExpire docs hr hseconds =>
        apply IsMove.of_reader hc <;> simp [hr, Reader.held, Reader.flight]
    | readerWake docs hr =>
        apply IsMove.of_reader hc <;> simp [hr, Reader.held, Reader.flight]
    | ioExpire k hio hseconds =>
        have hk : s.io.InCall k := by rw [hio]; exact inCall_popWait k _
        exact IsMove.of_inCall hc hk rfl (Or.inr rfl)
    | popWake k hio =>
        have hk : s.io.InCall k := by rw [hio]; exact inCall_popWait k _
        exact IsMove.of_inCall hc hk rfl (Or.inr rfl)
    | queryWake k hio =>
        have hk : s.io.InCall k := by rw [hio]; exact inCall_queryWait k _
        exact IsMove.of_inCall hc hk rfl (Or.inr rfl)
    | read conn hio => exact startRead_isMove hc hio
    | pop seconds hio =>
        apply IsMove.of_io hc
        · exact (taken_of_idle hio).symm
        · exact Or.inr (Or.inr rfl)
    | rewind hio => exact rewind_isMove hc hio
    | term hio => exact startTerm_isMove hc hio
    | insert d hd => exact ⟨Or.inl hc, Or.inr (Or.inl rfl), .change, .change (feed s) _, d, rfl⟩
  · obtain ⟨d, rfl, rfl⟩ := eq_insert_of_closed hclosed hexited (step_effect h)
    exact ⟨Or.inr ⟨hclosed, hexited⟩, Or.inr (Or.inl rfl), .change, .change (feed s) _, d, rfl⟩

/-! ## Sessions that are not terminated -/

/-- The session opened as `b` has not been terminated. -/
structure Live (b : Broker) (s : State) : Prop where
  configured : config s.broker = config b
  kind : s.io.kind ≠ .ending
  exiting : (feed s).exiting = false

/-- It is so when the session has been opened. -/
theorem live_opened {connect : String → Option String} {options : BSONObj}
    (hopen : Broker.new.openOn connect (some options) = (b, none)) (coll : List Document) :
    Live b (State.opened coll b) :=
  ⟨rfl, by simp [State.opened, Io.kind], (Broker.fresh_of_openOn hopen).doExit⟩

/-- It is so when the session has been opened. -/
theorem conserves_opened {connect : String → Option String} {options : BSONObj}
    (hopen : Broker.new.openOn connect (some options) = (b, none)) (coll : List Document) :
    (feed (State.opened coll b)).Conserves := by
  show [] ++ b.queue.queue ++ [] = []
  rw [(Broker.fresh_of_openOn hopen).queue]
  rfl

/-- Only `term` ends a session. -/
theorem eq_term_of_kind {a : Action} (h : a.kind = .ending) : a = .term := by
  cases a <;> first | rfl | cases h

/-- Only a pop stands alone. -/
theorem eq_pop_of_kind {a : Action} (h : a.kind = .alone) : ∃ seconds, a = .pop seconds := by
  cases a with
  | pop seconds => exact ⟨seconds, rfl⟩
  | _ => cases h

/-- A step of a live session that does not terminate it is a move that neither drops nor
closes. -/
theorem Live.step {seconds : Nat} {s t : State} {a : Action} (h : Live b s)
    (hstep : step M seconds s a = some t) (hterm : a ≠ .term) :
    Live b t ∧ (t.io.kind = .free ∨ t.io.kind = s.io.kind ∨ t.io.kind = a.kind) ∧
      ∃ m, Feed.Step (source M b) none (feed s) m (feed t) ∧ Allows M s a m ∧
        m ≠ .close ∧ m ≠ .drop := by
  obtain ⟨hconfigured, hkind, m, hmove, hallows⟩ := step_isMove (Or.inl h.configured) hstep
  have hexit : m ≠ .exit := by
    rintro rfl
    exact hterm hallows
  have hclose : m ≠ .close := by
    rintro rfl
    exact h.kind hallows
  obtain ⟨hexiting, hdrop⟩ := hmove.exiting hexit h.exiting
  have hlive : t.io.kind ≠ .ending := by
    intro hending
    rw [hending] at hkind
    rcases hkind with hfree | hs | ha
    · cases hfree
    · exact h.kind hs.symm
    · exact hterm (eq_term_of_kind ha.symm)
  have hopen : config t.broker = config b := by
    rcases hconfigured with hc | ⟨hclosed, -⟩
    · exact hc
    · rw [hclosed] at hlive
      exact absurd rfl hlive
  exact ⟨⟨hopen, hlive, hexiting⟩, hkind, m, hmove, hallows, hclose, hdrop⟩

/-! ## Sessions that serve READ requests -/

/-- If the step is the answer to a READ, its documents are none or can be sent. -/
def Answered (M : Mongo) (s : State) (a : Action) : Prop :=
  ∀ conn docs ret, s.io = .responding conn docs ret → a = .io → docs = [] ∨ Sendable M docs

/-- A step that is not one of the io thread answers nothing. -/
theorem answered_of_ne_io {seconds : Nat} {s : State} {as : List Action}
    (h : ∀ a ∈ as, a ≠ .io) : Guarded (step M seconds) (Answered M) s as := by
  apply Guarded.mono (step M seconds) _ (guarded_of_forall_mem (step M seconds) h)
  intro s a hne conn docs ret _ ha
  exact absurd ha hne

/-- Every document that left the queue left it for a READ request, and is in its answer or
collected for it. -/
structure Serving (b : Broker) (s : State) : Prop where
  live : Live b s
  kind : s.io.kind ≠ .alone
  delivers : (feed s).Delivers

/-- It is so when the session has been opened. -/
theorem serving_opened {connect : String → Option String} {options : BSONObj}
    (hopen : Broker.new.openOn connect (some options) = (b, none)) (coll : List Document) :
    Serving b (State.opened coll b) :=
  ⟨live_opened hopen coll, by simp [State.opened, Io.kind], rfl⟩

/-- A step that answers no READ without its documents, and pops for nobody. -/
theorem Serving.step {seconds : Nat} {s t : State} {a : Action} (h : Serving b s)
    (hstep : step M seconds s a = some t) (hterm : a ≠ .term) (hpop : ∀ n, a ≠ .pop n)
    (hanswered : Answered M s a) :
    Serving b t ∧ ∃ m, Feed.Step (source M b) none (feed s) m (feed t) ∧ Allows M s a m ∧
      m ≠ .close ∧ m ≠ .drop := by
  obtain ⟨hlive, hkind, m, hmove, hallows, hclose, hdrop⟩ := h.live.step hstep hterm
  have hserving : t.io.kind ≠ .alone := by
    intro halone
    rw [halone] at hkind
    rcases hkind with hfree | hs | ha
    · cases hfree
    · exact h.kind hs.symm
    · obtain ⟨n, rfl⟩ := eq_pop_of_kind ha.symm
      exact hpop n rfl
  have hlose : m ≠ .lose := by
    rintro rfl
    obtain ⟨conn, docs, ret, hio, hne, hsend, ha⟩ := hallows
    rcases hanswered conn docs ret hio ha with hnil | hs
    · exact hne hnil
    · exact hsend hs
  have htake : m ≠ .take := by
    rintro rfl
    rcases hallows with halone | hending
    · exact h.kind halone
    · exact h.live.kind hending
  exact ⟨⟨hlive, hserving, hmove.delivers htake hlose h.delivers⟩, m, hmove, hallows, hclose,
    hdrop⟩

end Zbroker.ReadSession
