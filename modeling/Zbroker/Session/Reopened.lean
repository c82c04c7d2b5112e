import Zbroker.Session.Operations

/-!
# A broker that is opened again

`close` is `reset()`, which leaves the queue, the cache and what `init` read from the options; `init`
and `open` set these again, apart from the cache. A query clears the cache before it fills it, so
nobody reads what is left in it.

* `Broker.withCache docs` — the broker with these documents in its cache.
* `close_openOn` — what `open` leaves of a closed broker is what it leaves of a new one, with the
  old cache.
* `alike_advance` — a thread that is not about to read the cache goes the same way whatever is in it.
* **`reopened_like_new`**: every schedule of operations after `close` and `open` goes as on a new
  broker, and shows the same.

The proof runs the two brokers in lockstep. They differ in the cache alone (`SameButCache`), and each step
goes the same way on both: the beginning of an operation (`alike_call`), and each of its further steps
(`alike_advance`, one case for each position).
-/

namespace Zbroker

open Found.Transition Found.Shared

namespace Broker

/-- The broker with these documents in `m_json_doc_cache`. -/
def withCache (docs : List BSONObj) (b : Broker) : Broker := { b with jsonDocCache := docs }

/-- `init` of a closed broker, once the options are read: only what `init` sets again and the cache
are not those of a new broker. -/
theorem settle_readOptions_close (b : Broker) (options : BSONObj) :
    (b.close.readOptions options).settle =
      { (new.readOptions options).settle with
        jsonDocCache := b.jsonDocCache, connectionString := b.connectionString } :=
  rfl

/-- **A closed broker is opened like a new one**, and has the same fields then, apart from the
cache. -/
theorem close_openOn {connect : String → Option String} {options : BSONObj} {b r : Broker}
    (h : b.close.openOn connect (some options) = (r, none)) :
    ∃ f, new.openOn connect (some options) = (f, none) ∧ r = f.withCache b.jsonDocCache := by
  obtain ⟨r, hinit, hfits, hconnect, rfl⟩ := openOn_eq_ok h
  have hcheck : (b.close.readOptions options).checkOptions =
      (new.readOptions options).checkOptions := rfl
  have hnew := @init_of_not_inited new rfl options
  rw [init_of_not_inited rfl, hcheck, settle_readOptions_close] at hinit
  rcases hok : (new.readOptions options).checkOptions with _ | e
  · rw [hok] at hinit hnew
    cases hinit
    exact ⟨_, openOn_of_connect hnew hfits hconnect, rfl⟩
  · rw [hok] at hinit
    cases hinit

end Broker

namespace Operations

/-- The thread is not about to read the cache. -/
def Position.Apart : Position → Prop
  | .fetched _ | .returned _ => False
  | _ => True

/-- The brokers are the same but for the cache. -/
def SameButCache (b c : Broker) : Prop := ∃ docs, c = b.withCache docs

variable {M : Mongo} {out : Outside} {docs : List BSONObj} {b : Broker}

/-- `init` leaves the cache alone. -/
theorem init_withCache (b : Broker) (options : Option BSONObj) :
    (b.withCache docs).init options = ((b.init options).1.withCache docs, (b.init options).2) := by
  unfold Broker.init
  show (if b.inited then _ else if b.options.isEmpty && options.isNone then _ else _) = _
  split_ifs
  · rfl
  · rfl
  · rcases hok : (b.readOptions (options.getD b.options)).checkOptions with _ | e
    · have hok' : ((b.withCache docs).readOptions
          (options.getD (b.withCache docs).options)).checkOptions = none := hok
      simp only [hok, hok']
      rfl
    · have hok' : ((b.withCache docs).readOptions
          (options.getD (b.withCache docs).options)).checkOptions = some e := hok
      simp only [hok, hok']
      rfl

/-- `open` leaves the cache alone. -/
theorem openOn_withCache (connect : String → Option String) (b : Broker) (options : Option BSONObj) :
    (b.withCache docs).openOn connect options =
      ((b.openOn connect options).1.withCache docs, (b.openOn connect options).2) := by
  have hinit := @init_withCache docs b options
  rcases h : b.init options with ⟨r, _ | e⟩
  · rw [h] at hinit
    have htext : (r.withCache docs).connectionText = r.connectionText := rfl
    have hfits' : (r.withCache docs).connectionTextFits = r.connectionTextFits := rfl
    cases hfits : r.connectionTextFits with
    | false =>
        rw [Broker.openOn_of_not_fits h hfits, Broker.openOn_of_not_fits hinit (hfits'.trans hfits)]
    | true =>
        rcases hconnect : connect r.connectionText with _ | errmsg
        · rw [Broker.openOn_of_connect h hfits hconnect,
            Broker.openOn_of_connect hinit (hfits'.trans hfits) (htext ▸ hconnect)]
          rfl
        · rw [Broker.openOn_of_connect_error h hfits hconnect,
            Broker.openOn_of_connect_error hinit (hfits'.trans hfits) (htext ▸ hconnect)]
          rfl
  · rw [h] at hinit
    rw [Broker.openOn_of_init_error h, Broker.openOn_of_init_error hinit]

/-! ### The parts of a step -/

/-- Two ways to go on that differ in the cache only, which the thread is not about to read. -/
abbrev AlikeNext : Next → Next → Prop := Alike SameButCache Position.Apart

/-- A step that leaves the cache alone. -/
theorem alike_withCache {n : Next} (h : n.1.Apart) :
    AlikeNext n (n.1, n.2.1.withCache docs, n.2.2) :=
  ⟨rfl, rfl, Or.inr ⟨⟨docs, rfl⟩, h⟩⟩

/-- Going on is alike, whatever is in the cache. -/
theorem alike_goOn {p : Position} (hp : p.Apart) : AlikeNext (goOn b p) (goOn (b.withCache docs) p) :=
  alike_withCache hp

/-- A result is alike. -/
theorem alike_finish (result : Except Exn Result) :
    AlikeNext (finish b result) (finish (b.withCache docs) result) :=
  alike_withCache trivial

/-- An exception is alike. -/
theorem alike_abort (e : Exn) : AlikeNext (abort b e) (abort (b.withCache docs) e) :=
  alike_withCache trivial

/-- A choice between steps that are alike. -/
theorem alike_ite {c : Prop} [Decidable c] {n n' m m' : Next} (hn : AlikeNext n n')
    (hm : AlikeNext m m') : AlikeNext (if c then n else m) (if c then n' else m') := by
  split_ifs
  · exact hn
  · exact hm

/-- The end of `open` is alike. -/
theorem alike_opened (q : Broker × Option Exn) :
    AlikeNext (opened q) (opened (q.1.withCache docs, q.2)) := by
  obtain ⟨b, _ | e⟩ := q
  · exact alike_finish _
  · cases e with
    | broker msg => exact alike_finish _
    | literal msg => exact alike_abort _
    | assertion expr => exact alike_abort _
    | badAlloc => exact alike_abort _
    | errorCode => exact alike_abort _
    | driver => exact alike_abort _
    | outOfBounds access => exact alike_abort _

/-- No operation begins with reading the cache. -/
theorem apart_start (op : Op) : op.start.Apart := by
  cases op <;> trivial

/-- What goes on after `check_status`. -/
theorem alike_checkStatus (k : Exn → Broker → Next) (n : Broker → Next)
    (hk : ∀ e, AlikeNext (k e b) (k e (b.withCache docs)))
    (hn : AlikeNext (n b) (n (b.withCache docs))) :
    AlikeNext (match b.checkStatus with | some e => k e b | none => n b)
      (match (b.withCache docs).checkStatus with
        | some e => k e (b.withCache docs)
        | none => n (b.withCache docs)) := by
  have hcheck : (b.withCache docs).checkStatus = b.checkStatus := rfl
  rw [hcheck]
  rcases b.checkStatus with _ | e
  · exact hn
  · exact hk e

/-- **Every operation begins the same way**, whatever is in the cache. -/
theorem alike_call (op : Op) : AlikeNext (call out b op) (call out (b.withCache docs) op) := by
  cases op with
  | openOp options =>
      unfold call
      dsimp only
      rw [openOn_withCache]
      exact alike_opened _
  | close => exact alike_withCache trivial
  | query sort => exact alike_goOn (apart_start _)
  | read seconds => exact alike_goOn (apart_start _)
  | update => exact alike_goOn (apart_start _)
  | push ds =>
      exact alike_checkStatus (fun e b => finish b (.error e)) (fun b => goOn b (.pushEnter .push ds))
        (fun e => alike_finish _) (alike_goOn trivial)
  | pop seconds => exact alike_goOn (apart_start _)
  | batchPop batchSize =>
      have hbatch : BatchPop.start (b.withCache docs) batchSize = BatchPop.start b batchSize := rfl
      unfold call
      dsimp only
      rw [hbatch]
      rcases BatchPop.start b batchSize with e | f
      · exact alike_abort _
      · exact alike_goOn trivial
  | rewind => exact alike_withCache trivial
  | setExit => exact alike_withCache trivial
  | size =>
      exact alike_checkStatus (fun e b => finish b (.error e)) (fun b => goOn b .sizing)
        (fun e => alike_finish _) (alike_goOn trivial)

/-- A database round trip fills the cache, whatever was in it. -/
theorem alike_fetch (k : QueryCall) (sort : MongoSort) (conditions : BSONObj) :
    AlikeNext (fetch M out k sort conditions b) (fetch M out k sort conditions (b.withCache docs)) := by
  unfold fetch
  split_ifs
  · exact alike_finish _
  · exact ⟨rfl, rfl, Or.inl rfl⟩

/-- A push that has room is alike. -/
theorem alike_onRoom (k : PushCall) (ds : List BSONObj) :
    AlikeNext (k.onRoom ds b) (k.onRoom ds (b.withCache docs)) := by
  cases k with
  | push => exact alike_withCache trivial
  | read seconds => exact alike_withCache trivial

/-- A push that has waited for room in vain is alike. -/
theorem alike_onTimeout (k : PushCall) (ds : List BSONObj) :
    AlikeNext (k.onTimeout ds b) (k.onTimeout ds (b.withCache docs)) := by
  cases k with
  | push => exact alike_finish _
  | read seconds => exact alike_goOn trivial

/-- What `batch_pop` does next is alike. -/
theorem alike_batchOn (r : BatchStep) : AlikeNext (batchOn b r) (batchOn (b.withCache docs) r) := by
  cases r with
  | again f => exact alike_goOn trivial
  | done ds ret => exact alike_finish _

/-- What follows a pop that has thrown is alike. -/
theorem alike_onThrow (k : PopCall) (e : Exn) :
    AlikeNext (k.onThrow e b) (k.onThrow e (b.withCache docs)) := by
  cases k with
  | pop seconds => exact alike_finish _
  | batch f => exact alike_goOn trivial
  | update => exact alike_goOn trivial

/-- What follows a pop that has brought a document is alike. -/
theorem alike_onItem (k : PopCall) (d : BSONObj) :
    AlikeNext (k.onItem d b) (k.onItem d (b.withCache docs)) := by
  cases k with
  | pop seconds => exact alike_finish _
  | batch f => exact alike_batchOn _
  | update => exact alike_goOn trivial

/-- A pop is alike. -/
theorem alike_take (k : PopCall) : AlikeNext (k.take b) (k.take (b.withCache docs)) := by
  have hqueue : (b.withCache docs).queue = b.queue := rfl
  unfold PopCall.take
  rw [hqueue]
  rcases b.queue.queue with _ | ⟨d, rest⟩
  · exact alike_abort _
  · exact alike_onItem k d

/-! ### The step -/

/-- **A step of a thread that is not about to read the cache.** -/
theorem alike_advance (p : Position) (hp : p.Apart) :
    Option.Rel AlikeNext (advance M out p b) (advance M out p (b.withCache docs)) := by
  cases p with
  | idle => exact .none
  | aborted => exact .none
  | calling op => exact .some (alike_call op)
  | sizing => exact .some (alike_finish _)
  | starting k sort => exact .some (alike_withCache trivial)
  | preparing k sort => exact .some (alike_goOn trivial)
  | querying k sort conditions => exact .some (alike_fetch k sort conditions)
  | fetched k => exact hp.elim
  | returned k => exact hp.elim
  | loop seconds => exact .some (alike_ite (alike_finish _) (alike_goOn trivial))
  | branching seconds ds =>
      exact .some (alike_ite (alike_withCache trivial) (alike_withCache trivial))
  | pushing seconds ds =>
      refine .some (alike_goOn ?_)
      split_ifs
      · trivial
      · trivial
  | pushTimedOut seconds ds =>
      refine .some (alike_goOn ?_)
      split_ifs
      · trivial
      · trivial
  | sleeping seconds => exact .some (alike_goOn trivial)
  | pushEnter k ds => exact .some (alike_ite (alike_goOn trivial) (alike_onRoom k ds))
  | pushWait k ds =>
      unfold advance
      dsimp only
      split_ifs
      · exact .some (alike_onRoom k ds)
      · exact .some (alike_onTimeout k ds)
      · exact .none
  | popCheck k =>
      exact .some (alike_checkStatus k.onThrow (fun b => goOn b (.popEnter k)) (alike_onThrow k)
        (alike_goOn trivial))
  | popEnter k => exact .some (alike_ite (alike_goOn trivial) (alike_take k))
  | popWait k =>
      unfold advance
      dsimp only
      split_ifs
      · exact .some (alike_take k)
      · exact .some (alike_onThrow k _)
      · exact .none
  | batchTimedOut f => exact .some (alike_ite (alike_goOn trivial) (alike_batchOn _))
  | queryWait f => exact .some (alike_batchOn _)
  | updateTimedOut => exact .some (alike_ite (alike_finish _) (alike_goOn trivial))
  | updating obj =>
      exact .some (alike_ite (alike_finish _) (alike_withCache trivial))

/-- What can be observed: the threads, what they have shown, and the broker but for the cache. -/
structure SameObserved (s t : System) : Prop where
  threads : s.threads = t.threads
  seen : s.seen = t.seen
  broker : s.store.withCache [] = t.store.withCache []

/-- What goes in lockstep looks the same from outside. -/
theorem sameObserved_of_lockstep {s t : System} (h : Lockstep SameButCache Position.Apart s t) :
    SameObserved s t := by
  refine ⟨h.threads, h.seen, ?_⟩
  rcases h.store with hstore | ⟨⟨docs, hstore⟩, -⟩
  · rw [hstore]
  · rw [hstore]
    rfl

/-- **A broker that is opened again is like one that is opened for the first time.** Whatever a
history has made of the broker: when `open` succeeds after `close`, it does on a new broker too, and
every schedule of operations of any number of threads then has the same steps on both, after which
the results, the queries and updates sent and the broker are the same but for the cache. -/
theorem reopened_like_new (M : Mongo) {connect : String → Option String} {options : BSONObj}
    {b r : Broker} (h : b.close.openOn connect (some options) = (r, none)) :
    ∃ f, Broker.new.openOn connect (some options) = (f, none) ∧
      ∀ as, Option.Rel SameObserved (run (step M) (unused f) as)
        (run (step M) (unused r) as) := by
  obtain ⟨f, hopen, rfl⟩ := Broker.close_openOn h
  refine ⟨f, hopen, ?_⟩
  intro as
  have hadvance (out : Outside) (p : Position) (a c : Broker) (hac : SameButCache a c)
      (hp : p.Apart) : Option.Rel AlikeNext (advance M out p a) (advance M out p c) := by
    obtain ⟨docs, rfl⟩ := hac
    exact alike_advance p hp
  have hopened : Lockstep SameButCache Position.Apart (unused f)
      (unused (f.withCache b.jsonDocCache)) :=
    ⟨rfl, rfl, Or.inr ⟨⟨b.jsonDocCache, rfl⟩, fun _ => trivial⟩⟩
  have hrun : Option.Rel (Lockstep SameButCache Position.Apart) (run (step M) (unused f) as)
      (run (step M) (unused (f.withCache b.jsonDocCache)) as) :=
    lockstep_run hadvance apart_start hopened as
  exact rel_mono (fun _ _ => sameObserved_of_lockstep) hrun

/-- A broker that was used up to its exit flag, with documents left in the queue and the cache, and
the position behind them. -/
def usedBroker : Broker :=
  { Broker.sampleBroker 5 1 2 with
    queue := ⟨2, [[("_id", .oid 1)], [("_id", .oid 2)]]⟩, jsonDocCache := [[("_id", .oid 2)]]
    lastDocId := some 2, doExit := true, reachEnd := true, queryCount := 2 }

/-- A broker that was used, closed and opened again. -/
theorem reopened_like_new_sample :
    ∃ f, Broker.new.openOn (fun _ => none) (some (Broker.sampleOptions 0 2 10)) = (f, none) ∧
      ∀ as, Option.Rel SameObserved (run (step Mongo.plain) (unused f) as)
        (run (step Mongo.plain)
          (unused (usedBroker.close.openOn (fun _ => none)
            (some (Broker.sampleOptions 0 2 10))).1) as) :=
  reopened_like_new Mongo.plain (Prod.ext rfl (by decide))

end Operations

end Zbroker
