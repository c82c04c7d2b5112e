import Zbroker.Broker.Pagination
import Zbroker.Session.Stream

/-!
# The order in which documents are popped

A query returns its page in ascending `_id` order; `push(vector<T>&)` moves the page into the
queue from its back.

* `InOrder M b coll s` — the popped documents are in strictly ascending `_id` order, they are
  what the queries returned, in this order, and the queue is empty once the last document of
  the collection is popped.
* `PagesOfOne M b coll` — no query of the session brings two documents.
* `Feeding docs s`, `Feeding.drain` — a state from which a whole page can be popped.
* **`inOrder_iff`**: the documents come in order in every run exactly when no query brings two
  documents. One way is that no document ever arrives: the server refuses a negative skip, and fields
  that drop `_id` end the first query as well.
With two documents in the first page, a run that fills the queue with it and empties it
(`Feeding.drain`) pops them in the wrong order. With pages of one document there is no order to break: what
is stored is the stream (`pairwise_stream`), or nothing at all (`stored_flatten_of_fails`).
-/

namespace Zbroker.ReadSession

open Found Found.Transition

variable {M : Mongo} {b : Broker} {coll : List Document}

/-- The two threads, with one consumer that pops by itself or through READ requests, over an
unchanging collection, without rewinding. -/
def OneConsumer : Action → Prop
  | .rewind | .term | .insert _ => False
  | _ => True

/-- The ids of two documents are in ascending order. -/
def IdLt (x y : BSONObj) : Prop :=
  ∃ i j, BSON.objectID x = some i ∧ BSON.objectID y = some j ∧ i < j

/-- The documents popped so far came in the order the queries returned them, which is ascending;
and once the last document of the collection is popped, the queue is empty. -/
structure InOrder (M : Mongo) (b : Broker) (coll : List Document) (s : State) : Prop where
  ascending : s.log.popped.Pairwise IdLt
  returned : s.log.popped <+: s.log.stored.flatten
  last : ∀ d, (Broker.matching M coll b).getLast? = some d →
    M.view b.queryFields d ∈ s.log.popped → s.broker.queue.queue = []

/-- No query of the session brings two documents: the limit is one, or at most one document is
behind the skipped ones, or the first query fails, because the skip is negative or the fields drop
`_id`. -/
def PagesOfOne (M : Mongo) (b : Broker) (coll : List Document) : Prop :=
  b.limit = 1 ∨ (Broker.matching M coll b).length ≤ b.skip.toNat + 1 ∨ b.skip < 0 ∨
    Mongo.keepsId b.queryFields = false

/-! ## Pages of one document -/

/-- The page of a query that ends well has at most one document. -/
theorem PagesOfOne.length_le (h : PagesOfOne M b coll) (hcoll : (coll.map Document.oid).Nodup)
    (hlimit : 1 ≤ b.limit) {k k' : Option OID}
    (hk : (source M b).advance k ((source M b).find coll ((source M b).ask k)) = some k') :
    ((source M b).find coll ((source M b).ask k)).length ≤ 1 := by
  have hskip := skip_nonneg_of_advance hk
  rw [find_ask hcoll hskip hlimit, List.length_map]
  rcases h with hone | hfew | hneg | hdrop
  · have : b.limit.toNat = 1 := by rw [hone]; rfl
    simp only [Broker.pageAfter, Keyset.page, this]
    exact List.length_take_le _ _
  · have hafter : (Keyset.after Document.oid k (Broker.matching M coll b)).length ≤
        (Broker.matching M coll b).length := List.length_filter_le _ _
    simp only [Broker.pageAfter, Keyset.page, List.length_take, List.length_drop]
    omega
  · omega
  · rcases advance_find hcoll hlimit hk with ⟨hnil, -⟩ | ⟨hid, -⟩
    · rw [hnil]
      exact Nat.zero_le _
    · rw [hdrop] at hid
      cases hid

/-- A page of one document is its own reverse. -/
theorem reverse_of_length_le_one {α : Type} {l : List α} (h : l.length ≤ 1) : l.reverse = l := by
  match l, h with
  | [], _ => rfl
  | [x], _ => rfl

/-- Pages of one document are pushed as they were returned. -/
theorem PagesOfOne.stored (h : PagesOfOne M b coll) (hcoll : (coll.map Document.oid).Nodup)
    (hlimit : 1 ≤ b.limit) {s : State} (hs : Streaming M b coll s) :
    s.log.stored.map List.reverse = s.log.stored := by
  have hpage : ∀ p ∈ s.log.stored, p.reverse = id p := by
    intro p hp
    apply reverse_of_length_le_one
    rcases hs.onStream.pages p hp with rfl | ⟨k, k', rfl, hk⟩
    · exact Nat.zero_le _
    · exact h.length_le hcoll hlimit hk
  rw [List.map_congr_left hpage, List.map_id]

/-- A session with a negative skip, or whose fields drop `_id`, brings nothing. -/
theorem stored_flatten_of_fails (hcoll : (coll.map Document.oid).Nodup) (hlimit : 1 ≤ b.limit)
    (hfails : b.skip < 0 ∨ Mongo.keepsId b.queryFields = false) {s : State}
    (hs : Streaming M b coll s) : s.log.stored.flatten = [] := by
  apply List.flatten_eq_nil_iff.mpr
  intro p hp
  rcases hs.onStream.pages p hp with rfl | ⟨k, k', rfl, hk⟩
  · rfl
  · have hskip := skip_nonneg_of_advance hk
    rcases advance_find hcoll hlimit hk with ⟨hnil, -⟩ | ⟨hkeeps, -⟩
    · rw [find_ask hcoll hskip hlimit, hnil]
      rfl
    · rcases hfails with hneg | hid
      · omega
      · rw [hid] at hkeeps
        cases hkeeps

/-- With pages of one document and their ids, the stream is ascending. -/
theorem pairwise_stream (hcoll : (coll.map Document.oid).Nodup) (hlimit : 1 ≤ b.limit)
    (hid : Mongo.keepsId b.queryFields = true)
    (h : b.limit = 1 ∨ (Broker.matching M coll b).length ≤ b.skip.toNat + 1) :
    (stream M b coll none).Pairwise IdLt := by
  have hlimit' : 1 ≤ b.limit.toNat := by omega
  have hascending := Broker.ascending_matching (M := M) hcoll b
  have hstream : Keyset.Ascending Document.oid
      (Keyset.reversedPages b.skip.toNat b.limit.toNat (Broker.matching M coll b)) :=
    (Keyset.ascending_reversedPages_iff hlimit' hascending).mpr (h.imp (by omega) id)
  rw [stream, Keyset.after_none]
  refine hstream.map _ fun d e hde => ⟨d.oid, e.oid, ?_, ?_, hde⟩
  · rw [M.objectID_view, if_pos hid]
  · rw [M.objectID_view, if_pos hid]

/-- **In order, with pages of one document.** -/
theorem PagesOfOne.inOrder (h : PagesOfOne M b coll) (hcoll : (coll.map Document.oid).Nodup)
    (hlimit : 1 ≤ b.limit) {s : State} (hs : Streaming M b coll s) : InOrder M b coll s := by
  have hconserves : s.log.popped ++ s.broker.queue.queue ++ s.reader.held.reverse =
      s.log.stored.flatten := by
    rw [← h.stored hcoll hlimit hs]
    exact hs.conserves
  have hreturned : s.log.popped <+: s.log.stored.flatten := by
    rw [← hconserves, List.append_assoc]
    exact List.prefix_append _ _
  by_cases hfails : b.skip < 0 ∨ Mongo.keepsId b.queryFields = false
  swap
  · have hfew : b.limit = 1 ∨ (Broker.matching M coll b).length ≤ b.skip.toNat + 1 := by
      rcases h with h | h | h
      · exact Or.inl h
      · exact Or.inr h
      · exact absurd h hfails
    have hid : Mongo.keepsId b.queryFields = true := by
      simpa using (not_or.mp hfails).2
    have hpairwise := pairwise_stream hcoll hlimit hid hfew
    refine ⟨hpairwise.sublist hs.popped_isPrefix.sublist, hreturned, ?_⟩
    intro d hd hpopped
    -- whatever is behind the greatest document in the stream would be greater
    by_contra hne
    obtain ⟨y, hy⟩ := List.exists_mem_of_ne_nil _ hne
    have hall := Feed.popped_append hs.onStream hs.conserves
    rw [List.append_assoc, List.append_assoc] at hall
    rw [← hall] at hpairwise
    obtain ⟨i, j, hi, hj, hij⟩ := (List.pairwise_append.mp hpairwise).2.2 _ hpopped y
      (List.mem_append_left _ hy)
    have hmem : y ∈ stream M b coll none := by
      rw [← hall]
      exact List.mem_append_right _ (List.mem_append_left _ hy)
    rw [stream, Keyset.after_none] at hmem
    obtain ⟨e, he, rfl⟩ := List.mem_map.mp hmem
    rw [M.objectID_view, if_pos hid] at hi hj
    cases hi
    cases hj
    obtain ⟨init, hinit⟩ := List.getLast?_eq_some_iff.mp hd
    have hascending := Broker.ascending_matching (M := M) hcoll b
    have hmatching := Keyset.reversedPages_subset _ _ _ he
    rw [hinit] at hascending hmatching
    rcases List.mem_append.mp hmatching with hin | hin
    · exact lt_asymm hij ((List.pairwise_append.mp hascending).2.2 e hin d List.mem_cons_self)
    · rw [List.mem_singleton] at hin
      subst hin
      exact lt_irrefl _ hij
  · have hnone := stored_flatten_of_fails hcoll hlimit hfails hs
    rw [hnone, List.append_assoc] at hconserves
    have hpopped : s.log.popped = [] := (List.append_eq_nil_iff.mp hconserves).1
    refine ⟨?_, hreturned, ?_⟩
    · rw [hpopped]
      exact List.Pairwise.nil
    · rw [hpopped]
      intro d _ hd
      cases hd

/-! ## A page can be popped -/

/-- Between two pops, the read thread at its push loop with `docs`. -/
structure Feeding (docs : List BSONObj) (s : State) : Prop where
  fault : s.fault = none
  io : s.io = .idle
  checkStatus : s.broker.checkStatus = none
  doExit : s.broker.doExit = false
  limitSize : 1 ≤ s.broker.queue.limitSize
  reader : s.reader = .pushing docs

variable {seconds : Nat}

/-- The document at the front can be popped. -/
theorem Feeding.pop {docs : List BSONObj} {s : State} (h : Feeding docs s) {d : BSONObj}
    {rest : List BSONObj} (hqueue : s.broker.queue.queue = d :: rest) :
    ∃ t, run (step M seconds) s [.pop 0, .io] = some t ∧ Feeding docs t ∧
      t.broker.queue.queue = rest ∧ t.log.popped = s.log.popped ++ [d] := by
  have hcheck := h.checkStatus
  refine ⟨({ s with io := .entering (.pop 0) } : State).popped (.pop 0) d rest, ?_,
    ⟨h.fault, rfl, hcheck, h.doExit, h.limitSize, ?_⟩, rfl, rfl⟩
  · simp [run_cons, step, h.fault, h.io, State.ioStep, State.enterPop, hcheck, hqueue]
  · show s.reader.notify = .pushing docs
    rw [h.reader]
    rfl

/-- With an empty queue the read thread can push. -/
theorem Feeding.push {docs : List BSONObj} {s : State} (h : Feeding docs s) (hdocs : docs ≠ [])
    (hqueue : s.broker.queue.queue = []) :
    ∃ t rest, run (step M seconds) s [.reader, .reader] = some t ∧ Feeding rest t ∧
      rest.length < docs.length ∧
      t.broker.queue.queue ++ rest.reverse = docs.reverse ∧ t.log.popped = s.log.popped := by
  have hfull : s.broker.queue.isFull = false := by
    have := h.limitSize
    simp [SizedQueue.isFull, hqueue]
    omega
  refine ⟨({ s with reader := .entering docs } : State).push docs,
    (s.broker.queue.fill docs).2, ?_, ⟨h.fault, ?_, h.checkStatus, h.doExit, ?_, rfl⟩,
    SizedQueue.length_fill_lt hfull hdocs, ?_, rfl⟩
  · simp [run_cons, step, h.fault, h.reader, h.doExit, State.readerStep, hfull, hdocs]
  · show s.io.notify = .idle
    rw [h.io]
    rfl
  · show 1 ≤ (s.broker.queue.fill docs).1.limitSize
    rw [SizedQueue.limitSize_fill]
    exact h.limitSize
  · have hmoved := SizedQueue.queue_fill_append s.broker.queue docs
    rw [hqueue] at hmoved
    exact hmoved

/-- What it says of the page that the read thread holds. -/
theorem Feeding.held {docs : List BSONObj} {s : State} (h : Feeding docs s) :
    s.reader.held = docs := by
  rw [h.reader]
  rfl

/-- Some documents of the page are pushed, or one of the queue is popped. -/
theorem Feeding.progress {docs all : List BSONObj} {s : State} (h : Feeding docs s)
    (hall : s.log.popped ++ s.broker.queue.queue ++ docs.reverse = all) :
    (s.broker.queue.queue = [] ∧ s.reader.held = []) ∨
      ∃ as t, (∀ a ∈ as, OneConsumer a) ∧ run (step M seconds) s as = some t ∧
        (∃ docs', Feeding docs' t ∧
          t.log.popped ++ t.broker.queue.queue ++ docs'.reverse = all) ∧
        2 * t.reader.held.length + t.broker.queue.queue.length <
          2 * s.reader.held.length + s.broker.queue.queue.length := by
  rw [h.held]
  rcases hqueue : s.broker.queue.queue with _ | ⟨d, rest⟩
  · rw [hqueue] at hall
    rcases eq_or_ne docs [] with rfl | hdocs
    · exact Or.inl ⟨rfl, rfl⟩
    · obtain ⟨t, docs', ht, hfeeding, hlt, hmoved, hpopped⟩ := h.push hdocs hqueue
      refine Or.inr ⟨[.reader, .reader], t, by simp [OneConsumer], ht, ⟨docs', hfeeding, ?_⟩, ?_⟩
      · rw [hpopped, List.append_assoc, hmoved, ← hall, List.append_nil]
      · have hlen := congrArg List.length hmoved
        simp only [List.length_append, List.length_reverse] at hlen
        rw [hfeeding.held, List.length_nil]
        omega
  · rw [hqueue] at hall
    obtain ⟨t, ht, hfeeding, hrest, hpopped⟩ := h.pop hqueue
    refine Or.inr ⟨[.pop 0, .io], t, by simp [OneConsumer], ht, ⟨docs, hfeeding, ?_⟩, ?_⟩
    · rw [hpopped, hrest, ← hall]
      simp
    · rw [hfeeding.held, hrest, List.length_cons]
      omega

/-- **The queue and the page can be popped**, the page from its back. -/
theorem Feeding.drain {docs : List BSONObj} {s : State} (h : Feeding docs s) (seconds : Nat) :
    ∃ as t, (∀ a ∈ as, OneConsumer a) ∧ run (step M seconds) s as = some t ∧
      t.log.popped = s.log.popped ++ s.broker.queue.queue ++ docs.reverse := by
  -- a push turns documents of the vector into documents of the queue, a pop takes one of those
  obtain ⟨as, t, has, ht, ⟨docs', hfeeding, hall⟩, hqueue, hheld⟩ :=
    @exists_run_of_progress _ _ (step M seconds) OneConsumer
      (fun t => ∃ docs', Feeding docs' t ∧ t.log.popped ++ t.broker.queue.queue ++ docs'.reverse =
        s.log.popped ++ s.broker.queue.queue ++ docs.reverse)
      (fun t => t.broker.queue.queue = [] ∧ t.reader.held = [])
      (fun t => 2 * t.reader.held.length + t.broker.queue.queue.length)
      (fun t ht => by
        obtain ⟨docs', hfeeding, hall⟩ := ht
        exact hfeeding.progress hall)
      s ⟨docs, h, rfl⟩
  refine ⟨as, t, has, ht, ?_⟩
  rw [hfeeding.held] at hheld
  rw [← hall, hqueue, hheld]
  simp

/-- After its first query the read thread is at its push loop with the first page. -/
theorem feeding_opened (seconds : Nat) (hcoll : (coll.map Document.oid).Nodup)
    (hskip : 0 ≤ b.skip) (hlimit : 1 ≤ b.limit)
    (hroom : 1 ≤ b.queue.limitSize) (hfresh : b.Fresh) (hid : Mongo.keepsId b.queryFields = true)
    {d : Document} (hlast : (Broker.pageAfter M coll none b).getLast? = some d) :
    ∃ t, run (step M seconds) (State.opened coll b) (List.replicate 5 .reader) = some t ∧
      Feeding ((Broker.pageAfter M coll none b).map (M.view b.queryFields)) t ∧
      t.log.popped = [] ∧ t.broker.queue.queue = [] := by
  have hquery := Broker.query_of_keepsId hcoll hskip hlimit (hfresh.lastDocId ▸ hlast) hid
  rw [hfresh.lastDocId, Broker.query] at hquery
  have hdocs : Broker.pageAfter M coll none b ≠ [] := by
    intro hnil
    rw [hnil] at hlast
    cases hlast
  have hchecked : b.checkStatus = none := by
    simp [Broker.checkStatus, hfresh.inited, hfresh.connected]
  -- the loop, the start, the round trip and the end of the query, and the branch to the push loop
  refine ⟨⟨coll, { b.queried ((Broker.pageAfter M coll none b).map (M.view b.queryFields))
      (some d.oid) with reachEnd := false },
    .pushing ((Broker.pageAfter M coll none b).map (M.view b.queryFields)), .idle, none,
    ⟨[], [], [(Broker.pageAfter M coll none b).map (M.view b.queryFields)], false,
      [(false, b.prepareCondition)]⟩⟩, ?_,
    ⟨rfl, rfl, hchecked, hfresh.doExit, hroom, rfl⟩, rfl, hfresh.queue⟩
  simp [run_cons, List.replicate, State.opened, step, State.readerStep, hfresh.doExit,
    State.startQuery, State.fetchQuery, State.storeQuery, hquery, State.branch, hdocs,
    Io.notifyQuery]

/-- A page of two documents is popped in descending order. -/
theorem not_inOrder_of_two {x y : Document} (rest : List Document) {s : State}
    (hid : Mongo.keepsId b.queryFields = true)
    (hascending : Keyset.Ascending Document.oid (x :: y :: rest))
    (hpopped : s.log.popped = ((x :: y :: rest).map (M.view b.queryFields)).reverse) :
    ¬InOrder M b coll s := by
  intro h
  have hdescending := h.ascending
  rw [hpopped, List.pairwise_reverse] at hdescending
  obtain ⟨i, j, hi, hj, hij⟩ := (List.pairwise_cons.mp hdescending).1 _ List.mem_cons_self
  rw [M.objectID_view, if_pos hid] at hi hj
  cases hi
  cases hj
  exact lt_asymm hij ((List.pairwise_cons.mp hascending).1 _ List.mem_cons_self)

/-- **The read order.** In every run of a session with one consumer the documents come in the
order of the queries, exactly when no query brings two of them. -/
theorem inOrder_iff (M : Mongo) (seconds : Nat) (coll : List Document)
    (hcoll : (coll.map Document.oid).Nodup) (connect : String → Option String)
    (options : BSONObj) (b : Broker) (hopen : Broker.new.openOn connect (some options) = (b, none))
    (hlimit : 1 ≤ b.limit) (hroom : 1 ≤ b.queue.limitSize) :
    (∀ as, (∀ a ∈ as, OneConsumer a) → ∀ t,
        run (step M seconds) (State.opened coll b) as = some t → InOrder M b coll t) ↔
      PagesOfOne M b coll := by
  constructor
  · intro horder
    by_contra hpages
    obtain ⟨hone, hmany, hneg, hdrop⟩ : b.limit ≠ 1 ∧
        ¬(Broker.matching M coll b).length ≤ b.skip.toNat + 1 ∧ ¬b.skip < 0 ∧
          Mongo.keepsId b.queryFields ≠ false := by
      simpa only [PagesOfOne, not_or] using hpages
    have hid : Mongo.keepsId b.queryFields = true := by simpa using hdrop
    have hfresh := Broker.fresh_of_openOn hopen
    -- the first page has two documents at least
    have hlength : 2 ≤ (Broker.pageAfter M coll none b).length := by
      simp only [Broker.pageAfter, Keyset.page, Keyset.after_none, List.length_take,
        List.length_drop]
      omega
    obtain ⟨x, y, rest, hpage⟩ : ∃ x y rest, Broker.pageAfter M coll none b = x :: y :: rest := by
      rcases hcons : Broker.pageAfter M coll none b with _ | ⟨x, _ | ⟨y, rest⟩⟩
      · simp [hcons] at hlength
      · simp [hcons] at hlength
      · exact ⟨x, y, rest, rfl⟩
    obtain ⟨d, hd⟩ : ∃ d, (Broker.pageAfter M coll none b).getLast? = some d :=
      Option.isSome_iff_exists.mp (by simp [hpage])
    have hascending : Keyset.Ascending Document.oid (Broker.pageAfter M coll none b) :=
      ((Broker.ascending_matching hcoll b).after none).page _ _
    obtain ⟨s, hs, hfeeding, hnothing, hempty⟩ :=
      feeding_opened seconds hcoll (not_lt.mp hneg) hlimit hroom hfresh hid hd
    obtain ⟨as, t, has, ht, hpopped⟩ := hfeeding.drain (M := M) seconds
    rw [hnothing, hempty, hpage] at hpopped
    rw [hpage] at hascending
    refine not_inOrder_of_two rest hid hascending hpopped (horder (List.replicate 5 .reader ++ as) ?_ t ?_)
    · intro a ha
      rcases List.mem_append.mp ha with hreader | hrest
      · rw [List.eq_of_mem_replicate hreader]
        trivial
      · exact has a hrest
    · rw [run_append, hs]
      exact ht
  · intro hpages as has t ht
    have hstep : ∀ s a t, Streaming M b coll s → OneConsumer a → step M seconds s a = some t →
        Streaming M b coll t := by
      intro s a t hs ha hst
      have hterm : a ≠ .term := by
        rintro rfl
        exact ha
      have hinsert : ∀ d, a ≠ .insert d := by
        rintro d rfl
        exact ha
      have hrewind : a = .rewind → Drained M b s := by
        rintro rfl
        exact absurd ha id
      exact (hs.step hcoll hlimit hst hterm hinsert hrewind).1
    have hstreaming : Streaming M b coll t :=
      run_invariant hstep (streaming_opened hopen coll)
        (guarded_of_forall_mem (step M seconds) has) ht
    exact hpages.inOrder hcoll hlimit hstreaming

/-- With a limit of one, a pop of the first document. -/
theorem inOrder_iff_sample : ∃ t,
    run (step Mongo.plain 0)
        (State.opened [sampleDocument 1, sampleDocument 2] (Broker.sampleBroker 0 1 10))
        (fillQueue ++ [.pop 0, .io]) = some t ∧
      t.log.popped = [(sampleDocument 1).toBSON] ∧
      InOrder Mongo.plain (Broker.sampleBroker 0 1 10) [sampleDocument 1, sampleDocument 2] t := by
  have horder := (inOrder_iff Mongo.plain 0 [sampleDocument 1, sampleDocument 2] (by decide)
    (fun _ => none) (Broker.sampleOptions 0 1 10) (Broker.sampleBroker 0 1 10) (by decide)
    (by decide) (by decide)).mpr (Or.inl (by decide))
  refine ⟨_, rfl, rfl, horder (fillQueue ++ [.pop 0, .io]) ?_ _ rfl⟩
  simp [fillQueue, OneConsumer]

/-- With a limit of two, the documents 1 and 2 are popped as 2 and 1. -/
theorem not_inOrder_sample :
    Broker.new.openOn (fun _ => none) (some (Broker.sampleOptions 0 2 10)) =
        (Broker.sampleBroker 0 2 10, none) ∧
      ∃ t, run (step Mongo.plain 0)
          (State.opened [sampleDocument 1, sampleDocument 2] (Broker.sampleBroker 0 2 10))
          (fillQueue ++ [.pop 0, .io, .pop 0, .io]) = some t ∧
        t.log.popped = [(sampleDocument 2).toBSON, (sampleDocument 1).toBSON] ∧
        ¬InOrder Mongo.plain (Broker.sampleBroker 0 2 10)
          [sampleDocument 1, sampleDocument 2] t := by
  refine ⟨by decide, _, rfl, rfl, ?_⟩
  exact not_inOrder_of_two (x := sampleDocument 1) (y := sampleDocument 2) [] (by decide)
    (by unfold Keyset.Ascending; decide) rfl

end Zbroker.ReadSession
