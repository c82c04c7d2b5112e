import Zbroker.Processor.DoRead
import Zbroker.Session.Stream

/-!
# Exactly-once delivery

READ requests against the read thread, while documents with greater ids are added to the
collection.

* `Covers M b f` — the stored pages put together are the matching documents up to the position,
  and the page in flight is what the position will move over.
* `ExactlyOnce M b s` — the documents in the answers, those collected by the request under way,
  those in the queue and those the read thread holds are, each once, the matching documents up
  to the position.
* **`exactlyOnce_iff`**: along a run, this holds in every state exactly when every READ is
  answered with documents that can be sent. The other READs drop what they popped.
`Delivering` is kept by every step that is answered, and gives the statement in each state; the step that
answers a READ with documents it cannot send breaks it for good (`not_exactlyOnce_respond`).
-/

namespace Zbroker.ReadSession

open Found Found.Transition

variable {M : Mongo} {b : Broker}

/-! ## What the position covers -/

/-- The matching documents up to a position, as the queries return them. -/
def viewedUpTo (M : Mongo) (b : Broker) (coll : List Document) (k : Option OID) : List BSONObj :=
  (Keyset.upTo Document.oid k (Broker.matching M coll b)).map (M.view b.queryFields)

/-- The stored pages are the matching documents up to the position, and the page in flight is
what a position made from it would add. -/
structure Covers (M : Mongo) (b : Broker)
    (f : Feed (List Document) (Option OID) BSONObj BSONObj) : Prop where
  nodup : (f.contents.map Document.oid).Nodup
  position : ∀ i, f.position = some i → i ∈ f.contents.map Document.oid
  asked : ∀ q, f.flight = .asked q → q = (source M b).ask f.position
  got : ∀ page k, f.flight = .got page → (source M b).advance f.position page = some k →
    (∀ i, k = some i → i ∈ f.contents.map Document.oid) ∧
      viewedUpTo M b f.contents k = viewedUpTo M b f.contents f.position ++ page
  stored : f.stored.flatten = viewedUpTo M b f.contents f.position

/-- What a query from a position brings is what its new position adds. -/
theorem viewedUpTo_advance {coll : List Document} (hcoll : (coll.map Document.oid).Nodup)
    (hskip : b.skip = 0) (hlimit : 1 ≤ b.limit) {position k : Option OID}
    (hposition : ∀ i, position = some i → i ∈ coll.map Document.oid)
    (hk : (source M b).advance position
      ((source M b).find coll ((source M b).ask position)) = some k) :
    (∀ i, k = some i → i ∈ coll.map Document.oid) ∧
      viewedUpTo M b coll k = viewedUpTo M b coll position ++
        (source M b).find coll ((source M b).ask position) := by
  rcases advance_find hcoll hlimit hk with ⟨hnil, rfl⟩ | ⟨-, d, hlast, rfl⟩
  · rw [find_ask hcoll hskip.ge hlimit, hnil]
    exact ⟨hposition, by simp⟩
  · have hd : d ∈ Broker.pageAfter M coll position b := List.mem_of_getLast? hlast
    have hmem : d ∈ coll := by
      have hmatching := (Keyset.mem_after.mp (Keyset.page_subset _ _ _ hd)).1
      exact (List.mem_filter.mp ((Keyset.mem_sortBy _).mp hmatching)).1
    refine ⟨?_, ?_⟩
    · intro i hi
      cases hi
      exact List.mem_map_of_mem hmem
    · have hskip' : b.skip.toNat = 0 := by rw [hskip]; rfl
      rw [find_ask hcoll hskip.ge hlimit]
      rw [Broker.pageAfter, hskip'] at hlast ⊢
      have hadd := Keyset.upTo_lastKey (Broker.ascending_matching hcoll b) hlast
      rw [viewedUpTo, hadd, List.map_append]
      rfl

/-- A document with an id behind all others is behind every position of the collection. -/
theorem viewedUpTo_insert {coll : List Document} {d : Document}
    (hcoll : (coll.map Document.oid).Nodup) (hd : ∀ e ∈ coll, e.oid < d.oid) {k : Option OID}
    (hk : ∀ i, k = some i → i ∈ coll.map Document.oid) :
    viewedUpTo M b (coll ++ [d]) k = viewedUpTo M b coll k := by
  have hbehind : ∀ y ∈ [d], Keyset.Behind k (Document.oid y) := by
    intro y hy
    rw [List.mem_singleton] at hy
    subst hy
    cases k with
    | none => exact Keyset.behind_none _
    | some i =>
        obtain ⟨e, he, rfl⟩ := List.mem_map.mp (hk i rfl)
        exact hd e he
  have hsub : ((coll.filter (M.satisfies b.conditions)).map Document.oid).Nodup :=
    hcoll.sublist (List.filter_sublist.map _)
  unfold viewedUpTo Broker.matching
  rw [List.filter_append]
  by_cases hsat : M.satisfies b.conditions d
  · have hlast : ∀ y ∈ coll.filter (M.satisfies b.conditions), y.oid < d.oid :=
      fun y hy => hd y (List.mem_filter.mp hy).1
    rw [List.filter_cons_of_pos hsat, List.filter_nil,
      Keyset.sortBy_append_of_forall_lt hsub hlast, Keyset.upTo_append_of_behind hbehind]
  · rw [List.filter_cons_of_neg hsat, List.filter_nil, List.append_nil]

/-- **The position stays the bound of what was stored**, as long as nothing rewinds and the
collection grows behind its end only. -/
theorem Covers.step {f g : Feed (List Document) (Option OID) BSONObj BSONObj} {m : Move}
    (hskip : b.skip = 0) (hlimit : 1 ≤ b.limit) (hmove : Feed.Step (source M b) none f m g)
    (hrewind : m ≠ .rewind) (hclose : m ≠ .close)
    (hchange : m = .change → ∃ d, g.contents = f.contents ++ [d] ∧ ∀ e ∈ f.contents, e.oid < d.oid)
    (hf : Covers M b f) : Covers M b g := by
  cases hmove with
  | ask hidle =>
      refine ⟨hf.nodup, hf.position, ?_, ?_, hf.stored⟩
      · intro q hq
        cases hq
        rfl
      · intro page k hpage
        cases hpage
  | fetch q hq =>
      have hask := hf.asked q hq
      subst hask
      refine ⟨hf.nodup, hf.position, ?_, ?_, hf.stored⟩
      · intro q hq
        cases hq
      · intro page k hpage hk
        cases hpage
        exact viewedUpTo_advance hf.nodup hskip hlimit hf.position hk
  | store page k hpage hheld hk =>
      obtain ⟨hmem, hadd⟩ := hf.got page k hpage hk
      refine ⟨hf.nodup, hmem, ?_, ?_, ?_⟩
      · intro q hq
        cases hq
      · intro page k hpage
        cases hpage
      · show (f.stored ++ [page]).flatten = viewedUpTo M b f.contents k
        rw [hadd, ← hf.stored]
        simp
  | change contents =>
      obtain ⟨d, hcontents, hd⟩ := hchange rfl
      replace hcontents : contents = f.contents ++ [d] := hcontents
      subst hcontents
      have hkeep : ∀ {k : Option OID}, (∀ i, k = some i → i ∈ f.contents.map Document.oid) →
          ∀ i, k = some i → i ∈ (f.contents ++ [d]).map Document.oid := by
        intro k hk i hi
        rw [List.map_append]
        exact List.mem_append_left _ (hk i hi)
      have hnodup : ((f.contents ++ [d]).map Document.oid).Nodup := by
        rw [List.map_append, List.nodup_append]
        refine ⟨hf.nodup, List.nodup_singleton _, ?_⟩
        intro i hi j hj hij
        obtain ⟨e, he, rfl⟩ := List.mem_map.mp hi
        rw [List.map_singleton, List.mem_singleton] at hj
        exact absurd (hij.trans hj) (hd e he).ne
      refine ⟨hnodup, hkeep hf.position, hf.asked, ?_, ?_⟩
      · intro page k hpage hk
        obtain ⟨hmem, hadd⟩ := hf.got page k hpage hk
        refine ⟨hkeep hmem, ?_⟩
        show viewedUpTo M b (f.contents ++ [d]) k =
          viewedUpTo M b (f.contents ++ [d]) f.position ++ page
        rw [viewedUpTo_insert hf.nodup hd hmem, viewedUpTo_insert hf.nodup hd hf.position, hadd]
      · show f.stored.flatten = viewedUpTo M b (f.contents ++ [d]) f.position
        rw [viewedUpTo_insert hf.nodup hd hf.position, hf.stored]
  | rewind htaken => exact absurd rfl hrewind
  | close => exact absurd rfl hclose
  | quiet => exact hf
  | push queue held hmoved => exact ⟨hf.nodup, hf.position, hf.asked, hf.got, hf.stored⟩
  | drop hexit => exact ⟨hf.nodup, hf.position, hf.asked, hf.got, hf.stored⟩
  | take d queue hq => exact ⟨hf.nodup, hf.position, hf.asked, hf.got, hf.stored⟩
  | collect d queue hq => exact ⟨hf.nodup, hf.position, hf.asked, hf.got, hf.stored⟩
  | deliver => exact ⟨hf.nodup, hf.position, hf.asked, hf.got, hf.stored⟩
  | lose => exact ⟨hf.nodup, hf.position, hf.asked, hf.got, hf.stored⟩
  | exit => exact ⟨hf.nodup, hf.position, hf.asked, hf.got, hf.stored⟩

/-! ## Exactly once -/

/-- The documents in the answers, those the request under way has collected, those in the queue
and those the read thread holds are the matching documents up to `m_last_doc_id`, each once. -/
def ExactlyOnce (M : Mongo) (b : Broker) (s : State) : Prop :=
  (s.log.delivered ++ s.io.taken ++ s.broker.queue.queue ++ s.reader.held).Perm
    (viewedUpTo M b s.coll s.broker.lastDocId)

/-- READ requests against the read thread, and documents added behind the end. -/
def ReadsOnly (s : State) : Action → Prop
  | .rewind | .term | .pop _ => False
  | .insert d => ∀ e ∈ s.coll, e.oid < d.oid
  | _ => True

/-- What every state of a run of READs satisfies as long as nothing was lost. -/
structure Delivering (M : Mongo) (b : Broker) (s : State) : Prop where
  serving : Serving b s
  conserves : (feed s).Conserves
  covers : Covers M b (feed s)

/-- What it says of the delivered documents. -/
theorem Delivering.exactlyOnce {s : State} (h : Delivering M b s) : ExactlyOnce M b s := by
  have hpopped : s.log.delivered ++ s.io.taken = s.log.popped := h.serving.delivers
  have hstored : s.log.stored.flatten = viewedUpTo M b s.coll s.broker.lastDocId := h.covers.stored
  have hconserves : s.log.popped ++ s.broker.queue.queue ++ s.reader.held.reverse =
      (s.log.stored.map List.reverse).flatten := h.conserves
  have hpages := SizedQueue.flatten_map_reverse_perm s.log.stored
  unfold ExactlyOnce
  rw [hpopped, ← hstored]
  calc (s.log.popped ++ s.broker.queue.queue ++ s.reader.held).Perm
        (s.log.popped ++ s.broker.queue.queue ++ s.reader.held.reverse) :=
          (List.reverse_perm _).symm.append_left _
    _ = (s.log.stored.map List.reverse).flatten := hconserves
    _ |>.Perm s.log.stored.flatten := hpages

/-- An insertion appends to the collection. -/
theorem coll_of_insert {seconds : Nat} {s t : State} {d : Document}
    (h : step M seconds s (.insert d) = some t) : t.coll = s.coll ++ [d] := by
  unfold step at h
  split at h
  · cases h
  · simp only at h
    split_ifs at h
    cases h
    rfl

/-- A step that loses no answer keeps everything. -/
theorem Delivering.step {seconds : Nat} {s t : State} {a : Action} (hskip : b.skip = 0)
    (hlimit : 1 ≤ b.limit) (h : Delivering M b s) (hreads : ReadsOnly s a)
    (hstep : step M seconds s a = some t) (hanswered : Answered M s a) : Delivering M b t := by
  have hterm : a ≠ .term := by
    rintro rfl
    exact hreads
  have hrew : a ≠ .rewind := by
    rintro rfl
    exact hreads
  have hpop : ∀ n, a ≠ .pop n := by
    rintro n rfl
    exact hreads
  obtain ⟨hserving, m, hmove, hallows, hclose, hdrop⟩ :=
    h.serving.step hstep hterm hpop hanswered
  have hrewind : m ≠ .rewind := by
    rintro rfl
    exact hrew hallows
  have hchange : m = .change →
      ∃ d, (feed t).contents = (feed s).contents ++ [d] ∧ ∀ e ∈ (feed s).contents, e.oid < d.oid := by
    rintro rfl
    obtain ⟨d, rfl⟩ := hallows
    exact ⟨d, coll_of_insert hstep, hreads⟩
  have hconserves : (feed t).Conserves :=
    hmove.conserves hdrop (fun hm => absurd hm hrewind) h.conserves
  exact ⟨hserving, hconserves,
    h.covers.step hskip hlimit hmove hrewind hclose hchange⟩

/-- Right after `open` nothing is on its way, and there is no position. -/
theorem delivering_opened {connect : String → Option String} {options : BSONObj}
    {coll : List Document} (hcoll : (coll.map Document.oid).Nodup)
    (hopen : Broker.new.openOn connect (some options) = (b, none)) :
    Delivering M b (State.opened coll b) := by
  have hlast : b.lastDocId = none := (Broker.fresh_of_openOn hopen).lastDocId
  refine ⟨serving_opened hopen coll, conserves_opened hopen coll, ?_⟩
  constructor
  · exact hcoll
  · intro i hi
    rw [show (feed (State.opened coll b)).position = none from hlast] at hi
    cases hi
  · intro q hq
    cases hq
  · intro page k hpage
    cases hpage
  · show [] = viewedUpTo M b coll b.lastDocId
    rw [hlast, viewedUpTo, Keyset.upTo_none]
    rfl

/-- An answer without its documents loses them. -/
theorem not_exactlyOnce_respond {s : State} {conn : Nat} {docs : List BSONObj} {ret : Option Nat}
    (h : ExactlyOnce M b s) (hio : s.io = .responding conn docs ret) (hne : docs ≠ [])
    (hsend : ¬Sendable M docs) : ¬ExactlyOnce M b (s.respond M conn docs ret) := by
  intro hafter
  have hfeed := feed_respond (M := M) s conn docs ret
  rw [(carried_readResponse docs ret).2 hsend, List.append_nil] at hfeed
  obtain ⟨hbroker, hreader, hidle⟩ := respond_frame (M := M) s conn docs ret
  have hdelivered : (s.respond M conn docs ret).log.delivered = s.log.delivered :=
    congrArg Feed.delivered hfeed
  have hcoll : (s.respond M conn docs ret).coll = s.coll := congrArg Feed.contents hfeed
  have hbefore := h.length_eq
  have hafter := hafter.length_eq
  rw [hdelivered, hcoll, hbroker, hreader, hidle] at hafter
  rw [hio] at hbefore
  simp only [Io.taken, List.length_append, List.length_nil] at hbefore hafter
  have hpos := List.length_pos_of_ne_nil hne
  omega

/-- **Exactly-once delivery.** In a run of READ requests, from a freshly opened session without
skip on, every state has every matching document up to the position exactly once on its way,
exactly when every READ of the run is answered with documents that can be sent. -/
theorem exactlyOnce_iff (M : Mongo) (seconds : Nat) (coll : List Document)
    (hcoll : (coll.map Document.oid).Nodup) (connect : String → Option String)
    (options : BSONObj) (b : Broker) (hopen : Broker.new.openOn connect (some options) = (b, none))
    (hskip : b.skip = 0) (hlimit : 1 ≤ b.limit) (as : List Action) (u : State)
    (hrun : run (step M seconds) (State.opened coll b) as = some u)
    (hreads : Guarded (step M seconds) ReadsOnly (State.opened coll b) as) :
    (∀ bs, bs <+: as → ∀ t, run (step M seconds) (State.opened coll b) bs = some t →
        ExactlyOnce M b t) ↔
      Guarded (step M seconds) (Answered M) (State.opened coll b) as := by
  have hstart : Delivering M b (State.opened coll b) := delivering_opened hcoll hopen
  have hP : ∀ s a t, Delivering M b s → ExactlyOnce M b s → ReadsOnly s a →
      step M seconds s a = some t → (ExactlyOnce M b t ↔ Answered M s a) := by
    intro s a t hs hPs hreads hstep
    constructor
    · intro hPt conn docs ret hio ha
      by_contra hnot
      obtain ⟨hne, hsend⟩ := not_or.mp hnot
      subst ha
      have ht : t = s.respond M conn docs ret := by
        unfold step at hstep
        split at hstep
        · cases hstep
        · simp only [State.ioStep, hio, Option.some.injEq] at hstep
          exact hstep.symm
      subst ht
      exact not_exactlyOnce_respond hPs hio hne hsend hPt
    · intro hanswered
      exact (hs.step hskip hlimit hreads hstep hanswered).exactlyOnce
  have hI : ∀ s a t, Delivering M b s → ExactlyOnce M b s → ReadsOnly s a →
      step M seconds s a = some t → ExactlyOnce M b t → Delivering M b t := by
    intro s a t hs hPs hreads hstep hPt
    exact hs.step hskip hlimit hreads hstep ((hP s a t hs hPs hreads hstep).mp hPt)
  exact forall_prefix_iff_guarded hI hP hstart hstart.exactlyOnce hreads hrun

/-- Steps of the two threads and READ requests are in every run of READs. -/
theorem readsOnly_of_mem {seconds : Nat} {s : State} {as : List Action}
    (h : ∀ a ∈ as, a = .reader ∨ a = .io ∨ a = .read 1) :
    Guarded (step M seconds) ReadsOnly s as := by
  apply Guarded.mono (step M seconds) _ (guarded_of_forall_mem (step M seconds) h)
  rintro s a (rfl | rfl | rfl) <;> trivial

/-- A session with one document: the first page, and a READ of it. -/
theorem exactlyOnce_iff_sample : ∃ u,
    run (step Mongo.plain 0) (State.opened [sampleDocument 1] (Broker.sampleBroker 0 1 10))
        (fillQueue ++ [.read 1] ++ [.io] ++ [.io]) = some u ∧
      ∀ bs, bs <+: fillQueue ++ [.read 1] ++ [.io] ++ [.io] → ∀ t,
        run (step Mongo.plain 0) (State.opened [sampleDocument 1] (Broker.sampleBroker 0 1 10))
          bs = some t → ExactlyOnce Mongo.plain (Broker.sampleBroker 0 1 10) t := by
  refine ⟨_, rfl, (exactlyOnce_iff Mongo.plain 0 _ (by decide) (fun _ => none)
    (Broker.sampleOptions 0 1 10) _ (by decide) (by decide) (by decide) _ _ rfl
    (readsOnly_of_mem (by decide))).mpr ?_⟩
  obtain ⟨s, hs, f, hio⟩ : ∃ s, run (step Mongo.plain 0)
      (State.opened [sampleDocument 1] (Broker.sampleBroker 0 1 10)) (fillQueue ++ [.read 1]) =
        some s ∧ ∃ f, s.io = .entering (.read 1 f) := ⟨_, rfl, _, rfl⟩
  obtain ⟨t, ht, hio'⟩ : ∃ t, run (step Mongo.plain 0)
      (State.opened [sampleDocument 1] (Broker.sampleBroker 0 1 10))
      (fillQueue ++ [.read 1] ++ [.io]) = some t ∧
        t.io = .responding 1 [(sampleDocument 1).toBSON] (some 1) := ⟨_, rfl, rfl⟩
  rw [guarded_concat _ _ ht, guarded_concat _ _ hs]
  refine ⟨⟨answered_of_ne_io (by decide), ?_⟩, ?_⟩
  · intro conn docs ret h
    rw [hio] at h
    cases h
  · intro conn docs ret h _
    rw [hio'] at h
    cases h
    exact Or.inr ⟨⟨_, rfl⟩, by decide +kernel⟩

/-- With a large document in the collection, a READ of two documents loses both. -/
theorem not_exactlyOnce_sample :
    Broker.new.openOn (fun _ => none) (some (Broker.sampleOptions 0 2 10)) =
        (Broker.sampleBroker 0 2 10, none) ∧
      Guarded (step Mongo.plain 0) ReadsOnly
        (State.opened [sampleDocument 1, largeDocument 2] (Broker.sampleBroker 0 2 10))
        (fillQueue ++ [.read 1, .io, .io] ++ [.io]) ∧
      ∃ t, run (step Mongo.plain 0)
          (State.opened [sampleDocument 1, largeDocument 2] (Broker.sampleBroker 0 2 10))
          (fillQueue ++ [.read 1, .io, .io] ++ [.io]) = some t ∧
        ¬ExactlyOnce Mongo.plain (Broker.sampleBroker 0 2 10) t := by
  refine ⟨by decide, readsOnly_of_mem (by decide), ?_⟩
  obtain ⟨s, hs, hfault, hio, hbefore⟩ : ∃ s, run (step Mongo.plain 0)
      (State.opened [sampleDocument 1, largeDocument 2] (Broker.sampleBroker 0 2 10))
      (fillQueue ++ [.read 1, .io, .io]) = some s ∧ s.fault = none ∧
        s.io = .responding 1 [(largeDocument 2).toBSON, (sampleDocument 1).toBSON] (some 2) ∧
        ExactlyOnce Mongo.plain (Broker.sampleBroker 0 2 10) s := by
    refine ⟨_, rfl, rfl, rfl, ?_⟩
    show List.Perm [(largeDocument 2).toBSON, (sampleDocument 1).toBSON]
      [(sampleDocument 1).toBSON, (largeDocument 2).toBSON]
    exact List.Perm.swap _ _ _
  have hstep : step Mongo.plain 0 s .io = some (s.respond Mongo.plain 1
      [(largeDocument 2).toBSON, (sampleDocument 1).toBSON] (some 2)) := by
    simp [step, hfault, State.ioStep, hio]
  have hsend : ¬Sendable Mongo.plain [(largeDocument 2).toBSON, (sampleDocument 1).toBSON] :=
    fun h => (utf8ByteSize_largeDocument_le 2 (sampleDocument 1)).not_gt h.2
  exact ⟨_, run_concat hs hstep,
    not_exactlyOnce_respond hbefore hio (List.cons_ne_nil _ _) hsend⟩

end Zbroker.ReadSession
