import Mathlib.Order.WithBot
import Zbroker.Found.Forward
import Zbroker.Session.ReadFeed

/-!
# At most once

Whatever is inserted into the collection while a session reads it, a query brings documents behind
the position only, and moves the position over all of them. So no document is delivered twice, for
every limit and every skip, whatever the deadlines and the answers; one that is inserted at or
before the position is never delivered.

* `leads_find` — the page of a query leads from its position to the next one.
* `Ahead M b s` — a live session whose feed only reads forward. **`Ahead.step`**: it stays so, unless
  it is rewound or terminated.
* **`distinct_run`**: all that has been answered, is collected, queued or held is distinct, and
  consists of documents that the conditions select.
* **`missed_run`**: a document that is inserted at or before the position is not among them.
A session moves forward only (`Feed.Forward`), so it brings every document once; an insertion changes what
the next query finds, but nothing that is behind the position.
-/

namespace Zbroker.ReadSession

open Found Found.Transition

variable {M : Mongo} {b : Broker}

/-- The place of a position among the ids; no position is before all of them. -/
def rank (position : Option OID) : WithBot OID := position

/-- The place of a document that was returned; one without an id has no place. -/
def key (doc : BSONObj) : WithBot OID := BSON.objectID doc

/-- A document lies behind a position. -/
theorem rank_lt_iff (position : Option OID) (i : OID) :
    rank position < (i : WithBot OID) ↔ Keyset.Behind position i := by
  cases position with
  | none => exact iff_of_true (WithBot.bot_lt_coe i) trivial
  | some j => exact WithBot.coe_lt_coe

/-- A query returns documents that are ascending and lie behind its position. -/
theorem exists_find {coll : List Document} (hcoll : (coll.map Document.oid).Nodup)
    (hskip : 0 ≤ b.skip) (k : Option OID) :
    ∃ ds, (source M b).find coll ((source M b).ask k) = ds.map (M.view b.queryFields) ∧
      Keyset.Ascending Document.oid ds ∧ ∀ d ∈ ds, Keyset.Behind k d.oid := by
  set selected := coll.filter (M.satisfies (Broker.prepareCondition { b with lastDocId := k }))
    with hselected
  have hsub : (Mongo.limitTo b.limit ((Keyset.sortBy Document.oid selected).drop b.skip.toNat)).Sublist
      (Keyset.sortBy Document.oid selected) := by
    unfold Mongo.limitTo
    split_ifs
    · exact List.drop_sublist _ _
    · exact (List.take_sublist _ _).trans (List.drop_sublist _ _)
  refine ⟨_, M.find_eq coll _ .asc b.limit _ hskip, ?_, ?_⟩
  · exact (Keyset.ascending_sortBy (hcoll.sublist (List.filter_sublist.map _))).sublist hsub
  · intro d hd
    have hmem := (Keyset.mem_sortBy _).mp (hsub.subset hd)
    rw [hselected, List.mem_filter, Broker.satisfies_prepareCondition, Bool.and_eq_true] at hmem
    exact of_decide_eq_true hmem.2.2

/-- **The page of a query leads forward**, with any skip and any limit, if the query ends well. -/
theorem leads_find {coll : List Document} (hcoll : (coll.map Document.oid).Nodup)
    {k k' : Option OID}
    (hk : (source M b).advance k ((source M b).find coll ((source M b).ask k)) = some k') :
    Leads rank key k ((source M b).find coll ((source M b).ask k)) k' := by
  obtain ⟨ds, hds, hascending, hbehind⟩ := exists_find (M := M) hcoll
    (skip_nonneg_of_advance hk) k
  rw [hds] at hk ⊢
  rcases hlast : ds.getLast? with _ | e
  · rw [List.getLast?_eq_none_iff.mp hlast] at hk ⊢
    cases hk
    exact ⟨List.Pairwise.nil, by simp, by simp, le_rfl⟩
  · obtain ⟨init, rfl⟩ := List.getLast?_eq_some_iff.mp hlast
    simp only [source, List.getLast?_map, hlast, Option.map_some, M.objectID_view] at hk
    by_cases hid : Mongo.keepsId b.queryFields = true
    swap
    · rw [if_neg hid] at hk
      cases hk
    rw [if_pos hid] at hk
    cases hk
    have hkey : ∀ d, key (M.view b.queryFields d) = (d.oid : WithBot OID) := by
      intro d
      rw [key, M.objectID_view, if_pos hid]
      rfl
    have hup : ∀ d ∈ init ++ [e], d.oid ≤ e.oid := by
      intro d hd
      rcases List.mem_append.mp hd with hd | hd
      · exact ((List.pairwise_append.mp hascending).2.2 d hd e (List.mem_singleton.mpr rfl)).le
      · rw [List.mem_singleton.mp hd]
    refine ⟨?_, ?_, ?_, ?_⟩
    · refine List.pairwise_map.mpr (hascending.imp ?_)
      intro d d' hlt
      rw [hkey, hkey]
      exact WithBot.coe_lt_coe.mpr hlt
    · rintro x hx
      obtain ⟨d, hd, rfl⟩ := List.mem_map.mp hx
      rw [hkey]
      exact (rank_lt_iff k d.oid).mpr (hbehind d hd)
    · rintro x hx
      obtain ⟨d, hd, rfl⟩ := List.mem_map.mp hx
      rw [hkey]
      exact WithBot.coe_le_coe.mpr (hup d hd)
    · exact ((rank_lt_iff k e.oid).mpr (hbehind e (by simp))).le

/-- What a session can bring: the documents that the conditions select. -/
def Brought (M : Mongo) (b : Broker) (coll : List Document) (x : BSONObj) : Prop :=
  ∃ d ∈ coll, M.satisfies b.conditions d = true ∧ x = M.view b.queryFields d

/-- A query that ends well brings nothing else. -/
theorem brought_find {coll : List Document} {k k' : Option OID}
    (hk : (source M b).advance k ((source M b).find coll ((source M b).ask k)) = some k') :
    ∀ x ∈ (source M b).find coll ((source M b).ask k), Brought M b coll x := by
  have hfind : (source M b).find coll ((source M b).ask k) = _ :=
    M.find_eq coll _ .asc b.limit b.queryFields (skip_nonneg_of_advance hk)
  intro x hx
  rw [hfind] at hx
  obtain ⟨d, hd, rfl⟩ := List.mem_map.mp hx
  have hmem : d ∈ Keyset.sortBy Document.oid
      (coll.filter (M.satisfies (Broker.prepareCondition { b with lastDocId := k }))) := by
    unfold Mongo.limitTo at hd
    split_ifs at hd
    · exact List.mem_of_mem_drop hd
    · exact List.mem_of_mem_drop (List.mem_of_mem_take hd)
  rw [Keyset.mem_sortBy, List.mem_filter, Broker.satisfies_prepareCondition,
    Bool.and_eq_true] at hmem
  exact ⟨d, hmem.1, hmem.2.1, rfl⟩

/-- A document that was brought has the place of its id, if it has one. -/
theorem key_view {d : Document} {i : OID} (h : key (M.view b.queryFields d) = i) : d.oid = i := by
  rw [key, M.objectID_view] at h
  split_ifs at h
  · exact WithBot.coe_inj.mp h
  · cases h

/-! ## Sessions that only read forward -/

/-- A live session over distinct documents that only reads forward. -/
structure Ahead (M : Mongo) (b : Broker) (s : State) : Prop where
  live : Live b s
  nodup : (s.coll.map Document.oid).Nodup
  conserves : (feed s).Conserves
  delivered : (s.log.delivered ++ s.io.taken).Sublist s.log.popped
  forward : Feed.Forward (source M b) rank key (feed s)
  known : Feed.Known (source M b) (Brought M b) (feed s)

/-- It is so when the session has been opened. -/
theorem ahead_opened {connect : String → Option String} {options : BSONObj}
    (hopen : Broker.new.openOn connect (some options) = (b, none)) {coll : List Document}
    (hcoll : (coll.map Document.oid).Nodup) : Ahead M b (State.opened coll b) := by
  refine ⟨live_opened hopen coll, hcoll, conserves_opened hopen coll, List.Sublist.refl _,
    ⟨?_, ?_, List.Pairwise.nil, ?_⟩, ⟨?_, ?_⟩⟩
  · intro q hq
    cases hq
  · intro page k hpage
    cases hpage
  · intro x hx
    cases hx
  · intro page k hpage
    cases hpage
  · intro x hx
    cases hx

/-- An insertion is that of a new document. -/
theorem not_mem_of_insert {seconds : Nat} {s t : State} {d : Document}
    (hstep : step M seconds s (.insert d) = some t) :
    d.oid ∉ s.coll.map Document.oid ∧ t = { s with coll := s.coll ++ [d] } := by
  cases step_effect hstep with
  | insert d hd => exact ⟨hd, rfl⟩

/-- The documents of the collection stay distinct. -/
theorem nodup_step {seconds : Nat} {s t : State} {a : Action} {m : Move}
    (hs : (s.coll.map Document.oid).Nodup) (hstep : step M seconds s a = some t)
    (hmove : Feed.Step (source M b) none (feed s) m (feed t)) (hallows : Allows M s a m) :
    (t.coll.map Document.oid).Nodup := by
  by_cases hchange : m = .change
  · subst hchange
    obtain ⟨d, rfl⟩ := hallows
    obtain ⟨hd, rfl⟩ := not_mem_of_insert hstep
    rw [List.map_append, List.map_singleton]
    refine List.nodup_append.mpr ⟨hs, List.nodup_singleton _, ?_⟩
    rintro i hi j hj rfl
    rw [List.mem_singleton.mp hj] at hi
    exact hd hi
  · have hcoll : t.coll = s.coll := hmove.contents_eq hchange
    rwa [hcoll]

/-- **A session that is neither rewound nor terminated goes on reading forward.** -/
theorem Ahead.step {seconds : Nat} {s t : State} {a : Action} (h : Ahead M b s)
    (hstep : step M seconds s a = some t) (hrewind : a ≠ .rewind) (hterm : a ≠ .term) :
    Ahead M b t ∧ ∀ i, Feed.Passed rank key i (feed s) → Feed.Passed rank key i (feed t) := by
  obtain ⟨hlive, -, m, hmove, hallows, hclose, hdrop⟩ := h.live.step hstep hterm
  have hm : m ≠ .rewind := by
    rintro rfl
    exact hrewind hallows
  refine ⟨⟨hlive, nodup_step h.nodup hstep hmove hallows, ?_, ?_, ?_, ?_⟩, ?_⟩
  · exact hmove.conserves hdrop (fun hm' => absurd hm' hm) h.conserves
  · exact hmove.delivered_sublist h.delivered
  · exact hmove.forward hm hclose (fun k k' hk => leads_find h.nodup hk) h.forward
  · refine hmove.known hm hclose ?_ ?_ h.known
    · intro q k hq hk
      rw [h.forward.asked q hq] at hk ⊢
      exact brought_find hk
    · rintro rfl x ⟨e, he, hsat, rfl⟩
      obtain ⟨d, rfl⟩ := hallows
      obtain ⟨-, rfl⟩ := not_mem_of_insert hstep
      exact ⟨e, List.mem_append_left _ he, hsat, rfl⟩
  · exact fun i hi => hmove.passed hm hclose h.forward hi

/-- A run that neither rewinds nor terminates keeps all of that. -/
theorem Ahead.run {seconds : Nat} {s t : State} {as : List Action} (h : Ahead M b s)
    (hrun : run (ReadSession.step M seconds) s as = some t) (hrewind : .rewind ∉ as)
    (hterm : .term ∉ as) :
    Ahead M b t ∧ ∀ i, Feed.Passed rank key i (feed s) → Feed.Passed rank key i (feed t) := by
  have hC : Guarded (ReadSession.step M seconds) (fun _ a => a ≠ .rewind ∧ a ≠ .term) s as :=
    guarded_of_forall_mem (ReadSession.step M seconds) fun a ha =>
      ⟨fun heq => hrewind (heq ▸ ha), fun heq => hterm (heq ▸ ha)⟩
  refine run_invariant (I := fun u => Ahead M b u ∧
    ∀ i, Feed.Passed rank key i (feed s) → Feed.Passed rank key i (feed u)) ?_ ⟨h, fun _ hi => hi⟩
    hC hrun
  rintro u a v ⟨hu, hpassed⟩ ⟨ha, ha'⟩ hstep
  obtain ⟨hv, hkeeps⟩ := hu.step hstep ha ha'
  exact ⟨hv, fun i hi => hkeeps i (hpassed i hi)⟩

/-- **At most once.** A session runs from its open on, with any limit and any skip, and is neither
rewound nor terminated. Meanwhile READ requests of any number of connections and pops are served or
time out, answers are sent with their documents or without, and documents with any new `_id` are
inserted into the collection, before the position or behind it. In every state that is reached the
queries have brought their documents in strictly ascending `_id` order; and the documents in the
answers, those collected for the request under way, those in the queue and those the read thread
holds all have different `_id`s, and are documents of the collection that the conditions select. -/
theorem distinct_run (M : Mongo) (seconds : Nat) (coll : List Document)
    (hcoll : (coll.map Document.oid).Nodup) (connect : String → Option String)
    (options : BSONObj) (b : Broker) (hopen : Broker.new.openOn connect (some options) = (b, none))
    (as : List Action) (t : State)
    (hrun : run (step M seconds) (State.opened coll b) as = some t)
    (hrewind : .rewind ∉ as) (hterm : .term ∉ as) :
    (t.log.stored.flatten.Pairwise fun d d' => key d < key d') ∧
      ((t.log.delivered ++ t.io.taken ++ t.broker.queue.queue ++ t.reader.held).map key).Nodup ∧
      ∀ x ∈ t.log.delivered ++ t.io.taken ++ t.broker.queue.queue ++ t.reader.held,
        Brought M b t.coll x := by
  obtain ⟨hahead, -⟩ := (ahead_opened hopen hcoll).run hrun hrewind hterm
  have hsub : (t.log.delivered ++ t.io.taken ++ t.broker.queue.queue ++ t.reader.held).Sublist
      (t.log.popped ++ t.broker.queue.queue ++ t.reader.held) :=
    (hahead.delivered.append (List.Sublist.refl _)).append (List.Sublist.refl _)
  refine ⟨hahead.forward.ascending, ?_, ?_⟩
  · exact (Feed.nodup_of_forward hahead.forward hahead.conserves).sublist (hsub.map key)
  · intro x hx
    exact hahead.known.stored x ((Feed.perm_stored hahead.conserves).mem_iff.mp (hsub.subset hx))

/-- A page of one document is read, and pushed; two documents come, and another page is read. -/
def sampleInserts (i j : OID) : List Action :=
  fillQueue ++ [.insert (sampleDocument i), .insert (sampleDocument j), .read 1] ++ fillQueue ++ [.io]

/-- Two documents are inserted while the session runs, one of them behind what was read. -/
theorem distinct_run_sample : ∃ t,
    run (step Mongo.plain 0) (State.opened [sampleDocument 2] (Broker.sampleBroker 0 1 10))
        (sampleInserts 1 3) = some t ∧
      ((t.log.delivered ++ t.io.taken ++ t.broker.queue.queue ++ t.reader.held).map key).Nodup := by
  obtain ⟨t, ht⟩ := Option.isSome_iff_exists.mp
    (show (run (step Mongo.plain 0) (State.opened [sampleDocument 2] (Broker.sampleBroker 0 1 10))
      (sampleInserts 1 3)).isSome = true by decide +kernel)
  obtain ⟨-, hnodup, -⟩ := distinct_run Mongo.plain 0 [sampleDocument 2] (by decide)
    (fun _ => none) (Broker.sampleOptions 0 1 10) (Broker.sampleBroker 0 1 10) (by decide)
    (sampleInserts 1 3) t ht (by decide) (by decide)
  exact ⟨t, ht, hnodup⟩

/-- **What comes too late is missed.** A document that is inserted with an `_id` at or before
`m_last_doc_id` is not delivered by the session any more, however long it goes on, unless it is
rewound: it is never popped, queued or held. -/
theorem missed_run (M : Mongo) (seconds : Nat) (coll : List Document)
    (hcoll : (coll.map Document.oid).Nodup) (connect : String → Option String)
    (options : BSONObj) (b : Broker) (hopen : Broker.new.openOn connect (some options) = (b, none))
    (as cs : List Action) (d : Document) (s t : State)
    (hs : run (step M seconds) (State.opened coll b) as = some s)
    (hlate : (d.oid : WithBot OID) ≤ rank s.broker.lastDocId)
    (ht : run (step M seconds) s (.insert d :: cs) = some t)
    (hrewind : .rewind ∉ as ++ cs) (hterm : .term ∉ as ++ cs) :
    ∀ x ∈ t.log.popped ++ t.broker.queue.queue ++ t.reader.held, key x ≠ d.oid := by
  rw [List.mem_append, not_or] at hrewind hterm
  obtain ⟨hahead, -⟩ := (ahead_opened hopen hcoll).run hs hrewind.1 hterm.1
  obtain ⟨u, hu, hrest⟩ := (run_cons_eq_some _).mp ht
  obtain ⟨hnew, hafter⟩ := not_mem_of_insert hu
  have hpassed : Feed.Passed rank key (d.oid : WithBot OID) (feed u) := by
    subst hafter
    refine ⟨hlate, ?_⟩
    intro x hx heq
    obtain ⟨e, he, -, rfl⟩ := hahead.known.stored x hx
    exact hnew (List.mem_map.mpr ⟨e, he, key_view heq⟩)
  obtain ⟨hu, -⟩ := hahead.step hu (by simp) (by simp)
  obtain ⟨hahead', hkeeps⟩ := hu.run hrest hrewind.2 hterm.2
  intro x hx
  exact (hkeeps _ hpassed).stored x ((Feed.perm_stored hahead'.conserves).mem_iff.mp hx)

/-- The document in front of the one that was read. -/
theorem missed_run_sample : ∃ s t,
    run (step Mongo.plain 0) (State.opened [sampleDocument 2] (Broker.sampleBroker 0 1 10))
        fillQueue = some s ∧
      run (step Mongo.plain 0) s (.insert (sampleDocument 1) :: fillQueue) = some t ∧
      ∀ x ∈ t.log.popped ++ t.broker.queue.queue ++ t.reader.held,
        key x ≠ (sampleDocument 1).oid := by
  obtain ⟨s, hs, hlate, hrest⟩ : ∃ s, run (step Mongo.plain 0)
      (State.opened [sampleDocument 2] (Broker.sampleBroker 0 1 10)) fillQueue = some s ∧
        s.broker.lastDocId = some 2 ∧ (run (step Mongo.plain 0) s
          (.insert (sampleDocument 1) :: fillQueue)).isSome = true :=
    ⟨_, rfl, by decide +kernel, by decide +kernel⟩
  obtain ⟨t, ht⟩ := Option.isSome_iff_exists.mp hrest
  refine ⟨s, t, hs, ht, missed_run Mongo.plain 0 [sampleDocument 2] (by decide) (fun _ => none)
    (Broker.sampleOptions 0 1 10) (Broker.sampleBroker 0 1 10) (by decide) fillQueue fillQueue
    (sampleDocument 1) s t hs ?_ ht (by decide) (by decide)⟩
  rw [hlate]
  exact WithBot.coe_le_coe.mpr (by decide)

end Zbroker.ReadSession
