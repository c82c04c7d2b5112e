import Zbroker.Processor.DoRead
import Zbroker.Session.Stream

/-!
# Rewinding

A REWIND clears `m_last_doc_id`, and nothing else that says where in the stream the session is:
not the queue, not what the read thread holds, not the query in flight.

* `DeliversAfresh` — what was delivered since the rewind is a beginning of the stream, and so
  agrees with what any freshly opened session delivers.
* **`deliversAfresh_of_drained`**: that is so after a rewind that finds the session drained.
* `FirstQueryUnbounded` — every query that was the first after a rewind was sent with the
  session's conditions alone.
* **`firstQueryUnbounded_of_noStaleStore`**: that is so if no query that returns documents has
  a rewind between its start and its end.

For the first, a session that is drained and rewound is on course like a freshly opened one
(`onCourse_rewind`), every step that is answered leaves it so (`OnCourse.step`), and what is delivered on
course is a beginning of the stream (`OnCourse.delivered_isPrefix`). For the second, the feed under the
session asks without a bound after a rewind, as long as nothing sets the position in between
(`Feed.IssuesFresh`).
-/

namespace Zbroker.ReadSession

open Found Found.Transition

variable {M : Mongo} {b : Broker} {coll : List Document}

/-! ## Runs of one client -/

/-- The two threads, READ and REWIND requests, over an unchanging collection. -/
def OneClient : Action → Prop
  | .pop _ | .term | .insert _ => False
  | _ => True

/-- The same without REWIND requests. -/
def Reads : Action → Prop
  | .pop _ | .term | .insert _ | .rewind => False
  | _ => True

/-- Reading alone is what one client does. -/
theorem Reads.oneClient {a : Action} (h : Reads a) : OneClient a := by
  cases a <;> trivial

/-- Which events it leaves out. -/
theorem OneClient.ne {a : Action} (h : OneClient a) :
    a ≠ .term ∧ (∀ n, a ≠ .pop n) ∧ ∀ d, a ≠ .insert d := by
  refine ⟨?_, ?_, ?_⟩
  · rintro rfl
    exact h
  · rintro n rfl
    exact h
  · rintro d rfl
    exact h

/-- What a run of one client keeps, whatever its READs and REWINDs meet. -/
structure Connected (b : Broker) (coll : List Document) (s : State) : Prop where
  live : Live b s
  kind : s.io.kind ≠ .alone
  coll : s.coll = coll

/-- **Every event of one client keeps the session connected.** -/
theorem Connected.step {seconds : Nat} {s t : State} {a : Action} (h : Connected b coll s)
    (ha : OneClient a) (hstep : step M seconds s a = some t) : Connected b coll t := by
  obtain ⟨hterm, hpop, hinsert⟩ := ha.ne
  obtain ⟨hlive, hkind, m, hmove, hallows, -, -⟩ := h.live.step hstep hterm
  refine ⟨hlive, ?_, ?_⟩
  · intro halone
    rw [halone] at hkind
    rcases hkind with hfree | hs | hbegun
    · cases hfree
    · exact h.kind hs.symm
    · obtain ⟨n, hn⟩ := eq_pop_of_kind hbegun.symm
      exact hpop n hn
  · have hchange : m ≠ .change := by
      rintro rfl
      obtain ⟨d, hd⟩ := hallows
      exact hinsert d hd
    exact (hmove.contents_eq hchange).trans h.coll

/-- **Every run of one client ends connected**, by induction over its steps. -/
theorem connected_of_run {connect : String → Option String} {options : BSONObj} {seconds : Nat}
    (hopen : Broker.new.openOn connect (some options) = (b, none)) {as : List Action} {s : State}
    (hrun : run (step M seconds) (State.opened coll b) as = some s)
    (has : ∀ a ∈ as, OneClient a) : Connected b coll s := by
  have hstart : Connected b coll (State.opened coll b) :=
    ⟨live_opened hopen coll, by simp [State.opened, Io.kind], rfl⟩
  exact run_invariant (fun _ _ _ hs ha hstep => hs.step ha hstep) hstart
    (guarded_of_forall_mem (step M seconds) has) hrun

/-! ## What is delivered since the start or the last rewind -/

/-- A session on its stream that serves READs. -/
structure OnCourse (M : Mongo) (b : Broker) (coll : List Document) (s : State) : Prop where
  serving : Serving b s
  streaming : Streaming M b coll s

/-- **An answered event that only reads stays on course.** What is delivered next is what was queued
first, and what is stored next is the page behind what was stored last. -/
theorem OnCourse.step {seconds : Nat} {s t : State} {a : Action}
    (hcoll : (coll.map Document.oid).Nodup) (hlimit : 1 ≤ b.limit) (h : OnCourse M b coll s)
    (hguard : Reads a ∧ Answered M s a) (hstep : step M seconds s a = some t) :
    OnCourse M b coll t := by
  obtain ⟨hreads, hanswered⟩ := hguard
  obtain ⟨hterm, hpop, hinsert⟩ := hreads.oneClient.ne
  have hrewind : a = .rewind → Drained M b s := by
    rintro rfl
    exact absurd hreads id
  exact ⟨(h.serving.step (M := M) hstep hterm hpop hanswered).1,
    (h.streaming.step hcoll hlimit hstep hterm hinsert hrewind).1⟩

/-- What was delivered is a beginning of the stream. -/
theorem OnCourse.delivered_isPrefix {s : State} (h : OnCourse M b coll s) :
    s.log.delivered <+: stream M b coll none :=
  Feed.delivered_isPrefix h.streaming.onStream h.streaming.conserves h.serving.delivers

/-- **A run of such events stays on course**, by induction over its steps. -/
theorem onCourse_of_run {seconds : Nat} {as : List Action} {s t : State}
    (hcoll : (coll.map Document.oid).Nodup) (hlimit : 1 ≤ b.limit) (h : OnCourse M b coll s)
    (hrun : run (step M seconds) s as = some t) (has : ∀ a ∈ as, Reads a)
    (hanswered : Guarded (step M seconds) (Answered M) s as) : OnCourse M b coll t := by
  have hguard : Guarded (step M seconds) (fun s a => Reads a ∧ Answered M s a) s as :=
    (guarded_of_forall_mem (step M seconds) has).and (step M seconds) hanswered
  exact run_invariant (fun _ _ _ hs hg hstep => hs.step hcoll hlimit hg hstep) h hguard hrun

/-- A rewind puts a drained session on course. -/
theorem onCourse_rewind {s : State} (h : Connected b coll s) (hconnected : b.connected = true)
    (hio : s.io = .idle) (hdrained : Drained M b s) : OnCourse M b coll s.rewind := by
  have hopen : s.broker.connected = true := by
    rw [← hconnected]
    exact congrArg Config.connected h.live.configured
  have hs : s.rewind = { s with broker := s.broker.rewind, log := ⟨[], [], [], true, s.log.issued⟩ } := by
    rw [State.rewind, if_pos hopen]
  rw [hs]
  have hlive : Live b { s with broker := s.broker.rewind, log := ⟨[], [], [], true, s.log.issued⟩ } :=
    ⟨h.live.configured, h.live.kind, h.live.exiting⟩
  refine ⟨⟨hlive, h.kind, ?_⟩,
    ⟨hlive, ?_, h.coll, ?_, fun p hp => absurd hp List.not_mem_nil, rfl⟩⟩
  · show [] ++ s.io.taken = []
    rw [hio]
    rfl
  · show [] ++ s.broker.queue.queue ++ s.reader.held.reverse = []
    rw [hdrained.queue, hdrained.held]
    rfl
  · have hflight := hdrained.flight
    rw [inFlight, h.coll] at hflight
    exact hflight

/-! ## A rewind restarts the stream -/

/-- What was delivered since the last rewind is a beginning of the stream, and agrees with what
every freshly opened session delivers. -/
def DeliversAfresh (M : Mongo) (seconds : Nat) (b : Broker) (coll : List Document) (s : State) :
    Prop :=
  s.log.delivered <+: stream M b coll none ∧
    ∀ as u, run (step M seconds) (State.opened coll b) as = some u → (∀ a ∈ as, Reads a) →
      Guarded (step M seconds) (Answered M) (State.opened coll b) as →
        s.log.delivered <+: u.log.delivered ∨ u.log.delivered <+: s.log.delivered

/-- **Rewinding a drained session.** In every run of one client, the READ requests after a
REWIND that finds the session drained deliver the stream from its start, as long as their
documents can be sent. -/
theorem deliversAfresh_of_drained (M : Mongo) (seconds : Nat) (coll : List Document)
    (hcoll : (coll.map Document.oid).Nodup) (connect : String → Option String)
    (options : BSONObj) (b : Broker) (hopen : Broker.new.openOn connect (some options) = (b, none))
    (hlimit : 1 ≤ b.limit) (as : List Action) (has : ∀ a ∈ as, OneClient a) (s : State)
    (hs : run (step M seconds) (State.opened coll b) as = some s) (hdrained : Drained M b s)
    (bs : List Action) (hbs : ∀ a ∈ bs, Reads a) (t : State)
    (ht : run (step M seconds) s (.rewind :: bs) = some t)
    (hanswered : Guarded (step M seconds) (Answered M) s (.rewind :: bs)) :
    DeliversAfresh M seconds b coll t := by
  have hconnected : b.connected = true := (Broker.fresh_of_openOn hopen).connected
  obtain ⟨r, hr, hrun⟩ := (run_cons_eq_some _).mp ht
  obtain ⟨hio, rfl⟩ : s.io = .idle ∧ r = s.rewind := by
    unfold step at hr
    split at hr
    · cases hr
    · simp only at hr
      split_ifs at hr with hio
      exact ⟨hio, (Option.some.inj hr).symm⟩
  have hcourse : OnCourse M b coll s.rewind :=
    onCourse_rewind (connected_of_run hopen hs has) hconnected hio hdrained
  have ht := onCourse_of_run hcoll hlimit hcourse hrun hbs (hanswered.2 _ hr)
  refine ⟨ht.delivered_isPrefix, ?_⟩
  intro cs u hu hcs hcsAnswered
  have hfresh : OnCourse M b coll (State.opened coll b) :=
    ⟨serving_opened hopen coll, streaming_opened hopen coll⟩
  have hu := onCourse_of_run hcoll hlimit hfresh hu hcs hcsAnswered
  exact List.prefix_or_prefix_of_prefix ht.delivered_isPrefix hu.delivered_isPrefix

/-- A client reads to the end of the data. -/
def sampleRead : List Action := List.replicate 13 .reader ++ [.read 1, .io, .io]

/-- It reads once more. -/
def sampleReread : List Action := List.replicate 8 .reader ++ [.read 1] ++ [.io] ++ [.io]

/-- The one document is delivered, and the read thread sleeps after the query that brought nothing
more; a REWIND, and the document is delivered again. -/
theorem deliversAfresh_of_drained_sample : ∃ s t,
    run (step Mongo.plain 0) (State.opened [sampleDocument 1] (Broker.sampleBroker 0 1 10))
        sampleRead = some s ∧
      s.log.delivered = [(sampleDocument 1).toBSON] ∧
      run (step Mongo.plain 0) s (.rewind :: sampleReread) = some t ∧
      t.log.delivered = [(sampleDocument 1).toBSON] ∧
      DeliversAfresh Mongo.plain 0 (Broker.sampleBroker 0 1 10) [sampleDocument 1] t := by
  obtain ⟨s, hs, hdelivered, hqueue, hreader⟩ := @exists_run_of_any _ _ (step Mongo.plain 0)
    (State.opened [sampleDocument 1] (Broker.sampleBroker 0 1 10)) sampleRead
    (fun s => s.log.delivered = [(sampleDocument 1).toBSON] ∧ s.broker.queue.queue = [] ∧
      s.reader = .sleeping) _ (by decide +kernel)
  have hdrained : Drained Mongo.plain (Broker.sampleBroker 0 1 10) s :=
    ⟨hqueue, by rw [hreader]; rfl, Or.inl (by rw [inFlight, hreader]; rfl)⟩
  -- where the run goes on from there, evaluated from its start
  have hgoes {P : State → Prop} [DecidablePred P] (cs : List Action)
      (h : (run (step Mongo.plain 0) (State.opened [sampleDocument 1] (Broker.sampleBroker 0 1 10))
        (sampleRead ++ cs)).any (fun t => decide (P t)) = true) :
      ∃ t, run (step Mongo.plain 0) s cs = some t ∧ P t := by
    obtain ⟨t, ht, hP⟩ := exists_run_of_any _ h
    rw [run_append, hs] at ht
    exact ⟨t, ht, hP⟩
  obtain ⟨u, hu, hentering⟩ := hgoes (P := fun u => u.io.taken = [])
    (.rewind :: (List.replicate 8 .reader ++ [.read 1])) (by decide +kernel)
  obtain ⟨v, hv, hresponding⟩ :=
    hgoes (P := fun v => v.io = .responding 1 [(sampleDocument 1).toBSON] (some 1))
      (.rewind :: (List.replicate 8 .reader ++ [.read 1] ++ [.io])) (by decide +kernel)
  obtain ⟨t, ht, hagain⟩ := hgoes (P := fun t => t.log.delivered = [(sampleDocument 1).toBSON])
    (.rewind :: sampleReread) (by decide +kernel)
  refine ⟨s, t, hs, hdelivered, ht, hagain,
    deliversAfresh_of_drained Mongo.plain 0 [sampleDocument 1] (by decide) (fun _ => none)
      (Broker.sampleOptions 0 1 10) _ (by decide) (by decide) sampleRead ?_ s hs hdrained
      sampleReread ?_ t ht ?_⟩
  · simp [sampleRead, OneClient]
  · simp [sampleReread, Reads]
  · -- the two steps of the io thread: it pops, and it answers
    refine (guarded_concat _ _ hv).mpr ⟨(guarded_concat _ _ hu).mpr
      ⟨answered_of_ne_io (by decide), ?_⟩, ?_⟩
    · intro conn docs ret h _
      rw [h] at hentering
      exact Or.inl hentering
    · intro conn docs ret h _
      rw [hresponding] at h
      cases h
      exact Or.inr ⟨⟨_, rfl⟩, by decide +kernel⟩

/-- With one document delivered and the next one in the queue, a REWIND is followed by that
document and not by the first one. -/
theorem not_deliversAfresh_sample :
    Broker.new.openOn (fun _ => none) (some (Broker.sampleOptions 0 1 10)) =
        (Broker.sampleBroker 0 1 10, none) ∧
      ∃ s t, run (step Mongo.plain 0)
          (State.opened [sampleDocument 1, sampleDocument 2] (Broker.sampleBroker 0 1 10))
          (fillQueue ++ [.read 1, .io, .io] ++ List.replicate 8 .reader) = some s ∧
        run (step Mongo.plain 0) s [.rewind, .read 1, .io, .io] = some t ∧
        ¬DeliversAfresh Mongo.plain 0 (Broker.sampleBroker 0 1 10)
          [sampleDocument 1, sampleDocument 2] t := by
  refine ⟨by decide, ?_⟩
  have hdelivered : (run (step Mongo.plain 0)
      (State.opened [sampleDocument 1, sampleDocument 2] (Broker.sampleBroker 0 1 10))
      (fillQueue ++ [.read 1, .io, .io] ++ List.replicate 8 .reader ++
        [.rewind, .read 1, .io, .io])).map (fun t => t.log.delivered) =
          some [(sampleDocument 2).toBSON] := by decide +kernel
  obtain ⟨t, ht, hlog⟩ := Option.map_eq_some_iff.mp hdelivered
  rw [run_append] at ht
  obtain ⟨s, hs, ht⟩ := Option.bind_eq_some_iff.mp ht
  refine ⟨s, t, hs, ht, ?_⟩
  intro h
  have hprefix := h.1
  rw [hlog] at hprefix
  exact absurd hprefix (by decide +kernel)

/-! ## The first query after a rewind -/

/-- Every query that was the first after a rewind was sent without a bound on `_id`. -/
def FirstQueryUnbounded (b : Broker) (s : State) : Prop :=
  ∀ q ∈ s.log.issued, q.1 = true → q.2 = b.conditions

/-- If the step is the end of a query that had a rewind since its start, the query returned
nothing. -/
def NoStaleStore (s : State) (a : Action) : Prop :=
  s.reader = .fetched → a = .reader → s.log.rewound = true → s.broker.jsonDocCache = []

instance (s : State) (a : Action) : Decidable (NoStaleStore s a) :=
  inferInstanceAs (Decidable (_ → _ → _ → _))

/-- **The first query after a rewind.** In every run of a session, terminated or not, in which no
query that returns documents has a rewind between its start and its end, every query that was
the first after a rewind was sent without a bound on `_id`. There is no converse: such a query sets
`m_last_doc_id` to a position from before the rewind, but a second rewind may clear it before the next
query starts. -/
theorem firstQueryUnbounded_of_noStaleStore (M : Mongo) (seconds : Nat) (coll : List Document)
    (b : Broker) (as : List Action) (t : State)
    (hrun : run (step M seconds) (State.opened coll b) as = some t)
    (hguard : Guarded (step M seconds) NoStaleStore (State.opened coll b) as) :
    FirstQueryUnbounded b t := by
  have hstart : Configured b (State.opened coll b) ∧
      Feed.IssuesFresh (source M b) none (feed (State.opened coll b)) := by
    refine ⟨Or.inl rfl, fun h => Bool.noConfusion h, ?_⟩
    intro q hq
    cases hq
  have hstep : ∀ s a t, Configured b s ∧ Feed.IssuesFresh (source M b) none (feed s) →
      NoStaleStore s a → step M seconds s a = some t →
        Configured b t ∧ Feed.IssuesFresh (source M b) none (feed t) := by
    rintro s a t ⟨hb, hs⟩ hguard hst
    obtain ⟨hb', -, m, hmove, hallows⟩ := step_isMove hb hst
    refine ⟨hb', hmove.issuesFresh ?_ hs⟩
    rintro rfl hrewound
    obtain ⟨hfetched, ha⟩ := hallows
    have hcache := hguard hfetched ha hrewound
    simp [feed, hfetched, Reader.flight, hcache]
  have hfresh := (run_invariant hstep hstart hguard hrun).2
  intro q hq hfirst
  exact hfresh.issued q hq hfirst

/-- A rewind between the first query and the second. -/
theorem firstQueryUnbounded_of_noStaleStore_sample : ∃ t,
    run (step Mongo.plain 0) (State.opened [sampleDocument 1] (Broker.sampleBroker 0 1 10))
        (fillQueue ++ [.rewind, .reader, .reader, .reader]) = some t ∧
      FirstQueryUnbounded (Broker.sampleBroker 0 1 10) t :=
  ⟨_, rfl, firstQueryUnbounded_of_noStaleStore Mongo.plain 0 [sampleDocument 1] _
    (fillQueue ++ [.rewind, .reader, .reader, .reader]) _ rfl (by decide +kernel)⟩

/-- A rewind between the first query and its end is overwritten: the next query asks for the
documents behind the first one. -/
theorem not_firstQueryUnbounded_sample :
    Broker.new.openOn (fun _ => none) (some (Broker.sampleOptions 0 1 10)) =
        (Broker.sampleBroker 0 1 10, none) ∧
      ∃ t, run (step Mongo.plain 0)
          (State.opened [sampleDocument 1] (Broker.sampleBroker 0 1 10))
          ([.reader, .reader, .reader, .rewind] ++ fillQueue) = some t ∧
        ¬FirstQueryUnbounded (Broker.sampleBroker 0 1 10) t := by
  refine ⟨by decide, _, rfl, ?_⟩
  intro h
  have hbounded := h (true, [("brand", .str "Nokia"), ("_id", .obj [("$gt", .oid 1)])])
    (List.mem_cons_of_mem _ List.mem_cons_self) rfl
  exact absurd hbounded (by decide)

end Zbroker.ReadSession
