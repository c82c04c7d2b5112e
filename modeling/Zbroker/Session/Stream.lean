import Zbroker.Session.ReadFeed

/-!
# The stream of a read session

Over an unchanging collection the queries of a session bring the keyset pagination of the
matching documents, and every page is pushed from its back.

* `stream M b coll k` — what a session at the position `k` still delivers.
* `isStream_stream` — the queries bring it, page by page.
* `Drained M b s` — nothing is on its way under the old position: no document in the queue or
  with the read thread, and the query in flight, if any, brings nothing or the first page.
* `Streaming M b coll s` — the session is live and on its stream. **`Streaming.step`**: its
  steps keep that, if every rewind finds it drained.
-/

namespace Zbroker.ReadSession

open Found Found.Transition

variable {M : Mongo} {b : Broker} {coll : List Document}

/-! ## The pages of the source -/

/-- The page a query from the position `k` brings. -/
theorem find_ask (hcoll : (coll.map Document.oid).Nodup) (hskip : 0 ≤ b.skip)
    (hlimit : 1 ≤ b.limit) (k : Option OID) :
    (source M b).find coll ((source M b).ask k) =
      (Broker.pageAfter M coll k b).map (M.view b.queryFields) :=
  @Broker.find_prepareCondition M coll hcoll { b with lastDocId := k } hskip hlimit

/-- The position after that page: the id of its last document, if the fields keep it. -/
theorem advance_find (hcoll : (coll.map Document.oid).Nodup) (hlimit : 1 ≤ b.limit)
    {k k' : Option OID}
    (hk : (source M b).advance k ((source M b).find coll ((source M b).ask k)) = some k') :
    Broker.pageAfter M coll k b = [] ∧ k' = k ∨
      Mongo.keepsId b.queryFields = true ∧
        ∃ d, (Broker.pageAfter M coll k b).getLast? = some d ∧ k' = some d.oid := by
  rw [find_ask hcoll (skip_nonneg_of_advance hk) hlimit] at hk
  rcases hlast : (Broker.pageAfter M coll k b).getLast? with _ | d
  · have hnil := List.getLast?_eq_none_iff.mp hlast
    rw [hnil] at hk
    cases hk
    exact Or.inl ⟨hnil, rfl⟩
  · simp only [source, List.getLast?_map, hlast, Option.map_some, M.objectID_view] at hk
    split_ifs at hk with hid
    · exact Or.inr ⟨hid, d, rfl, (Option.some.inj hk).symm⟩
    · cases hk

/-! ## The stream -/

/-- What a session at the position `k` still delivers: the pages behind it, each from its
back. -/
def stream (M : Mongo) (b : Broker) (coll : List Document) (k : Option OID) : List BSONObj :=
  (Keyset.reversedPages b.skip.toNat b.limit.toNat
    (Keyset.after Document.oid k (Broker.matching M coll b))).map (M.view b.queryFields)

/-- **The queries bring the stream.** -/
theorem isStream_stream (hcoll : (coll.map Document.oid).Nodup) (hlimit : 1 ≤ b.limit) :
    Feed.IsStream (source M b) coll (stream M b coll) := by
  intro k k' hk
  have hlimit' : 1 ≤ b.limit.toNat := by omega
  have hskip := skip_nonneg_of_advance hk
  rcases advance_find hcoll hlimit hk with ⟨hnil, rfl⟩ | ⟨-, d, hlast, rfl⟩
  · rw [find_ask hcoll hskip hlimit, hnil]
    rfl
  · rw [find_ask hcoll hskip hlimit]
    have hbehind := Keyset.after_lastKey (Broker.ascending_matching hcoll b) hlast
    unfold stream
    rw [Keyset.reversedPages_eq_append hlimit', List.map_append, List.map_reverse, hbehind]
    rfl

/-! ## Sessions on their stream -/

/-- What the query in flight brings. -/
def inFlight (M : Mongo) (b : Broker) (s : State) : List BSONObj :=
  Feed.page (source M b) s.coll (s.reader.flight s.broker.jsonDocCache)

/-- Nothing is on its way under the old position: the queue is empty, the read thread holds no
document, and the query in flight brings nothing or the first page. -/
structure Drained (M : Mongo) (b : Broker) (s : State) : Prop where
  queue : s.broker.queue.queue = []
  held : s.reader.held = []
  flight : inFlight M b s = [] ∨ inFlight M b s = (source M b).find s.coll b.conditions

/-- A live session on the stream over `coll`. -/
structure Streaming (M : Mongo) (b : Broker) (coll : List Document) (s : State) : Prop where
  live : Live b s
  conserves : (feed s).Conserves
  onStream : Feed.OnStream (source M b) none coll (stream M b coll) (feed s)

/-- Right after `open` nothing was brought yet. -/
theorem streaming_opened {connect : String → Option String} {options : BSONObj}
    (hopen : Broker.new.openOn connect (some options) = (b, none)) (coll : List Document) :
    Streaming M b coll (State.opened coll b) := by
  have hlast : b.lastDocId = none := (Broker.fresh_of_openOn hopen).lastDocId
  refine ⟨live_opened hopen coll, conserves_opened hopen coll, rfl, Or.inl rfl,
    fun p hp => absurd hp List.not_mem_nil, ?_⟩
  show [] ++ stream M b coll b.lastDocId = stream M b coll none
  rw [hlast]
  rfl

/-- **The steps of a session on its stream.** They are moves that take documents in the order of
the stream, as long as the collection does not change and every rewind finds the session
drained. -/
theorem Streaming.step {seconds : Nat} {s t : State} {a : Action}
    (hcoll : (coll.map Document.oid).Nodup) (hlimit : 1 ≤ b.limit) (h : Streaming M b coll s)
    (hstep : step M seconds s a = some t) (hterm : a ≠ .term) (hinsert : ∀ d, a ≠ .insert d)
    (hrewind : a = .rewind → Drained M b s) :
    Streaming M b coll t ∧ (t.io.kind = .free ∨ t.io.kind = s.io.kind ∨ t.io.kind = a.kind) ∧
      ∃ m, Feed.Step (source M b) none (feed s) m (feed t) ∧ Allows M s a m := by
  obtain ⟨hlive, hkind, m, hmove, hallows, hclose, hdrop⟩ := h.live.step hstep hterm
  have hchange : m ≠ .change := by
    rintro rfl
    obtain ⟨d, hd⟩ := hallows
    exact hinsert d hd
  have hconserves : (feed t).Conserves := by
    apply hmove.conserves hdrop _ h.conserves
    rintro rfl
    exact ⟨(hrewind hallows).queue, (hrewind hallows).held⟩
  have hcontents : s.coll = coll := h.onStream.contents
  have honStream : Feed.OnStream (source M b) none coll (stream M b coll) (feed t) := by
    apply hmove.onStream (isStream_stream hcoll hlimit) hchange hclose _ h.onStream
    rintro rfl
    have hflight := (hrewind hallows).flight
    rw [inFlight, hcontents] at hflight
    exact hflight
  exact ⟨⟨hlive, hconserves, honStream⟩, hkind, m, hmove, hallows⟩

/-- What left the queue since the start or the last rewind is a beginning of the stream. -/
theorem Streaming.popped_isPrefix {s : State} (h : Streaming M b coll s) :
    s.log.popped <+: stream M b coll none :=
  Feed.popped_isPrefix h.onStream h.conserves

end Zbroker.ReadSession
