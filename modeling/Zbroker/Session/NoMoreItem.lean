import Zbroker.Session.ReadFeed

/-!
# What `NoMoreItem` tells the client

`batch_pop` gives up when its pops have timed out often enough; `do_read` then answers
`NoMoreItem`, and does not look at `m_reach_end`.

* `Rest s` — `m_reach_end` is set, the last query that ended since the last rewind brought no
  document, and the read thread holds none; `AtEnd s` — and the queue is empty. The flag alone does
  not say so: `read()` may set it after a rewind for a query that ended before.
* `ComesToRest s` — the next step of the read thread brings it to rest.
* `Watched`, `watch` — the session with the history of the READ request that is under way, or was
  the last one: whether it met an instant of `AtEnd`, and whether it began at `Rest` or the read
  thread has come to rest since.
* `InTime` — the last deadline of a READ that has popped nothing passes only in the second case.
* **`noMoreItem_iff`**: whatever the io thread does by itself from some state of a run, it answers
  `NoMoreItem` only to a READ that met the end of the data, exactly when the steps of the run are
  `InTime`.

The proof follows one READ. While it has popped nothing, no document has left the queue
(`popless_of_step`); so if the read thread is at rest at some instant of it, the queue is either
empty then, or holds a document that the READ will find (`Remembers`). Past its last deadline the io
thread looks at nothing any more (`Doomed.exists_answer`), so what decides is the history at that
deadline (`sound_step_iff`).
-/

namespace Zbroker.ReadSession

open Found Found.Transition

variable {M : Mongo} {seconds : Nat} {s t : State} {b : Broker}

/-! ## The end of the data -/

/-- The documents the read thread has that are not in the queue; a query that has not returned
has them in its cache, `m_json_doc_cache`. -/
def Reader.undelivered (cache : List BSONObj) : Reader → List BSONObj
  | .fetched => cache
  | r => r.held

/-- `m_reach_end` is set, the read thread holds no document, and the last query that ended since the
last rewind brought none. -/
structure Rest (s : State) : Prop where
  undelivered : s.reader.undelivered s.broker.jsonDocCache = []
  reachEnd : s.broker.reachEnd = true
  stored : s.log.stored.getLast? = some []

/-- There is nothing left, in the queue or with the read thread. -/
def AtEnd (s : State) : Prop := s.broker.queue.queue = [] ∧ Rest s

instance (s : State) : Decidable (Rest s) :=
  decidable_of_iff (s.reader.undelivered s.broker.jsonDocCache = [] ∧ s.broker.reachEnd = true ∧
    s.log.stored.getLast? = some [])
    ⟨fun h => ⟨h.1, h.2.1, h.2.2⟩, fun h => ⟨h.undelivered, h.reachEnd, h.stored⟩⟩

instance (s : State) : Decidable (AtEnd s) := inferInstanceAs (Decidable (_ ∧ _))

/-- The next step of the read thread brings it to rest: a query without documents ends while
`m_reach_end` is set, or has returned, and no REWIND came in between. -/
def ComesToRest (s : State) : Prop :=
  s.reader = .fetched ∧ s.broker.jsonDocCache = [] ∧ s.broker.reachEnd = true ∨
    s.reader = .returned [] ∧ s.log.stored.getLast? = some []

instance (s : State) : Decidable (ComesToRest s) := inferInstanceAs (Decidable (_ ∨ _))

/-- A READ for which `do_read` packs `NoMoreItem`. -/
def Io.GivesUp : Io → Prop
  | .responding _ docs ret => docs = [] ∧ ret = none
  | _ => False

instance : DecidablePred Io.GivesUp := fun p => by unfold Io.GivesUp; split <;> infer_instance

/-- The io thread is about to answer `NoMoreItem`. -/
def AnswersNoMoreItem (s : State) : Prop := s.fault = none ∧ s.io.GivesUp

instance (s : State) : Decidable (AnswersNoMoreItem s) := inferInstanceAs (Decidable (_ ∧ _))

/-- The answers with this code are given so. -/
theorem givesUp_of_code {conn : Nat} {docs : List BSONObj} {ret : Option Nat} {body : BSONObj}
    (h : readResponse M docs ret = .ok body)
    (hcode : BSON.getIntField body "response" = Response.noMoreItem.code) :
    (Io.responding conn docs ret).GivesUp :=
  eq_nil_of_code_noMoreItem h hcode

/-! ## The history of a READ -/

/-- A session, and what the READ under way or the last one has met. -/
structure Watched where
  state : State
  /-- An instant of `AtEnd`. -/
  ended : Bool
  /-- `Rest` when it began, or the read thread has come to rest since. -/
  rested : Bool
  deriving DecidableEq

/-- No READ has begun. -/
def Watched.start (s : State) : Watched := ⟨s, false, false⟩

/-- A step of the session. -/
def watch (M : Mongo) (seconds : Nat) (w : Watched) (a : Action) : Option Watched :=
  (step M seconds w.state a).map fun t =>
    match a with
    | .read _ => ⟨t, decide (AtEnd t), decide (Rest t)⟩
    | .reader =>
        ⟨t, w.ended || decide (AtEnd t), w.rested || decide (ComesToRest w.state)⟩
    | _ => ⟨t, w.ended || decide (AtEnd t), w.rested⟩

/-- A READ that has popped nothing, and gives up if its next pop times out; `m_read_retry` is that
of `b`. -/
def AtLast (b : Broker) : Call → Prop
  | .read _ f => f.docs = [] ∧ b.readRetry < f.retry + 1
  | _ => False

/-- The last deadline of a READ that has popped nothing passes only if it began with the read thread
at rest, or the thread has come to rest since. -/
def InTime (b : Broker) (w : Watched) (a : Action) : Prop :=
  a = .ioExpire → ∀ k, w.state.io = .popWait k .waiting → AtLast b k → w.rested = true

/-! ## Rest -/

section rest

/-- A notification moves no document. -/
@[simp] theorem undelivered_notify (cache : List BSONObj) (r : Reader) :
    r.notify.undelivered cache = r.undelivered cache := by
  cases r <;> rfl

/-- The read thread comes to rest as `ComesToRest` says, and by no other of its steps. -/
theorem rest_of_readerStep (h : Placed s) (hstep : ReaderStep M s t) (hrest : Rest t) :
    Rest s ∨ ComesToRest s := by
  have hpush (hr : s.reader.inPush = true) (hreach : s.broker.reachEnd = true) :
      Rest s ∨ ComesToRest s := by
    rw [h.reachEnd hr] at hreach
    cases hreach
  cases hstep with
  | turn hr => exact Or.inl ⟨by rw [hr]; rfl, hrest.reachEnd, hrest.stored⟩
  | start hr => exact Or.inl ⟨by rw [hr]; rfl, hrest.reachEnd, hrest.stored⟩
  | fetch conditions hr => exact Or.inl ⟨by rw [hr]; rfl, hrest.reachEnd, hrest.stored⟩
  | store c hr hc =>
      -- the page is the last one that was stored, and `m_reach_end` is what it was
      have hc' := eq_of_queryStore hc
      have hcache : c.jsonDocCache = s.broker.jsonDocCache := by rw [hc']
      have hreach : c.reachEnd = s.broker.reachEnd := by rw [hc']
      exact Or.inr (Or.inl ⟨hr, hcache ▸ hrest.undelivered, hreach ▸ hrest.reachEnd⟩)
  | fail e hr hc => exact Or.inl ⟨hrest.undelivered, hrest.reachEnd, hrest.stored⟩
  | branch docs hr =>
      have hstored := hrest.stored
      have hreach := hrest.reachEnd
      unfold State.branch at hstored hreach
      split_ifs at hstored hreach with hempty
      rw [List.isEmpty_iff] at hempty
      exact Or.inr (Or.inr ⟨by rw [hr, hempty], hstored⟩)
  | test docs hr => exact hpush (by rw [hr]; rfl) hrest.reachEnd
  | wait docs hr hfull => exact hpush (by rw [hr]; rfl) hrest.reachEnd
  | push docs hr =>
      refine hpush ?_ hrest.reachEnd
      rcases hr with ⟨hr, -⟩ | hr
      · rw [hr]
        rfl
      · rw [hr]
        rfl
  | giveUp docs hr => exact hpush (by rw [hr]; rfl) hrest.reachEnd
  | rise hr => exact Or.inl ⟨by rw [hr]; rfl, hrest.reachEnd, hrest.stored⟩

/-- The io thread brings the read thread to rest in no step. -/
theorem rest_of_ioStep (hstep : IoStep M s t) (hrest : Rest t) : Rest s := by
  cases hstep with
  | wait k hio hqueue =>
      refine ⟨?_, hrest.reachEnd, hrest.stored⟩
      rw [← undelivered_notify]
      exact hrest.undelivered
  | pop k d rest hio hqueue =>
      refine ⟨?_, hrest.reachEnd, hrest.stored⟩
      rw [← undelivered_notify]
      exact hrest.undelivered
  | respond conn docs ret hio =>
      unfold State.respond at hrest
      split at hrest
      · exact ⟨hrest.undelivered, hrest.reachEnd, hrest.stored⟩
      · exact ⟨hrest.undelivered, hrest.reachEnd, hrest.stored⟩
  | close hio hr => cases hrest.reachEnd
  | _ => exact ⟨hrest.undelivered, hrest.reachEnd, hrest.stored⟩

/-- **What brings the read thread to rest**, among all steps. -/
theorem rest_of_step {a : Action} (h : Placed s) (hstep : step M seconds s a = some t)
    (hrest : Rest t) : Rest s ∨ a = .reader ∧ ComesToRest s := by
  have hsame (hreader : t.reader = s.reader) (hbroker : t.broker = s.broker)
      (hlog : t.log = s.log) : Rest s :=
    ⟨hreader ▸ hbroker ▸ hrest.undelivered, hbroker ▸ hrest.reachEnd, hlog ▸ hrest.stored⟩
  rcases step_effect hstep with ⟨_, hreader⟩ | ⟨_, hio⟩ | ⟨docs, hr, -⟩ | ⟨docs, hr⟩ | ⟨k, hio, -⟩ |
    ⟨k, hio⟩ | ⟨k, hio⟩ | ⟨conn, hio⟩ | ⟨n, hio⟩ | hio | hio | ⟨d, -⟩
  · exact (rest_of_readerStep h hreader hrest).imp_right fun hr => ⟨rfl, hr⟩
  · exact Or.inl (rest_of_ioStep hio hrest)
  · exact Or.inl ⟨by rw [hr]; exact hrest.undelivered, hrest.reachEnd, hrest.stored⟩
  · exact Or.inl ⟨by rw [hr]; exact hrest.undelivered, hrest.reachEnd, hrest.stored⟩
  · exact Or.inl (hsame rfl rfl rfl)
  · exact Or.inl (hsame rfl rfl rfl)
  · exact Or.inl (hsame rfl rfl rfl)
  · have hstart : (s.startRead conn).reader = s.reader ∧ (s.startRead conn).broker = s.broker ∧
        (s.startRead conn).log = s.log := by
      unfold State.startRead
      split_ifs
      · split <;> exact ⟨rfl, rfl, rfl⟩
      · exact ⟨rfl, rfl, rfl⟩
    exact Or.inl (hsame hstart.1 hstart.2.1 hstart.2.2)
  · exact Or.inl (hsame rfl rfl rfl)
  · by_cases hopen : s.broker.connected = true
    · have hreach := hrest.reachEnd
      rw [State.rewind, if_pos hopen] at hreach
      cases hreach
    · rw [State.rewind, if_neg hopen] at hrest
      exact Or.inl ⟨hrest.undelivered, hrest.reachEnd, hrest.stored⟩
  · have hreach := hrest.reachEnd
    have hstored := hrest.stored
    have hundelivered := hrest.undelivered
    unfold State.startTerm at hreach hstored hundelivered
    split_ifs at hreach hstored hundelivered
    · exact Or.inl ⟨hundelivered, hreach, hstored⟩
    · exact Or.inl ⟨hundelivered, hreach, hstored⟩
  · exact Or.inl (hsame rfl rfl rfl)

end rest

/-! ## The last deadline -/

/-- The call is a READ that has popped nothing. -/
def Call.Popless : Call → Prop
  | .read _ f => f.docs = []
  | _ => False

/-- A READ that has popped nothing and is not through. -/
def Io.Popless : Io → Prop
  | .entering k | .popWait k _ | .timedOut k | .queryEnter k | .queryWait k _ => k.Popless
  | _ => False

/-- A READ that has popped nothing and is past its last deadline. -/
def Io.LastOver (b : Broker) : Io → Prop
  | .popWait k .expired | .timedOut k | .queryEnter k | .queryWait k _ => AtLast b k
  | .responding _ docs ret => docs = [] ∧ ret = none
  | _ => False

/-- To give up is to be past the last deadline. -/
theorem Io.GivesUp.lastOver {p : Io} (h : p.GivesUp) : p.LastOver b := by
  cases p <;> first | exact h | cases h

/-- A call that is at its last pop has popped nothing. -/
theorem AtLast.popless {k : Call} (h : AtLast b k) : k.Popless := by
  cases k with
  | read conn f => exact h.1
  | _ => cases h

section deadline

/-- A notification pops nothing, and brings no deadline. -/
@[simp] theorem popless_notify (p : Io) : p.notify.Popless ↔ p.Popless := by
  cases p <;> exact Iff.rfl

@[simp] theorem popless_notifyQuery (p : Io) : p.notifyQuery.Popless ↔ p.Popless := by
  cases p <;> exact Iff.rfl

@[simp] theorem lastOver_notify (p : Io) : p.notify.LastOver b ↔ p.LastOver b := by
  rcases p with _ | _ | ⟨k, _ | _ | _⟩ | _ | _ | _ | _ | _ | _ | _ | _ <;> exact Iff.rfl

@[simp] theorem lastOver_notifyQuery (p : Io) : p.notifyQuery.LastOver b ↔ p.LastOver b := by
  cases p <;> exact Iff.rfl

/-- `term` is no READ. -/
theorem not_popless_ofTerm (r : BatchStep) : ¬ (Io.ofTerm r).Popless := by
  cases r <;> exact fun h => h

/-- `term` has no answer. -/
theorem not_lastOver_ofTerm (r : BatchStep) : ¬ (Io.ofTerm r).LastOver b := by
  cases r <;> exact fun h => h

/-- A call with a document is not one that has popped nothing. -/
theorem not_popless_onItem (k : Call) (d : BSONObj) : ¬ (k.onItem d).Popless := by
  intro h
  rcases k with n | ⟨conn, f⟩ | f
  · exact h
  · have hdocs := docs_onItem f d
    rw [show (Call.read conn f).onItem d = Io.ofRead conn (f.onItem d) from rfl] at h
    rcases hstep : f.onItem d with f' | ⟨docs, ret⟩
    · rw [hstep] at h hdocs
      have hnil : f'.docs = [] := h
      rw [show f'.docs = f.docs ++ [d] from hdocs] at hnil
      simp at hnil
    · rw [hstep] at h
      exact h
  · exact not_popless_ofTerm _ h

/-- An item is an answer. -/
theorem not_lastOver_onItem (k : Call) (d : BSONObj) : ¬ (k.onItem d).LastOver b := by
  intro h
  rcases k with n | ⟨conn, f⟩ | f
  · exact h
  · rw [show (Call.read conn f).onItem d = Io.ofRead conn (f.onItem d) from rfl] at h
    unfold BatchPop.onItem at h
    dsimp only at h
    split_ifs at h
    · cases h.2
    · exact h
  · exact not_lastOver_ofTerm _ h

/-- A READ that goes on behind its handler. -/
theorem Call.popless_of_onTimeout {k : Call} {c : Broker} (h : (k.onTimeout c).Popless) :
    k.Popless := by
  rcases k with n | ⟨conn, f⟩ | f
  · exact h
  · have hdocs := docs_onTimeout c f
    rw [show (Call.read conn f).onTimeout c = Io.ofRead conn (f.onTimeout c) from rfl] at h
    rcases hstep : f.onTimeout c with f' | ⟨docs, ret⟩
    · rw [hstep] at h hdocs
      exact Eq.trans (Eq.symm hdocs) h
    · rw [hstep] at h
      exact h.elim
  · exact absurd h (not_popless_ofTerm _)

/-- A handler that gives up has nothing and no retry left. -/
theorem lastOver_onTimeout_iff {k : Call} {c : Broker} (hretry : c.readRetry = b.readRetry) :
    (k.onTimeout c).LastOver b ↔ AtLast b k := by
  rcases k with n | ⟨conn, f⟩ | f
  · exact Iff.rfl
  · show (Io.ofRead conn (f.onTimeout c)).LastOver b ↔ f.docs = [] ∧ b.readRetry < f.retry + 1
    unfold BatchPop.onTimeout
    dsimp only
    rw [hretry]
    split_ifs with hagain
    · apply iff_of_false (fun h => h)
      intro h
      exact absurd hagain (not_le.mpr h.2)
    · exact ⟨fun h => ⟨h.1, not_le.mp hagain⟩, fun h => ⟨h.1, rfl⟩⟩
  · exact iff_of_false (not_lastOver_ofTerm _) fun h => h

/-- **A READ that has popped nothing after a step of the io thread had popped nothing before it**, and
no document has left the queue. -/
theorem popless_of_ioStep (hstep : IoStep M s t) (h : t.io.Popless) :
    s.io.Popless ∧ (t.broker.queue.queue = [] → s.broker.queue.queue = []) := by
  have hthrow {k : Call} (hk : k.onThrow.Popless) : k.Popless := by
    cases k <;> exact hk
  cases hstep with
  | refuse k e hio he => exact ⟨by rw [hio]; exact hthrow h, fun hnil => hnil⟩
  | wait k hio hqueue => exact ⟨by rw [hio]; exact h, fun hnil => hnil⟩
  | pop k d rest hio hqueue => exact absurd h (not_popless_onItem k d)
  | fault e hio => exact ⟨h, fun hnil => hnil⟩
  | timeOut k hio => exact ⟨by rw [hio]; exact hthrow h, fun hnil => hnil⟩
  | handle k hio =>
      refine ⟨?_, fun hnil => hnil⟩
      rw [hio]
      split_ifs at h
      · exact h
      · exact Call.popless_of_onTimeout h
  | queryEnter k hio => exact ⟨by rw [hio]; exact h, fun hnil => hnil⟩
  | queryLeave k hio => exact ⟨by rw [hio]; exact Call.popless_of_onTimeout h, fun hnil => hnil⟩
  | respond conn docs ret hio =>
      unfold State.respond at h
      split at h <;> exact h.elim
  | _ => exact h.elim

/-- What a step does to a READ that has popped nothing: it began with it, or was such a READ
before, and no document left the queue. -/
theorem popless_of_step {a : Action} (hstep : step M seconds s a = some t) (h : t.io.Popless) :
    (∃ conn, a = .read conn) ∨
      s.io.Popless ∧ (t.broker.queue.queue = [] → s.broker.queue.queue = []) := by
  rcases step_effect hstep with ⟨_, hreader⟩ | ⟨_, hio⟩ | ⟨docs, hr, -⟩ | ⟨docs, hr⟩ | ⟨k, hio, -⟩ |
    ⟨k, hio⟩ | ⟨k, hio⟩ | ⟨conn, hio⟩ | ⟨n, hio⟩ | hio | hio | ⟨d, -⟩
  · refine Or.inr ⟨?_, hreader.queue_eq_nil⟩
    rcases hreader.io with hio | hio | hio
    · rw [← hio]
      exact h
    · rw [← popless_notify, ← hio]
      exact h
    · rw [← popless_notifyQuery, ← hio]
      exact h
  · exact Or.inr (popless_of_ioStep hio h)
  · exact Or.inr ⟨h, fun hnil => hnil⟩
  · exact Or.inr ⟨h, fun hnil => hnil⟩
  · exact Or.inr ⟨by rw [hio]; exact h, fun hnil => hnil⟩
  · exact Or.inr ⟨by rw [hio]; exact h, fun hnil => hnil⟩
  · exact Or.inr ⟨by rw [hio]; exact h, fun hnil => hnil⟩
  · exact Or.inl ⟨conn, rfl⟩
  · exact h.elim
  · unfold State.rewind at h ⊢
    split_ifs at h ⊢
    · exact Or.inr ⟨h, fun hnil => hnil⟩
    · exact Or.inr ⟨h, fun hnil => hnil⟩
  · unfold State.startTerm at h
    split_ifs at h
    · exact h.elim
    · exact h.elim
  · exact Or.inr ⟨h, fun hnil => hnil⟩

/-- **No step of the io thread brings a READ past its last deadline**; only the deadline itself does.
-/
theorem lastOver_of_ioStep (hplaced : Placed s)
    (hretry : s.io ≠ .closed → s.broker.readRetry = b.readRetry) (hstep : IoStep M s t)
    (h : t.io.LastOver b) : s.io.LastOver b := by
  cases hstep with
  | refuse k e hio he =>
      -- the session is open, so `check_status` throws nothing
      have hnone := hplaced.opened (by rw [hio]; rintro ⟨⟩)
      rw [hnone] at he
      cases he
  | wait k hio hqueue => exact h.elim
  | pop k d rest hio hqueue => exact absurd h (not_lastOver_onItem k d)
  | fault e hio => exact h
  | timeOut k hio =>
      rw [hio]
      cases k <;> exact h
  | handle k hio =>
      rw [hio]
      split_ifs at h
      · exact h
      · exact (lastOver_onTimeout_iff (hretry (by rw [hio]; rintro ⟨⟩))).mp h
  | queryEnter k hio =>
      rw [hio]
      exact h
  | queryLeave k hio =>
      rw [hio]
      exact (lastOver_onTimeout_iff (hretry (by rw [hio]; rintro ⟨⟩))).mp h
  | respond conn docs ret hio =>
      unfold State.respond at h
      split at h <;> exact h.elim
  | _ => exact h.elim

/-- How a READ gets past its last deadline. -/
theorem lastOver_of_step {a : Action} (hplaced : Placed s)
    (hretry : s.io ≠ .closed → s.broker.readRetry = b.readRetry)
    (hstep : step M seconds s a = some t) (h : t.io.LastOver b) :
    s.io.LastOver b ∨ a = .ioExpire ∧ ∃ k, s.io = .popWait k .waiting ∧ AtLast b k := by
  rcases step_effect hstep with ⟨_, hreader⟩ | ⟨_, hio⟩ | ⟨docs, hr, -⟩ | ⟨docs, hr⟩ | ⟨k, hio, -⟩ |
    ⟨k, hio⟩ | ⟨k, hio⟩ | ⟨conn, hio⟩ | ⟨n, hio⟩ | hio | hio | ⟨d, -⟩
  · refine Or.inl ?_
    rcases hreader.io with hio | hio | hio
    · rw [← hio]
      exact h
    · rw [← lastOver_notify, ← hio]
      exact h
    · rw [← lastOver_notifyQuery, ← hio]
      exact h
  · exact Or.inl (lastOver_of_ioStep hplaced hretry hio h)
  · exact Or.inl h
  · exact Or.inl h
  · exact Or.inr ⟨rfl, k, hio, h⟩
  · exact h.elim
  · exact Or.inl (by rw [hio]; exact h)
  · unfold State.startRead at h
    split_ifs at h
    · split at h
      · exact Or.inl h
      · exact h.elim
    · exact Or.inl h
  · exact h.elim
  · unfold State.rewind at h
    split_ifs at h
    · exact Or.inl h
    · exact Or.inl h
  · unfold State.startTerm at h
    split_ifs at h
    · exact h.elim
    · exact h.elim
  · exact Or.inl h

end deadline

/-! ## Runs -/

section runs

variable {w v : Watched}

/-- The history after a step. -/
theorem watch_cases {a : Action} (h : watch M seconds w a = some v) :
    step M seconds w.state a = some v.state ∧
      ((∃ conn, a = .read conn) ∧ v.ended = decide (AtEnd v.state) ∧
          v.rested = decide (Rest v.state) ∨
        (∀ conn, a ≠ .read conn) ∧ v.ended = (w.ended || decide (AtEnd v.state)) ∧
          v.rested = (w.rested || decide (a = .reader ∧ ComesToRest w.state))) := by
  obtain ⟨t, ht, rfl⟩ := Option.map_eq_some_iff.mp h
  cases a with
  | read conn => exact ⟨ht, Or.inl ⟨⟨conn, rfl⟩, rfl, rfl⟩⟩
  | reader => exact ⟨ht, Or.inr ⟨fun _ hconn => (by cases hconn), rfl, by simp⟩⟩
  | _ => exact ⟨ht, Or.inr ⟨fun _ hconn => (by cases hconn), rfl, by simp⟩⟩

/-- What the history says in every state of a run. -/
structure Remembers (b : Broker) (w : Watched) : Prop where
  placed : Placed w.state
  configured : Configured b w.state
  ended : AtEnd w.state → w.ended = true
  rested : Rest w.state → w.rested = true
  rested_of_ended : w.ended = true → w.rested = true
  /-- A READ that has popped nothing has found the queue empty all along. -/
  popless : w.state.io.Popless → w.rested = true →
    w.ended = true ∨ w.state.broker.queue.queue ≠ []

/-- No READ has begun. -/
theorem remembers_start {connect : String → Option String} {options : BSONObj}
    (hopen : Broker.new.openOn connect (some options) = (b, none)) (coll : List Document) :
    Remembers b (Watched.start (State.opened coll b)) := by
  have hreach : b.reachEnd = false := (Broker.fresh_of_openOn hopen).reachEnd
  have hrest : ¬ Rest (State.opened coll b) := by
    rintro ⟨-, hend, -⟩
    rw [show (State.opened coll b).broker = b from rfl, hreach] at hend
    cases hend
  exact ⟨placed_opened hopen coll, Or.inl rfl, fun h => absurd h.2 hrest, fun h => absurd h hrest,
    fun h => (by cases h), fun h => h.elim⟩

/-- The step does bring the read thread to rest. -/
theorem rest_of_comesToRest (h : ComesToRest s) (hstep : step M seconds s .reader = some t) :
    Rest t := by
  rcases step_effect hstep with ⟨_, hreader⟩
  rcases h with ⟨hr, hcache, hreach⟩ | ⟨hr, hstored⟩
  · -- an empty page is stored
    have hstore : s.broker.queryStore = (s.broker.queryDone, none) := by
      rw [Broker.queryStore, hcache]
      rfl
    cases hreader with
    | store c hfetched hc =>
        rw [hstore] at hc
        cases hc
        exact ⟨hcache, hreach, by simp [State.stored, Broker.queryDone, hcache]⟩
    | fail e hfetched hc =>
        have hnone := congrArg Prod.snd (hstore.symm.trans hc)
        cases hnone
    | _ => simp_all
  · cases hreader with
    | branch docs hdocs =>
        rw [hr] at hdocs
        cases hdocs
        exact ⟨rfl, rfl, hstored⟩
    | push docs hdocs =>
        rw [hr] at hdocs
        rcases hdocs with ⟨hdocs, -⟩ | hdocs <;> cases hdocs
    | _ => simp_all

/-- **A step keeps what the history says.** -/
theorem Remembers.step {a : Action} (h : Remembers b w) (hwatch : watch M seconds w a = some v) :
    Remembers b v := by
  obtain ⟨hstep, hhistory⟩ := watch_cases hwatch
  have hended : AtEnd v.state → v.ended = true := by
    intro hend
    rcases hhistory with ⟨-, he, -⟩ | ⟨-, he, -⟩
    · simp [he, hend]
    · simp [he, hend]
  have hrested : Rest v.state → v.rested = true := by
    intro hrest
    rcases hhistory with ⟨-, -, hr⟩ | ⟨-, -, hr⟩
    · simp [hr, hrest]
    · rcases rest_of_step h.placed hstep hrest with hbefore | hreturn
      · simp [hr, h.rested hbefore]
      · simp [hr, hreturn]
  refine ⟨h.placed.step hstep, (step_isMove h.configured hstep).configured, hended, hrested, ?_, ?_⟩
  · intro he
    rcases hhistory with ⟨-, he', -⟩ | ⟨-, he', hr⟩
    · rw [he'] at he
      exact hrested (of_decide_eq_true he).2
    · rw [he', Bool.or_eq_true] at he
      rcases he with he | he
      · simp [hr, h.rested_of_ended he]
      · exact hrested (of_decide_eq_true he).2
  · intro hpopless hr
    by_cases hqueue : v.state.broker.queue.queue = []
    swap
    · exact Or.inr hqueue
    refine Or.inl ?_
    rcases hhistory with ⟨-, -, hr'⟩ | ⟨hread, he', hr'⟩
    · rw [hr'] at hr
      exact hended ⟨hqueue, of_decide_eq_true hr⟩
    · rcases popless_of_step hstep hpopless with ⟨conn, hconn⟩ | ⟨hbefore, hnil⟩
      · exact absurd hconn (hread conn)
      · rw [hr', Bool.or_eq_true] at hr
        rcases hr with hr | hr
        · rcases h.popless hbefore hr with he | hne
          · simp [he', he]
          · exact absurd (hnil hqueue) hne
        · -- the read thread comes to rest while this READ waits
          obtain ⟨rfl, hcomes⟩ := of_decide_eq_true hr
          exact hended ⟨hqueue, rest_of_comesToRest hcomes hstep⟩

/-! ### Past the last deadline -/

/-- The steps to the answer of a READ that is past its last deadline. -/
def Io.toAnswer : Io → Nat
  | .popWait _ _ => 5
  | .timedOut _ => 4
  | .queryEnter _ => 3
  | .queryWait _ .waiting => 2
  | .queryWait _ _ => 1
  | _ => 0

/-- A pop that has timed out has an answer already. -/
theorem toAnswer_onTimeout (c : Broker) (k : Call) : (k.onTimeout c).toAnswer = 0 := by
  rcases k with n | ⟨conn, f⟩ | f
  · rfl
  · show (Io.ofRead conn (f.onTimeout c)).toAnswer = 0
    rcases f.onTimeout c with _ | _ <;> rfl
  · show (Io.ofTerm (f.onTimeout c)).toAnswer = 0
    rcases f.onTimeout c with _ | _ <;> rfl

/-- Past its last deadline, without an end of the data so far. -/
structure Doomed (b : Broker) (w : Watched) : Prop where
  remembers : Remembers b w
  fault : w.state.fault = none
  last : w.state.io.LastOver b
  ended : w.ended = false

/-- The io thread goes on by itself, and the end of the data does not come. -/
theorem Doomed.goOn (h : Doomed b w) {a : Action} {p q : Io} (ha : a = .io ∨ a = .ioWake)
    (hstep : step M seconds w.state a = some { w.state with io := p }) (hp : p.LastOver b)
    (hlt : p.toAnswer < q.toAnswer) :
    ∃ as v, (∀ a ∈ as, a = .io ∨ a = .ioWake) ∧ run (watch M seconds) w as = some v ∧ Doomed b v ∧
      v.state.io.toAnswer < q.toAnswer := by
  obtain ⟨v, hv⟩ : ∃ v, watch M seconds w a = some v := by
    unfold watch
    rw [hstep]
    exact ⟨_, rfl⟩
  obtain ⟨hstate, hhistory⟩ := watch_cases hv
  rw [hstep] at hstate
  have hsame : { w.state with io := p } = v.state := Option.some.inj hstate
  have hend : ¬ AtEnd v.state := by
    intro hend
    rw [← hsame] at hend
    have hbefore := h.remembers.ended
      ⟨hend.1, hend.2.undelivered, hend.2.reachEnd, hend.2.stored⟩
    rw [h.ended] at hbefore
    cases hbefore
  have hended : v.ended = false := by
    rcases hhistory with ⟨⟨conn, hread⟩, -⟩ | ⟨-, he, -⟩
    · rcases ha with rfl | rfl <;> cases hread
    · simp [he, hend, h.ended]
  refine ⟨[a], v, by simpa using ha, ?_, ⟨h.remembers.step hv, ?_, ?_, hended⟩, ?_⟩
  · rw [run_cons, hv]
    rfl
  · rw [← hsame]
    exact h.fault
  · rw [← hsame]
    exact hp
  · rw [← hsame]
    exact hlt

/-- **Past the last deadline nothing is looked at.** The READ can be answered before the read thread
takes another step. -/
theorem Doomed.exists_answer (h : Doomed b w) :
    ∃ as u, (∀ a ∈ as, a = .io ∨ a = .ioWake) ∧ run (watch M seconds) w as = some u ∧
      Doomed b u ∧ u.state.io.GivesUp := by
  refine exists_run_of_progress (fun w : Watched => w.state.io.toAnswer) ?_ h
  intro w h
  have hretry (hopened : w.state.io ≠ .closed) : w.state.broker.readRetry = b.readRetry := by
    rcases h.remembers.configured with hconfig | ⟨hclosed, -⟩
    · exact congrArg Config.readRetry hconfig
    · exact absurd hclosed hopened
  have hlast := h.last
  have hfault : w.state.fault.isSome = false := by rw [h.fault]; rfl
  rcases hio : w.state.io with _ | _ | ⟨k, _ | _ | _⟩ | k | k | ⟨k, _ | _ | _⟩ | ⟨conn, docs, ret⟩ |
    _ | _ | _ | _
  all_goals rw [hio] at hlast
  case responding => exact Or.inl hlast
  case popWait.expired =>
    right
    have hthrow : k.onThrow = .timedOut k := by
      cases k <;> first | rfl | exact hlast.elim
    refine h.goOn (p := .timedOut k) (Or.inl rfl) ?_ hlast (Nat.lt_succ_self 4)
    simp [step, hfault, State.ioStep, hio, hthrow]
  case timedOut =>
    right
    by_cases hquerying : w.state.broker.querying = true
    · refine h.goOn (p := .queryEnter k) (Or.inl rfl) ?_ hlast (Nat.lt_succ_self 3)
      simp [step, hfault, State.ioStep, hio, hquerying]
    · have hover : (k.onTimeout w.state.broker).LastOver b :=
        (lastOver_onTimeout_iff (hretry (by rw [hio]; rintro ⟨⟩))).mpr hlast
      refine h.goOn (Or.inl rfl) ?_ hover (by rw [toAnswer_onTimeout]; exact Nat.succ_pos 3)
      simp [step, hfault, State.ioStep, hio, hquerying]
  case queryEnter =>
    right
    refine h.goOn (p := .queryWait k .waiting) (Or.inl rfl) ?_ hlast (Nat.lt_succ_self 2)
    simp [step, hfault, State.ioStep, hio]
  case queryWait.waiting =>
    -- the wait on `m_con_query` has no deadline, but it may end without a notification
    right
    refine h.goOn (p := .queryWait k .notified) (Or.inr rfl) ?_ hlast (Nat.lt_succ_self 1)
    simp [step, hfault, Io.wake, hio]
  case queryWait.notified =>
    right
    have hover : (k.onTimeout w.state.broker).LastOver b :=
      (lastOver_onTimeout_iff (hretry (by rw [hio]; rintro ⟨⟩))).mpr hlast
    refine h.goOn (Or.inl rfl) ?_ hover (by rw [toAnswer_onTimeout]; exact Nat.succ_pos 0)
    simp [step, hfault, State.ioStep, hio]
  case queryWait.expired => exact absurd hio (h.remembers.placed.query k)
  all_goals exact hlast.elim

/-- A READ past its last deadline has met the end of the data. -/
def Sound (b : Broker) (w : Watched) : Prop :=
  w.state.fault = none → w.state.io.LastOver b → w.ended = true

/-- The broker that a READ asks has the retries of `b`. -/
theorem Remembers.readRetry (h : Remembers b w) (hopened : w.state.io ≠ .closed) :
    w.state.broker.readRetry = b.readRetry := by
  rcases h.configured with hconfig | ⟨hclosed, -⟩
  · exact congrArg Config.readRetry hconfig
  · exact absurd hclosed hopened

/-- **What one step does.** It leads past the last deadline without an end of the data only if it is
that deadline, and not in time. -/
theorem sound_step_iff {a : Action} (h : Remembers b w) (hsound : Sound b w)
    (hwatch : watch M seconds w a = some v) : Sound b v ↔ InTime b w a := by
  have hv : Remembers b v := h.step hwatch
  obtain ⟨hstep, hhistory⟩ := watch_cases hwatch
  have hfault : w.state.fault = none := fault_of_step hstep
  by_cases hbefore : w.state.io.LastOver b
  · have hended : w.ended = true := hsound hfault hbefore
    apply iff_of_true
    · intro _ _
      rcases hhistory with ⟨⟨conn, rfl⟩, -⟩ | ⟨-, he, -⟩
      · -- a READ starts only when the io thread is idle
        generalize v.state = t at hstep
        rcases step_effect hstep with _ | _ | _ | _ | _ | _ | _ | ⟨_, hio⟩
        rw [hio] at hbefore
        exact hbefore.elim
      · rw [he, hended, Bool.true_or]
    · rintro - k hio -
      rw [hio] at hbefore
      exact hbefore.elim
  · by_cases hdeadline : a = .ioExpire ∧ ∃ k, w.state.io = .popWait k .waiting ∧ AtLast b k
    · obtain ⟨rfl, k, hio, hlast⟩ := hdeadline
      have hpopless : w.state.io.Popless := by
        rw [hio]
        exact hlast.popless
      obtain ⟨hfaultv, hover⟩ : v.state.fault = none ∧ v.state.io.LastOver b := by
        generalize v.state = t at hstep
        rcases step_effect hstep with _ | _ | _ | _ | ⟨k', hio', -⟩
        rw [hio] at hio'
        cases hio'
        exact ⟨hfault, hlast⟩
      rcases hhistory with ⟨⟨conn, hread⟩, -⟩ | ⟨-, he, hr⟩
      · cases hread
      constructor
      · intro hsoundv _ _ _ _
        have hrested := hv.rested_of_ended (hsoundv hfaultv hover)
        simpa [hr] using hrested
      · intro hintime _ _
        rcases h.popless hpopless (hintime rfl k hio hlast) with hended | hne
        · rw [he, hended, Bool.true_or]
        · exact absurd (h.placed.empty k hio) hne
    · apply iff_of_true
      · intro _ hover
        rcases lastOver_of_step h.placed h.readRetry hstep hover with hover' | hdeadline'
        · exact absurd hover' hbefore
        · exact absurd hdeadline' hdeadline
      · intro ha k hio hlast
        exact absurd ⟨ha, k, hio, hlast⟩ hdeadline

/-- What the io thread does by itself from a state depends on whether it is sound. -/
theorem sound_iff_forall_goOn (h : Remembers b w) :
    Sound b w ↔ ∀ as u, (∀ a ∈ as, a = .io ∨ a = .ioWake) → run (watch M seconds) w as = some u →
      AnswersNoMoreItem u.state → u.ended = true := by
  constructor
  · intro hsound as u has hrun hanswer
    have hstep : ∀ w a v, Remembers b w ∧ Sound b w → (a = .io ∨ a = .ioWake) →
        watch M seconds w a = some v → Remembers b v ∧ Sound b v := by
      rintro w a v ⟨hw, hs⟩ ha hv
      refine ⟨hw.step hv, (sound_step_iff hw hs hv).mpr ?_⟩
      intro hexpire
      rcases ha with rfl | rfl <;> cases hexpire
    have hguarded : Guarded (watch M seconds) (fun _ a => a = .io ∨ a = .ioWake) w as :=
      guarded_of_forall_mem (watch M seconds) has
    obtain ⟨-, hs⟩ := run_invariant hstep ⟨h, hsound⟩ hguarded hrun
    exact hs hanswer.1 hanswer.2.lastOver
  · intro hall hfault hlast
    by_contra hended
    have hdoomed : Doomed b w := ⟨h, hfault, hlast, by simpa using hended⟩
    obtain ⟨as, u, has, hrun, hu, hgives⟩ := @Doomed.exists_answer M seconds b w hdoomed
    have hended' := hall as u has hrun ⟨hu.fault, hgives⟩
    rw [hu.ended] at hended'
    cases hended'

end runs

/-- **When `NoMoreItem` can be believed.** For every collection and every session that `init` and
`open` accept: whatever the io thread does by itself from some state of a run, it answers
`NoMoreItem` only to a READ that met an instant at which the queue was empty, the read thread held
no document, `m_reach_end` was set and the last query since the last rewind had brought nothing,
exactly when the last deadline of a READ that has popped nothing passes, in the run, only if that
READ began with the read thread at rest or the thread has come to rest since. -/
theorem noMoreItem_iff (M : Mongo) (seconds : Nat) (coll : List Document)
    {connect : String → Option String} {options : BSONObj} {b : Broker}
    (hopen : Broker.new.openOn connect (some options) = (b, none)) {as : List Action} {w : Watched}
    (hrun : run (watch M seconds) (Watched.start (State.opened coll b)) as = some w) :
    (∀ bs, bs <+: as → ∀ v, run (watch M seconds) (Watched.start (State.opened coll b)) bs = some v →
      ∀ cs u, (∀ a ∈ cs, a = .io ∨ a = .ioWake) → run (watch M seconds) v cs = some u →
        AnswersNoMoreItem u.state → u.ended = true) ↔
    Guarded (watch M seconds) (InTime b) (Watched.start (State.opened coll b)) as := by
  have hstart : Remembers b (Watched.start (State.opened coll b)) := remembers_start hopen coll
  have hany : Guarded (watch M seconds) (fun _ _ => True) (Watched.start (State.opened coll b)) as :=
    guarded_of_forall (watch M seconds) _ (fun _ _ => trivial) _ _
  have hkeep : ∀ w a v, Remembers b w → Sound b w → True → watch M seconds w a = some v →
      Sound b v → Remembers b v := fun _ _ _ hw _ _ hv _ => hw.step hv
  have hexact : ∀ w a v, Remembers b w → Sound b w → True → watch M seconds w a = some v →
      (Sound b v ↔ InTime b w a) := fun _ _ _ hw hs _ hv => sound_step_iff hw hs hv
  rw [← forall_prefix_iff_guarded hkeep hexact hstart (fun _ hlast => hlast.elim) hany hrun]
  refine forall_congr' fun bs => forall_congr' fun _ => forall_congr' fun v => ?_
  refine forall_congr' fun hv => (sound_iff_forall_goOn ?_).symm
  exact run_invariant_of_step (fun _ _ _ hw hstep => hw.step hstep) hstart hv

/-- Steps that are no deadlines, or of a READ that began at rest, are in time. -/
theorem inTime_of_rested {w : Watched} {as : List Action}
    (h : Guarded (watch M seconds) (fun w a => a ≠ .ioExpire ∨ w.rested = true) w as) :
    Guarded (watch M seconds) (InTime b) w as := by
  apply Guarded.mono (watch M seconds) _ h
  intro w a ha hexpire _ _ _
  rcases ha with hne | hrested
  · exact absurd hexpire hne
  · exact hrested

/-- A READ whose two pops time out. -/
def readInVain : List Action :=
  [.read 1, .io, .ioExpire, .io, .io, .io, .ioExpire, .io, .io]

/-- A query of an empty collection, and a READ in vain. -/
theorem noMoreItem_iff_sample : ∃ w,
    run (watch Mongo.plain 0) (Watched.start (State.opened [] (Broker.sampleBroker 0 1 10)))
        (List.replicate 5 .reader ++ readInVain) = some w ∧
      AnswersNoMoreItem w.state ∧
      ∀ bs, bs <+: List.replicate 5 .reader ++ readInVain → ∀ v,
        run (watch Mongo.plain 0) (Watched.start (State.opened [] (Broker.sampleBroker 0 1 10))) bs =
          some v →
        ∀ cs u, (∀ a ∈ cs, a = .io ∨ a = .ioWake) → run (watch Mongo.plain 0) v cs = some u →
          AnswersNoMoreItem u.state → u.ended = true := by
  refine ⟨_, rfl, ⟨rfl, rfl, rfl⟩, (@noMoreItem_iff Mongo.plain 0 [] (fun _ => none)
    (Broker.sampleOptions 0 1 10) _ (by decide) _ _ rfl).mpr ?_⟩
  exact inTime_of_rested (by decide)

/-- The one document was delivered, and the read thread sleeps after a query that brought nothing. -/
def sampleDelivered (d : Document) : State :=
  { State.opened [d] { Broker.sampleBroker 0 1 10 with
      lastDocId := some d.oid, reachEnd := true, queryCount := 2 } with
    reader := .sleeping
    log := ⟨[d.toBSON], [(1, readBody [d.toBSON])], [[d.toBSON], []], false,
      [(false, (Broker.sampleBroker 0 1 10).conditions),
        (false, (Broker.sampleBroker 0 1 10).conditions ++ [("_id", .obj [("$gt", .oid d.oid)])])]⟩ }

/-- The run that leads there. -/
theorem run_sampleDelivered :
    run (watch Mongo.plain 0)
        (Watched.start (State.opened [sampleDocument 1] (Broker.sampleBroker 0 1 10)))
        (List.replicate 13 .reader ++ [.read 1, .io, .io]) =
      some ⟨sampleDelivered (sampleDocument 1), true, true⟩ := by
  decide +kernel

/-- When the one document was delivered, a REWIND, and a READ whose two seconds are over before the read
thread is awake again. -/
theorem not_noMoreItem_sample :
    Broker.new.openOn (fun _ => none) (some (Broker.sampleOptions 0 1 10)) =
        (Broker.sampleBroker 0 1 10, none) ∧
      ∃ w, run (watch Mongo.plain 0)
          (Watched.start (State.opened [sampleDocument 1] (Broker.sampleBroker 0 1 10)))
          (List.replicate 13 .reader ++ [.read 1, .io, .io, .rewind] ++ readInVain) = some w ∧
        w.state.reader = .sleeping ∧ AnswersNoMoreItem w.state ∧ w.ended = false := by
  refine ⟨by decide, ?_⟩
  have hsplit : List.replicate 13 Action.reader ++ [.read 1, .io, .io, .rewind] ++ readInVain =
      (List.replicate 13 .reader ++ [.read 1, .io, .io]) ++ .rewind :: readInVain := rfl
  rw [hsplit, run_append, run_sampleDelivered, Option.bind_some]
  exact ⟨_, rfl, rfl, ⟨rfl, rfl, rfl⟩, rfl⟩

end Zbroker.ReadSession
