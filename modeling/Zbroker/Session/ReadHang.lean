import Zbroker.Session.Deadlock
import Zbroker.Session.QueryMutex

/-!
# A READ against the read thread

When a pop of a READ times out during a query, `batch_pop` waits on `m_con_query`. The query may be
over before the wait has begun. Then the next one ends it, if there is one: the read thread queries
again only when all it has read is in the queue, and nobody takes anything out of the queue during
the wait.

* `Stuck M seconds s` — a READ waits on `m_con_query`, and whatever happens, but for a wake-up without
  a notification, it stays there.
* `Coming s` — a query is on or about to begin, or what the read thread holds fits into the queue.
* `Attended s a` — a READ begins its wait on `m_con_query` only then.
* `Attending s` — where the threads can be; `stuck_iff`: the READs that are stuck are those that wait
  for a query that is not coming.
* **`not_stuck_iff`**: no READ of a run gets stuck exactly when the steps of the run are `Attended`.
What decides is the step that begins the wait (`expecting_step_iff`): if a query is coming, the read thread
reaches its beginning (`Attending.exists_query_begin`); if it is not, nothing the threads do brings one
(`stuck_iff`).
-/

namespace Zbroker.ReadSession

open Found.Transition

variable {M : Mongo} {seconds : Nat} {s t : State} {a : Action} {b : Broker}

/-! ## Stuck requests -/

/-- A READ waits on `m_con_query`. -/
def Waits (s : State) : Prop := ∃ conn f, s.io = .queryWait (.read conn f) .waiting

/-- A READ waits on `m_con_query`, and stays there for good. -/
def Stuck (M : Mongo) (seconds : Nat) (s : State) : Prop :=
  Waits s ∧ ∀ as t, (∀ a ∈ as, a ≠ .ioWake) → run (step M seconds) s as = some t →
    t.fault = none ∧ t.io = s.io

/-- The queue has room for what the read thread holds. -/
def State.fits (s : State) : Prop :=
  s.broker.queue.queue.length + s.reader.held.length ≤ s.broker.queue.limitSize

/-- The end of a query comes: the read thread is in one or in front of one, or gets there by
itself. -/
def Coming (s : State) : Prop := s.reader.inQuery = true ∨ s.fits

instance (s : State) : Decidable (Coming s) :=
  inferInstanceAs (Decidable (_ ∨ s.broker.queue.queue.length + _ ≤ _))

/-- A READ begins to wait on `m_con_query` only for what comes. -/
def Attended (s : State) (a : Action) : Prop :=
  a = .io → ∀ conn f, s.io = .queryEnter (.read conn f) → Coming s

/-! ## Where the threads can be -/

/-- In front of a `push` or in one, with something to push. -/
def Reader.Loaded : Reader → Prop
  | .entering docs | .pushWait docs _ => docs ≠ []
  | _ => True

/-- Where the threads can be while `term` has not begun. -/
structure Attending (s : State) : Prop where
  placed : Placed s
  stays : s.io.kind ≠ .ending → s.broker.doExit = false ∧ s.reader ≠ .exited
  loaded : s.reader.Loaded

/-- It is so when the session has been opened. -/
theorem attending_opened {connect : String → Option String} {options : BSONObj}
    (hopen : Broker.new.openOn connect (some options) = (b, none)) (coll : List Document) :
    Attending (State.opened coll b) :=
  ⟨placed_opened hopen coll, fun _ => ⟨(Broker.fresh_of_openOn hopen).doExit, fun hr => (by cases hr)⟩,
    trivial⟩

/-- A notification moves no document. -/
@[simp] theorem loaded_notify (r : Reader) : r.notify.Loaded ↔ r.Loaded := by
  cases r <;> exact Iff.rfl

/-- A notification ends no thread. -/
theorem notify_eq_exited (r : Reader) : r.notify = .exited ↔ r = .exited := by
  cases r <;> simp [Reader.notify]

/-- A call of `term` goes on in `term`. -/
theorem Call.kind_ending {k : Call} (h : k.kind = .ending) (d : BSONObj) (b : Broker) :
    (k.onItem d).kind = .ending ∧ k.onThrow.kind = .ending ∧ (k.onTimeout b).kind = .ending := by
  cases k with
  | term f => exact ⟨kind_ofTerm _, rfl, kind_ofTerm _⟩
  | _ => cases h

section attending

/-- What has begun with `term` stays in it. -/
theorem IoStep.ending (h : IoStep M s t) (hending : s.io.kind = .ending) : t.io.kind = .ending := by
  cases h with
  | refuse k e hio he =>
      rw [hio] at hending
      exact (Call.kind_ending hending [] s.broker).2.1
  | wait k hio hqueue =>
      rw [hio] at hending
      exact hending
  | pop k d rest hio hqueue =>
      have hk : k.kind = .ending := by
        rcases hio with hio | hio <;> rw [hio] at hending <;> exact hending
      exact (Call.kind_ending hk d s.broker).1
  | fault e hio => exact hending
  | timeOut k hio =>
      rw [hio] at hending
      exact (Call.kind_ending hending [] s.broker).2.1
  | handle k hio =>
      rw [hio] at hending
      dsimp only
      split_ifs
      · exact hending
      · exact (Call.kind_ending hending [] s.broker).2.2
  | queryEnter k hio =>
      rw [hio] at hending
      exact hending
  | queryLeave k hio =>
      rw [hio] at hending
      exact (Call.kind_ending hending [] s.broker).2.2
  | respond conn docs ret hio =>
      rw [hio] at hending
      cases hending
  | _ => rfl

/-- The exit flag is set by `term` alone. -/
theorem IoStep.doExit (h : IoStep M s t) :
    t.broker.doExit = s.broker.doExit ∨ t.io.kind = .ending := by
  cases h with
  | close hio hr => exact Or.inr rfl
  | respond conn docs ret hio =>
      unfold State.respond
      split <;> exact Or.inl rfl
  | _ => exact Or.inl rfl

/-- The read thread goes on to a `push` with something to push. -/
theorem ReaderStep.loaded (h : ReaderStep M s t) (hs : s.reader.Loaded) : t.reader.Loaded := by
  cases h with
  | turn hr =>
      dsimp only
      split_ifs <;> trivial
  | fail e hr hc => exact hs
  | branch docs hr =>
      unfold State.branch
      split_ifs <;> trivial
  | test docs hr =>
      dsimp only
      split_ifs with htest
      · trivial
      · simp only [Bool.or_eq_true, List.isEmpty_iff, not_or] at htest
        exact htest.1
  | wait docs hr hfull =>
      rw [hr] at hs
      exact hs
  | giveUp docs hr =>
      dsimp only
      split_ifs <;> trivial
  | _ => trivial

/-- The read thread does not exit while the flag is not set. -/
theorem ReaderStep.ne_exited (h : ReaderStep M s t) (hexit : s.broker.doExit = false)
    (hs : s.reader ≠ .exited) : t.reader ≠ .exited := by
  cases h with
  | turn hr => simp [hexit]
  | fail e hr hc => exact hs
  | branch docs hr =>
      unfold State.branch
      split_ifs <;> simp
  | test docs hr =>
      dsimp only
      split_ifs <;> simp
  | giveUp docs hr => simp [hexit]
  | start hr => simp [State.startQuery]
  | fetch conditions hr => simp [State.fetchQuery]
  | store c hr hc => simp [State.stored]
  | wait docs hr hfull => simp [State.waitPush]
  | push docs hr => simp [State.push]
  | rise hr => simp

/-- **Every event keeps it so.** -/
theorem Attending.step (h : Attending s) (hstep : step M seconds s a = some t) : Attending t := by
  have hplaced := h.placed.step hstep
  -- a step that leaves the read thread where it is, as far as its exit goes
  have hkeeps : ∀ {t : State}, Placed t → (t.io.kind ≠ .ending → s.io.kind ≠ .ending) →
      t.broker.doExit = s.broker.doExit → (t.reader = .exited ↔ s.reader = .exited) →
      t.reader.Loaded → Attending t := by
    intro t hplaced hkind hexit hexited hloaded
    refine ⟨hplaced, fun hopen => ?_, hloaded⟩
    rw [hexit, Ne, hexited]
    exact h.stays (hkind hopen)
  rcases step_effect hstep with ⟨_, hreader⟩ | ⟨_, hio⟩ | ⟨docs, hr, -⟩ | ⟨docs, hr⟩ | ⟨k, hio, -⟩ |
    ⟨k, hio⟩ | ⟨k, hio⟩ | ⟨conn, hio⟩ | ⟨n, hio⟩ | hio | hio | ⟨d, -⟩
  · obtain ⟨-, hexit, hkind, -⟩ := hreader.frame
    refine ⟨hplaced, fun hopen => ?_, hreader.loaded h.loaded⟩
    obtain ⟨hfalse, hrunning⟩ := h.stays (hkind ▸ hopen)
    exact ⟨hexit.trans hfalse, hreader.ne_exited hfalse hrunning⟩
  · have hreader := hio.reader
    refine ⟨hplaced, fun hopen => ?_, ?_⟩
    · obtain ⟨hfalse, hrunning⟩ := h.stays (mt hio.ending hopen)
      refine ⟨(hio.doExit.resolve_right hopen).trans hfalse, ?_⟩
      rcases hreader with heq | heq
      · rw [heq]
        exact hrunning
      · rw [heq, Ne, notify_eq_exited]
        exact hrunning
    · rcases hreader with heq | heq
      · rw [heq]
        exact h.loaded
      · rw [heq, loaded_notify]
        exact h.loaded
  · have hloaded := h.loaded
    rw [hr] at hloaded
    exact hkeeps hplaced id rfl (by simp [hr]) hloaded
  · have hloaded := h.loaded
    rw [hr] at hloaded
    exact hkeeps hplaced id rfl (by simp [hr]) hloaded
  · exact hkeeps hplaced (by rw [hio]; exact id) rfl Iff.rfl h.loaded
  · exact hkeeps hplaced (by rw [hio]; exact id) rfl Iff.rfl h.loaded
  · exact hkeeps hplaced (by rw [hio]; exact id) rfl Iff.rfl h.loaded
  · have hfree : s.io.kind ≠ .ending := by
      rw [hio]
      rintro ⟨⟩
    unfold State.startRead at hplaced ⊢
    split_ifs at hplaced ⊢
    · split at hplaced
      · exact hkeeps hplaced (fun _ => hfree) rfl Iff.rfl h.loaded
      · exact hkeeps hplaced (fun _ => hfree) rfl Iff.rfl h.loaded
    · exact hkeeps hplaced (fun _ => hfree) rfl Iff.rfl h.loaded
  · exact hkeeps hplaced (fun _ => by rw [hio]; rintro ⟨⟩) rfl Iff.rfl h.loaded
  · unfold State.rewind at hplaced ⊢
    split_ifs at hplaced ⊢
    · exact hkeeps hplaced id rfl Iff.rfl h.loaded
    · exact h
  · unfold State.startTerm at hplaced ⊢
    split_ifs at hplaced ⊢
    · exact ⟨hplaced, fun hopen => absurd rfl hopen, h.loaded⟩
    · exact ⟨hplaced, fun hopen => absurd rfl hopen, h.loaded⟩
  · exact hkeeps hplaced id rfl Iff.rfl h.loaded

end attending

/-! ## What comes -/

section coming

/-- A push moves documents from the read thread to the queue. -/
theorem length_push (s : State) (docs : List BSONObj) :
    (s.push docs).broker.queue.queue.length + (s.push docs).reader.held.length =
      s.broker.queue.queue.length + docs.length := by
  have hmoved := congrArg List.length (SizedQueue.queue_fill_append s.broker.queue docs)
  simpa [State.push, Reader.held] using hmoved

/-- **What comes is not lost**: the read thread gets on with its query, or towards it, until the query
ends. -/
theorem Attending.coming (h : Attending s) (hwaits : Waits s) (hcoming : Coming s)
    (hstep : ReaderStep M s t) : t.fault ≠ none ∨ t.io = s.io.notifyQuery ∨ Coming t := by
  obtain ⟨conn, f, hio⟩ := hwaits
  obtain ⟨hexit, -⟩ := h.stays (by rw [hio]; rintro ⟨⟩)
  cases hstep with
  | turn hr => exact Or.inr (Or.inr (Or.inl (by simp [hexit, Reader.inQuery])))
  | start hr => exact Or.inr (Or.inr (Or.inl rfl))
  | fetch conditions hr => exact Or.inr (Or.inr (Or.inl rfl))
  | store c hr hc => exact Or.inr (Or.inl rfl)
  | fail e hr hc => exact Or.inl fun hnone => by cases hnone
  | branch docs hr =>
      have hfits := hcoming.resolve_left (by simp [hr, Reader.inQuery])
      simp only [State.fits, hr, Reader.held] at hfits
      refine Or.inr (Or.inr (Or.inr ?_))
      unfold State.branch State.fits
      split_ifs
      · exact h.placed.length
      · exact hfits
  | test docs hr =>
      have hfits := hcoming.resolve_left (by simp [hr, Reader.inQuery])
      simp only [State.fits, hr, Reader.held] at hfits
      refine Or.inr (Or.inr (Or.inr ?_))
      unfold State.fits
      dsimp only
      split_ifs
      · exact h.placed.length
      · exact hfits
  | wait docs hr hfull =>
      have hfits := hcoming.resolve_left (by simp [hr, Reader.inQuery])
      simp only [State.fits, hr] at hfits
      exact Or.inr (Or.inr (Or.inr hfits))
  | push docs hr =>
      have hfits := hcoming.resolve_left (by rcases hr with ⟨hr, -⟩ | hr <;> simp [hr, Reader.inQuery])
      have hheld : s.reader.held = docs := by rcases hr with ⟨hr, -⟩ | hr <;> rw [hr] <;> rfl
      refine Or.inr (Or.inr (Or.inr ?_))
      rw [State.fits, hheld] at hfits
      rw [State.fits, length_push]
      exact hfits.trans (SizedQueue.limitSize_fill s.broker.queue docs).ge
  | giveUp docs hr =>
      have hfits := hcoming.resolve_left (by simp [hr, Reader.inQuery])
      simp only [State.fits, hr] at hfits
      refine Or.inr (Or.inr (Or.inr ?_))
      rw [hexit]
      exact hfits
  | rise hr => exact Or.inr (Or.inr (Or.inr h.placed.length))

/-- **What does not come never will**: with more in its hands than the queue has room for, the read
thread does not get to another query. -/
theorem Attending.not_coming (h : Attending s) (hfault : s.fault = none) (hwaits : Waits s)
    (hcoming : ¬Coming s) (ha : a ≠ .ioWake) (hstep : ReadSession.step M seconds s a = some t) :
    t.fault = none ∧ t.io = s.io ∧ ¬Coming t := by
  obtain ⟨conn, f, hio⟩ := hwaits
  obtain ⟨hexit, hrunning⟩ := h.stays (by rw [hio]; rintro ⟨⟩)
  have hnotify : s.io.notify = s.io := by rw [hio]; rfl
  obtain ⟨hin, hfits⟩ := not_or.mp hcoming
  -- the read thread keeps what it has, out of a query
  have hkeeps : ∀ {r : Reader}, r.inQuery = false → r.held = s.reader.held →
      ¬Coming { s with reader := r } := by
    rintro r hr hheld (hin' | hfits')
    · rw [show r.inQuery = true from hin'] at hr
      cases hr
    · apply hfits
      have hfits'' : s.broker.queue.queue.length + r.held.length ≤ s.broker.queue.limitSize := hfits'
      rwa [hheld] at hfits''
  rcases step_effect hstep with ⟨_, hreader⟩ | ⟨_, hiostep⟩ | ⟨docs, hr, -⟩ | ⟨docs, hr⟩ | ⟨k, hk, -⟩ |
    ⟨k, hk⟩ | ⟨k, hk⟩ | ⟨_, hk⟩ | ⟨n, hk⟩ | hk | hk | ⟨d, -⟩
  · cases hreader with
    | turn hr =>
        refine absurd ?_ hfits
        simpa [State.fits, hr, Reader.held] using h.placed.length
    | start hr => simp [hr, Reader.inQuery] at hin
    | fetch conditions hr => simp [hr, Reader.inQuery] at hin
    | store c hr hc => simp [hr, Reader.inQuery] at hin
    | fail e hr hc => simp [hr, Reader.inQuery] at hin
    | branch docs hr =>
        have hdocs : docs ≠ [] := by
          rintro rfl
          exact hfits (by simpa [State.fits, hr, Reader.held] using h.placed.length)
        unfold State.branch
        rw [if_neg (by simpa using hdocs)]
        refine ⟨hfault, rfl, ?_⟩
        rintro (hin' | hfits')
        · cases hin'
        · apply hfits
          rw [State.fits, hr]
          exact hfits'
    | test docs hr =>
        have hdocs : docs.isEmpty = false := by
          rw [List.isEmpty_eq_false_iff]
          rintro rfl
          exact hfits (by simpa [State.fits, hr, Reader.held] using h.placed.length)
        rw [hdocs, hexit]
        exact ⟨hfault, rfl, @hkeeps (.entering docs) rfl (by rw [hr]; rfl)⟩
    | wait docs hr hfull =>
        refine ⟨hfault, hnotify, ?_⟩
        rintro (hin' | hfits')
        · cases hin'
        · apply hfits
          rw [State.fits, hr]
          exact hfits'
    | push docs hr =>
        have hheld : s.reader.held = docs := by rcases hr with ⟨hr, -⟩ | hr <;> rw [hr] <;> rfl
        refine ⟨hfault, hnotify, ?_⟩
        rintro (hin' | hfits')
        · cases hin'
        · apply hfits
          rw [State.fits, length_push] at hfits'
          rw [State.fits, hheld]
          exact hfits'.trans (SizedQueue.limitSize_fill s.broker.queue docs).le
    | giveUp docs hr =>
        rw [hexit]
        exact ⟨hfault, rfl, @hkeeps (.pushing docs) rfl (by rw [hr]; rfl)⟩
    | rise hr =>
        refine absurd ?_ hfits
        simpa [State.fits, hr, Reader.held] using h.placed.length
  · have hnone : s.ioStep M = none := by simp [State.ioStep, hio]
    simp [ReadSession.step, hfault, hnone] at hstep
  · exact ⟨hfault, rfl, hkeeps rfl (by rw [hr]; rfl)⟩
  · exact ⟨hfault, rfl, hkeeps rfl (by rw [hr]; rfl)⟩
  · rw [hio] at hk
    cases hk
  · exact absurd rfl ha
  · exact absurd rfl ha
  · rw [hio] at hk
    cases hk
  · rw [hio] at hk
    cases hk
  · rw [hio] at hk
    cases hk
  · rw [hio] at hk
    cases hk
  · exact ⟨hfault, rfl, hcoming⟩

/-- How far the read thread is from its next query, if what it holds fits into the queue. -/
def Reader.toQuery : Reader → Nat
  | .loop => 1
  | .sleeping => 2
  | .pushing docs => if docs.isEmpty then 2 else 4
  | .entering _ | .pushWait _ .notified => 3
  | .pushWait _ _ | .returned _ => 5
  | .starting | .querying _ | .fetched | .exited => 0

/-- The read thread gets nearer to its query. -/
theorem Attending.toQuery_lt (h : Attending s) (hwaits : Waits s) (hin : s.reader.inQuery = false)
    (hfits : s.fits) (hstep : ReaderStep M s t) :
    t.reader.toQuery < s.reader.toQuery ∧ t.fault = s.fault ∧ t.io = s.io := by
  obtain ⟨conn, f, hio⟩ := hwaits
  obtain ⟨hexit, -⟩ := h.stays (by rw [hio]; rintro ⟨⟩)
  have hnotify : s.io.notify = s.io := by rw [hio]; rfl
  have hloaded := h.loaded
  cases hstep with
  | turn hr => exact ⟨by simp [hr, hexit, Reader.toQuery], rfl, rfl⟩
  | start hr => simp [hr, Reader.inQuery] at hin
  | fetch conditions hr => simp [hr, Reader.inQuery] at hin
  | store c hr hc => simp [hr, Reader.inQuery] at hin
  | fail e hr hc => simp [hr, Reader.inQuery] at hin
  | branch docs hr =>
      unfold State.branch
      split_ifs with hempty
      · exact ⟨by simp [hr, Reader.toQuery], rfl, rfl⟩
      · exact ⟨by simp [hr, hempty, Reader.toQuery], rfl, rfl⟩
  | test docs hr =>
      rw [hexit, Bool.or_false]
      refine ⟨?_, rfl, rfl⟩
      split_ifs with hempty <;> simp [hr, hempty, Reader.toQuery]
  | wait docs hr hfull =>
      -- something that fits leaves a queue that is not full
      rw [hr] at hloaded
      have hpos := List.length_pos_iff.mpr hloaded
      simp only [State.fits, hr, Reader.held] at hfits
      simp only [SizedQueue.isFull, decide_eq_true_eq] at hfull
      omega
  | push docs hr =>
      have hheld : s.reader.held = docs := by rcases hr with ⟨hr, -⟩ | hr <;> rw [hr] <;> rfl
      rw [State.fits, hheld] at hfits
      have hadd := length_push s docs
      have hqueue : (s.push docs).broker.queue.queue.length =
          s.broker.queue.queue.length + docs.length := by
        rw [show (s.push docs).broker.queue = (s.broker.queue.fill docs).1 from rfl,
          SizedQueue.length_fill]
        omega
      have hnil : (s.broker.queue.fill docs).2 = [] := by
        rw [← List.length_eq_zero_iff]
        have hheld' : (s.push docs).reader.held = (s.broker.queue.fill docs).2 := rfl
        rw [hqueue, hheld'] at hadd
        omega
      refine ⟨?_, rfl, hnotify⟩
      rcases hr with ⟨hr, -⟩ | hr <;> simp [State.push, hr, hnil, Reader.toQuery]
  | giveUp docs hr =>
      rw [hexit]
      refine ⟨?_, rfl, rfl⟩
      simp only [hr, Reader.toQuery, Bool.false_eq_true, if_false]
      split_ifs <;> omega
  | rise hr => exact ⟨by simp [hr, Reader.toQuery], rfl, rfl⟩

/-- The read thread gets to its query by itself. -/
theorem Attending.exists_query_begin (h : Attending s) (hfault : s.fault = none) (hwaits : Waits s)
    (hcoming : Coming s) : ∃ as t, (∀ a ∈ as, a = .reader) ∧
      run (ReadSession.step M seconds) s as = some t ∧
      t.fault = none ∧ t.io = s.io ∧ t.reader.inQuery = true := by
  have hprogress : ∀ u, (Attending u ∧ u.fault = none ∧ u.io = s.io ∧ Coming u) →
      u.reader.inQuery = true ∨ ∃ as t, (∀ a ∈ as, a = .reader) ∧
        run (ReadSession.step M seconds) u as = some t ∧
        (Attending t ∧ t.fault = none ∧ t.io = s.io ∧ Coming t) ∧
        t.reader.toQuery < u.reader.toQuery := by
    rintro u ⟨hu, hfault, hio, hcoming⟩
    have hwaits : Waits u := by
      obtain ⟨conn, f, hs⟩ := hwaits
      exact ⟨conn, f, hio.trans hs⟩
    by_cases hin : u.reader.inQuery = true
    · exact Or.inl hin
    have hfits := hcoming.resolve_left hin
    have hwait : ∀ docs, u.reader ≠ .pushWait docs .waiting := by
      intro docs hr
      have hloaded := hu.loaded
      rw [hr] at hloaded
      have hpos := List.length_pos_iff.mpr hloaded
      have hfull := hu.placed.full docs hr
      simp only [State.fits, hr, Reader.held] at hfits
      simp only [SizedQueue.isFull, decide_eq_true_eq] at hfull
      omega
    have hopen : u.io.kind ≠ .ending := by
      obtain ⟨conn, f, hs⟩ := hwaits
      rw [hs]
      rintro ⟨⟩
    obtain ⟨t, ht⟩ := @exists_readerStep M seconds u hfault (hu.stays hopen).2 hwait
    obtain ⟨_, hreader⟩ := step_effect ht
    obtain ⟨hlt, hfault', hio'⟩ := hu.toQuery_lt hwaits (Bool.eq_false_iff.mpr hin) hfits hreader
    refine Or.inr ⟨[.reader], t, by simp, (run_cons_eq_some _).mpr ⟨t, ht, rfl⟩,
      ⟨hu.step ht, hfault'.trans hfault, hio'.trans hio, ?_⟩, hlt⟩
    rcases hu.coming hwaits hcoming hreader with hended | hnotified | hcoming'
    · exact absurd (hfault'.trans hfault) hended
    · obtain ⟨conn, f, hs⟩ := hwaits
      exact absurd (hnotified.symm.trans (hio'.trans hs)) (Io.notifyQuery_ne_queryWait u.io _)
    · exact hcoming'
  obtain ⟨as, t, has, hrun, ⟨-, hfault', hio', -⟩, hin⟩ :=
    exists_run_of_progress (fun t : State => t.reader.toQuery) hprogress ⟨h, hfault, rfl, hcoming⟩
  exact ⟨as, t, has, hrun, hfault', hio', hin⟩

/-- **The READs that are stuck** are those that wait for a query that is not coming. -/
theorem stuck_iff (h : Attending s) :
    Stuck M seconds s ↔ s.fault = none ∧ Waits s ∧ ¬Coming s := by
  constructor
  · rintro ⟨hwaits, hall⟩
    have hfault : s.fault = none := (hall [] s (by simp) rfl).1
    refine ⟨hfault, hwaits, fun hcoming => ?_⟩
    have hreader : ∀ {as : List Action}, (∀ a ∈ as, a = .reader) → ∀ a ∈ as, a ≠ .ioWake := by
      rintro as has a ha rfl
      cases has _ ha
    obtain ⟨as, t, has, ht, hfault', hio, hin⟩ :=
      @Attending.exists_query_begin M seconds s h hfault hwaits hcoming
    obtain ⟨bs, u, hbs, hu, hend⟩ := @exists_query_end M seconds t hfault' hin
    have hrun : run (step M seconds) s (as ++ bs) = some u := by
      rw [run_append, ht]
      exact hu
    obtain ⟨hrunning, hstays⟩ := hall (as ++ bs) u
      (List.forall_mem_append.mpr ⟨hreader has, hreader hbs⟩) hrun
    rcases hend with hended | ⟨-, hnotified⟩
    · exact hended hrunning
    · obtain ⟨conn, f, hs⟩ := hwaits
      exact Io.notifyQuery_ne_queryWait t.io (.read conn f) (hnotified.symm.trans (hstays.trans hs))
  · rintro ⟨hfault, hwaits, hcoming⟩
    refine ⟨hwaits, fun as t has hrun => ?_⟩
    have hkeeps : ∀ u a v, (Attending u ∧ u.fault = none ∧ u.io = s.io ∧ ¬Coming u) → a ≠ .ioWake →
        step M seconds u a = some v → Attending v ∧ v.fault = none ∧ v.io = s.io ∧ ¬Coming v := by
      rintro u a v ⟨hu, hfault, hio, hcoming⟩ ha hv
      have hwaits' : Waits u := by
        obtain ⟨conn, f, hs⟩ := hwaits
        exact ⟨conn, f, hio.trans hs⟩
      obtain ⟨hfault', hio', hcoming'⟩ := hu.not_coming hfault hwaits' hcoming ha hv
      exact ⟨hu.step hv, hfault', hio'.trans hio, hcoming'⟩
    obtain ⟨-, hfault', hio', -⟩ := run_invariant hkeeps ⟨h, hfault, rfl, hcoming⟩
      (guarded_of_forall_mem (step M seconds) has) hrun
    exact ⟨hfault', hio'⟩

end coming

/-! ## One step -/

/-- A READ that waits on `m_con_query` waits for what comes. -/
def Expecting (s : State) : Prop := s.fault = none → Waits s → Coming s

/-- **A session is stuck exactly if nothing is to be expected**, in the states of the runs. -/
theorem expecting_iff (h : Attending s) : Expecting s ↔ ¬Stuck M seconds s := by
  rw [stuck_iff h]
  constructor
  · rintro hexpecting ⟨hfault, hwaits, hnot⟩
    exact hnot (hexpecting hfault hwaits)
  · intro hnot hfault hwaits
    by_contra hcoming
    exact hnot ⟨hfault, hwaits, hcoming⟩

/-- No READ waits, so none can get stuck. -/
theorem expecting_of_ne (h : ∀ k, s.io ≠ .queryWait k .waiting) : Expecting s :=
  fun _ hwaits => hwaits.elim fun _ hconn => hconn.elim fun _ hio => absurd hio (h _)

/-- **One step** lets no READ get stuck exactly when it is `Attended`. -/
theorem expecting_step_iff (h : Attending s) (hs : Expecting s)
    (hstep : step M seconds s a = some t) : Expecting t ↔ Attended s a := by
  have hfault := fault_of_step hstep
  rcases step_effect hstep with ⟨_, hreader⟩ | ⟨_, hio⟩ | ⟨docs, hr, -⟩ | ⟨docs, hr⟩ | ⟨k, hio, -⟩ |
    ⟨k, hio⟩ | ⟨k, hio⟩ | ⟨conn, hio⟩ | ⟨n, hio⟩ | hio | hio | ⟨d, -⟩
  · refine iff_of_true ?_ (fun ha => by cases ha)
    rintro hrunning ⟨conn, f, ht⟩
    have hsame : s.io = .queryWait (.read conn f) .waiting := by
      rcases hreader.io with heq | heq | heq
      · exact heq.symm.trans ht
      · exact Io.notify_eq_queryWait (heq.symm.trans ht)
      · exact absurd (heq.symm.trans ht) (Io.notifyQuery_ne_queryWait s.io _)
    have hwaits : Waits s := ⟨conn, f, hsame⟩
    rcases h.coming hwaits (hs hfault hwaits) hreader with hended | hnotified | hcoming
    · exact absurd hrunning hended
    · exact absurd (hnotified.symm.trans ht) (Io.notifyQuery_ne_queryWait s.io _)
    · exact hcoming
  · have hiostep : s.ioStep M = some t := by simpa [step, hfault] using hstep
    by_cases henter : ∃ conn f, s.io = .queryEnter (.read conn f)
    · obtain ⟨conn, f, hs'⟩ := henter
      rw [State.ioStep, hs'] at hiostep
      cases hiostep
      constructor
      · intro hexpecting _ _ _ _
        exact hexpecting hfault ⟨conn, f, rfl⟩
      · intro hattended _ _
        exact hattended rfl conn f hs'
    · refine iff_of_true ?_ (fun _ conn f hs' => absurd ⟨conn, f, hs'⟩ henter)
      rintro - ⟨conn, f, ht⟩
      obtain ⟨k, hk⟩ := hio.onQuery (by rw [ht]; rfl)
      rw [State.ioStep, hk] at hiostep
      cases hiostep
      cases ht
      exact absurd ⟨conn, f, hk⟩ henter
  · refine iff_of_true (fun hrunning hwaits => ?_) (fun ha => by cases ha)
    exact (hs hrunning hwaits).imp (by simp [hr, Reader.inQuery]) (by simp [State.fits, hr, Reader.held])
  · refine iff_of_true (fun hrunning hwaits => ?_) (fun ha => by cases ha)
    exact (hs hrunning hwaits).imp (by simp [hr, Reader.inQuery]) (by simp [State.fits, hr, Reader.held])
  · exact iff_of_true (expecting_of_ne (by simp)) (fun ha => by cases ha)
  · exact iff_of_true (expecting_of_ne (by simp)) (fun ha => by cases ha)
  · exact iff_of_true (expecting_of_ne (by simp)) (fun ha => by cases ha)
  · refine iff_of_true ?_ (fun ha => by cases ha)
    unfold State.startRead
    split_ifs
    · split
      · exact fun hrunning => by cases hrunning
      · exact expecting_of_ne (by simp)
    · exact fun hrunning => by cases hrunning
  · exact iff_of_true (expecting_of_ne (by simp)) (fun ha => by cases ha)
  · refine iff_of_true ?_ (fun ha => by cases ha)
    unfold State.rewind
    split_ifs
    · exact expecting_of_ne (by simp [hio])
    · exact hs
  · refine iff_of_true ?_ (fun ha => by cases ha)
    unfold State.startTerm
    split_ifs
    · exact expecting_of_ne (by simp)
    · exact expecting_of_ne (by simp)
  · exact iff_of_true hs (fun ha => by cases ha)

/-! ## Runs -/

/-- **When no READ gets stuck.** For every read session whose options `init` and `open` accept and
every run of it: no READ of the run ever waits on `m_con_query` for good, exactly when each that begins
to wait there does so while a query is on or about to begin, or while what the read thread holds fits
into the queue. -/
theorem not_stuck_iff (M : Mongo) (seconds : Nat) (coll : List Document)
    (connect : String → Option String) (options : BSONObj) (b : Broker)
    (hopen : Broker.new.openOn connect (some options) = (b, none)) (as : List Action) (s : State)
    (hrun : run (step M seconds) (State.opened coll b) as = some s) :
    (∀ bs, bs <+: as → ∀ t, run (step M seconds) (State.opened coll b) bs = some t →
      ¬Stuck M seconds t) ↔
    Guarded (step M seconds) Attended (State.opened coll b) as := by
  have hstart : Attending (State.opened coll b) := attending_opened hopen coll
  have hexpecting : Expecting (State.opened coll b) := fun _ ⟨_, _, hio⟩ => by cases hio
  have hany : Guarded (step M seconds) (fun _ _ => True) (State.opened coll b) as :=
    guarded_of_forall (step M seconds) _ (fun _ _ => trivial) _ _
  have hkeep : ∀ s a t, Attending s → Expecting s → True → step M seconds s a = some t →
      Expecting t → Attending t := fun _ _ _ hs _ _ ht _ => hs.step ht
  have hexact : ∀ s a t, Attending s → Expecting s → True → step M seconds s a = some t →
      (Expecting t ↔ Attended s a) := fun _ _ _ hs hexp _ ht => expecting_step_iff hs hexp ht
  rw [← forall_prefix_iff_guarded hkeep hexact hstart hexpecting hany hrun]
  refine forall_congr' fun bs => forall_congr' fun _ => forall_congr' fun t => ?_
  apply forall_congr'
  intro ht
  rw [← expecting_iff]
  exact run_invariant_of_step (fun _ _ _ hs hstep => hs.step hstep) hstart ht

/-- The pop of a READ times out during the first query, which ends before the wait on it begins; the
page has two documents, and the queue room for one. -/
def sampleStuck : List Action :=
  [.reader, .reader, .read 0, .io, .ioExpire, .io, .io, .reader, .reader]

/-- Two documents in one page, and a queue for one of them: the second READ is stuck. -/
theorem not_stuck_iff_sample : ∃ bs t, bs <+: sampleStuck ++ [.io] ∧
    run (step Mongo.plain 0)
        (State.opened [sampleDocument 1, sampleDocument 2] (Broker.sampleBroker 0 2 1)) bs = some t ∧
      Stuck Mongo.plain 0 t := by
  obtain ⟨s, hs, hfault, f, hio, hcoming⟩ : ∃ s,
      run (step Mongo.plain 0)
          (State.opened [sampleDocument 1, sampleDocument 2] (Broker.sampleBroker 0 2 1))
          sampleStuck = some s ∧ s.fault = none ∧ ∃ f, s.io = .queryEnter (.read 0 f) ∧
        ¬Coming s := by
    refine ⟨_, rfl, rfl, _, rfl, ?_⟩
    decide
  have hstep : step Mongo.plain 0 s .io = some { s with io := .queryWait (.read 0 f) .waiting } := by
    simp [step, hfault, State.ioStep, hio]
  by_contra hnone
  push Not at hnone
  have hguarded := (not_stuck_iff Mongo.plain 0 [sampleDocument 1, sampleDocument 2]
    (fun _ => none) (Broker.sampleOptions 0 2 1) (Broker.sampleBroker 0 2 1) (by decide) _ _
    (run_concat hs hstep)).mp fun bs hbs t ht => hnone bs t hbs ht
  exact hcoming (((guarded_concat _ _ hs).mp hguarded).2 rfl 0 f hio)

end Zbroker.ReadSession
