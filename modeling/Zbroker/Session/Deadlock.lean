import Zbroker.Session.ReadFeed

/-!
# `term` against the read thread

`term` pops once, so that a read thread that is blocked in `push` goes on and sees `m_do_exit`, and
joins it. The pop may itself have to wait, for an item or for the end of a query.

* `Deadlock M seconds s` — the io thread is in `term`, and neither a deadline nor any step of the
  read thread lets it go on or ends the program.
* `State.queryFails` — the query of the read thread will end the program: its last document has no
  `_id`.
* `Unblocked` — the io thread begins a wait in `term` only for something that comes: a pop that has
  no deadline and finds nothing, if the read thread is past its exit test and about to push; the
  wait on `m_con_query`, during a query.
* `Leaving s` — where the threads can be once `m_do_exit` is set. From there the read thread always
  gets to its end (`exists_exit`).
* **`not_deadlock_iff`**: no state of a run is a deadlock exactly when the steps of the run are
  `Unblocked`.
A state is `Awaited` if something that `term` waits for is still to come, and a step keeps that exactly when
it is `Unblocked` (`awaited_step_iff`). A session that is not awaited hangs for good (`Hung.step`), and one
that is has a way on: the read thread reaches its exit (`exists_exit`), or the end of its query
(`exists_query_end`).
-/

namespace Zbroker.ReadSession

open Found Found.Transition

variable {M : Mongo} {seconds : Nat} {s t : State} {b : Broker}

/-! ## Deadlocks -/

/-- What happens without the io thread: the read thread goes on, or a deadline passes. -/
def Elsewhere (a : Action) : Prop := a = .reader ∨ a = .readerExpire ∨ a = .ioExpire

/-- The io thread is in `term` and stays there for good. -/
def Deadlock (M : Mongo) (seconds : Nat) (s : State) : Prop :=
  s.io.kind = .ending ∧ s.io ≠ .closed ∧
    ∀ as t, (∀ a ∈ as, Elsewhere a) → run (step M seconds) s as = some t →
      t.fault = none ∧ t.ioStep M = none

/-- Past the exit test, in front of a `push` or with the monitor again after its wait. -/
def Reader.pushes : Reader → Bool
  | .entering _ | .pushWait _ .notified => true
  | _ => false

/-- In a query, or in front of one. -/
def Reader.inQuery : Reader → Bool
  | .starting | .querying _ | .fetched => true
  | _ => false

/-- The query the read thread is in, or in front of, ends with the failed assertion. -/
def State.queryFails (M : Mongo) (s : State) : Bool :=
  match s.reader with
  | .starting => (s.broker.query M s.coll .asc).2.isSome
  | .querying conditions => (s.broker.queryFetch M s.coll .asc conditions).queryStore.2.isSome
  | .fetched => s.broker.queryStore.2.isSome
  | _ => false

/-- The io thread, in `term`, begins to wait only for what comes. -/
def Unblocked (M : Mongo) (s : State) (a : Action) : Prop :=
  a = .io →
    (∀ f, s.io = .entering (.term f) → s.broker.queue.queue = [] → f.timeout = 0 →
      s.reader.pushes = true ∨ s.queryFails M = true) ∧
    ∀ f, s.io = .queryEnter (.term f) → s.reader.inQuery = true

/-! ## Where the threads can be in `term` -/

/-- In `term`, in the wait of its pop or behind it. -/
def Io.BehindPop : Io → Prop
  | .popWait k _ | .timedOut k | .queryEnter k | .queryWait k _ => k.kind = .ending
  | .joining => True
  | _ => False

/-- Where the threads can be, once `term` has set `m_do_exit`: from its pop on, the read thread does
not wait in `push`, and will not. -/
structure Leaving (s : State) : Prop where
  placed : Placed s
  room : 1 ≤ s.broker.queue.limitSize
  exiting : s.io.kind = .ending → s.io ≠ .closed → s.broker.doExit = true
  released : s.io.BehindPop → (∀ docs, s.reader ≠ .pushWait docs .waiting) ∧
    ∀ docs, s.reader = .entering docs → s.broker.queue.isFull = false

/-- A notification leaves it there. -/
@[simp] theorem behindPop_notify (p : Io) : p.notify.BehindPop ↔ p.BehindPop := by
  cases p <;> exact Iff.rfl

@[simp] theorem behindPop_notifyQuery (p : Io) : p.notifyQuery.BehindPop ↔ p.BehindPop := by
  cases p <;> exact Iff.rfl

/-- It is `term` that is there. -/
theorem Io.BehindPop.kind {p : Io} (h : p.BehindPop) : p.kind = .ending ∧ p ≠ .closed := by
  constructor
  · cases p <;> first | exact h | rfl | exact h.elim
  · rintro rfl
    exact h.elim

/-- It is so when the session has been opened. -/
theorem leaving_opened {connect : String → Option String} {options : BSONObj}
    (hopen : Broker.new.openOn connect (some options) = (b, none)) (hroom : 1 ≤ b.queue.limitSize)
    (coll : List Document) : Leaving (State.opened coll b) :=
  ⟨placed_opened hopen coll, hroom, fun hkind => (by cases hkind), fun hpop => (by cases hpop)⟩

section leaving

/-- What a step of the read thread leaves as it is. -/
theorem ReaderStep.frame (h : ReaderStep M s t) :
    t.broker.queue.limitSize = s.broker.queue.limitSize ∧ t.broker.doExit = s.broker.doExit ∧
      t.io.kind = s.io.kind ∧ (t.io.BehindPop ↔ s.io.BehindPop) ∧ (s.io = .closed → t.io = .closed) := by
  have hnotify (hio : s.io = .closed) : s.io.notify = .closed := by
    rw [hio]
    rfl
  have hnotifyQuery (hio : s.io = .closed) : s.io.notifyQuery = .closed := by
    rw [hio]
    rfl
  cases h with
  | store c hr hc =>
      have hc' := eq_of_queryStore hc
      have hqueue : c.queue = s.broker.queue := by rw [hc']
      have hexit : c.doExit = s.broker.doExit := by rw [hc']
      exact ⟨congrArg SizedQueue.limitSize hqueue, hexit, kind_notifyQuery s.io,
        behindPop_notifyQuery s.io, hnotifyQuery⟩
  | branch docs hr =>
      unfold State.branch
      split_ifs
      · exact ⟨rfl, rfl, rfl, Iff.rfl, fun hio => hio⟩
      · exact ⟨rfl, rfl, rfl, Iff.rfl, fun hio => hio⟩
  | wait docs hr hfull =>
      exact ⟨rfl, rfl, kind_notify s.io, behindPop_notify s.io, hnotify⟩
  | push docs hr =>
      exact ⟨SizedQueue.limitSize_fill _ _, rfl, kind_notify s.io, behindPop_notify s.io,
        hnotify⟩
  | _ => exact ⟨rfl, rfl, rfl, Iff.rfl, fun hio => hio⟩

/-- With `m_do_exit` set, a read thread that does not wait in `push` does not come to. -/
theorem ReaderStep.released (h : ReaderStep M s t) (hexit : s.broker.doExit = true)
    (hroom : ∀ docs, s.reader = .entering docs → s.broker.queue.isFull = false) :
    (∀ docs, t.reader ≠ .pushWait docs .waiting) ∧ ∀ docs, t.reader ≠ .entering docs := by
  cases h with
  | turn hr => simp [hexit]
  | start hr => simp [State.startQuery]
  | fetch conditions hr => simp [State.fetchQuery]
  | store c hr hc => simp [State.stored]
  | fail e hr hc => simp [hr]
  | branch docs hr =>
      unfold State.branch
      split_ifs <;> simp
  | test docs hr => simp [hexit]
  | wait docs hr hfull =>
      rw [hroom docs hr] at hfull
      cases hfull
  | push docs hr => simp [State.push]
  | giveUp docs hr => simp [hexit]
  | rise hr => simp

/-- **Every step of the read thread keeps it so.** -/
theorem Leaving.readerStep (h : Leaving s) (hstep : ReaderStep M s t) : Leaving t := by
  obtain ⟨hlimit, hexit, hkind, hbehind, hclosed⟩ := hstep.frame
  refine ⟨h.placed.readerStep hstep, by rw [hlimit]; exact h.room, ?_, ?_⟩
  · intro hk hopen
    rw [hexit]
    apply h.exiting (hkind ▸ hk)
    exact fun hio => hopen (hclosed hio)
  · intro hb
    rw [hbehind] at hb
    obtain ⟨hending, hopen⟩ := hb.kind
    obtain ⟨hwait, henter⟩ := hstep.released (h.exiting hending hopen) (h.released hb).2
    exact ⟨hwait, fun docs hr => absurd hr (henter docs)⟩

/-- Only the io thread has moved on, in a call and behind its pop, or from it to the join. -/
theorem Leaving.of_call (h : Leaving s) {k : Call} {p : Io} (hplaced : Placed { s with io := p })
    (hkind : s.io.kind = k.kind) (hopen : s.io ≠ .closed) (hbehind : k.kind = .ending → s.io.BehindPop)
    (hp : p.kind = .free ∨ p.kind = k.kind) : Leaving { s with io := p } := by
  have hending (hpk : p.kind = .ending) : k.kind = .ending := by
    rcases hp with hfree | hcall
    · rw [hfree] at hpk
      cases hpk
    · exact hcall ▸ hpk
  refine ⟨hplaced, h.room, ?_, ?_⟩
  · intro hpk _
    exact h.exiting (hkind.trans (hending hpk)) hopen
  · intro hpb
    exact h.released (hbehind (hending hpb.kind.1))

/-- A call of `term` takes an item: there is room in the queue then, and the read thread has been
notified. -/
theorem Leaving.popped (h : Leaving s) {k : Call} {d : BSONObj} {rest : List BSONObj}
    (hplaced : Placed (s.popped k d rest)) (hkind : s.io.kind = k.kind) (hopen : s.io ≠ .closed)
    (hqueue : s.broker.queue.queue = d :: rest) : Leaving (s.popped k d rest) := by
  have hlength := h.placed.length
  rw [hqueue, List.length_cons] at hlength
  refine ⟨hplaced, h.room, ?_, fun _ => ⟨fun docs => ?_, fun docs _ => ?_⟩⟩
  · intro hk _
    apply h.exiting _ hopen
    rw [hkind]
    rcases kind_onItem d k with hfree | hsame
    · rw [show (s.popped k d rest).io = k.onItem d from rfl, hfree] at hk
      cases hk
    · exact hsame ▸ hk
  · exact Reader.notify_ne_pushWait s.reader docs
  · show decide (s.broker.queue.limitSize ≤ rest.length) = false
    rw [decide_eq_false_iff_not]
    omega

/-- **Every step of the io thread keeps it so.** -/
theorem Leaving.ioStep (h : Leaving s) (hstep : IoStep M s t) : Leaving t := by
  have hplaced := h.placed.ioStep hstep
  cases hstep with
  | refuse k e hio he =>
      have hnone := h.placed.opened (by rw [hio]; rintro ⟨⟩)
      rw [hnone] at he
      cases he
  | wait k hio hqueue =>
      refine ⟨hplaced, h.room, ?_, fun _ => ⟨fun docs => ?_, fun docs _ => ?_⟩⟩
      · intro hk _
        apply h.exiting
        · rw [hio]
          exact hk
        · rw [hio]
          rintro ⟨⟩
      · exact Reader.notify_ne_pushWait s.reader docs
      · show decide (s.broker.queue.limitSize ≤ s.broker.queue.queue.length) = false
        rw [hqueue, decide_eq_false_iff_not]
        exact Nat.not_le.mpr h.room
  | pop k d rest hio hqueue =>
      rcases hio with hio | hio
      · exact h.popped hplaced (by rw [hio]; rfl) (by rw [hio]; rintro ⟨⟩) hqueue
      · exact h.popped hplaced (by rw [hio]; rfl) (by rw [hio]; rintro ⟨⟩) hqueue
  | fault e hio => exact ⟨hplaced, h.room, h.exiting, h.released⟩
  | timeOut k hio =>
      exact h.of_call hplaced (by rw [hio]; rfl) (by rw [hio]; rintro ⟨⟩)
        (fun hk => by rw [hio]; exact hk) (kind_onThrow k)
  | handle k hio =>
      split_ifs at hplaced ⊢
      · exact h.of_call hplaced (by rw [hio]; rfl) (by rw [hio]; rintro ⟨⟩)
          (fun hk => by rw [hio]; exact hk) (Or.inr rfl)
      · exact h.of_call hplaced (by rw [hio]; rfl) (by rw [hio]; rintro ⟨⟩)
          (fun hk => by rw [hio]; exact hk) (kind_onTimeout _ k)
  | queryEnter k hio =>
      exact h.of_call hplaced (by rw [hio]; rfl) (by rw [hio]; rintro ⟨⟩)
        (fun hk => by rw [hio]; exact hk) (Or.inr rfl)
  | queryLeave k hio =>
      exact h.of_call hplaced (by rw [hio]; rfl) (by rw [hio]; rintro ⟨⟩)
        (fun hk => by rw [hio]; exact hk) (kind_onTimeout _ k)
  | respond conn docs ret hio =>
      unfold State.respond at hplaced ⊢
      split at hplaced <;> exact ⟨hplaced, h.room, fun hk => (by cases hk), fun hb => hb.elim⟩
  | reach hio hqueue =>
      refine ⟨hplaced, h.room, ?_, fun hb => hb.elim⟩
      intro _ _
      exact h.exiting (by rw [hio]; rfl) (by rw [hio]; rintro ⟨⟩)
  | join hio hreach =>
      -- `m_reach_end` is not set while the read thread has a page to push
      have hpush : s.reader.inPush ≠ true := by
        intro hpush
        rw [h.placed.reachEnd hpush] at hreach
        cases hreach
      refine ⟨hplaced, h.room, ?_, fun _ => ⟨fun docs hr => ?_, fun docs hr => ?_⟩⟩
      · intro _ _
        exact h.exiting (by rw [hio]; rfl) (by rw [hio]; rintro ⟨⟩)
      · exact hpush (by rw [show s.reader = .pushWait docs .waiting from hr]; rfl)
      · exact absurd (by rw [show s.reader = .entering docs from hr]; rfl) hpush
  | last f hio hf =>
      refine ⟨hplaced, h.room, ?_, fun hb => hb.elim⟩
      intro _ _
      rcases hio with ⟨hio, -⟩ | ⟨hio, -⟩
      · exact h.exiting (by rw [hio]; rfl) (by rw [hio]; rintro ⟨⟩)
      · exact h.exiting (by rw [hio]; rfl) (by rw [hio]; rintro ⟨⟩)
  | close hio hr =>
      exact ⟨hplaced, h.room, fun _ hopen => absurd rfl hopen, fun hb => hb.elim⟩

/-- **Every step leaves the threads so.** -/
theorem Leaving.step {a : Action} (h : Leaving s) (hstep : step M seconds s a = some t) :
    Leaving t := by
  have hplaced := h.placed.step hstep
  rcases step_effect hstep with ⟨_, hreader⟩ | ⟨_, hio⟩ | ⟨docs, hr, -⟩ | ⟨docs, hr⟩ | ⟨k, hio, -⟩ |
    ⟨k, hio⟩ | ⟨k, hio⟩ | ⟨conn, hio⟩ | ⟨n, hio⟩ | hio | hio | ⟨d, -⟩
  · exact h.readerStep hreader
  · exact h.ioStep hio
  · exact ⟨hplaced, h.room, h.exiting, fun _ => ⟨fun _ hd => (by cases hd), fun _ hd => (by cases hd)⟩⟩
  · exact ⟨hplaced, h.room, h.exiting, fun _ => ⟨fun _ hd => (by cases hd), fun _ hd => (by cases hd)⟩⟩
  · exact h.of_call hplaced (by rw [hio]; rfl) (by rw [hio]; rintro ⟨⟩)
      (fun hk => by rw [hio]; exact hk) (Or.inr rfl)
  · exact h.of_call hplaced (by rw [hio]; rfl) (by rw [hio]; rintro ⟨⟩)
      (fun hk => by rw [hio]; exact hk) (Or.inr rfl)
  · exact h.of_call hplaced (by rw [hio]; rfl) (by rw [hio]; rintro ⟨⟩)
      (fun hk => by rw [hio]; exact hk) (Or.inr rfl)
  · unfold State.startRead at hplaced ⊢
    split_ifs at hplaced ⊢
    · split at hplaced
      · exact ⟨hplaced, h.room, h.exiting, h.released⟩
      · exact ⟨hplaced, h.room, fun hk => (by cases hk), fun hb => hb.elim⟩
    · exact ⟨hplaced, h.room, h.exiting, h.released⟩
  · exact ⟨hplaced, h.room, fun hk => (by cases hk), fun hb => hb.elim⟩
  · unfold State.rewind at hplaced ⊢
    split_ifs at hplaced ⊢
    · exact ⟨hplaced, h.room, h.exiting, h.released⟩
    · exact h
  · unfold State.startTerm at hplaced ⊢
    split_ifs at hplaced ⊢
    · exact ⟨hplaced, h.room, fun _ _ => rfl, fun hb => hb.elim⟩
    · exact ⟨hplaced, h.room, fun _ hopen => absurd rfl hopen, fun hb => hb.elim⟩
  · exact ⟨hplaced, h.room, h.exiting, h.released⟩

end leaving

/-! ## Queries that end the program -/

section query

/-- A query is stored unless its last document has no `_id`. -/
theorem queryStore_fails_iff (c : Broker) : c.queryStore.2.isSome = true ↔
    ∃ doc, c.jsonDocCache.getLast? = some doc ∧ BSON.objectID doc = none := by
  unfold Broker.queryStore
  split
  · rename_i hnone
    simp [hnone]
  · rename_i doc hdoc
    rcases hid : BSON.objectID doc with _ | id
    · simp [hdoc, hid]
    · simp [hdoc, hid]

/-- A query that is sent ends with the failed assertion if the server refuses its skip, or if there is
a document behind the skipped ones and the fields drop `_id`. -/
theorem fetch_fails_iff (coll : List Document) (conditions : BSONObj) (c : Broker) :
    (c.queryFetch M coll .asc conditions).queryStore.2.isSome = true ↔
      c.skip < 0 ∨ c.skip.toNat < (coll.filter (M.satisfies conditions)).length ∧
        Mongo.keepsId c.queryFields = false := by
  rw [queryStore_fails_iff]
  show (∃ doc, (M.find coll conditions .asc c.limit c.skip c.queryFields).getLast? = some doc ∧
    BSON.objectID doc = none) ↔ _
  rcases lt_or_ge c.skip 0 with hneg | hskip
  · obtain ⟨refusal, hfind, hid⟩ :=
      M.find_of_neg coll conditions .asc c.limit c.skip c.queryFields hneg
    rw [hfind]
    exact ⟨fun _ => Or.inl hneg, fun _ => ⟨refusal, List.getLast?_singleton, hid⟩⟩
  rw [M.find_eq _ _ _ _ _ hskip, or_iff_right (not_lt.mpr hskip)]
  generalize hfound : Mongo.limitTo c.limit ((Mongo.sortById .asc
    (coll.filter (M.satisfies conditions))).drop c.skip.toNat) = found
  have hnil : found = [] ↔ (coll.filter (M.satisfies conditions)).length ≤ c.skip.toNat := by
    rw [← hfound]
    unfold Mongo.limitTo Mongo.sortById
    split_ifs with hlimit
    · rw [List.drop_eq_nil_iff, Keyset.length_sortBy]
    · rw [List.take_eq_nil_iff, List.drop_eq_nil_iff, Keyset.length_sortBy]
      simp [hlimit]
  rw [List.getLast?_map]
  rcases hlast : found.getLast? with _ | d
  · rw [List.getLast?_eq_none_iff, hnil] at hlast
    simp
    omega
  · have hne : found ≠ [] := by
      rintro rfl
      cases hlast
    rw [Ne, hnil, not_le] at hne
    simp [M.objectID_view, hne]

/-- Documents that come make no query succeed that fails without them. -/
theorem queryFails_insert (d : Document) (h : s.queryFails M = true) :
    State.queryFails M { s with coll := s.coll ++ [d] } = true := by
  have hfetch (c : Broker) (conditions : BSONObj)
      (hc : (c.queryFetch M s.coll .asc conditions).queryStore.2.isSome = true) :
      (c.queryFetch M (s.coll ++ [d]) .asc conditions).queryStore.2.isSome = true := by
    rw [fetch_fails_iff] at hc ⊢
    refine hc.imp_right fun hdrop => ⟨hdrop.1.trans_le ?_, hdrop.2⟩
    rw [List.filter_append, List.length_append]
    exact Nat.le_add_right _ _
  unfold State.queryFails at h ⊢
  cases hr : s.reader with
  | starting =>
      simp only [hr] at h ⊢
      exact hfetch s.broker.queryStart s.broker.prepareCondition h
  | querying conditions =>
      simp only [hr] at h ⊢
      exact hfetch s.broker conditions h
  | fetched =>
      simp only [hr] at h ⊢
      exact h
  | _ => simp [hr] at h

/-- A query can fail only where there is one. -/
theorem inQuery_of_queryFails (h : s.queryFails M = true) : s.reader.inQuery = true := by
  unfold State.queryFails at h
  cases hr : s.reader with
  | starting => rfl
  | querying conditions => rfl
  | fetched => rfl
  | _ => simp [hr] at h

end query

/-! ## One step -/

/-- The io thread waits in `term` only for what comes. -/
def Awaited (M : Mongo) (s : State) : Prop :=
  s.fault = none →
    (∀ f, s.io = .popWait (.term f) .waiting → f.timeout = 0 →
      s.reader.pushes = true ∨ s.queryFails M = true) ∧
    ∀ f, s.io = .queryWait (.term f) .waiting → s.reader.inQuery = true

section awaited

/-- Where `term` does not wait, nothing is missing. -/
theorem awaited_of_ne (hpop : ∀ f, s.io ≠ .popWait (.term f) .waiting)
    (hquery : ∀ f, s.io ≠ .queryWait (.term f) .waiting) : Awaited M s :=
  fun _ => ⟨fun f hio => absurd hio (hpop f), fun f hio => absurd hio (hquery f)⟩

/-- An io thread that runs does not wait. -/
theorem awaited_of_runs (h : s.io.runs = true) : Awaited M s := by
  apply awaited_of_ne
  · intro f hio
    rw [hio] at h
    cases h
  · intro f hio
    rw [hio] at h
    cases h

/-- Away from the two places where `term` may block, no event blocks it. -/
theorem unblocked_of_ne {a : Action} (hentering : ∀ f, s.io ≠ .entering (.term f))
    (hquery : ∀ f, s.io ≠ .queryEnter (.term f)) : Unblocked M s a :=
  fun _ => ⟨fun f hio => absurd hio (hentering f), fun f hio => absurd hio (hquery f)⟩

/-- What the read thread does about a wait in `term` that it can end. -/
theorem Awaited.readerStep (h : Awaited M s) (hfault : s.fault = none) (hstep : ReaderStep M s t) :
    Awaited M t := by
  obtain ⟨hpop, hquery⟩ := h hfault
  -- where the read thread is neither in a query nor about to push, nobody waits
  have hquiet (hpushes : s.reader.pushes = false) (hin : s.reader.inQuery = false)
      (hio : t.io = s.io) : Awaited M t := by
    intro _
    rw [hio]
    refine ⟨?_, ?_⟩
    · intro f hf htimeout
      rcases hpop f hf htimeout with hp | hfails
      · rw [hpushes] at hp
        cases hp
      · rw [inQuery_of_queryFails hfails] at hin
        cases hin
    · intro f hf
      rw [hquery f hf] at hin
      cases hin
  cases hstep with
  | turn hr => exact hquiet (by rw [hr]; rfl) (by rw [hr]; rfl) rfl
  | start hr =>
      refine fun _ => ⟨fun f hf htimeout => Or.inr ?_, fun _ _ => rfl⟩
      have hbefore := hpop f hf htimeout
      simp only [hr, Reader.pushes, Bool.false_eq_true, false_or, State.queryFails] at hbefore
      exact hbefore
  | fetch conditions hr =>
      refine fun _ => ⟨fun f hf htimeout => Or.inr ?_, fun _ _ => rfl⟩
      have hbefore := hpop f hf htimeout
      simp only [hr, Reader.pushes, Bool.false_eq_true, false_or, State.queryFails] at hbefore
      exact hbefore
  | store c hr hc =>
      refine fun _ => ⟨fun f hf htimeout => ?_, fun f hf => ?_⟩
      · have hbefore := hpop f (Io.notifyQuery_eq_popWait hf) htimeout
        simp [hr, Reader.pushes, State.queryFails, hc] at hbefore
      · exact absurd hf (Io.notifyQuery_ne_queryWait s.io (.term f))
  | fail e hr hc => exact fun hnone => by cases hnone
  | branch docs hr =>
      apply hquiet (by rw [hr]; rfl) (by rw [hr]; rfl)
      unfold State.branch
      split_ifs <;> rfl
  | test docs hr => exact hquiet (by rw [hr]; rfl) (by rw [hr]; rfl) rfl
  | wait docs hr hfull =>
      refine fun _ => ⟨fun f hf _ => absurd hf (Io.notify_ne_popWait s.io (.term f)), fun f hf => ?_⟩
      have hbefore := hquery f (Io.notify_eq_queryWait hf)
      simp [hr, Reader.inQuery] at hbefore
  | push docs hr =>
      refine fun _ => ⟨fun f hf _ => absurd hf (Io.notify_ne_popWait s.io (.term f)), fun f hf => ?_⟩
      have hbefore := hquery f (Io.notify_eq_queryWait hf)
      rcases hr with ⟨hr, -⟩ | hr <;> simp [hr, Reader.inQuery] at hbefore
  | giveUp docs hr => exact hquiet (by rw [hr]; rfl) (by rw [hr]; rfl) rfl
  | rise hr => exact hquiet (by rw [hr]; rfl) (by rw [hr]; rfl) rfl

/-- An empty queue is not full, so nobody waits to push. -/
theorem Leaving.notify_reader (h : Leaving s) (hqueue : s.broker.queue.queue = []) :
    s.reader.notify = s.reader := by
  have hwait (docs : List BSONObj) : s.reader ≠ .pushWait docs .waiting := by
    intro hr
    have hfull := h.placed.full docs hr
    rw [SizedQueue.isFull, hqueue, decide_eq_true_iff] at hfull
    exact absurd (h.room.trans hfull) (by simp)
  rcases hr : s.reader with _ | _ | _ | _ | _ | _ | _ | ⟨docs, _ | _ | _⟩ | _ | _
  case pushWait.waiting => exact absurd hr (hwait docs)
  all_goals rfl

/-- A pop that finds the queue empty begins to wait, for a push or for nothing. -/
theorem awaited_waitPop_iff (h : Leaving s) (hfault : s.fault = none) {k : Call}
    (hio : s.io = .entering k) (hqueue : s.broker.queue.queue = []) :
    Awaited M (s.waitPop k) ↔ Unblocked M s .io := by
  have hsame : s.waitPop k = { s with io := .popWait k .waiting } := by
    rw [State.waitPop, h.notify_reader hqueue]
  rw [hsame]
  constructor
  · intro hawaited _
    refine ⟨?_, ?_⟩
    · intro f hf _ htimeout
      rw [hio] at hf
      cases hf
      exact (hawaited hfault).1 f rfl htimeout
    · intro f hf
      rw [hio] at hf
      cases hf
  · intro hunblocked _
    refine ⟨?_, ?_⟩
    · intro f hf htimeout
      cases hf
      exact (hunblocked rfl).1 f hio hqueue htimeout
    · intro f hf
      cases hf

/-- A call whose pop has timed out waits for the end of a query, if there is one. -/
theorem awaited_queryWait_iff (hfault : s.fault = none) {k : Call} (hio : s.io = .queryEnter k) :
    Awaited M { s with io := .queryWait k .waiting } ↔ Unblocked M s .io := by
  constructor
  · intro hawaited _
    refine ⟨?_, ?_⟩
    · intro f hf
      rw [hio] at hf
      cases hf
    · intro f hf
      rw [hio] at hf
      cases hf
      exact (hawaited hfault).2 f rfl
  · intro hunblocked _
    refine ⟨?_, ?_⟩
    · intro f hf
      cases hf
    · intro f hf
      cases hf
      exact (hunblocked rfl).2 f hio

/-- The io thread begins a wait for what comes, or it begins none. -/
theorem awaited_ioStep_iff (h : Leaving s) (hfault : s.fault = none) (hstep : IoStep M s t) :
    Awaited M t ↔ Unblocked M s .io := by
  cases hstep with
  | refuse k e hio he =>
      have hnone := h.placed.opened (by rw [hio]; rintro ⟨⟩)
      rw [hnone] at he
      cases he
  | wait k hio hqueue => exact awaited_waitPop_iff h hfault hio hqueue
  | pop k d rest hio hqueue =>
      refine iff_of_true (awaited_of_runs (runs_onItem d k)) fun _ => ⟨fun f hf hnil => ?_, fun f hf => ?_⟩
      · rw [hqueue] at hnil
        cases hnil
      · rcases hio with hio | hio
        · rw [hio] at hf
          cases hf
        · rw [hio] at hf
          cases hf
  | fault e hio =>
      refine iff_of_true (fun hnone => by cases hnone) (unblocked_of_ne ?_ ?_)
      · intro f hf
        rw [hf] at hio
        rcases hio with ⟨k, hk⟩ | hk | hk <;> cases hk
      · intro f hf
        rw [hf] at hio
        rcases hio with ⟨k, hk⟩ | hk | hk <;> cases hk
  | timeOut k hio =>
      exact iff_of_true (awaited_of_runs (runs_onThrow k))
        (unblocked_of_ne (by rw [hio]; rintro f ⟨⟩) (by rw [hio]; rintro f ⟨⟩))
  | handle k hio =>
      refine iff_of_true (awaited_of_runs ?_)
        (unblocked_of_ne (by rw [hio]; rintro f ⟨⟩) (by rw [hio]; rintro f ⟨⟩))
      show (if s.broker.querying then Io.queryEnter k else k.onTimeout s.broker).runs = true
      split_ifs
      · rfl
      · exact runs_onTimeout s.broker k
  | queryEnter k hio => exact awaited_queryWait_iff hfault hio
  | queryLeave k hio =>
      exact iff_of_true (awaited_of_runs (runs_onTimeout s.broker k))
        (unblocked_of_ne (by rw [hio]; rintro f ⟨⟩) (by rw [hio]; rintro f ⟨⟩))
  | respond conn docs ret hio =>
      refine iff_of_true (awaited_of_runs ?_)
        (unblocked_of_ne (by rw [hio]; rintro f ⟨⟩) (by rw [hio]; rintro f ⟨⟩))
      unfold State.respond
      split <;> rfl
  | reach hio hqueue =>
      exact iff_of_true (awaited_of_runs rfl)
        (unblocked_of_ne (by rw [hio]; rintro f ⟨⟩) (by rw [hio]; rintro f ⟨⟩))
  | join hio hreach =>
      exact iff_of_true (awaited_of_runs rfl)
        (unblocked_of_ne (by rw [hio]; rintro f ⟨⟩) (by rw [hio]; rintro f ⟨⟩))
  | last f hio hf =>
      refine iff_of_true (awaited_of_runs rfl) (unblocked_of_ne ?_ ?_)
      · intro g hg
        rw [hg] at hio
        rcases hio with ⟨hio, -⟩ | ⟨hio, -⟩ <;> cases hio
      · intro g hg
        rw [hg] at hio
        rcases hio with ⟨hio, -⟩ | ⟨hio, -⟩ <;> cases hio
  | close hio hr =>
      exact iff_of_true (awaited_of_ne (by rintro f ⟨⟩) (by rintro f ⟨⟩))
        (unblocked_of_ne (by rw [hio]; rintro f ⟨⟩) (by rw [hio]; rintro f ⟨⟩))

/-- A wait in `push` is nothing that is awaited. -/
theorem Awaited.of_pushWait (h : Awaited M s) (hfault : s.fault = none) {docs : List BSONObj} {r : Reader}
    (hr : s.reader = .pushWait docs .waiting) : Awaited M { s with reader := r } := by
  obtain ⟨hpop, hquery⟩ := h hfault
  refine fun _ => ⟨fun f hf htimeout => ?_, fun f hf => ?_⟩
  · have hbefore := hpop f hf htimeout
    simp [hr, Reader.pushes, State.queryFails] at hbefore
  · have hbefore := hquery f hf
    simp [hr, Reader.inQuery] at hbefore

/-- **What one step does.** -/
theorem awaited_step_iff {a : Action} (h : Leaving s) (hawaited : Awaited M s)
    (hstep : step M seconds s a = some t) : Awaited M t ↔ Unblocked M s a := by
  have hfault := fault_of_step hstep
  rcases step_effect hstep with ⟨_, hreader⟩ | ⟨_, hio⟩ | ⟨docs, hr, -⟩ | ⟨docs, hr⟩ | ⟨k, hio, -⟩ |
    ⟨k, hio⟩ | ⟨k, hio⟩ | ⟨conn, hio⟩ | ⟨n, hio⟩ | hio | hio | ⟨d, -⟩
  · exact iff_of_true (hawaited.readerStep hfault hreader) (by rintro ⟨⟩)
  · exact awaited_ioStep_iff h hfault hio
  · exact iff_of_true (hawaited.of_pushWait hfault hr) (by rintro ⟨⟩)
  · exact iff_of_true (hawaited.of_pushWait hfault hr) (by rintro ⟨⟩)
  · exact iff_of_true (awaited_of_ne (by rintro f ⟨⟩) (by rintro f ⟨⟩)) (by rintro ⟨⟩)
  · exact iff_of_true (awaited_of_ne (by rintro f ⟨⟩) (by rintro f ⟨⟩)) (by rintro ⟨⟩)
  · exact iff_of_true (awaited_of_ne (by rintro f ⟨⟩) (by rintro f ⟨⟩)) (by rintro ⟨⟩)
  · refine iff_of_true (awaited_of_runs ?_) (by rintro ⟨⟩)
    unfold State.startRead
    split_ifs
    · split
      · rw [show ({ s with fault := some _ } : State).io = s.io from rfl, hio]
        rfl
      · rfl
    · rw [show ({ s with fault := some _ } : State).io = s.io from rfl, hio]
      rfl
  · exact iff_of_true (awaited_of_runs rfl) (by rintro ⟨⟩)
  · refine iff_of_true (awaited_of_runs ?_) (by rintro ⟨⟩)
    unfold State.rewind
    split_ifs
    · show s.io.runs = true
      rw [hio]
      rfl
    · rw [hio]
      rfl
  · refine iff_of_true ?_ (by rintro ⟨⟩)
    unfold State.startTerm
    split_ifs
    · exact awaited_of_runs rfl
    · exact awaited_of_ne (by rintro f ⟨⟩) (by rintro f ⟨⟩)
  · obtain ⟨hpop, hquery⟩ := hawaited hfault
    refine iff_of_true (fun _ => ⟨fun f hf htimeout => ?_, hquery⟩) (by rintro ⟨⟩)
    exact (hpop f hf htimeout).imp_right fun hfails => queryFails_insert d hfails

end awaited

/-! ## The way out -/

/-- The steps of the read thread to its end, once `m_do_exit` is set. -/
def Reader.toExit : Reader → Nat
  | .exited => 0
  | .loop => 1
  | .sleeping | .pushing _ => 2
  | .returned _ | .entering _ | .pushWait _ _ => 3
  | .fetched => 4
  | .querying _ => 5
  | .starting => 6

section exits

/-- The read thread has a step, unless it waits or is through. -/
theorem exists_readerStep (hfault : s.fault = none) (hexited : s.reader ≠ .exited)
    (hwait : ∀ docs, s.reader ≠ .pushWait docs .waiting) :
    ∃ t, step M seconds s .reader = some t := by
  have hrunning : s.fault.isSome = false := by rw [hfault]; rfl
  simp only [step, hrunning, Bool.false_eq_true, if_false, State.readerStep]
  rcases hr : s.reader with _ | _ | _ | _ | _ | _ | _ | ⟨docs, _ | _ | _⟩ | _ | _
  case exited => exact absurd hr hexited
  case pushWait.waiting => exact absurd hr (hwait docs)
  case entering =>
    simp only
    split_ifs
    · exact ⟨_, rfl⟩
    · exact ⟨_, rfl⟩
  all_goals exact ⟨_, rfl⟩

/-- With `m_do_exit` set, every step of the read thread brings it nearer to its end, or ends the
program. -/
theorem ReaderStep.toExit_lt (h : ReaderStep M s t) (hexit : s.broker.doExit = true)
    (hroom : ∀ docs, s.reader = .entering docs → s.broker.queue.isFull = false) :
    t.fault ≠ none ∨ t.fault = s.fault ∧ t.reader.toExit < s.reader.toExit := by
  cases h with
  | turn hr => exact Or.inr ⟨rfl, by simp [hr, hexit, Reader.toExit]⟩
  | start hr => exact Or.inr ⟨rfl, by simp [hr, State.startQuery, Reader.toExit]⟩
  | fetch conditions hr => exact Or.inr ⟨rfl, by simp [hr, State.fetchQuery, Reader.toExit]⟩
  | store c hr hc => exact Or.inr ⟨rfl, by simp [hr, State.stored, Reader.toExit]⟩
  | fail e hr hc => exact Or.inl fun hnone => by cases hnone
  | branch docs hr =>
      refine Or.inr ?_
      unfold State.branch
      split_ifs
      · exact ⟨rfl, by simp [hr, Reader.toExit]⟩
      · exact ⟨rfl, by simp [hr, Reader.toExit]⟩
  | test docs hr => exact Or.inr ⟨rfl, by simp [hr, hexit, Reader.toExit]⟩
  | wait docs hr hfull =>
      rw [hroom docs hr] at hfull
      cases hfull
  | push docs hr =>
      refine Or.inr ⟨rfl, ?_⟩
      rcases hr with ⟨hr, -⟩ | hr
      · simp [hr, State.push, Reader.toExit]
      · simp [hr, State.push, Reader.toExit]
  | giveUp docs hr => exact Or.inr ⟨rfl, by simp [hr, hexit, Reader.toExit]⟩
  | rise hr => exact Or.inr ⟨rfl, by simp [hr, Reader.toExit]⟩

/-- **`pthread_join` returns.** When `term` joins the read thread, the steps of that thread alone
lead to its end, or to the end of the program. -/
theorem exists_exit (h : Leaving s) (hio : s.io = .joining) :
    ∃ as t, (∀ a ∈ as, a = .reader) ∧ run (step M seconds) s as = some t ∧
      (Leaving t ∧ t.io = .joining) ∧ (t.fault ≠ none ∨ t.reader = .exited) := by
  let left (s : State) : Nat := if s.fault.isSome then 0 else s.reader.toExit + 1
  refine exists_run_of_progress (I := fun s : State => Leaving s ∧ s.io = .joining) left ?_ ⟨h, hio⟩
  intro s hs
  obtain ⟨hs, hio⟩ := hs
  by_cases hdone : s.fault ≠ none ∨ s.reader = .exited
  · exact Or.inl hdone
  push Not at hdone
  obtain ⟨hfault, hexited⟩ := hdone
  have hbehind : s.io.BehindPop := by
    rw [hio]
    trivial
  obtain ⟨hwait, hroom⟩ := hs.released hbehind
  obtain ⟨t, ht⟩ := @exists_readerStep M seconds s hfault hexited hwait
  obtain ⟨_, hreader⟩ := step_effect ht
  refine Or.inr ⟨[.reader], t, by simp, ?_, ⟨hs.step ht, ?_⟩, ?_⟩
  · rw [run_cons, ht]
    rfl
  · rcases hreader.io with h | h | h
    · rw [h, hio]
    · rw [h, hio]
      rfl
    · rw [h, hio]
      rfl
  · have hexit := hs.exiting hbehind.kind.1 hbehind.kind.2
    have hleft : left s = s.reader.toExit + 1 := by simp [left, hfault]
    rcases hreader.toExit_lt hexit hroom with hended | ⟨hsame, hlt⟩
    · have hzero : left t = 0 := by
        simp only [left]
        rw [if_pos (Option.isSome_iff_ne_none.mpr hended)]
      rw [hzero, hleft]
      exact Nat.succ_pos _
    · have hleft' : left t = t.reader.toExit + 1 := by simp [left, hsame, hfault]
      rw [hleft', hleft]
      exact Nat.succ_lt_succ hlt

/-- A query ends: the steps of the read thread alone lead to its notification, or to the end of the
program, which is where a query that fails leads. -/
theorem exists_query_end (hfault : s.fault = none) (hin : s.reader.inQuery = true) :
    ∃ as t, (∀ a ∈ as, a = .reader) ∧ run (step M seconds) s as = some t ∧
      (t.fault ≠ none ∨ s.queryFails M = false ∧ t.io = s.io.notifyQuery) := by
  have hstored (s : State) (hfault : s.fault = none) (hr : s.reader = .fetched) :
      ∃ as t, (∀ a ∈ as, a = .reader) ∧ run (step M seconds) s as = some t ∧
        (t.fault ≠ none ∨ s.queryFails M = false ∧ t.io = s.io.notifyQuery) := by
    refine ⟨[.reader], s.storeQuery, by simp, by simp [run, step, hfault, State.readerStep, hr], ?_⟩
    unfold State.storeQuery State.queryFails
    rcases hc : s.broker.queryStore with ⟨c, _ | e⟩
    · exact Or.inr ⟨by simp [hr], rfl⟩
    · exact Or.inl fun hnone => by cases hnone
  have hfetched (s : State) (hfault : s.fault = none) (conditions : BSONObj)
      (hr : s.reader = .querying conditions) :
      ∃ as t, (∀ a ∈ as, a = .reader) ∧ run (step M seconds) s as = some t ∧
        (t.fault ≠ none ∨ s.queryFails M = false ∧ t.io = s.io.notifyQuery) := by
    obtain ⟨as, t, has, hrun, hend⟩ := hstored (s.fetchQuery M conditions) hfault rfl
    refine ⟨.reader :: as, t, by simpa using has, ?_, hend.imp_right fun h => ⟨?_, h.2⟩⟩
    · rw [run_cons_eq_some]
      exact ⟨_, by simp [step, hfault, State.readerStep, hr], hrun⟩
    · have hfails := h.1
      simp only [State.queryFails, hr]
      exact hfails
  unfold Reader.inQuery at hin
  split at hin
  · rename_i hr
    obtain ⟨as, t, has, hrun, hend⟩ :=
      hfetched s.startQuery hfault s.broker.prepareCondition rfl
    refine ⟨.reader :: as, t, by simpa using has, ?_, hend.imp_right fun h => ⟨?_, h.2⟩⟩
    · rw [run_cons_eq_some]
      exact ⟨_, by simp [step, hfault, State.readerStep, hr], hrun⟩
    · have hfails := h.1
      simp only [State.queryFails, hr]
      exact hfails
  · rename_i conditions hr
    exact hfetched s hfault conditions hr
  · rename_i hr
    exact hstored s hfault hr
  · cases hin

end exits

/-! ## Deadlocks are waits for what does not come -/

section deadlock

/-- A wait for what does not come. -/
inductive Hung (M : Mongo) (s : State) : Prop
  | pop (f : BatchPop) (hio : s.io = .popWait (.term f) .waiting) (htimeout : f.timeout = 0)
      (hpushes : s.reader.pushes = false) (hfails : s.queryFails M = false)
  | query (f : BatchPop) (hio : s.io = .queryWait (.term f) .waiting)
      (hin : s.reader.inQuery = false)

/-- What is not awaited is a session that hangs. -/
theorem not_awaited_iff : ¬ Awaited M s ↔ s.fault = none ∧ Hung M s := by
  constructor
  · intro hnot
    by_contra hhung
    refine hnot fun hfault => ⟨fun f hio htimeout => ?_, fun f hio => ?_⟩
    · by_contra hcomes
      push Not at hcomes
      exact hhung ⟨hfault, .pop f hio htimeout (by simpa using hcomes.1) (by simpa using hcomes.2)⟩
    · by_contra hin
      exact hhung ⟨hfault, .query f hio (by simpa using hin)⟩
  · rintro ⟨hfault, hhung⟩ hawaited
    obtain ⟨hpop, hquery⟩ := hawaited hfault
    rcases hhung with ⟨f, hio, htimeout, hpushes, hfails⟩ | ⟨f, hio, hin⟩
    · have hcomes := hpop f hio htimeout
      simp [hpushes, hfails] at hcomes
    · rw [hquery f hio] at hin
      cases hin

/-- A session that hangs does so behind a pop. -/
theorem Hung.behindPop (h : Hung M s) : s.io.BehindPop := by
  rcases h with ⟨f, hio, -⟩ | ⟨f, hio, -⟩
  · rw [hio]
    exact rfl
  · rw [hio]
    exact rfl

/-- The io thread of a session that hangs has no step. -/
theorem Hung.ioStep (h : Hung M s) : s.ioStep M = none := by
  rcases h with ⟨f, hio, -⟩ | ⟨f, hio, -⟩
  · simp [State.ioStep, hio]
  · simp [State.ioStep, hio]

/-- The read thread, on its way out, does not end the wait. -/
theorem Hung.readerStep (h : Hung M s) (hs : Leaving s) (hfault : s.fault = none)
    (hstep : ReaderStep M s t) : t.fault = none ∧ Hung M t := by
  obtain ⟨hending, hopen⟩ := h.behindPop.kind
  have hexit := hs.exiting hending hopen
  rcases h with ⟨f, hio, htimeout, hpushes, hfails⟩ | ⟨f, hio, hin⟩
  · cases hstep with
    | turn hr => exact ⟨hfault, .pop f hio htimeout (by simp [hexit, Reader.pushes])
        (by simp [hexit, State.queryFails])⟩
    | start hr =>
        refine ⟨hfault, .pop f hio htimeout rfl ?_⟩
        simp only [State.queryFails, hr] at hfails
        exact hfails
    | fetch conditions hr =>
        refine ⟨hfault, .pop f hio htimeout rfl ?_⟩
        simp only [State.queryFails, hr] at hfails
        exact hfails
    | store c hr hc =>
        refine ⟨hfault, .pop f ?_ htimeout rfl rfl⟩
        show s.io.notifyQuery = _
        rw [hio]
        rfl
    | fail e hr hc => simp [State.queryFails, hr, hc] at hfails
    | branch docs hr =>
        unfold State.branch
        split_ifs
        · exact ⟨hfault, .pop f hio htimeout rfl rfl⟩
        · exact ⟨hfault, .pop f hio htimeout rfl rfl⟩
    | test docs hr => exact ⟨hfault, .pop f hio htimeout (by simp [hexit, Reader.pushes])
        (by simp [hexit, State.queryFails])⟩
    | wait docs hr hfull => simp [hr, Reader.pushes] at hpushes
    | push docs hr => rcases hr with ⟨hr, -⟩ | hr <;> simp [hr, Reader.pushes] at hpushes
    | giveUp docs hr => exact ⟨hfault, .pop f hio htimeout (by simp [hexit, Reader.pushes])
        (by simp [hexit, State.queryFails])⟩
    | rise hr => exact ⟨hfault, .pop f hio htimeout rfl rfl⟩
  · cases hstep with
    | turn hr => exact ⟨hfault, .query f hio (by simp [hexit, Reader.inQuery])⟩
    | start hr => simp [hr, Reader.inQuery] at hin
    | fetch conditions hr => simp [hr, Reader.inQuery] at hin
    | store c hr hc => simp [hr, Reader.inQuery] at hin
    | fail e hr hc => simp [hr, Reader.inQuery] at hin
    | branch docs hr =>
        unfold State.branch
        split_ifs
        · exact ⟨hfault, .query f hio rfl⟩
        · exact ⟨hfault, .query f hio rfl⟩
    | test docs hr => exact ⟨hfault, .query f hio (by simp [hexit, Reader.inQuery])⟩
    | wait docs hr hfull =>
        refine ⟨hfault, .query f ?_ rfl⟩
        show s.io.notify = _
        rw [hio]
        rfl
    | push docs hr =>
        refine ⟨hfault, .query f ?_ rfl⟩
        show s.io.notify = _
        rw [hio]
        rfl
    | giveUp docs hr => exact ⟨hfault, .query f hio (by simp [hexit, Reader.inQuery])⟩
    | rise hr => exact ⟨hfault, .query f hio rfl⟩

/-- Nothing that happens without the io thread ends the wait. -/
theorem Hung.step {a : Action} (h : Hung M s) (hs : Leaving s) (ha : Elsewhere a)
    (hstep : step M seconds s a = some t) : t.fault = none ∧ Hung M t := by
  have hfault := fault_of_step hstep
  rcases ha with rfl | rfl | rfl
  · obtain ⟨_, hreader⟩ := step_effect hstep
    exact h.readerStep hs hfault hreader
  · rcases step_effect hstep with _ | _ | ⟨docs, hr, -⟩
    exact absurd hr ((hs.released h.behindPop).1 docs)
  · rcases step_effect hstep with _ | _ | _ | _ | ⟨k, hio, hseconds⟩
    rcases h with ⟨f, hio', htimeout, -⟩ | ⟨f, hio', -⟩
    · rw [hio] at hio'
      cases hio'
      exact absurd htimeout hseconds
    · rw [hio] at hio'
      cases hio'

/-- Where the io thread cannot go on in `term`, it waits for an item, for a query or for the read
thread. -/
theorem blocked_cases (h : Leaving s) (hending : s.io.kind = .ending) (hopen : s.io ≠ .closed)
    (hnone : s.ioStep M = none) :
    (∃ f, s.io = .popWait (.term f) .waiting) ∨ (∃ f, s.io = .queryWait (.term f) .waiting) ∨
      s.io = .joining := by
  have hterm {k : Call} (hk : k.kind = .ending) : ∃ f, k = .term f := by
    cases k <;> first | exact ⟨_, rfl⟩ | cases hk
  rcases hio : s.io with _ | _ | ⟨k, _ | _ | _⟩ | _ | _ | ⟨k, _ | _ | _⟩ | _ | _ | _ | _ | _
  case popWait.waiting =>
    obtain ⟨f, rfl⟩ := hterm (k := k) (by rw [hio] at hending; exact hending)
    exact Or.inl ⟨f, rfl⟩
  case queryWait.waiting =>
    obtain ⟨f, rfl⟩ := hterm (k := k) (by rw [hio] at hending; exact hending)
    exact Or.inr (Or.inl ⟨f, rfl⟩)
  case queryWait.expired => exact absurd hio (h.placed.query k)
  case joining => exact Or.inr (Or.inr rfl)
  case closed => exact absurd hio hopen
  case idle =>
    rw [hio] at hending
    cases hending
  all_goals simp [State.ioStep, hio] at hnone

/-- A wait that nothing ends is one for what does not come. -/
theorem hung_of_blocked (h : Leaving s) (hfault : s.fault = none) (hending : s.io.kind = .ending)
    (hopen : s.io ≠ .closed) (hall : ∀ as t, (∀ a ∈ as, Elsewhere a) →
      run (ReadSession.step M seconds) s as = some t → t.fault = none ∧ t.ioStep M = none) :
    Hung M s := by
  have hreader {as : List Action} (has : ∀ a ∈ as, a = .reader) : ∀ a ∈ as, Elsewhere a :=
    fun a ha => Or.inl (has a ha)
  rcases blocked_cases h hending hopen (hall [] s (by simp) rfl).2 with ⟨f, hio⟩ | ⟨f, hio⟩ | hio
  · by_cases htimeout : f.timeout = 0
    swap
    · -- the deadline of the pop
      have hexpire : ReadSession.step M seconds s .ioExpire =
          some { s with io := .popWait (.term f) .expired } := by
        simp [ReadSession.step, hfault, Io.expire, hio, Call.seconds, htimeout, Wait.expire]
      have hnone := (hall [.ioExpire] _ (by simp [Elsewhere])
        ((run_cons_eq_some _).mpr ⟨_, hexpire, rfl⟩)).2
      simp [State.ioStep] at hnone
    by_contra hhung
    have hcomes : s.reader.pushes = true ∨ s.queryFails M = true := by
      by_contra hnothing
      push Not at hnothing
      exact hhung (.pop f hio htimeout (by simpa using hnothing.1) (by simpa using hnothing.2))
    rcases hcomes with hpushes | hfails
    · -- the read thread pushes, or waits to, and notifies the pop
      obtain ⟨hwait, hroom⟩ := h.released (by rw [hio]; exact rfl)
      have hexited : s.reader ≠ .exited := by
        intro hr
        rw [hr] at hpushes
        cases hpushes
      obtain ⟨t, ht⟩ := @exists_readerStep M seconds s hfault hexited hwait
      have hnone := (hall [.reader] t (by simp [Elsewhere])
        ((run_cons_eq_some _).mpr ⟨_, ht, rfl⟩)).2
      have hnotified : t.io = s.io.notify := by
        obtain ⟨_, hstep⟩ := step_effect ht
        cases hstep with
        | wait docs hr hfull => rfl
        | push docs hr => rfl
        | branch docs hr => simp [hr, Reader.pushes] at hpushes
        | _ => simp_all [Reader.pushes]
      rw [hio] at hnotified
      simp [State.ioStep, hnotified, Io.notify, Wait.notify] at hnone
    · obtain ⟨as, t, has, hrun, hend⟩ :=
        @exists_query_end M seconds s hfault (inQuery_of_queryFails hfails)
      rcases hend with hended | ⟨hsucceeds, -⟩
      · exact hended (hall as t (hreader has) hrun).1
      · rw [hfails] at hsucceeds
        cases hsucceeds
  · by_contra hhung
    have hin : s.reader.inQuery = true := by
      by_contra hout
      exact hhung (.query f hio (by simpa using hout))
    obtain ⟨as, t, has, hrun, hend⟩ := @exists_query_end M seconds s hfault hin
    obtain ⟨hrunning, hnone⟩ := hall as t (hreader has) hrun
    rcases hend with hended | ⟨-, hnotified⟩
    · exact hended hrunning
    · rw [hio] at hnotified
      simp [State.ioStep, hnotified, Io.notifyQuery, Wait.notify] at hnone
  · obtain ⟨as, t, has, hrun, ⟨-, hjoining⟩, hend⟩ := @exists_exit M seconds s h hio
    obtain ⟨hrunning, hnone⟩ := hall as t (hreader has) hrun
    rcases hend with hended | hexited
    · exact absurd hrunning hended
    · simp [State.ioStep, hjoining, hexited] at hnone

/-- **A deadlock is a wait for what does not come.** -/
theorem deadlock_iff (h : Leaving s) : Deadlock M seconds s ↔ ¬ Awaited M s := by
  rw [not_awaited_iff]
  constructor
  · rintro ⟨hending, hopen, hall⟩
    have hfault : s.fault = none := (hall [] s (by simp) rfl).1
    exact ⟨hfault, hung_of_blocked h hfault hending hopen hall⟩
  · rintro ⟨hfault, hhung⟩
    obtain ⟨hending, hopen⟩ := hhung.behindPop.kind
    refine ⟨hending, hopen, ?_⟩
    intro as t has hrun
    have hstep : ∀ s a t, Leaving s ∧ s.fault = none ∧ Hung M s → Elsewhere a →
        ReadSession.step M seconds s a = some t → Leaving t ∧ t.fault = none ∧ Hung M t := by
      rintro s a t ⟨hs, -, hhung⟩ ha ht
      exact ⟨hs.step ht, hhung.step hs ha ht⟩
    have hguarded : Guarded (ReadSession.step M seconds) (fun _ a => Elsewhere a) s as :=
      guarded_of_forall_mem _ has
    obtain ⟨-, hfault', hhung'⟩ := run_invariant hstep ⟨h, hfault, hhung⟩ hguarded hrun
    exact ⟨hfault', hhung'.ioStep⟩

end deadlock

/-- **When `term` cannot deadlock.** For every read session whose options `init` and `open` accept,
with room for at least one document in its queue, and every run of it: no state of the run is a
deadlock of `term`, exactly when in every step of the run the io thread begins a wait in `term` only
for what comes. -/
theorem not_deadlock_iff (M : Mongo) (seconds : Nat) (coll : List Document)
    {connect : String → Option String} {options : BSONObj} {b : Broker}
    (hopen : Broker.new.openOn connect (some options) = (b, none))
    (hroom : 1 ≤ b.queue.limitSize) {as : List Action} {s : State}
    (hrun : run (step M seconds) (State.opened coll b) as = some s) :
    (∀ bs, bs <+: as → ∀ t, run (step M seconds) (State.opened coll b) bs = some t →
      ¬ Deadlock M seconds t) ↔
    Guarded (step M seconds) (Unblocked M) (State.opened coll b) as := by
  have hstart : Leaving (State.opened coll b) := leaving_opened hopen hroom coll
  have hany : Guarded (step M seconds) (fun _ _ => True) (State.opened coll b) as :=
    guarded_of_forall (step M seconds) _ (fun _ _ => trivial) _ _
  have hkeep : ∀ s a t, Leaving s → Awaited M s → True → step M seconds s a = some t →
      Awaited M t → Leaving t := fun _ _ _ hs _ _ ht _ => hs.step ht
  have hexact : ∀ s a t, Leaving s → Awaited M s → True → step M seconds s a = some t →
      (Awaited M t ↔ Unblocked M s a) := fun _ _ _ hs hawaited _ ht => awaited_step_iff hs hawaited ht
  rw [← forall_prefix_iff_guarded hkeep hexact hstart (awaited_of_runs rfl) hany hrun]
  refine forall_congr' fun bs => forall_congr' fun _ => forall_congr' fun t => ?_
  apply forall_congr'
  intro ht
  rw [deadlock_iff, not_not]
  exact run_invariant_of_step (fun _ _ _ hs hstep => hs.step hstep) hstart ht

/-- A step that is not one of the io thread begins no wait of it. -/
theorem unblocked_of_ne_io {as : List Action} (h : ∀ a ∈ as, a ≠ .io) :
    Guarded (step M seconds) (Unblocked M) s as := by
  apply Guarded.mono (step M seconds) _ (guarded_of_forall_mem (step M seconds) h)
  intro s a hne ha
  exact absurd ha hne

/-- With a document in the queue, the pop of `term` takes it. -/
theorem not_deadlock_iff_sample : ∃ u,
    run (step Mongo.plain 0) (State.opened [sampleDocument 1] (Broker.sampleBroker 0 1 10))
        (fillQueue ++ [.term] ++ [.io] ++ [.io]) = some u ∧ u.io = .joining ∧
      ∀ bs, bs <+: fillQueue ++ [.term] ++ [.io] ++ [.io] → ∀ t,
        run (step Mongo.plain 0) (State.opened [sampleDocument 1] (Broker.sampleBroker 0 1 10))
          bs = some t → ¬ Deadlock Mongo.plain 0 t := by
  refine ⟨_, rfl, rfl, (@not_deadlock_iff Mongo.plain 0 [sampleDocument 1] (fun _ => none)
    (Broker.sampleOptions 0 1 10) _ (by decide) (by decide) _ _ rfl).mpr ?_⟩
  obtain ⟨s, hs, hsize⟩ : ∃ s, run (step Mongo.plain 0)
      (State.opened [sampleDocument 1] (Broker.sampleBroker 0 1 10)) (fillQueue ++ [.term]) =
        some s ∧ s.io = .termSize := ⟨_, rfl, rfl⟩
  obtain ⟨t, ht, f, hentering, hqueue⟩ : ∃ t, run (step Mongo.plain 0)
      (State.opened [sampleDocument 1] (Broker.sampleBroker 0 1 10))
      (fillQueue ++ [.term] ++ [.io]) = some t ∧ ∃ f, t.io = .entering (.term f) ∧
        t.broker.queue.queue ≠ [] := ⟨_, rfl, _, rfl, by decide⟩
  rw [guarded_concat _ _ ht, guarded_concat _ _ hs]
  refine ⟨⟨unblocked_of_ne_io (by decide), unblocked_of_ne ?_ ?_⟩, fun _ => ⟨fun f _ hnil => ?_, ?_⟩⟩
  · rw [hsize]
    rintro f ⟨⟩
  · rw [hsize]
    rintro f ⟨⟩
  · exact absurd hnil hqueue
  · rw [hentering]
    rintro f ⟨⟩

/-- A CLOSE during the first query of a session: the pop of `term` times out, `m_querying` is set,
and the query ends before the wait on `m_con_query` has begun. -/
theorem not_not_deadlock_sample :
    Broker.new.openOn (fun _ => none) (some (Broker.sampleOptions 0 1 10)) =
        (Broker.sampleBroker 0 1 10, none) ∧
      ∃ s, run (step Mongo.plain 0)
          (State.opened [sampleDocument 1] (Broker.sampleBroker 0 1 10))
          [.reader, .reader, .term, .io, .io, .io, .ioExpire, .io, .io, .reader, .reader, .io] =
            some s ∧ Deadlock Mongo.plain 0 s := by
  have hopen : Broker.new.openOn (fun _ => none) (some (Broker.sampleOptions 0 1 10)) =
      (Broker.sampleBroker 0 1 10, none) := by decide
  obtain ⟨s, hs, hfault, f, hio, hin⟩ : ∃ s, run (step Mongo.plain 0)
      (State.opened [sampleDocument 1] (Broker.sampleBroker 0 1 10))
      [.reader, .reader, .term, .io, .io, .io, .ioExpire, .io, .io, .reader, .reader, .io] =
        some s ∧ s.fault = none ∧ ∃ f, s.io = .queryWait (.term f) .waiting ∧
          s.reader.inQuery = false := ⟨_, rfl, rfl, _, rfl, rfl⟩
  have hleaving : Leaving s := run_invariant_of_step (fun _ _ _ h hstep => h.step hstep)
    (leaving_opened hopen (by decide) [sampleDocument 1]) hs
  exact ⟨hopen, s, hs, (deadlock_iff hleaving).mpr (not_awaited_iff.mpr ⟨hfault, .query f hio hin⟩)⟩

end Zbroker.ReadSession
