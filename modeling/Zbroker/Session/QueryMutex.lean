import Zbroker.Session.Effect

/-!
# The mutex of the queries

`query` holds `m_query_done_mutex` until it returns. The handler of `batch_pop` waits on
`m_con_query` with the mutex, and unlocks it when it is back: the wait unlocks the mutex and locks
it again.

* `Locked` — a read session with the holder of the mutex and a log of its unlocks. A step that
  takes the mutex is possible when nobody holds it. `exists_run_session`: its runs are runs of
  the session.
* `HeldByUnlocker` — every unlock was by the holder.
* `QueryPending` — while the io thread waits on `m_con_query` and is not notified, a query is in
  progress that will notify it. `queryPending_iff`: exactly if each wait begins during a query.
* **`handshake_iff`**: both hold in all states of a run exactly when no step of the run begins a wait
  on `m_con_query`.
A state is quiet while the io thread is not at `m_con_query`. A step keeps it quiet, or begins a wait there,
and the unlock after that wait is not by the holder (`quiet_step`).
-/

namespace Zbroker.ReadSession

open Found.Transition

/-! ## Who unlocks -/

/-- The threads that use the mutex. -/
inductive Party where
  | reader
  | io
  deriving DecidableEq, Repr

/-- An unlock of the mutex: by whom, and who held it. -/
structure Unlock where
  party : Party
  holder : Option Party
  deriving DecidableEq, Repr

/-- A session with `m_query_done_mutex`. -/
structure Locked where
  session : State
  /-- Who holds the mutex. -/
  holder : Option Party
  /-- The wait on `m_con_query` has locked the mutex again, and `unlock` is next. -/
  relocked : Bool
  unlocks : List Unlock
  deriving DecidableEq, Repr

/-- What a step does with the mutex. -/
inductive Use where
  | nothing
  | lock
  | unlock (p : Party)
  /-- The end of the wait on `m_con_query`. -/
  | relock
  deriving DecidableEq, Repr

namespace Locked

/-- Right after `open`. -/
def opened (coll : List Document) (b : Broker) : Locked := ⟨State.opened coll b, none, false, []⟩

/-- What the next step does with the mutex: the query locks it first and unlocks it last, the wait on
`m_con_query` unlocks it and locks it again, and the handler unlocks it then.
Source: `broker.cc`, `broker::query` and the handler of `batch_pop` -/
def use (g : Locked) : Action → Use
  | .reader =>
      match g.session.reader with
      | .starting => .lock
      | .returned _ => .unlock .reader
      | _ => .nothing
  | .io =>
      match g.session.io with
      | .queryEnter _ => .unlock .io
      | .queryWait _ .notified => if g.relocked then .unlock .io else .relock
      | _ => .nothing
  | _ => .nothing

/-- A step of the session with the mutex. -/
def step (M : Mongo) (seconds : Nat) (g : Locked) (a : Action) : Option Locked :=
  match g.use a with
  | .nothing =>
      (ReadSession.step M seconds g.session a).map fun t => { g with session := t }
  | .lock =>
      if g.holder = none then
        (ReadSession.step M seconds g.session a).map fun t =>
          { g with session := t, holder := some .reader }
      else none
  | .unlock p =>
      (ReadSession.step M seconds g.session a).map fun t =>
        ⟨t, none, g.relocked && p ≠ .io, g.unlocks ++ [⟨p, g.holder⟩]⟩
  | .relock =>
      if g.session.fault = none ∧ g.holder = none then
        some { g with holder := some .io, relocked := true }
      else none

end Locked

/-- Every unlock of the mutex was by its holder. -/
def HeldByUnlocker (g : Locked) : Prop := ∀ u ∈ g.unlocks, u.holder = some u.party

instance (g : Locked) : Decidable (HeldByUnlocker g) :=
  inferInstanceAs (Decidable (∀ u ∈ g.unlocks, _))

/-- In a query, in front of its `notify_all`. -/
def Reader.willNotify : Reader → Bool
  | .querying _ | .fetched => true
  | _ => false

/-- In a query, with the mutex. -/
def Reader.locks : Reader → Bool
  | .querying _ | .fetched | .returned _ => true
  | _ => false

/-- A wait on `m_con_query` that is not notified is one for the query in progress. -/
def QueryPending (s : State) : Prop :=
  ∀ k, s.io = .queryWait k .waiting → s.reader.willNotify = true

/-- No wait on `m_con_query` begins. -/
def NoQueryWait (g : Locked) (a : Action) : Prop := a = .io → ∀ k, g.session.io ≠ .queryEnter k

/-- A wait on `m_con_query` begins during a query. -/
def WaitsInQuery (s : State) (a : Action) : Prop :=
  a = .io → ∀ k, s.io = .queryEnter k → s.reader.willNotify = true

section step

variable {M : Mongo} {seconds : Nat} {g g' : Locked} {s t : State} {a : Action}

/-- **A step of the session, or the end of a wait.** -/
theorem session_step (h : g.step M seconds a = some g') :
    step M seconds g.session a = some g'.session ∨ g'.session = g.session := by
  unfold Locked.step at h
  split at h
  · obtain ⟨t, ht, rfl⟩ := Option.map_eq_some_iff.mp h
    exact Or.inl ht
  · split_ifs at h
    obtain ⟨t, ht, rfl⟩ := Option.map_eq_some_iff.mp h
    exact Or.inl ht
  · obtain ⟨t, ht, rfl⟩ := Option.map_eq_some_iff.mp h
    exact Or.inl ht
  · split_ifs at h
    cases h
    exact Or.inr rfl

/-- **The runs are runs of the session**, apart from the ends of waits. -/
theorem exists_run_session {as : List Action} (h : run (Locked.step M seconds) g as = some g') :
    ∃ bs, bs.Sublist as ∧ run (step M seconds) g.session bs = some g'.session := by
  induction as generalizing g with
  | nil =>
      cases h
      exact ⟨[], List.Sublist.refl [], rfl⟩
  | cons a as ih =>
      obtain ⟨g₁, hstep, hrest⟩ := (run_cons_eq_some _).mp h
      obtain ⟨bs, hbs, hrun⟩ := ih hrest
      rcases session_step hstep with ht | hsame
      · refine ⟨a :: bs, hbs.cons_cons a, ?_⟩
        rw [run_cons, ht]
        exact hrun
      · refine ⟨bs, hbs.cons a, ?_⟩
        rw [← hsame]
        exact hrun

end step

/-! ## The waits on a query -/

/-- In the wait on `m_con_query`. -/
def Io.onQuery : Io → Bool
  | .queryWait _ _ => true
  | _ => false

section waits

variable {M : Mongo} {seconds : Nat} {s t : State} {a : Action} {k : Call}

@[simp] theorem onQuery_notify (p : Io) : p.notify.onQuery = p.onQuery := by
  cases p <;> rfl

@[simp] theorem onQuery_notifyQuery (p : Io) : p.notifyQuery.onQuery = p.onQuery := by
  cases p <;> rfl

@[simp] theorem onQuery_ofRead (conn : Nat) (r : BatchStep) : (Io.ofRead conn r).onQuery = false := by
  cases r <;> rfl

@[simp] theorem onQuery_ofTerm (r : BatchStep) : (Io.ofTerm r).onQuery = false := by
  cases r <;> rfl

@[simp] theorem onQuery_onItem (k : Call) (d : BSONObj) : (k.onItem d).onQuery = false := by
  cases k <;> simp [Call.onItem]
  rfl

@[simp] theorem onQuery_onThrow (k : Call) : k.onThrow.onQuery = false := by
  cases k <;> rfl

@[simp] theorem onQuery_onTimeout (k : Call) (b : Broker) : (k.onTimeout b).onQuery = false := by
  cases k <;> simp [Call.onTimeout]
  rfl

/-- The io thread gets to a wait on a query from in front of it. -/
theorem IoStep.onQuery (h : IoStep M s t) (ht : t.io.onQuery = true) : ∃ k, s.io = .queryEnter k := by
  cases h with
  | queryEnter k hio => exact ⟨k, hio⟩
  | refuse k e hio he => simp at ht
  | wait k hio hqueue => cases ht
  | pop k d rest hio hqueue => simp [State.popped] at ht
  | fault e hio =>
      rcases hio with ⟨k, hk⟩ | hk | hk
      · simp [hk, Io.onQuery] at ht
      · simp [hk, Io.onQuery] at ht
      · simp [hk, Io.onQuery] at ht
  | timeOut k hio => simp at ht
  | handle k hio =>
      dsimp only at ht
      split_ifs at ht
      · cases ht
      · simp at ht
  | queryLeave k hio => simp at ht
  | respond conn docs ret hio =>
      unfold State.respond at ht
      split at ht
      · cases ht
      · cases ht
  | reach hio hqueue => cases ht
  | join hio hreach => cases ht
  | last f hio hf => cases ht
  | close hio hr => cases ht

/-- A step of the io thread leaves the query to the read thread. -/
theorem IoStep.reader (h : IoStep M s t) : t.reader = s.reader ∨ t.reader = s.reader.notify := by
  cases h with
  | wait k hio hqueue => exact Or.inr rfl
  | pop k d rest hio hqueue => exact Or.inr rfl
  | respond conn docs ret hio =>
      unfold State.respond
      split
      · exact Or.inl rfl
      · exact Or.inl rfl
  | _ => exact Or.inl rfl

@[simp] theorem willNotify_notify (r : Reader) : r.notify.willNotify = r.willNotify := by
  cases r <;> rfl

@[simp] theorem locks_notify (r : Reader) : r.notify.locks = r.locks := by
  cases r <;> rfl

/-- A query goes on until it notifies. -/
theorem ReaderStep.willNotify (h : ReaderStep M s t) (hs : s.reader.willNotify = true) :
    t.reader.willNotify = true ∨ t.io = s.io.notifyQuery := by
  cases h with
  | fetch conditions hr => exact Or.inl rfl
  | store c hr hc => exact Or.inr rfl
  | fail e hr hc => exact Or.inl hs
  | turn hr => simp [hr, Reader.willNotify] at hs
  | start hr => simp [hr, Reader.willNotify] at hs
  | branch docs hr => simp [hr, Reader.willNotify] at hs
  | test docs hr => simp [hr, Reader.willNotify] at hs
  | wait docs hr hfull => simp [hr, Reader.willNotify] at hs
  | push docs hr =>
      rcases hr with ⟨hr, -⟩ | hr
      · simp [hr, Reader.willNotify] at hs
      · simp [hr, Reader.willNotify] at hs
  | giveUp docs hr => simp [hr, Reader.willNotify] at hs
  | rise hr => simp [hr, Reader.willNotify] at hs

/-- A request leaves the read thread where it is, and begins with no wait on a query. -/
theorem startRead_frame (conn : Nat) (hio : s.io = .idle) :
    (s.startRead conn).reader = s.reader ∧ (s.startRead conn).io.onQuery = false := by
  unfold State.startRead
  split_ifs
  · split
    · exact ⟨rfl, by rw [hio]; rfl⟩
    · exact ⟨rfl, rfl⟩
  · exact ⟨rfl, by rw [hio]; rfl⟩

/-- A REWIND does not go to `m_con_query`. -/
theorem rewind_frame (hio : s.io = .idle) :
    s.rewind.reader = s.reader ∧ s.rewind.io.onQuery = false := by
  unfold State.rewind
  split_ifs
  · exact ⟨rfl, by rw [hio]; rfl⟩
  · exact ⟨rfl, by rw [hio]; rfl⟩

/-- The start of `term` does not go to `m_con_query`. -/
theorem startTerm_frame : s.startTerm.reader = s.reader ∧ s.startTerm.io.onQuery = false := by
  unfold State.startTerm
  split_ifs
  · exact ⟨rfl, rfl⟩
  · exact ⟨rfl, rfl⟩

/-- A wait on a query begins in front of it. -/
theorem onQuery_of_step (h : step M seconds s a = some t) (ht : t.io.onQuery = true) :
    s.io.onQuery = true ∨ a = .io ∧ ∃ k, s.io = .queryEnter k := by
  rcases step_effect h with ⟨_, hreader⟩ | ⟨_, hio⟩ | _ | _ | _ | _ | ⟨k, hk⟩ | ⟨conn, hidle⟩ | _ |
    hidle | _ | _
  · refine Or.inl ?_
    rcases hreader.io with hsame | hsame | hsame
    · rwa [hsame] at ht
    · rwa [hsame, onQuery_notify] at ht
    · rwa [hsame, onQuery_notifyQuery] at ht
  · exact Or.inr ⟨rfl, hio.onQuery ht⟩
  · exact Or.inl ht
  · exact Or.inl ht
  · cases ht
  · cases ht
  · exact Or.inl (by rw [hk]; rfl)
  · rw [(startRead_frame conn hidle).2] at ht
    cases ht
  · cases ht
  · rw [(rewind_frame hidle).2] at ht
    cases ht
  · rw [startTerm_frame.2] at ht
    cases ht
  · exact Or.inl ht

/-- The steps of the read thread into a query, in it, and out of it. -/
theorem ReaderStep.locks (h : ReaderStep M s t) :
    s.reader = .starting ∧ t.reader.locks = true ∨
      (∃ docs, s.reader = .returned docs) ∧ t.reader.locks = false ∨
      (s.reader ≠ .starting ∧ ∀ docs, s.reader ≠ .returned docs) ∧
        t.reader.locks = s.reader.locks := by
  have helsewhere {r : Reader} (hr : s.reader = r) (hstart : r ≠ .starting)
      (hreturned : ∀ docs, r ≠ .returned docs) (hlocks : t.reader.locks = r.locks) :
      s.reader = .starting ∧ t.reader.locks = true ∨
        (∃ docs, s.reader = .returned docs) ∧ t.reader.locks = false ∨
        (s.reader ≠ .starting ∧ ∀ docs, s.reader ≠ .returned docs) ∧
          t.reader.locks = s.reader.locks := by
    rw [hr]
    exact Or.inr (Or.inr ⟨⟨hstart, hreturned⟩, hlocks⟩)
  cases h with
  | start hr => exact Or.inl ⟨hr, rfl⟩
  | branch docs hr =>
      refine Or.inr (Or.inl ⟨⟨docs, hr⟩, ?_⟩)
      unfold State.branch
      split_ifs
      · rfl
      · rfl
  | turn hr =>
      apply helsewhere hr (by rintro ⟨⟩) (by rintro _ ⟨⟩)
      dsimp only
      split_ifs
      · rfl
      · rfl
  | fetch conditions hr => exact helsewhere hr (by rintro ⟨⟩) (by rintro _ ⟨⟩) rfl
  | store c hr hc => exact helsewhere hr (by rintro ⟨⟩) (by rintro _ ⟨⟩) rfl
  | fail e hr hc => exact helsewhere hr (by rintro ⟨⟩) (by rintro _ ⟨⟩) (by rw [← hr])
  | test docs hr =>
      apply helsewhere hr (by rintro ⟨⟩) (by rintro _ ⟨⟩)
      dsimp only
      split_ifs
      · rfl
      · rfl
  | wait docs hr hfull => exact helsewhere hr (by rintro ⟨⟩) (by rintro _ ⟨⟩) rfl
  | push docs hr =>
      rcases hr with ⟨hr, -⟩ | hr
      · exact helsewhere hr (by rintro ⟨⟩) (by rintro _ ⟨⟩) rfl
      · exact helsewhere hr (by rintro ⟨⟩) (by rintro _ ⟨⟩) rfl
  | giveUp docs hr =>
      apply helsewhere hr (by rintro ⟨⟩) (by rintro _ ⟨⟩)
      dsimp only
      split_ifs
      · rfl
      · rfl
  | rise hr => exact helsewhere hr (by rintro ⟨⟩) (by rintro _ ⟨⟩) rfl

/-- The mutex of the read thread in a step of its own. -/
theorem locks_of_reader (h : step M seconds s .reader = some t) :
    s.reader = .starting ∧ t.reader.locks = true ∨
      (∃ docs, s.reader = .returned docs) ∧ t.reader.locks = false ∨
      (s.reader ≠ .starting ∧ ∀ docs, s.reader ≠ .returned docs) ∧
        t.reader.locks = s.reader.locks := by
  cases step_effect h with
  | reader _ hreader => exact hreader.locks

/-- Nobody else leads the read thread into a query or out of it. -/
theorem locks_of_step (h : step M seconds s a = some t) (ha : a ≠ .reader) :
    t.reader.locks = s.reader.locks ∧ t.reader.willNotify = s.reader.willNotify := by
  rcases step_effect h with ⟨_, -⟩ | ⟨_, hio⟩ | ⟨docs, hr⟩ | ⟨docs, hr⟩ | _ | _ | _ | ⟨conn, hidle⟩ |
    _ | hidle | _ | _
  · exact absurd rfl ha
  · rcases hio.reader with hsame | hsame
    · rw [hsame]
      exact ⟨rfl, rfl⟩
    · rw [hsame]
      exact ⟨locks_notify _, willNotify_notify _⟩
  · rw [hr]
    exact ⟨rfl, rfl⟩
  · rw [hr]
    exact ⟨rfl, rfl⟩
  · exact ⟨rfl, rfl⟩
  · exact ⟨rfl, rfl⟩
  · exact ⟨rfl, rfl⟩
  · rw [(startRead_frame conn hidle).1]
    exact ⟨rfl, rfl⟩
  · exact ⟨rfl, rfl⟩
  · rw [(rewind_frame hidle).1]
    exact ⟨rfl, rfl⟩
  · rw [startTerm_frame.1]
    exact ⟨rfl, rfl⟩
  · exact ⟨rfl, rfl⟩

end waits

/-! ## The notification -/

section pending

variable {M : Mongo} {seconds : Nat} {s t : State} {a : Action}

/-- A wait on a query that is not notified has begun with the step, or was there. -/
theorem queryWait_of_step {k : Call} (h : step M seconds s a = some t)
    (ht : t.io = .queryWait k .waiting) :
    s.io = .queryWait k .waiting ∧ (a = .reader → t.io ≠ s.io.notifyQuery) ∨
      a = .io ∧ ∃ k, s.io = .queryEnter k := by
  have hon : t.io.onQuery = true := by rw [ht]; rfl
  have hsame {p : Io} (hp : t.io = p) (hoff : p.onQuery = false) : False := by
    rw [hp, hoff] at hon
    cases hon
  have hnot : t.io ≠ s.io.notifyQuery := by
    rw [ht]
    exact (Io.notifyQuery_ne_queryWait s.io k).symm
  rcases step_effect h with ⟨_, hreader⟩ | ⟨_, hio⟩ | _ | _ | _ | _ | _ | ⟨conn, hidle⟩ | _ | hidle |
    _ | _
  · refine Or.inl ⟨?_, fun _ => hnot⟩
    rcases hreader.io with hio | hio | hio
    · rw [← hio]
      exact ht
    · exact Io.notify_eq_queryWait (hio ▸ ht)
    · exact absurd hio hnot
  · exact Or.inr ⟨rfl, hio.onQuery hon⟩
  · exact Or.inl ⟨ht, by rintro ⟨⟩⟩
  · exact Or.inl ⟨ht, by rintro ⟨⟩⟩
  · cases ht
  · cases ht
  · cases ht
  · exact (hsame rfl (startRead_frame conn hidle).2).elim
  · cases ht
  · exact (hsame rfl (rewind_frame hidle).2).elim
  · exact (hsame rfl startTerm_frame.2).elim
  · exact Or.inl ⟨ht, by rintro ⟨⟩⟩

/-- The io thread begins to wait. -/
theorem eq_of_queryEnter {k : Call} (h : step M seconds s .io = some t) (hk : s.io = .queryEnter k) :
    t = { s with io := .queryWait k .waiting } := by
  have hio : s.ioStep M = some { s with io := .queryWait k .waiting } := by
    simp only [State.ioStep, hk]
  have hstep : step M seconds s .io = s.ioStep M := by
    simp [step, fault_of_step h]
  rw [hstep, hio] at h
  exact (Option.some.inj h).symm

/-- **What one step does** to the wait on a query. -/
theorem queryPending_step_iff (hs : QueryPending s) (h : step M seconds s a = some t) :
    QueryPending t ↔ WaitsInQuery s a := by
  by_cases hbegins : a = .io ∧ ∃ k, s.io = .queryEnter k
  · obtain ⟨rfl, k, hk⟩ := hbegins
    rw [eq_of_queryEnter h hk]
    constructor
    · intro ht _ _ _
      exact ht k rfl
    · intro hwaits _ _
      exact hwaits rfl k hk
  · refine iff_of_true ?_ fun ha k hk => absurd ⟨ha, k, hk⟩ hbegins
    intro k hk
    rcases queryWait_of_step h hk with ⟨hbefore, hnotify⟩ | hnow
    · have hwill : s.reader.willNotify = true := hs k hbefore
      by_cases ha : a = .reader
      · subst ha
        cases step_effect h with
        | reader _ hreader => exact (hreader.willNotify hwill).resolve_right (hnotify rfl)
      · rw [(locks_of_step h ha).2]
        exact hwill
    · exact absurd hnow hbegins

end pending

/-! ## Runs -/

/-- No wait on a query has begun: the read thread has the mutex in its query, and nobody else. -/
structure Quiet (g : Locked) : Prop where
  io : g.session.io.onQuery = false
  relocked : g.relocked = false
  holder : g.holder = if g.session.reader.locks then some .reader else none

section runs

variable {M : Mongo} {seconds : Nat} {g g' : Locked} {a : Action}

/-- What a step does with the mutex where no wait on a query has begun. -/
theorem use_cases (hio : g.session.io.onQuery = false) (a : Action) :
    g.use a = .lock ∧ a = .reader ∧ g.session.reader = .starting ∨
      g.use a = .unlock .reader ∧ a = .reader ∧ (∃ docs, g.session.reader = .returned docs) ∨
      g.use a = .unlock .io ∧ a = .io ∧ (∃ k, g.session.io = .queryEnter k) ∨
      g.use a = .nothing ∧ NoQueryWait g a ∧
        (a = .reader → g.session.reader ≠ .starting ∧ ∀ docs, g.session.reader ≠ .returned docs) := by
  cases a with
  | reader =>
      have hno : NoQueryWait g .reader := by rintro ⟨⟩
      cases hr : g.session.reader with
      | starting => exact Or.inl ⟨by rw [Locked.use, hr], rfl, rfl⟩
      | returned docs => exact Or.inr (Or.inl ⟨by rw [Locked.use, hr], rfl, docs, rfl⟩)
      | _ =>
          refine Or.inr (Or.inr (Or.inr ⟨by rw [Locked.use, hr], hno, ?_⟩))
          intro _
          exact ⟨by rintro ⟨⟩, by rintro _ ⟨⟩⟩
  | io =>
      cases hk : g.session.io with
      | queryEnter k => exact Or.inr (Or.inr (Or.inl ⟨by rw [Locked.use, hk], rfl, k, rfl⟩))
      | queryWait k w =>
          rw [hk] at hio
          cases hio
      | _ =>
          refine Or.inr (Or.inr (Or.inr ⟨by rw [Locked.use, hk], ?_, by rintro ⟨⟩⟩))
          rintro _ k' hk'
          rw [hk] at hk'
          cases hk'
  | _ => exact Or.inr (Or.inr (Or.inr ⟨rfl, by rintro ⟨⟩, by rintro ⟨⟩⟩))

/-- **What one step does** to the mutex, where no wait on a query has begun. -/
theorem quiet_step (hq : Quiet g) (hheld : HeldByUnlocker g) (h : g.step M seconds a = some g') :
    NoQueryWait g a ∧ Quiet g' ∧ HeldByUnlocker g' ∨
      ¬ NoQueryWait g a ∧ ¬ HeldByUnlocker g' := by
  have hoff {t : State} (ht : step M seconds g.session a = some t) (hno : NoQueryWait g a) :
      t.io.onQuery = false := by
    by_contra hon
    rcases onQuery_of_step ht (by simpa using hon) with hbefore | ⟨ha, k, hk⟩
    · rw [hq.io] at hbefore
      cases hbefore
    · exact hno ha k hk
  have hholder := hq.holder
  unfold Locked.step at h
  rcases use_cases hq.io a with ⟨huse, rfl, hr⟩ | ⟨huse, rfl, docs, hr⟩ | ⟨huse, rfl, k, hk⟩ |
    ⟨huse, hno, hr⟩
  · have hno : NoQueryWait g .reader := by rintro ⟨⟩
    simp only [huse] at h
    split_ifs at h
    obtain ⟨t, ht, rfl⟩ := Option.map_eq_some_iff.mp h
    refine Or.inl ⟨hno, ⟨hoff ht hno, hq.relocked, ?_⟩, hheld⟩
    have hlocks : t.reader.locks = true := by
      rcases locks_of_reader ht with ⟨-, htrue⟩ | ⟨⟨docs, hdocs⟩, -⟩ | ⟨⟨hne, -⟩, -⟩
      · exact htrue
      · rw [hr] at hdocs
        cases hdocs
      · exact absurd hr hne
    simp [hlocks]
  · have hno : NoQueryWait g .reader := by rintro ⟨⟩
    rw [hr] at hholder
    simp only [huse] at h
    obtain ⟨t, ht, rfl⟩ := Option.map_eq_some_iff.mp h
    refine Or.inl ⟨hno, ⟨hoff ht hno, by simp [hq.relocked], ?_⟩, ?_⟩
    · have hlocks : t.reader.locks = false := by
        rcases locks_of_reader ht with ⟨hstart, -⟩ | ⟨-, hfalse⟩ | ⟨⟨-, hne⟩, -⟩
        · rw [hr] at hstart
          cases hstart
        · exact hfalse
        · exact absurd hr (hne docs)
      simp [hlocks]
    · intro u hu
      rcases List.mem_append.mp hu with hold | hnew
      · exact hheld u hold
      · rw [List.mem_singleton.mp hnew]
        exact hholder
  · simp only [huse] at h
    obtain ⟨t, ht, rfl⟩ := Option.map_eq_some_iff.mp h
    refine Or.inr ⟨fun hno => hno rfl k hk, ?_⟩
    intro hnow
    have hio : g.holder = some .io := hnow ⟨.io, g.holder⟩ (List.mem_append_right _ (by simp))
    rw [hholder] at hio
    split_ifs at hio
    cases hio
  · simp only [huse] at h
    obtain ⟨t, ht, rfl⟩ := Option.map_eq_some_iff.mp h
    refine Or.inl ⟨hno, ⟨hoff ht hno, hq.relocked, ?_⟩, hheld⟩
    have hlocks : t.reader.locks = g.session.reader.locks := by
      by_cases ha : a = .reader
      · subst ha
        rcases locks_of_reader ht with ⟨hstart, -⟩ | ⟨⟨docs, hdocs⟩, -⟩ | ⟨-, hsame⟩
        · exact absurd hstart (hr rfl).1
        · exact absurd hdocs ((hr rfl).2 docs)
        · exact hsame
      · exact (locks_of_step ht ha).1
    dsimp only
    rw [hlocks]
    exact hholder

end runs

/-- **When each wait on a query is one for a query in progress.** For every broker, collection and
run: a wait on `m_con_query` that is not notified is one for the query in progress, in every state,
exactly when each wait begins during a query. -/
theorem queryPending_iff (M : Mongo) (seconds : Nat) (coll : List Document) (b : Broker)
    {as : List Action} {s : State}
    (hrun : run (step M seconds) (State.opened coll b) as = some s) :
    (∀ bs, bs <+: as → ∀ t, run (step M seconds) (State.opened coll b) bs = some t →
      QueryPending t) ↔
    Guarded (step M seconds) WaitsInQuery (State.opened coll b) as := by
  have hstart : QueryPending (State.opened coll b) := by rintro k ⟨⟩
  have hany : Guarded (step M seconds) (fun _ _ => True) (State.opened coll b) as :=
    guarded_of_forall _ _ (fun _ _ => trivial) _ _
  have hstep : ∀ (t : State) a u, True → QueryPending t → True → step M seconds t a = some u →
      (QueryPending u ↔ WaitsInQuery t a) := by
    rintro t a u - ht - hu
    exact queryPending_step_iff ht hu
  exact forall_prefix_iff_guarded (I := fun _ => True) (fun _ _ _ _ _ _ _ _ => trivial) hstep trivial
    hstart hany hrun

/-- **When the handshake is sound.** For every broker, collection and run: every unlock of the mutex
of the queries was by its holder, and a wait on `m_con_query` that is not notified is one for the
query in progress, in every state, exactly when no such wait begins. -/
theorem handshake_iff (M : Mongo) (seconds : Nat) (coll : List Document) (b : Broker)
    {as : List Action} {g : Locked}
    (hrun : run (Locked.step M seconds) (Locked.opened coll b) as = some g) :
    (∀ bs, bs <+: as → ∀ t, run (Locked.step M seconds) (Locked.opened coll b) bs = some t →
      HeldByUnlocker t ∧ QueryPending t.session) ↔
    Guarded (Locked.step M seconds) NoQueryWait (Locked.opened coll b) as := by
  have hpending {t : Locked} (ht : Quiet t) : QueryPending t.session := by
    intro k hk
    have hoff := ht.io
    rw [hk] at hoff
    cases hoff
  have hkeep : ∀ t a u, Quiet t → HeldByUnlocker t ∧ QueryPending t.session → True →
      Locked.step M seconds t a = some u → HeldByUnlocker u ∧ QueryPending u.session → Quiet u := by
    rintro t a u ht ⟨hheld, -⟩ - hu ⟨hheld', -⟩
    rcases quiet_step ht hheld hu with ⟨-, hquiet, -⟩ | ⟨-, hbad⟩
    · exact hquiet
    · exact absurd hheld' hbad
  have hexact : ∀ t a u, Quiet t → HeldByUnlocker t ∧ QueryPending t.session → True →
      Locked.step M seconds t a = some u →
      (HeldByUnlocker u ∧ QueryPending u.session ↔ NoQueryWait t a) := by
    rintro t a u ht ⟨hheld, -⟩ - hu
    rcases quiet_step ht hheld hu with ⟨hno, hquiet, hheld'⟩ | ⟨hwait, hbad⟩
    · exact iff_of_true ⟨hheld', hpending hquiet⟩ hno
    · exact iff_of_false (fun hgood => hbad hgood.1) hwait
  have hstart : Quiet (Locked.opened coll b) := ⟨rfl, rfl, rfl⟩
  have hany : Guarded (Locked.step M seconds) (fun _ _ => True) (Locked.opened coll b) as :=
    guarded_of_forall _ _ (fun _ _ => trivial) _ _
  have hheld : HeldByUnlocker (Locked.opened coll b) := by
    intro u hu
    cases hu
  exact forall_prefix_iff_guarded hkeep hexact hstart ⟨hheld, hpending hstart⟩ hany hrun

/-- A query, and a READ that finds its document. -/
theorem handshake_iff_sample : ∃ g,
    run (Locked.step Mongo.plain 0) (Locked.opened [sampleDocument 1] (Broker.sampleBroker 0 1 10))
        (fillQueue ++ [.read 0] ++ [.io]) = some g ∧ g.session.io ≠ .idle ∧
      ∀ bs, bs <+: fillQueue ++ [.read 0] ++ [.io] → ∀ t,
        run (Locked.step Mongo.plain 0)
          (Locked.opened [sampleDocument 1] (Broker.sampleBroker 0 1 10)) bs = some t →
        HeldByUnlocker t ∧ QueryPending t.session := by
  refine ⟨_, rfl, by decide, (handshake_iff Mongo.plain 0 [sampleDocument 1]
    (Broker.sampleBroker 0 1 10) rfl).mpr ?_⟩
  obtain ⟨s, hs, k, hk⟩ : ∃ s, run (Locked.step Mongo.plain 0)
      (Locked.opened [sampleDocument 1] (Broker.sampleBroker 0 1 10)) (fillQueue ++ [.read 0]) =
        some s ∧ ∃ k, s.session.io = .entering k := ⟨_, rfl, _, rfl⟩
  rw [guarded_concat _ _ hs]
  constructor
  · have hothers : ∀ a ∈ fillQueue ++ [.read 0], a ≠ .io := by decide
    apply Guarded.mono _ _ (guarded_of_forall_mem _ hothers)
    intro t a hne ha
    exact absurd ha hne
  · intro _ k' hk'
    rw [hk] at hk'
    cases hk'

/-- A READ times out during a query: its wait on `m_con_query` unlocks the mutex that the query
holds, and begins when the query has notified. -/
theorem not_handshake_sample :
    Broker.new.openOn (fun _ => none) (some (Broker.sampleOptions 0 1 10)) =
        (Broker.sampleBroker 0 1 10, none) ∧
      ∃ g, run (Locked.step Mongo.plain 0)
          (Locked.opened [sampleDocument 1] (Broker.sampleBroker 0 1 10))
          [.reader, .reader, .read 0, .io, .ioExpire, .io, .io, .reader, .reader, .io] = some g ∧
        ¬ HeldByUnlocker g ∧ ¬ QueryPending g.session := by
  refine ⟨by decide, _, rfl, by decide, ?_⟩
  intro hpending
  exact absurd (hpending _ rfl) (by decide)

end Zbroker.ReadSession
