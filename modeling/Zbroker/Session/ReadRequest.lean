import Zbroker.Processor.DoRead
import Zbroker.Session.ReadFeed

/-!
# A READ request is `do_read`

`doRead` runs a READ request by itself, along the outcomes of its pops; in a session the steps of the
request lie between those of the read thread, which queries, pushes and notifies meanwhile.

* `Popping b f₀ f q removed`, `Popped b f₀ r` — the outcomes of some pops lead a call from `f₀` on the
  queue of `b` to `f` on the queue `q`, or to its result. `Popping.item`, `Popping.timeout`: one more
  pop.
* `Reading M s₀ conn f₀ s` — the request that began in `s₀` has come so far. What the read thread has
  pushed since its last pop stays apart: it is what arrives during the next one.
  **`Reading.step`**: every step of a session keeps that.
* **`read_eq_doRead`**: a request that has been answered was answered as by `doRead`, for some
  outcomes of its pops, and has removed from the queue what `doRead` removes.
* `served` — the answer that a step sends. `seen_of_reading`: while a request is under way nothing is
  seen, and its end is its answer.
By induction on the steps of the session (`Reading.step`). A step of the read thread appends to the queue
and is put aside; a pop takes what was put aside as the arrivals of its outcome.
-/

namespace Zbroker

/-! ## The pops of a request -/

section pops

/-- The outcomes of some pops lead from `f₀` to `f`, with the queue `q` left. -/
def Popping (b : Broker) (f₀ f : BatchPop) (q removed : List BSONObj) : Prop :=
  ∃ os, ∀ os', batchPop b f₀ b.queue.queue [] (os ++ os') = batchPop b f q removed os'

/-- The outcomes of some pops lead from `f₀` to the result. -/
def Popped (b : Broker) (f₀ : BatchPop) (r : BatchResult) : Prop :=
  ∃ os, batchPop b f₀ b.queue.queue [] os = some r

/-- What a pop leads to. -/
def Pops (b : Broker) (f₀ : BatchPop) (q removed : List BSONObj) : BatchStep → Prop
  | .again f => Popping b f₀ f q removed
  | .done docs ret => Popped b f₀ ⟨docs, ret, removed, q⟩

variable {b : Broker} {f₀ f : BatchPop} {q late removed : List BSONObj}

/-- Nothing has been popped yet. -/
theorem popping_start (b : Broker) (f : BatchPop) : Popping b f f b.queue.queue [] :=
  ⟨[], fun _ => rfl⟩

/-- One more outcome. -/
theorem Popping.snoc (h : Popping b f₀ f q removed) (o : PopOutcome) {q' removed' : List BSONObj}
    {next : BatchStep}
    (hagain : ∀ f', next = .again f' → ∀ os, batchPop b f q removed (o :: os) =
      batchPop b f' q' removed' os)
    (hdone : ∀ docs ret, next = .done docs ret →
      batchPop b f q removed [o] = some ⟨docs, ret, removed', q'⟩) :
    Pops b f₀ q' removed' next := by
  obtain ⟨os, hos⟩ := h
  cases next with
  | again f' =>
      refine ⟨os ++ [o], ?_⟩
      intro os'
      rw [List.append_assoc, List.singleton_append, hos, hagain f' rfl]
  | done docs ret => exact ⟨os ++ [o], by rw [hos, hdone docs ret rfl]⟩

/-- A pop returns the front of what was left and what has arrived. -/
theorem Popping.item (h : Popping b f₀ f q removed) {d : BSONObj} {rest : List BSONObj}
    (hq : q ++ late = d :: rest) : Pops b f₀ rest (removed ++ [d]) (f.onItem d) := by
  have hpop : popQueue f.timeout q (.item late) = some (some d, rest) := by
    rw [popQueue]
    simp only [hq]
  refine h.snoc (.item late) ?_ ?_
  · intro f' hnext os
    rw [batchPop, hpop]
    simp only [hnext]
  · intro docs ret hnext
    rw [batchPop, hpop]
    simp only [hnext, List.isEmpty_nil, if_true]

/-- A pop times out at an empty queue, whatever has arrived when its handler is through. -/
theorem Popping.timeout (h : Popping b f₀ f [] removed) (hf : f.timeout ≠ 0)
    (late : List BSONObj) : Pops b f₀ late removed (f.onTimeout b) := by
  have hpop : popQueue f.timeout [] (.timeout late) = some (none, late) := by
    rw [popQueue, if_pos ⟨rfl, hf⟩]
  refine h.snoc (.timeout late) ?_ ?_
  · intro f' hnext os
    rw [batchPop, hpop]
    simp only [hnext]
  · intro docs ret hnext
    rw [batchPop, hpop]
    simp only [hnext, List.isEmpty_nil, if_true]

/-- The handler of a timeout reads the settings only. -/
theorem onTimeout_of_settings_eq {b' : Broker} (h : b'.settings = b.settings) (f : BatchPop) :
    f.onTimeout b' = f.onTimeout b := by
  have hretry : b'.settings.readRetry = b.settings.readRetry := by rw [h]
  have htimeout : b'.settings.readTimeout = b.settings.readTimeout := by rw [h]
  have hretry : b'.readRetry = b.readRetry := hretry
  have htimeout : b'.readTimeout = b.readTimeout := htimeout
  rw [BatchPop.onTimeout, BatchPop.onTimeout, hretry, htimeout]

end pops

namespace ReadSession

open Found.Transition

/-! ## What the read thread does to a request -/

/-- The io thread is in the pops of a request: `q` is what its last pop has left in the queue, which
is nothing when the present one waits or has waited. -/
def Io.At (conn : Nat) (f : BatchPop) (q : List BSONObj) : Io → Prop
  | .entering k => k = .read conn f
  | .popWait k w => k = .read conn f ∧ q = [] ∧ (w = .expired → f.timeout ≠ 0)
  | .timedOut k | .queryEnter k | .queryWait k _ => k = .read conn f ∧ q = [] ∧ f.timeout ≠ 0
  | _ => False

section frame

variable {M : Mongo} {seconds : Nat} {s t : State} {conn : Nat} {f : BatchPop}
  {q : List BSONObj} {p : Io}

/-- A notification leaves the io thread where it is. -/
theorem Io.At.notify (h : p.At conn f q) : p.notify.At conn f q := by
  cases p with
  | popWait k w =>
      refine ⟨h.1, h.2.1, ?_⟩
      cases w with
      | expired => exact h.2.2
      | _ =>
          intro hw
          cases hw
  | _ => exact h

/-- A notification leaves the request where it is. -/
theorem Io.At.notifyQuery (h : p.At conn f q) : p.notifyQuery.At conn f q := by
  cases p with
  | _ => exact h

/-- What a step does to a request that is under way, if it is not one of its own: the read thread has
notified, and put documents at the end of the queue. -/
structure Aside (s t : State) : Prop where
  io : t.io = s.io ∨ t.io = s.io.notify ∨ t.io = s.io.notifyQuery
  queue : s.broker.queue.queue <+: t.broker.queue.queue
  popped : t.log.popped = s.log.popped
  responses : t.log.responses = s.log.responses
  settings : t.broker.settings = s.broker.settings

/-- The steps of the read thread are aside. -/
theorem ReaderStep.aside (h : ReaderStep M s t) : Aside s t := by
  refine ⟨h.io, ?_, ?_, ?_, h.settings⟩
  · cases h with
    | store c hr hc =>
        have hc' := eq_of_queryStore hc
        have hqueue : c.queue = s.broker.queue := by rw [hc']
        show s.broker.queue.queue <+: c.queue.queue
        rw [hqueue]
    | push docs hr =>
        obtain ⟨moved, -, hmoved⟩ := SizedQueue.exists_fill s.broker.queue docs
        exact ⟨moved.reverse, hmoved.symm⟩
    | branch docs hr =>
        unfold State.branch
        split_ifs <;> exact List.prefix_rfl
    | _ => exact List.prefix_rfl
  · cases h with
    | branch docs hr =>
        unfold State.branch
        split_ifs <;> rfl
    | _ => rfl
  · cases h with
    | branch docs hr =>
        unfold State.branch
        split_ifs <;> rfl
    | _ => rfl

end frame

/-! ## How far a request has come -/

/-- The READ request of `conn` that began in `s₀` with the call `f₀` of `batch_pop`. -/
inductive Reading (M : Mongo) (s₀ : State) (conn : Nat) (f₀ : BatchPop) (s : State) : Prop
  /-- It pops; `late` has been pushed since its last pop. -/
  | popping (f : BatchPop) (q late removed : List BSONObj)
      (hpops : Popping s₀.broker f₀ f q removed) (hio : s.io.At conn f q)
      (hqueue : s.broker.queue.queue = q ++ late) (hpopped : s.log.popped = s₀.log.popped ++ removed)
      (hresponses : s.log.responses = s₀.log.responses)
  /-- Its pops are over. -/
  | responding (r : BatchResult) (hpops : Popped s₀.broker f₀ r)
      (hio : s.io = .responding conn r.docs r.ret) (hqueue : r.queue <+: s.broker.queue.queue)
      (hpopped : s.log.popped = s₀.log.popped ++ r.removed)
      (hresponses : s.log.responses = s₀.log.responses)
  /-- It has been answered. -/
  | answered (r : BatchResult) (body : BSONObj) (hpops : Popped s₀.broker f₀ r)
      (hio : s.io = .idle) (hbody : readResponse M r.docs r.ret = .ok body)
      (hqueue : r.queue <+: s.broker.queue.queue)
      (hpopped : s.log.popped = s₀.log.popped ++ r.removed)
      (hresponses : s.log.responses = s₀.log.responses ++ [(conn, body)])

section reading

variable {M : Mongo} {seconds : Nat} {s₀ s t : State} {conn : Nat} {f₀ : BatchPop} {a : Action}

/-- The request goes on with another pop, or its pops are over. -/
theorem Reading.of_pops {q removed : List BSONObj} {next : BatchStep}
    (h : Pops s₀.broker f₀ q removed next) (hio : t.io = Io.ofRead conn next)
    (hqueue : t.broker.queue.queue = q) (hpopped : t.log.popped = s₀.log.popped ++ removed)
    (hresponses : t.log.responses = s₀.log.responses) : Reading M s₀ conn f₀ t := by
  cases next with
  | again f =>
      refine .popping f q [] removed h ?_ (by rw [hqueue, List.append_nil]) hpopped hresponses
      rw [hio]
      rfl
  | done docs ret =>
      exact .responding ⟨docs, ret, removed, q⟩ h hio (by rw [hqueue]) hpopped hresponses

/-- A step of the read thread leaves the request where it is. -/
theorem Reading.aside (h : Reading M s₀ conn f₀ s) (hst : Aside s t) : Reading M s₀ conn f₀ t := by
  cases h with
  | popping f q late removed hpops hio hqueue hpopped hresponses =>
      obtain ⟨ds, hds⟩ := hst.queue
      refine .popping f q (late ++ ds) removed hpops ?_ ?_ (hst.popped.trans hpopped)
        (hst.responses.trans hresponses)
      · rcases hst.io with heq | heq | heq
        · rw [heq]
          exact hio
        · rw [heq]
          exact hio.notify
        · rw [heq]
          exact hio.notifyQuery
      · rw [← hds, hqueue, List.append_assoc]
  | responding r hpops hio hqueue hpopped hresponses =>
      refine .responding r hpops ?_ (hqueue.trans hst.queue) (hst.popped.trans hpopped)
        (hst.responses.trans hresponses)
      rcases hst.io with heq | heq | heq <;> rw [heq, hio] <;> rfl
  | answered r body hpops hio hbody hqueue hpopped hresponses =>
      refine .answered r body hpops ?_ hbody (hqueue.trans hst.queue) (hst.popped.trans hpopped)
        (hst.responses.trans hresponses)
      rcases hst.io with heq | heq | heq <;> rw [heq, hio] <;> rfl

/-- The io thread goes on inside a pop that waits, or has waited. -/
theorem Reading.of_wait {f : BatchPop} {late removed : List BSONObj} {p : Io}
    (hpops : Popping s₀.broker f₀ f [] removed) (hqueue : s.broker.queue.queue = late)
    (hpopped : s.log.popped = s₀.log.popped ++ removed)
    (hresponses : s.log.responses = s₀.log.responses) (hp : p.At conn f []) :
    Reading M s₀ conn f₀ { s with io := p } :=
  .popping f [] late removed hpops hp hqueue hpopped hresponses

/-- A step of the io thread in the pops of a request. -/
theorem Reading.ioStep_of_popping {f : BatchPop} {q late removed : List BSONObj}
    (hpops : Popping s₀.broker f₀ f q removed) (hat : s.io.At conn f q)
    (hqueue : s.broker.queue.queue = q ++ late) (hpopped : s.log.popped = s₀.log.popped ++ removed)
    (hresponses : s.log.responses = s₀.log.responses) (hplaced : Placed s)
    (hsettings : s.broker.settings = s₀.broker.settings) (hstep : IoStep M s t)
    (hfault : t.fault = none) : Reading M s₀ conn f₀ t := by
  -- the end of the handler, with what has arrived until then
  have hhandled : ∀ k : Call, k = .read conn f ∧ q = [] ∧ f.timeout ≠ 0 →
      Reading M s₀ conn f₀ { s with io := k.onTimeout s.broker } := by
    rintro k ⟨rfl, rfl, htimeout⟩
    refine .of_pops (hpops.timeout htimeout late) ?_ hqueue hpopped hresponses
    show Io.ofRead conn (f.onTimeout s.broker) = _
    rw [onTimeout_of_settings_eq hsettings]
  cases hstep with
  | refuse k e hio he =>
      rw [hplaced.opened (by rw [hio]; simp)] at he
      cases he
  | wait k hio hnil =>
      rw [hio] at hat
      obtain ⟨rfl, hlate⟩ := List.append_eq_nil_iff.mp (hqueue.symm.trans hnil)
      refine .popping f [] late removed hpops ⟨hat, rfl, ?_⟩ hqueue hpopped hresponses
      intro hw
      cases hw
  | pop k d rest hio hcons =>
      have hk : k = .read conn f := by
        rcases hio with hio | hio
        · rw [hio] at hat
          exact hat
        · rw [hio] at hat
          exact hat.1
      subst hk
      refine .of_pops (hpops.item (hqueue.symm.trans hcons)) rfl rfl ?_ hresponses
      show s.log.popped ++ [d] = _
      rw [hpopped, List.append_assoc]
  | fault e hio => cases hfault
  | timeOut k hio =>
      rw [hio] at hat
      obtain ⟨rfl, rfl, htimeout⟩ := hat
      exact .of_wait hpops hqueue hpopped hresponses ⟨rfl, rfl, htimeout rfl⟩
  | handle k hio =>
      rw [hio] at hat
      split_ifs
      · obtain ⟨rfl, rfl, htimeout⟩ := hat
        exact .of_wait hpops hqueue hpopped hresponses ⟨rfl, rfl, htimeout⟩
      · exact hhandled k hat
  | queryEnter k hio =>
      rw [hio] at hat
      obtain ⟨rfl, rfl, htimeout⟩ := hat
      exact .of_wait hpops hqueue hpopped hresponses ⟨rfl, rfl, htimeout⟩
  | queryLeave k hio =>
      rw [hio] at hat
      exact hhandled k hat
  | respond conn' docs ret hio =>
      rw [hio] at hat
      exact hat.elim
  | reach hio hnil =>
      rw [hio] at hat
      exact hat.elim
  | join hio hreach =>
      rw [hio] at hat
      exact hat.elim
  | last f' hio hf =>
      rcases hio with ⟨hio, -⟩ | ⟨hio, -⟩
      · rw [hio] at hat
        exact hat.elim
      · rw [hio] at hat
        exact hat.elim
  | close hio hr =>
      rw [hio] at hat
      exact hat.elim

/-- A step of the io thread takes the request on. -/
theorem Reading.ioStep (h : Reading M s₀ conn f₀ s) (hplaced : Placed s)
    (hsettings : s.broker.settings = s₀.broker.settings) (hstep : IoStep M s t)
    (hfault : t.fault = none) : Reading M s₀ conn f₀ t := by
  cases h with
  | popping f q late removed hpops hat hqueue hpopped hresponses =>
      exact ioStep_of_popping hpops hat hqueue hpopped hresponses hplaced hsettings hstep hfault
  | responding r hpops hio hqueue hpopped hresponses =>
      cases hstep with
      | respond conn' docs ret hio' =>
          rw [hio] at hio'
          cases hio'
          unfold State.respond at hfault ⊢
          rcases hbody : readResponse M r.docs r.ret with e | body
          · rw [hbody] at hfault
            cases hfault
          · refine .answered r body hpops rfl hbody hqueue hpopped ?_
            show s.log.responses ++ [(conn, body)] = _
            rw [hresponses]
      | _ => simp_all
  | answered r body hpops hio hbody hqueue hpopped hresponses => cases hstep <;> simp_all

/-- **A step of a session takes a request on**, unless it is another request. -/
theorem Reading.step (h : Reading M s₀ conn f₀ s) (hplaced : Placed s)
    (hsettings : s.broker.settings = s₀.broker.settings)
    (hstep : ReadSession.step M seconds s a = some t) (hfault : t.fault = none)
    (hfree : a.kind = .free) (hrewind : a ≠ .rewind) : Reading M s₀ conn f₀ t := by
  cases step_effect hstep with
  | reader _ hreader => exact h.aside hreader.aside
  | io _ hio => exact h.ioStep hplaced hsettings hio hfault
  | readerExpire docs hr hseconds =>
      exact h.aside ⟨Or.inl rfl, List.prefix_rfl, rfl, rfl, rfl⟩
  | readerWake docs hr => exact h.aside ⟨Or.inl rfl, List.prefix_rfl, rfl, rfl, rfl⟩
  | insert d hd => exact h.aside ⟨Or.inl rfl, List.prefix_rfl, rfl, rfl, rfl⟩
  | ioExpire k hio hseconds =>
      cases h with
      | popping f q late removed hpops hat hqueue hpopped hresponses =>
          rw [hio] at hat
          obtain ⟨rfl, rfl, -⟩ := hat
          exact .of_wait hpops hqueue hpopped hresponses ⟨rfl, rfl, fun _ => hseconds⟩
      | responding r hpops hio' => simp_all
      | answered r body hpops hio' => simp_all
  | popWake k hio =>
      cases h with
      | popping f q late removed hpops hat hqueue hpopped hresponses =>
          rw [hio] at hat
          obtain ⟨rfl, rfl, -⟩ := hat
          refine .of_wait hpops hqueue hpopped hresponses ⟨rfl, rfl, ?_⟩
          intro hw
          cases hw
      | responding r hpops hio' => simp_all
      | answered r body hpops hio' => simp_all
  | queryWake k hio =>
      cases h with
      | popping f q late removed hpops hat hqueue hpopped hresponses =>
          rw [hio] at hat
          obtain ⟨rfl, rfl, htimeout⟩ := hat
          exact .of_wait hpops hqueue hpopped hresponses ⟨rfl, rfl, htimeout⟩
      | responding r hpops hio' => simp_all
      | answered r body hpops hio' => simp_all
  | read conn hio => cases hfree
  | pop n hio => cases hfree
  | term hio => cases hfree
  | rewind hio => exact absurd rfl hrewind

/-- A request that does not end the program begins with its first pop. -/
theorem reading_start (hstep : ReadSession.step M seconds s (.read conn) = some t)
    (hfault : t.fault = none) :
    ∃ f₀, BatchPop.start s.broker (toSizeT s.broker.limit) = .ok f₀ ∧
      s.broker.connected = true ∧ t.broker = s.broker ∧ t.io ≠ .idle ∧ Reading M s conn f₀ t := by
  cases step_effect hstep with
  | read conn hio =>
      unfold State.startRead at hfault ⊢
      split_ifs at hfault ⊢ with hconnected
      · rcases hstart : BatchPop.start s.broker (toSizeT s.broker.limit) with e | f
        · rw [hstart] at hfault
          cases hfault
        · refine ⟨f, rfl, hconnected, rfl, by simp, .popping f s.broker.queue.queue [] []
            (popping_start s.broker f) rfl ?_ ?_ rfl⟩
          · rw [List.append_nil]
          · rw [List.append_nil]

/-- The broker keeps its settings while the session is idle or serves a request. -/
theorem settings_of_kind {a : Action} (hstep : ReadSession.step M seconds s a = some t)
    (hterm : a ≠ .term) (hkind : s.io.kind ≠ .ending) : t.broker.settings = s.broker.settings := by
  apply settings_step hstep hterm
  intro hjoining
  rw [hjoining] at hkind
  exact hkind rfl

/-- A request that is under way serves, and one that has been answered is over. -/
theorem Reading.kind (h : Reading M s₀ conn f₀ s) : s.io.kind ≠ .ending := by
  cases h with
  | popping f q late removed hpops hat =>
      cases hio : s.io <;> rw [hio] at hat <;> simp_all [Io.At, Io.kind, Call.kind]
  | responding r hpops hio =>
      rw [hio]
      simp [Io.kind]
  | answered r body hpops hio =>
      rw [hio]
      simp [Io.kind]

/-- A request of an idle session has been answered. -/
theorem Reading.of_idle (h : Reading M s₀ conn f₀ s) (hidle : s.io = .idle) :
    ∃ r body, Popped s₀.broker f₀ r ∧ readResponse M r.docs r.ret = .ok body ∧
      r.queue <+: s.broker.queue.queue ∧ s.log.popped = s₀.log.popped ++ r.removed ∧
      s.log.responses = s₀.log.responses ++ [(conn, body)] := by
  cases h with
  | popping f q late removed hpops hat =>
      rw [hidle] at hat
      exact hat.elim
  | responding r hpops hio =>
      rw [hidle] at hio
      cases hio
  | answered r body hpops hio hbody hqueue hpopped hresponses =>
      exact ⟨r, body, hpops, hbody, hqueue, hpopped, hresponses⟩

/-- The whole of a request, from the pops of its call. -/
theorem exists_doRead_of_popped {b : Broker} {r : BatchResult}
    (hstart : BatchPop.start b (toSizeT b.limit) = .ok f₀) (hpops : Popped b f₀ r) :
    ∃ os, doRead M b os = some ⟨readResponse M r.docs r.ret, r.removed, r.queue⟩ := by
  obtain ⟨os, hos⟩ := hpops
  refine ⟨os, ?_⟩
  rw [doRead, hstart]
  simp only [hos, Option.map_some]

end reading

/-- The steps of a session that begin no request. -/
def Action.serves (a : Action) : Prop := a.kind = .free ∧ a ≠ .rewind

instance : DecidablePred Action.serves := fun a => by unfold Action.serves; infer_instance

/-- **A READ request is `do_read`.** A session has run in any way, and is idle; a READ request comes,
and is answered while the read thread takes any steps, pops time out or are woken, and documents are
inserted. Then there are outcomes of its pops for which `do_read`, on the broker as it was when the
request came, gives this answer; what the request has taken from the queue is what `do_read` removes,
and what `do_read` leaves is the front of what is in the queue now. -/
theorem read_eq_doRead (M : Mongo) (seconds : Nat) (coll : List Document)
    (connect : String → Option String) (options : BSONObj) (b : Broker)
    (hopen : Broker.new.openOn connect (some options) = (b, none)) (as : List Action) (s : State)
    (hs : run (step M seconds) (State.opened coll b) as = some s) (conn : Nat) (bs : List Action)
    (t : State) (ht : run (step M seconds) s (.read conn :: bs) = some t)
    (hserves : ∀ a ∈ bs, a.serves) (hfault : t.fault = none) (hidle : t.io = .idle) :
    ∃ os r body, doRead M s.broker os = some r ∧ r.answer = .ok body ∧
      t.log.responses = s.log.responses ++ [(conn, body)] ∧
      t.log.popped = s.log.popped ++ r.removed ∧ r.queue <+: t.broker.queue.queue := by
  have hplaced : Placed s :=
    run_invariant_of_step (fun _ _ _ hs hst => hs.step hst) (placed_opened hopen coll) hs
  obtain ⟨u, hu, hrest⟩ := (run_cons_eq_some _).mp ht
  have hlive : u.fault = none := by
    cases bs with
    | nil =>
        cases hrest
        exact hfault
    | cons a bs =>
        obtain ⟨v, hv, -⟩ := (run_cons_eq_some _).mp hrest
        exact fault_of_step hv
  obtain ⟨f₀, hstart, -, hbroker, -, hreading⟩ := reading_start hu hlive
  have hrun := run_invariant (C := fun _ a => Action.serves a)
    (I := fun v => v.fault = none → Placed v ∧ v.broker.settings = s.broker.settings ∧
      Reading M s conn f₀ v)
    (by
      intro v a w hv ha hstep hw
      obtain ⟨hplaced, hsettings, hreading⟩ := hv (fault_of_step hstep)
      have hterm : a ≠ .term := by
        rintro rfl
        cases ha.1
      exact ⟨hplaced.step hstep, (settings_of_kind hstep hterm hreading.kind).trans hsettings,
        hreading.step hplaced hsettings hstep hw ha.1 ha.2⟩)
    (fun _ => ⟨hplaced.step hu, by rw [hbroker], hreading⟩)
    (guarded_of_forall_mem (step M seconds) hserves) hrest hfault
  obtain ⟨-, -, hanswered⟩ := hrun
  obtain ⟨r, body, hpops, hbody, hqueue, hpopped, hresponses⟩ := hanswered.of_idle hidle
  obtain ⟨os, hos⟩ := exists_doRead_of_popped (M := M) hstart hpops
  exact ⟨os, _, body, hos, hbody, hresponses, hpopped, hqueue⟩

/-- A READ of one document, while the read thread turns round. -/
theorem read_eq_doRead_sample : ∃ s t,
    run (step Mongo.plain 0) (State.opened [sampleDocument 1] (Broker.sampleBroker 0 1 10))
        fillQueue = some s ∧
      run (step Mongo.plain 0) s [.read 1, .reader, .io, .reader, .io] = some t ∧
      ∃ os r body, doRead Mongo.plain s.broker os = some r ∧ r.answer = .ok body ∧
        t.log.responses = s.log.responses ++ [(1, body)] := by
  obtain ⟨s, hs, hrest⟩ : ∃ s, run (step Mongo.plain 0)
      (State.opened [sampleDocument 1] (Broker.sampleBroker 0 1 10)) fillQueue = some s ∧
        (run (step Mongo.plain 0) s [.read 1, .reader, .io, .reader, .io]).any
          (fun t => decide (t.fault = none ∧ t.io = .idle)) = true :=
    ⟨_, rfl, by decide +kernel⟩
  obtain ⟨t, ht, hend⟩ := (Option.any_eq_true _ _).mp hrest
  obtain ⟨hfault, hidle⟩ := of_decide_eq_true hend
  obtain ⟨os, r, body, hread, hanswer, hresponses, -, -⟩ := read_eq_doRead Mongo.plain 0
    [sampleDocument 1] (fun _ => none) (Broker.sampleOptions 0 1 10) (Broker.sampleBroker 0 1 10)
    (by decide) fillQueue s hs 1 [.reader, .io, .reader, .io] t ht (by decide) hfault hidle
  exact ⟨s, t, hs, ht, os, r, body, hread, hanswer, hresponses⟩

/-! ## What is seen of a request -/

/-- The answer to a READ that a step of a session sends. -/
def served (M : Mongo) (s : State) (a : Action) (_ : State) :
    Option (Nat × BSONObj) :=
  match a, s.io with
  | .io, .responding conn docs ret =>
      match readResponse M docs ret with
      | .ok body => some (conn, body)
      | .error _ => none
  | _, _ => none

section seen

variable {M : Mongo} {seconds : Nat} {s₀ s t : State} {conn : Nat} {f₀ : BatchPop} {a : Action}

/-- Only the end of a request is seen. -/
theorem served_eq_none (h : ∀ conn docs ret, s.io ≠ .responding conn docs ret) :
    served M s a t = none := by
  unfold served
  split
  · rename_i conn docs ret hio
    exact absurd hio (h conn docs ret)
  · rfl

/-- Only the end of a request adds an answer. -/
theorem responses_of_step (hstep : step M seconds s a = some t) (ha : a.serves)
    (h : ∀ conn docs ret, s.io ≠ .responding conn docs ret) :
    t.log.responses = s.log.responses := by
  cases step_effect hstep with
  | reader _ hreader => exact hreader.aside.responses
  | io _ hio =>
      cases hio with
      | respond conn docs ret hio => exact absurd hio (h conn docs ret)
      | _ => rfl
  | read conn hio => cases ha.1
  | rewind hio => exact absurd rfl ha.2
  | term hio => cases ha.1
  | _ => rfl

/-- A step of a request that is under way: it goes on and nothing is seen, or it is answered. -/
theorem seen_of_reading (h : Reading M s₀ conn f₀ s) (hbusy : s.io ≠ .idle) (hplaced : Placed s)
    (hsettings : s.broker.settings = s₀.broker.settings)
    (hstep : step M seconds s a = some t) (hfault : t.fault = none) (ha : a.serves) :
    t.io ≠ .idle ∧ served M s a t = none ∨
      t.io = .idle ∧ ∃ body, served M s a t = some (conn, body) ∧
        t.log.responses = s₀.log.responses ++ [(conn, body)] := by
  have hafter := h.step hplaced hsettings hstep hfault ha.1 ha.2
  cases h with
  | popping f q late removed hpops hat hqueue hpopped hresponses =>
      have hnot : ∀ conn docs ret, s.io ≠ .responding conn docs ret := by
        intro conn docs ret hio
        rw [hio] at hat
        exact hat
      refine Or.inl ⟨?_, served_eq_none hnot⟩
      intro hidle
      obtain ⟨r, body, -, -, -, -, hnew⟩ := hafter.of_idle hidle
      rw [responses_of_step hstep ha hnot, hresponses] at hnew
      simp at hnew
  | responding r hpops hio hqueue hpopped hresponses =>
      cases step_effect hstep with
      | reader _ hreader =>
          refine Or.inl ⟨?_, rfl⟩
          rcases hreader.aside.io with heq | heq | heq <;> rw [heq, hio] <;> simp [Io.notify,
            Io.notifyQuery]
      | io _ hiostep =>
          cases hiostep with
          | respond conn' docs ret hio' =>
              rw [hio] at hio'
              cases hio'
              unfold State.respond at hfault ⊢
              rcases hbody : readResponse M r.docs r.ret with e | body
              · rw [hbody] at hfault
                cases hfault
              · refine Or.inr ⟨rfl, body, ?_, ?_⟩
                · simp only [served, hio, hbody]
                · show s.log.responses ++ [(conn, body)] = _
                  rw [hresponses]
          | _ => simp_all
      | readerExpire docs hr hseconds =>
          refine Or.inl ⟨?_, rfl⟩
          simp [hio]
      | readerWake docs hr =>
          refine Or.inl ⟨?_, rfl⟩
          simp [hio]
      | insert d hd =>
          refine Or.inl ⟨?_, rfl⟩
          simp [hio]
      | _ => simp_all
  | answered r body hpops hio => exact absurd hio hbusy

end seen

end ReadSession

end Zbroker
