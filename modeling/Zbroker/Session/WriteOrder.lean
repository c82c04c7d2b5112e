import Zbroker.Session.Updates

/-!
# The order in which updates are passed on

`do_write` hands the documents of a request to `push(vector<T>&)`, which moves them into the
queue from the back.

* `InRequestOrder b s` — what was passed on is a beginning of the requests put together, each in
  its own order.
* `Draining docs tmp s`, `Draining.finish` — a state from which a request can be finished, with
  every update of it passed on.
* `Ready s`, `Ready.serve` — a state from which any list of requests can be served.
* **`inRequestOrder_iff`**: in every run with the given requests the updates come in their order
  exactly when every request makes the same updates when it is read from its back.
For the one direction a run is built that serves the requests one after the other (`Ready.serve`), in which
each comes out from its back. For the other, `Conserves` says that every run passes on the requests so.
-/

namespace Zbroker.WriteSession

open Found.Transition

/-- What was passed on so far is a beginning of the updates of the requests, in request order,
each request in its own order. -/
def InRequestOrder (b : Broker) (s : State) : Prop :=
  s.log.applied <+: s.log.requests.flatten.map (updateOp b.docset)

/-- A request that makes the same updates when it is read from its back. -/
def Palindromic (b : Broker) (docs : List BSONObj) : Prop :=
  docs.reverse.map (updateOp b.docset) = docs.map (updateOp b.docset)

instance (b : Broker) (docs : List BSONObj) : Decidable (Palindromic b docs) :=
  inferInstanceAs (Decidable (_ = _))

/-- Requests that read the same from their backs are not changed by the turning round. -/
theorem map_flatten_reverse {b : Broker} {requests : List (List BSONObj)}
    (h : ∀ docs ∈ requests, Palindromic b docs) :
    ((requests.map List.reverse).flatten).map (updateOp b.docset) =
      requests.flatten.map (updateOp b.docset) := by
  rw [List.map_flatten, List.map_flatten, List.map_map]
  exact congrArg List.flatten (List.map_congr_left h)

/-- The converse: the updates of all requests come in blocks of the same lengths. -/
theorem palindromic_of_map_flatten_reverse {b : Broker} {requests : List (List BSONObj)}
    (h : ((requests.map List.reverse).flatten).map (updateOp b.docset) =
      requests.flatten.map (updateOp b.docset)) : ∀ docs ∈ requests, Palindromic b docs := by
  induction requests with
  | nil =>
      intro docs hdocs
      cases hdocs
  | cons docs requests ih =>
      simp only [List.map_cons, List.flatten_cons, List.map_append] at h
      obtain ⟨hhead, htail⟩ := List.append_inj h (by simp)
      intro docs' hdocs
      rcases List.mem_cons.mp hdocs with rfl | hmem
      · exact hhead
      · exact ih htail docs' hmem

/-! ## Requests can be served -/

/-- Between two documents of the update thread, the io thread at its loop with `tmp`. -/
structure Draining (docs tmp : List BSONObj) (s : State) : Prop where
  fault : s.fault = none
  updater : s.updater = .popping
  checkStatus : s.broker.checkStatus = none
  limitSize : 1 ≤ s.broker.queue.limitSize
  io : s.io = .writing docs tmp

/-- Between two requests, with nothing on its way. -/
structure Ready (s : State) : Prop where
  fault : s.fault = none
  updater : s.updater = .popping
  checkStatus : s.broker.checkStatus = none
  limitSize : 1 ≤ s.broker.queue.limitSize
  io : s.io = .idle
  queue : s.broker.queue.queue = []

section serve

variable {s : State} {docs tmp : List BSONObj}

/-- The document at the front can be passed on. -/
theorem Draining.pop (h : Draining docs tmp s) {obj : BSONObj} {rest : List BSONObj}
    (hqueue : s.broker.queue.queue = obj :: rest) :
    ∃ t, run step s [.updater, .updater] = some t ∧ Draining docs tmp t ∧
      t.broker.queue.queue = rest ∧ t.log.requests = s.log.requests := by
  have hcheck := h.checkStatus
  refine ⟨(s.popped obj rest).passOn obj, ?_, ⟨h.fault, rfl, hcheck, h.limitSize, ?_⟩, rfl, rfl⟩
  · simp [run_cons, step, h.fault, h.updater, State.updaterStep, State.enterPop, hqueue, State.popped]
  · show s.io.notify = .writing docs tmp
    rw [h.io]
    rfl

/-- With an empty queue the io thread can push. -/
theorem Draining.push (h : Draining docs tmp s) (htmp : tmp ≠ [])
    (hqueue : s.broker.queue.queue = []) :
    ∃ t rest, run step s [.io, .io] = some t ∧ Draining docs rest t ∧
      rest.length < tmp.length ∧
      t.broker.queue.queue.length + rest.length = tmp.length ∧
      t.log.requests = s.log.requests := by
  have hcheck := h.checkStatus
  have hfull : s.broker.queue.isFull = false := by
    have := h.limitSize
    simp [SizedQueue.isFull, hqueue]
    omega
  refine ⟨({ s with io := .entering docs tmp } : State).push docs tmp,
    (s.broker.queue.fill tmp).2, ?_, ⟨h.fault, ?_, hcheck, ?_, rfl⟩,
    SizedQueue.length_fill_lt hfull htmp, ?_, rfl⟩
  · simp [run_cons, step, h.fault, h.io, State.ioStep, State.enterPush, hcheck, hfull, htmp]
  · show s.updater.notify = .popping
    rw [h.updater]
    rfl
  · show 1 ≤ (s.broker.queue.fill tmp).1.limitSize
    rw [SizedQueue.limitSize_fill]
    exact h.limitSize
  · have hmoved := congrArg List.length (SizedQueue.queue_fill_append s.broker.queue tmp)
    rw [hqueue] at hmoved
    simpa [State.push] using hmoved

/-- What it says of the documents that are left to push. -/
theorem Draining.rest (h : Draining docs tmp s) : s.io.rest = tmp := by
  rw [h.io]
  rfl

/-- Some documents of the request are pushed, or one of the queue is passed on. -/
theorem Draining.progress (h : Draining docs tmp s) {requests : List (List BSONObj)}
    (hrequests : s.log.requests = requests) :
    (s.broker.queue.queue = [] ∧ s.io.rest = []) ∨
      ∃ as t, (∀ a ∈ as, True) ∧ run step s as = some t ∧
        (∃ tmp', Draining docs tmp' t ∧ t.log.requests = requests) ∧
        2 * t.io.rest.length + t.broker.queue.queue.length <
          2 * s.io.rest.length + s.broker.queue.queue.length := by
  rw [h.rest]
  rcases hqueue : s.broker.queue.queue with _ | ⟨obj, rest⟩
  · rcases eq_or_ne tmp [] with rfl | htmp
    · exact Or.inl ⟨rfl, rfl⟩
    · obtain ⟨t, tmp', ht, hdraining, hlt, hlen, hlog⟩ := h.push htmp hqueue
      refine Or.inr ⟨[.io, .io], t, fun _ _ => trivial, ht,
        ⟨tmp', hdraining, hlog.trans hrequests⟩, ?_⟩
      rw [hdraining.rest, List.length_nil]
      omega
  · obtain ⟨t, ht, hdraining, hrest, hlog⟩ := h.pop hqueue
    refine Or.inr ⟨[.updater, .updater], t, fun _ _ => trivial, ht,
      ⟨tmp, hdraining, hlog.trans hrequests⟩, ?_⟩
    rw [hdraining.rest, hrest, List.length_cons]
    omega

/-- **A request can be finished**, with all its updates passed on. -/
theorem Draining.finish (h : Draining docs tmp s) :
    ∃ as t, run step s as = some t ∧ Ready t ∧ t.log.requests = s.log.requests := by
  -- a push turns documents of the vector into documents of the queue, a pop takes one of those
  obtain ⟨as, t, -, ht, ⟨tmp', hdraining, hrequests⟩, hqueue, hrest⟩ :=
    @exists_run_of_progress _ _ step (fun _ => True)
      (fun t => ∃ tmp', Draining docs tmp' t ∧ t.log.requests = s.log.requests)
      (fun t => t.broker.queue.queue = [] ∧ t.io.rest = [])
      (fun t => 2 * t.io.rest.length + t.broker.queue.queue.length)
      (fun t ht => by
        obtain ⟨tmp', hdraining, hrequests⟩ := ht
        exact hdraining.progress hrequests)
      s ⟨tmp, h, rfl⟩
  rw [hdraining.rest] at hrest
  subst hrest
  -- and the answer
  have hanswer : step t .io = some (t.acknowledge docs) := by
    simp [step, hdraining.fault, hdraining.io, State.ioStep]
  exact ⟨as ++ [.io], t.acknowledge docs, run_concat ht hanswer,
    ⟨hdraining.fault, hdraining.updater, hdraining.checkStatus, hdraining.limitSize, rfl, hqueue⟩,
    hrequests⟩

/-- A request can begin. -/
theorem Ready.write (h : Ready s) (docs : List BSONObj) :
    ∃ t, run step s [.write (writeBody docs)] = some t ∧ Draining docs docs t ∧
      t.log.requests = s.log.requests ++ [docs] := by
  have hconnected : s.broker.connected = true := by
    have hcheck := h.checkStatus
    unfold Broker.checkStatus at hcheck
    split_ifs at hcheck with hinited hconnected
    simpa using hconnected
  refine ⟨{ s with
      io := .writing docs docs, log := { s.log with requests := s.log.requests ++ [docs] } }, ?_,
    ⟨h.fault, h.updater, h.checkStatus, h.limitSize, rfl⟩, rfl⟩
  simp [run_cons, step, h.fault, h.io, State.startWrite, hconnected, vals_writeBody]

/-- **Any requests can be served**, one after the other. -/
theorem Ready.serve (h : Ready s) (requests : List (List BSONObj)) :
    ∃ as t, run step s as = some t ∧ Ready t ∧
      t.log.requests = s.log.requests ++ requests := by
  induction requests generalizing s with
  | nil => exact ⟨[], s, rfl, h, by simp⟩
  | cons docs requests ih =>
      obtain ⟨t, ht, hdraining, hwrite⟩ := h.write docs
      obtain ⟨as, u, hu, hready, hfinish⟩ := hdraining.finish
      obtain ⟨bs, v, hv, hready', hserve⟩ := ih hready
      refine ⟨[.write (writeBody docs)] ++ (as ++ bs), v, ?_, hready', ?_⟩
      · rw [run_append, ht]
        simp only [Option.bind_some]
        rw [run_append, hu]
        exact hv
      · rw [hserve, hfinish, hwrite, List.append_assoc]
        rfl

end serve

/-! ## The order -/

/-- When nothing is on its way, the updates of all requests were passed on, each from its
back. -/
theorem Conserves.applied_of_ready {b : Broker} {s : State} (h : Conserves b s) (hs : Ready s) :
    s.log.applied = ((s.log.requests.map List.reverse).flatten).map (updateOp b.docset) := by
  rw [← h.applied]
  simp [State.onTheWay, hs.updater, hs.queue, hs.io, Updater.inHand, Io.rest]

/-- **The update order.** In every run of a session with the given requests the updates come in
their order, exactly when every request makes the same updates read from its back. -/
theorem inRequestOrder_iff (connect : String → Option String) (options : BSONObj) (b : Broker)
    (hopen : Broker.new.openOn connect (some options) = (b, none))
    (hroom : 1 ≤ b.queue.limitSize) (requests : List (List BSONObj)) :
    (∀ as t, run step (State.opened b) as = some t → t.log.requests = requests →
        InRequestOrder b t) ↔
      ∀ docs ∈ requests, Palindromic b docs := by
  have hconserves : ∀ as t, run step (State.opened b) as = some t → Conserves b t :=
    fun as t ht =>
      run_invariant_of_step (fun _ _ _ h hst => h.step hst) (conserves_opened hopen) ht
  constructor
  · intro horder
    have hfresh := Broker.fresh_of_openOn hopen
    have hstart : Ready { State.opened b with updater := .popping } :=
      ⟨rfl, rfl, by simp [State.opened, Broker.checkStatus, hfresh.inited, hfresh.connected],
        hroom, rfl, hfresh.queue⟩
    obtain ⟨as, t, ht, hready, hrequests⟩ := hstart.serve requests
    replace hrequests : t.log.requests = requests := hrequests
    have hrun : run step (State.opened b) (.updater :: as) = some t :=
      (run_cons_eq_some step).mpr ⟨_, rfl, ht⟩
    have hprefix := horder _ t hrun hrequests
    rw [InRequestOrder, (hconserves _ t hrun).applied_of_ready hready, hrequests] at hprefix
    -- two lists of the same length, one a beginning of the other
    apply palindromic_of_map_flatten_reverse
    apply hprefix.eq_of_length
    simp [List.length_flatten, Function.comp_def]
  · rintro hpalindromic as t ht rfl
    have h := (hconserves as t ht).applied
    rw [map_flatten_reverse hpalindromic] at h
    rw [InRequestOrder, ← h]
    exact List.prefix_append _ _

/-- Two requests of one update each. -/
theorem inRequestOrder_iff_sample : ∃ t,
    run step (State.opened (Broker.sampleBroker 0 1 10))
        [.updater, .write (writeBody [sampleUpdate 1]), .io, .io, .io,
          .write (writeBody [sampleUpdate 2]), .io, .io, .io, .updater, .updater] = some t ∧
      t.log.acknowledged = [[sampleUpdate 1], [sampleUpdate 2]] ∧
      t.log.applied = [updateOp "zbroker.broker" (sampleUpdate 1)] ∧
      InRequestOrder (Broker.sampleBroker 0 1 10) t := by
  have horder := (inRequestOrder_iff (fun _ => none) (Broker.sampleOptions 0 1 10)
    (Broker.sampleBroker 0 1 10) (by decide) (by decide)
    [[sampleUpdate 1], [sampleUpdate 2]]).mpr (by decide)
  exact ⟨_, rfl, rfl, rfl, horder [.updater, .write (writeBody [sampleUpdate 1]), .io, .io, .io,
    .write (writeBody [sampleUpdate 2]), .io, .io, .io, .updater, .updater] _ rfl rfl⟩

/-- The updates of a request with two documents are passed on in the opposite order. -/
theorem not_inRequestOrder_sample :
    Broker.new.openOn (fun _ => none) (some (Broker.sampleOptions 0 1 10)) =
        (Broker.sampleBroker 0 1 10, none) ∧
      ∃ t, run step (State.opened (Broker.sampleBroker 0 1 10))
          [.updater, .write (writeBody [sampleUpdate 1, sampleUpdate 2]), .io, .io, .io,
            .updater, .updater, .updater, .updater] = some t ∧
        t.log.acknowledged = [[sampleUpdate 1, sampleUpdate 2]] ∧
        t.log.applied = [updateOp "zbroker.broker" (sampleUpdate 2),
          updateOp "zbroker.broker" (sampleUpdate 1)] ∧
        ¬InRequestOrder (Broker.sampleBroker 0 1 10) t := by
  refine ⟨by decide, _, rfl, rfl, rfl, ?_⟩
  unfold InRequestOrder
  decide

end Zbroker.WriteSession
