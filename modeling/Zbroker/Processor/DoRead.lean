import Zbroker.Broker.BatchPop
import Zbroker.Processor.Response

/-!
# `asio_processor::do_read`

One READ request, run against the queue and whatever the read thread does to it meanwhile.

* `PopOutcome` — how one pop ends: with an item, or with its deadline; both with the documents
  that the read thread pushed while the pop had not got the monitor.
* `popQueue`, `batchPop`, `doRead` — the pop, the loop around it and the request, along the list
  of the outcomes of its pops. The documents that leave the queue are logged apart from the
  vector the code collects them in.
* `batchPop_spec` — **the loop loses nothing**: what left the queue is what is in the vector, as
  many documents as pops returned, and what left and what is left are what was there and what
  arrived.
* `ConsumesCarried` — what left the queue is what the response carries.
* **`doRead_consumesCarried_iff`**: that is so exactly when nothing was popped or the popped
  documents can be sent in one response.
The loop is taken along the outcomes once (`batchPop_spec`). What it collected is in the response exactly
when the response can be sent (`carried_readResponse`), and an answer that is no `OK` carries nothing.
-/

namespace Zbroker

/-- The outcome of one pop, with the documents pushed before it goes on. -/
inductive PopOutcome where
  | item (arrivals : List BSONObj)
  | timeout (arrivals : List BSONObj)
  deriving DecidableEq, Repr

/-- The documents that arrive during a pop. -/
def PopOutcome.arrivals : PopOutcome → List BSONObj
  | .item ds => ds
  | .timeout ds => ds

/-- The number of documents a pop removes. -/
def PopOutcome.items : PopOutcome → Nat
  | .item _ => 1
  | .timeout _ => 0

/-- The documents that arrive during a list of pops. -/
def arrivals (os : List PopOutcome) : List BSONObj := os.flatMap PopOutcome.arrivals

/-- The number of documents a list of pops removes. -/
def items (os : List PopOutcome) : Nat := (os.map PopOutcome.items).sum

/-- `pop(seconds)` on the queue `q`: the document it returns, or none for `broker_timeout`, and
the queue after it. An outcome that the queue does not allow is none at all: a pop that finds a
document does not wait, one that returns has found a document, and one with `seconds = 0` waits
without a deadline.
Source: `sized_queue.cc`, `sized_queue::pop` -/
def popQueue (seconds : Int) (q : List BSONObj) :
    PopOutcome → Option (Option BSONObj × List BSONObj)
  | .item ds =>
      match q ++ ds with
      | [] => none
      | d :: rest => some (some d, rest)
  | .timeout ds => if q.isEmpty ∧ seconds ≠ 0 then some (none, ds) else none

/-- A call of `batch_pop` that has ended. -/
structure BatchResult where
  docs : List BSONObj
  ret : Option Nat
  /-- The documents that left the queue, in pop order. -/
  removed : List BSONObj
  /-- The queue after the call. -/
  queue : List BSONObj
  deriving DecidableEq, Repr

/-- The pops of a call of `batch_pop`, along their outcomes; `removed` logs what left the queue.
There is a result when the outcomes are those of the whole call.
Source: `broker.cc`, `broker::batch_pop` -/
def batchPop (b : Broker) : BatchPop → (q removed : List BSONObj) → List PopOutcome →
    Option BatchResult
  | _, _, _, [] => none
  | f, q, removed, o :: os =>
      match popQueue f.timeout q o with
      | none => none
      | some (some d, q') =>
          match f.onItem d with
          | .again f' => batchPop b f' q' (removed ++ [d]) os
          | .done docs ret => if os.isEmpty then some ⟨docs, ret, removed ++ [d], q'⟩ else none
      | some (none, q') =>
          match f.onTimeout b with
          | .again f' => batchPop b f' q' removed os
          | .done docs ret => if os.isEmpty then some ⟨docs, ret, removed, q'⟩ else none

/-- A READ request that has ended: its answer, what left the queue, and the queue after it. -/
structure ReadResult where
  answer : Except Exn BSONObj
  removed : List BSONObj
  queue : List BSONObj

/-- `do_read`, along the outcomes of its pops. The request asks for `get_limit()` documents.
Source: `asio_processor.cc`, `asio_processor::do_read` -/
def doRead (M : Mongo) (b : Broker) (os : List PopOutcome) : Option ReadResult :=
  match BatchPop.start b (toSizeT b.limit) with
  | .error e => if os.isEmpty then some ⟨.error e, [], b.queue.queue⟩ else none
  | .ok f =>
      (batchPop b f b.queue.queue [] os).map fun r =>
        ⟨readResponse M r.docs r.ret, r.removed, r.queue⟩

/-! ## The loop -/

@[simp] theorem arrivals_cons (o : PopOutcome) (os : List PopOutcome) :
    arrivals (o :: os) = o.arrivals ++ arrivals os := by
  simp [arrivals]

@[simp] theorem items_cons (o : PopOutcome) (os : List PopOutcome) :
    items (o :: os) = o.items + items os := by
  simp [items]

/-- A pop that returned took the front of the queue and what arrived. -/
theorem popQueue_eq_item {seconds : Int} {q q' : List BSONObj} {o : PopOutcome} {d : BSONObj}
    (h : popQueue seconds q o = some (some d, q')) : o.items = 1 ∧ d :: q' = q ++ o.arrivals := by
  cases o with
  | item ds =>
      rw [popQueue] at h
      rcases hq : q ++ ds with _ | ⟨d', rest⟩
      · simp only [hq] at h
        cases h
      · simp only [hq, Option.some.injEq, Prod.mk.injEq] at h
        obtain ⟨rfl, rfl⟩ := h
        exact ⟨rfl, hq.symm⟩
  | timeout ds =>
      rw [popQueue] at h
      split_ifs at h
      cases h

/-- A pop that timed out removed nothing. -/
theorem popQueue_eq_timeout {seconds : Int} {q q' : List BSONObj} {o : PopOutcome}
    (h : popQueue seconds q o = some (none, q')) : o.items = 0 ∧ q' = q ++ o.arrivals := by
  cases o with
  | item ds =>
      rw [popQueue] at h
      rcases hq : q ++ ds with _ | ⟨d', rest⟩
      · simp only [hq] at h
        cases h
      · simp only [hq] at h
        cases h
  | timeout ds =>
      rw [popQueue] at h
      split_ifs at h with hq
      cases h
      rw [List.isEmpty_iff.mp hq.1]
      exact ⟨rfl, rfl⟩

/-- **The loop loses nothing.** By induction on the outcomes: the vector and the log grow by the
same document when a pop returns, and by nothing when it times out. -/
theorem batchPop_spec {b : Broker} {f : BatchPop} {q removed : List BSONObj}
    {os : List PopOutcome} {r : BatchResult} (hlog : f.docs = removed)
    (h : batchPop b f q removed os = some r) :
    r.docs = r.removed ∧ r.removed.length = removed.length + items os ∧
      r.removed ++ r.queue = removed ++ q ++ arrivals os := by
  induction os generalizing f q removed with
  | nil => cases h
  | cons o os ih =>
      rw [batchPop] at h
      rcases hpop : popQueue f.timeout q o with _ | ⟨_ | d, q'⟩
      · rw [hpop] at h
        cases h
      · -- the pop timed out
        obtain ⟨hitems, hq'⟩ := popQueue_eq_timeout hpop
        have hdocs := docs_onTimeout b f
        rw [hpop] at h
        simp only at h
        cases hstep : f.onTimeout b with
        | again f' =>
            rw [hstep] at h hdocs
            obtain ⟨h₁, h₂, h₃⟩ := ih (hdocs.trans hlog) h
            refine ⟨h₁, ?_, ?_⟩
            · rw [h₂, items_cons, hitems, Nat.zero_add]
            · rw [h₃, hq', arrivals_cons]
              simp
        | done docs ret =>
            rw [hstep] at h hdocs
            simp only at h
            split_ifs at h with hos
            cases h
            rw [List.isEmpty_iff] at hos
            subst hos
            refine ⟨hdocs.trans hlog, ?_, ?_⟩
            · simp [hitems, items]
            · rw [hq']
              simp [arrivals]
      · -- the pop returned `d`
        obtain ⟨hitems, hq'⟩ := popQueue_eq_item hpop
        have hdocs := docs_onItem f d
        rw [hpop] at h
        simp only at h
        cases hstep : f.onItem d with
        | again f' =>
            rw [hstep] at h hdocs
            have hlog' : f'.docs = removed ++ [d] := by rw [← hlog]; exact hdocs
            obtain ⟨h₁, h₂, h₃⟩ := ih hlog' h
            refine ⟨h₁, ?_, ?_⟩
            · rw [h₂, items_cons, hitems, List.length_append, List.length_singleton,
                Nat.add_assoc]
            · calc r.removed ++ r.queue
                  = removed ++ (d :: q') ++ arrivals os := by simp [h₃]
                _ = removed ++ q ++ arrivals (o :: os) := by simp [hq']
        | done docs ret =>
            rw [hstep] at h hdocs
            simp only at h
            split_ifs at h with hos
            cases h
            rw [List.isEmpty_iff] at hos
            subst hos
            refine ⟨?_, ?_, ?_⟩
            · rw [← hlog]
              exact hdocs
            · simp [hitems, items]
            · calc removed ++ [d] ++ q' = removed ++ (d :: q') := by simp
                _ = removed ++ q ++ arrivals [o] := by simp [hq', arrivals]

/-! ## The request -/

/-- What left the queue is what the response carries, in pop order; with a response that is not
OK nothing left it. -/
structure ConsumesCarried (r : ReadResult) : Prop where
  carried : r.removed = carriedBy r.answer
  failed : ∀ body, r.answer = .ok body →
    BSON.getIntField body "response" ≠ Response.ok.code → r.removed = []

/-- An answer that is not OK carries nothing. -/
theorem carried_of_code_ne_ok {M : Mongo} {docs : List BSONObj} {ret : Option Nat}
    {body : BSONObj} (h : readResponse M docs ret = .ok body)
    (hcode : BSON.getIntField body "response" ≠ Response.ok.code) : carried body = [] := by
  have hcarried := carried_readResponse (M := M) docs ret
  rw [h] at hcarried
  by_cases hsend : Sendable M docs
  · rcases eq_or_ne docs [] with rfl | hne
    · exact hcarried.1 hsend
    · -- such an answer would be OK
      rw [readResponse_of_sendable ret hne hsend] at h
      cases h
      exact absurd rfl hcode
  · exact hcarried.2 hsend

/-- The documents that the pops of a request return: the first ones of the queue and the arrivals,
one for each pop that returns. -/
def collected (b : Broker) (os : List PopOutcome) : List BSONObj :=
  (b.queue.queue ++ arrivals os).take (items os)

/-- **What a READ comes to**: the failed assertion, with no pop at all, or the answer for the
documents that its pops return, which have left the queue. -/
theorem doRead_eq_some {M : Mongo} {b : Broker} {os : List PopOutcome} {r : ReadResult}
    (h : doRead M b os = some r) :
    (toSizeT b.limit = 0 ∧ (∃ e, r.answer = .error e) ∧ r.removed = [] ∧ collected b os = []) ∨
      toSizeT b.limit ≠ 0 ∧ ∃ ret, r.answer = readResponse M (collected b os) ret ∧
        r.removed = collected b os := by
  unfold doRead at h
  rcases eq_or_ne (toSizeT b.limit) 0 with hzero | hne
  · rw [BatchPop.start, if_pos hzero] at h
    simp only at h
    split_ifs at h with hos
    cases h
    rw [List.isEmpty_iff] at hos
    subst hos
    refine Or.inl ⟨hzero, ⟨_, rfl⟩, rfl, ?_⟩
    simp [collected, items]
  · have hstart : BatchPop.start b (toSizeT b.limit) =
        .ok ⟨toSizeT b.limit, [], toSizeT b.limit, 0, b.readTimeout⟩ := by
      rw [BatchPop.start, if_neg hne]
    rw [hstart] at h
    simp only [Option.map_eq_some_iff] at h
    obtain ⟨p, hp, rfl⟩ := h
    obtain ⟨hdocs, hlen, hqueue⟩ := batchPop_spec (docs_start hstart) hp
    simp only [List.length_nil, Nat.zero_add, List.nil_append] at hlen hqueue
    have htake : collected b os = p.removed := by
      rw [collected, ← hqueue, ← hlen]
      exact List.take_left
    refine Or.inr ⟨hne, p.ret, ?_, htake.symm⟩
    rw [htake, ← hdocs]

/-- **A READ and the queue.** The request removes from its queue exactly the documents its
response carries, and none with a response other than OK, exactly when the documents its pops
return (the first ones of the queue and the arrivals, one for each pop that returns) are none or
can be sent in one response. -/
theorem doRead_consumesCarried_iff (M : Mongo) (b : Broker) (os : List PopOutcome)
    (r : ReadResult) (h : doRead M b os = some r) :
    ConsumesCarried r ↔
      (b.queue.queue ++ arrivals os).take (items os) = [] ∨
        Sendable M ((b.queue.queue ++ arrivals os).take (items os)) := by
  show _ ↔ collected b os = [] ∨ Sendable M (collected b os)
  rcases doRead_eq_some h with ⟨-, ⟨e, he⟩, hremoved, hnil⟩ | ⟨-, ret, hanswer, hremoved⟩
  · -- the assertion in front of the loop: no pop at all
    refine ⟨fun _ => Or.inl hnil, fun _ => ⟨?_, fun body hbody => ?_⟩⟩
    · rw [hremoved, he]
      rfl
    · rw [he] at hbody
      cases hbody
  · have hread := carried_readResponse (M := M) (collected b os) ret
    constructor
    · intro hc
      by_contra hnot
      obtain ⟨hne, hsend⟩ := not_or.mp hnot
      apply hne
      rw [← hremoved, hc.carried, hanswer]
      exact hread.2 hsend
    · intro hcond
      have hcarried : r.removed = carriedBy r.answer := by
        rw [hremoved, hanswer]
        by_cases hsend : Sendable M (collected b os)
        · rw [hread.1 hsend]
        · rw [hread.2 hsend]
          exact hcond.resolve_right hsend
      refine ⟨hcarried, ?_⟩
      intro body hbody hcode
      rw [hcarried, hbody]
      rw [hanswer] at hbody
      exact carried_of_code_ne_ok hbody hcode

/-- The sample broker with the documents in its queue. -/
def sampleQueue (docs : List Document) : Broker :=
  { Broker.sampleBroker 0 2 10 with queue := ⟨10, docs.map Document.toBSON⟩ }

/-- A request for two documents that finds two in the queue. -/
theorem doRead_sampleQueue (M : Mongo) (d₁ d₂ : Document) :
    doRead M (sampleQueue [d₁, d₂]) [.item [], .item []] =
      some ⟨readResponse M [d₁.toBSON, d₂.toBSON] (some 2), [d₁.toBSON, d₂.toBSON], []⟩ :=
  rfl

/-- Two small documents, popped one after the other. -/
theorem doRead_consumesCarried_iff_sample : ∃ r,
    doRead Mongo.plain (sampleQueue [sampleDocument 1, sampleDocument 2])
      [.item [], .item []] = some r ∧ ConsumesCarried r := by
  have hread := doRead_sampleQueue Mongo.plain (sampleDocument 1) (sampleDocument 2)
  refine ⟨_, hread, (doRead_consumesCarried_iff _ _ _ _ hread).mpr (Or.inr ?_)⟩
  exact ⟨⟨_, rfl⟩, by decide +kernel⟩

/-- A string of `n` letters. -/
def letters : Nat → String
  | 0 => ""
  | n + 1 => (letters n).push 'x'

@[simp] theorem utf8ByteSize_letters (n : Nat) : (letters n).utf8ByteSize = n := by
  induction n with
  | zero => rfl
  | succ n ih => simp [letters, ih, Char.utf8Size]

/-- None of them is escaped. -/
theorem escape_letters (n : Nat) : BSON.escape (letters n) = letters n := by
  induction n with
  | zero => rfl
  | succ n ih =>
      rw [BSON.escape, letters, String.toList_push, List.flatMap_append, String.ofList_append]
      show BSON.escape (letters n) ++ String.singleton 'x' = _
      rw [ih, String.append_singleton]

/-- A document with a field of `max_body_length` bytes. -/
def largeDocument (i : OID) : Document :=
  ⟨i, [("brand", .str "Nokia"), ("pad", .str (letters maxBodyLength))]⟩

/-- The buffer grows for the first of two texts, and the second fits if it is short. -/
theorem toBSONObjText_pair (s s' : String)
    (hs' : (memberText 1 s' " \x7d").utf8ByteSize + 1 ≤ 2048) :
    ∃ text, toBSONObjText [s, s'] = .ok text := by
  have hkey : ("\"" ++ toString 0 ++ "\" : ").utf8ByteSize = 6 := by decide +kernel
  have hs : (memberText 0 s ",").utf8ByteSize = s.utf8ByteSize + 7 := by
    rw [memberText, String.utf8ByteSize_append, String.utf8ByteSize_append, hkey]
    show 6 + _ + 1 = _
    omega
  unfold toBSONObjText toBSONObjFrom
  dsimp only
  generalize hlen : (if 2048 < s.utf8ByteSize + 36 then s.utf8ByteSize + 36 else 2048) = len
  have h₁ : s.utf8ByteSize + 36 ≤ len := by split_ifs at hlen <;> omega
  have h₂ : 2048 ≤ len := by split_ifs at hlen <;> omega
  rw [if_pos (by omega), toBSONObjFrom, Nat.zero_add, if_pos (by omega)]
  exact ⟨_, rfl⟩

/-- A response with the large document is too long. -/
theorem utf8ByteSize_largeDocument_le (i : OID) (d : Document) : maxBodyLength ≤
    (Mongo.plain.jsonString (readBody [(largeDocument i).toBSON, d.toBSON])).utf8ByteSize := by
  have hbody := @BSON.utf8ByteSize_valueText_le_text
    ("docs", .obj (BSON.indexed 0 [(largeDocument i).toBSON, d.toBSON]))
    (readBody [(largeDocument i).toBSON, d.toBSON]) (by simp [readBody])
  have hdocs := @BSON.utf8ByteSize_valueText_le_text (toString 0, .obj (largeDocument i).toBSON)
    (BSON.indexed 0 [(largeDocument i).toBSON, d.toBSON]) (by simp [BSON.indexed])
  have hpad := @BSON.utf8ByteSize_valueText_le_text ("pad", .str (letters maxBodyLength))
    (largeDocument i).toBSON (by simp [largeDocument, Document.toBSON])
  have hletters : maxBodyLength ≤
      (BSON.valueText (.str (letters maxBodyLength))).utf8ByteSize := by
    rw [BSON.valueText, escape_letters, String.utf8ByteSize_append, String.utf8ByteSize_append,
      utf8ByteSize_letters]
    omega
  exact hletters.trans (hpad.trans (hdocs.trans hbody))

/-- With the large document and a small one in the queue the answer is `ResponseTooLong`, and
both documents have left the queue. -/
theorem not_consumesCarried_sample : ∃ r,
    doRead Mongo.plain (sampleQueue [largeDocument 1, sampleDocument 2])
        [.item [], .item []] = some r ∧
      r.answer = .ok [("response", .int Response.responseTooLong.code)] ∧
      r.removed = [(largeDocument 1).toBSON, (sampleDocument 2).toBSON] ∧ ¬ConsumesCarried r := by
  have hfit : PiecesFit Mongo.plain [(largeDocument 1).toBSON, (sampleDocument 2).toBSON] :=
    toBSONObjText_pair _ _ (by decide +kernel)
  have hanswer := readResponse_of_tooLong (some 2) (List.cons_ne_nil _ _) hfit
    (utf8ByteSize_largeDocument_le _ _).not_gt
  have hread := doRead_sampleQueue Mongo.plain (largeDocument 1) (sampleDocument 2)
  have hcode : BSON.getIntField [("response", .int Response.responseTooLong.code)] "response" ≠
      Response.ok.code := by decide
  refine ⟨_, hread, ?_, rfl, ?_⟩
  · dsimp only
    exact hanswer
  · intro hc
    have hfailed := hc.failed
    dsimp only at hfailed
    exact List.cons_ne_nil _ _ (hfailed _ hanswer hcode)

end Zbroker
