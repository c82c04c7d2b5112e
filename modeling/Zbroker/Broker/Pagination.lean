import Zbroker.Broker.Query

/-!
# Successive queries on an unchanging collection

* `successivePages M coll b` — the pages of successive calls of `query(Asc)` up to the first
  empty one, or `none` when a call ends with an exception (or the calls do not end, which
  `successivePages_eq` excludes).
* `successivePages_eq` — **the run of queries is the keyset pagination** of the matching
  documents with the session's skip and limit, as long as the fields keep `_id`.
* `PagesAreDrop M coll b` — the pages put together are the matching documents behind the first
  `skip`.
* **`pagesAreDrop_iff`**: that is so exactly when `skip` is `0` or the first page reaches the
  end of the collection — the skip is sent with every query, on top of the lower bound — and
  the fields keep the `_id` that the position is read from.
Once the run of queries is the keyset pagination, what its pages hold together is a matter of counting:
they have as many documents as there are behind the first `skip` only in these cases
(`Keyset.length_flatten_pages_iff`, `Keyset.flatten_pages_eq_drop_iff`).
-/

namespace Zbroker

open Found

namespace Broker

variable (M : Mongo) (coll : List Document)

/-- The pages of at most `fuel` successive calls of `query(Asc)`, up to the first empty one. -/
def queryPages : Nat → Broker → Option (List (List BSONObj))
  | 0, _ => none
  | fuel + 1, b =>
      match b.query M coll .asc with
      | (_, some _) => none
      | (r, none) =>
          if r.jsonDocCache.isEmpty then some []
          else (queryPages fuel r).map (r.jsonDocCache :: ·)

/-- The pages of successive calls of `query(Asc)`, up to the first empty one. Every page before
that takes a document of the collection. -/
def successivePages (b : Broker) : Option (List (List BSONObj)) :=
  queryPages M coll (coll.length + 1) b

/-- The pages put together are the matching documents without the first `skip`. -/
def PagesAreDrop (b : Broker) : Prop :=
  ∃ ps, successivePages M coll b = some ps ∧
    ps.flatten = ((matching M coll b).drop b.skip.toNat).map (M.view b.queryFields)

variable {M coll}

/-! ## One query -/

section oneQuery

variable (hcoll : (coll.map Document.oid).Nodup) {b : Broker} (hskip : 0 ≤ b.skip)
  (hlimit : 1 ≤ b.limit)
include hcoll hskip hlimit

/-- At the end of the collection a query leaves an empty cache and the position as it is. -/
theorem query_of_pageAfter_eq_nil (h : pageAfter M coll b.lastDocId b = []) :
    b.query M coll .asc = (b.queried [] b.lastDocId, none) := by
  have hfind := find_prepareCondition (M := M) hcoll hskip hlimit
  rw [h] at hfind
  exact query_of_find_nil hfind

variable {d : Document} (h : (pageAfter M coll b.lastDocId b).getLast? = some d)
include h

/-- A query that returns documents moves the position to the last of them. -/
theorem query_of_keepsId (hid : Mongo.keepsId b.queryFields = true) :
    b.query M coll .asc =
      (b.queried ((pageAfter M coll b.lastDocId b).map (M.view b.queryFields)) (some d.oid),
        none) :=
  query_of_find (find_prepareCondition hcoll hskip hlimit) h hid

/-- Without `_id` in the returned documents the query ends with the failed assertion. -/
theorem query_of_not_keepsId (hid : Mongo.keepsId b.queryFields = false) :
    (b.query M coll .asc).2 = some (.assertion "doc.getObjectID(e)") :=
  query_of_find_not_keepsId (find_prepareCondition hcoll hskip hlimit) h hid

end oneQuery

/-! ## The run of queries -/

/-- **The run of queries is the keyset pagination.** From a position, with fuel for everything
behind it, the successive queries return the pages of what is behind the position. -/
theorem queryPages_eq (hcoll : (coll.map Document.oid).Nodup) (fuel : Nat) {b : Broker}
    (hskip : 0 ≤ b.skip) (hlimit : 1 ≤ b.limit) (hid : Mongo.keepsId b.queryFields = true)
    (hfuel : (Keyset.after Document.oid b.lastDocId (matching M coll b)).length < fuel) :
    queryPages M coll fuel b =
      some ((Keyset.pages b.skip.toNat b.limit.toNat
        (Keyset.after Document.oid b.lastDocId (matching M coll b))).map
          (List.map (M.view b.queryFields))) := by
  induction fuel generalizing b with
  | zero => omega
  | succ fuel ih =>
      rcases hlast : (pageAfter M coll b.lastDocId b).getLast? with _ | d
      · -- the empty page ends the run
        have hnil := List.getLast?_eq_none_iff.mp hlast
        rw [queryPages, query_of_pageAfter_eq_nil hcoll hskip hlimit hnil,
          Keyset.pages_of_page_eq_nil hnil]
        rfl
      · have hp : pageAfter M coll b.lastDocId b ≠ [] := by
          intro hnil
          rw [hnil] at hlast
          cases hlast
        have hbehind := Keyset.after_lastKey (ascending_matching hcoll b) hlast
        have hlt := Keyset.length_behind_lt hp
        rw [← hbehind] at hlt
        rw [queryPages, query_of_keepsId hcoll hskip hlimit hlast hid, Keyset.pages_of_page_ne_nil hp,
          ← hbehind]
        have hrun := @ih (b.queried ((pageAfter M coll b.lastDocId b).map
          (M.view b.queryFields)) (some d.oid)) hskip hlimit hid (by simp; omega)
        simp only [jsonDocCache_queried, List.isEmpty_map]
        rw [if_neg (by simpa using hp), hrun]
        rfl

/-- Every page before the first empty one takes a document, so the fuel suffices: from the first
position the successive pages are those of all matching documents. -/
theorem successivePages_eq (hcoll : (coll.map Document.oid).Nodup) {b : Broker}
    (hskip : 0 ≤ b.skip) (hlimit : 1 ≤ b.limit) (hid : Mongo.keepsId b.queryFields = true)
    (hlast : b.lastDocId = none) :
    successivePages M coll b =
      some ((Keyset.pages b.skip.toNat b.limit.toNat (matching M coll b)).map
        (List.map (M.view b.queryFields))) := by
  have hlen : (matching M coll b).length ≤ coll.length := by
    rw [matching, Keyset.length_sortBy]
    exact List.length_filter_le _ _
  have h := queryPages_eq (M := M) hcoll (coll.length + 1) hskip hlimit hid
  rw [hlast, Keyset.after_none] at h
  exact h (by omega)

/-- **Pagination.** On a freshly opened broker, the pages of successive queries put together are
the matching documents without the first `skip` exactly when nothing is skipped or the first page
reaches the end, and the fields keep `_id` or there is no document to return. -/
theorem pagesAreDrop_iff (M : Mongo) (coll : List Document)
    (hcoll : (coll.map Document.oid).Nodup) (connect : String → Option String)
    (options : BSONObj) (b : Broker) (hopen : new.openOn connect (some options) = (b, none))
    (hskip : 0 ≤ b.skip) (hlimit : 1 ≤ b.limit) :
    PagesAreDrop M coll b ↔
      (b.skip = 0 ∨ ((matching M coll b).length : Int) ≤ b.skip + b.limit) ∧
        (Mongo.keepsId b.queryFields = true ∨ ((matching M coll b).length : Int) ≤ b.skip) := by
  have hlast := (fresh_of_openOn hopen).lastDocId
  have hlimit' : 1 ≤ b.limit.toNat := by omega
  by_cases hid : Mongo.keepsId b.queryFields = true
  · -- the pages are the keyset pagination, and the number of documents decides
    have hpages := successivePages_eq (M := M) hcoll hskip hlimit hid hlast
    have hcount := @Keyset.flatten_pages_eq_drop_iff _ b.skip.toNat _ hlimit'
      (matching M coll b)
    have hlength := @Keyset.length_flatten_pages_iff _ b.skip.toNat _ hlimit'
      (matching M coll b)
    have hiff : PagesAreDrop M coll b ↔
        (b.skip.toNat = 0 ∨ (matching M coll b).length ≤ b.skip.toNat + b.limit.toNat) := by
      unfold PagesAreDrop
      rw [hpages]
      constructor
      · rintro ⟨ps, hps, hflat⟩
        cases hps
        rw [← List.map_flatten] at hflat
        have := congrArg List.length hflat
        rw [List.length_map, List.length_map] at this
        exact hlength.mp this
      · intro h
        refine ⟨_, rfl, ?_⟩
        rw [← List.map_flatten, hcount.mpr h]
    rw [hiff]
    simp only [hid, true_or, and_true]
    omega
  · rcases hd : (pageAfter M coll b.lastDocId b).getLast? with _ | d
    · have hnil := List.getLast?_eq_none_iff.mp hd
      have hlen : (matching M coll b).length ≤ b.skip.toNat := by
        rw [hlast, pageAfter, Keyset.after_none, Keyset.page_eq_nil_iff hlimit'] at hnil
        exact hnil
      have hpages : successivePages M coll b = some [] := by
        rw [successivePages, queryPages, query_of_pageAfter_eq_nil hcoll hskip hlimit hnil]
        rfl
      have hdrop : (matching M coll b).drop b.skip.toNat = [] := List.drop_eq_nil_of_le hlen
      have hholds : PagesAreDrop M coll b := ⟨[], hpages, by rw [hdrop]; rfl⟩
      exact ⟨fun _ => ⟨Or.inr (by omega), Or.inr (by omega)⟩, fun _ => hholds⟩
    · -- a document without `_id` ends the first query with an exception
      have hp : ¬((matching M coll b).length ≤ b.skip.toNat) := by
        intro hlen
        rw [hlast, pageAfter, Keyset.after_none, (Keyset.page_eq_nil_iff hlimit').mpr hlen] at hd
        cases hd
      have hthrow := query_of_not_keepsId hcoll hskip hlimit hd (by simpa using hid)
      constructor
      · rintro ⟨ps, hps, -⟩
        rw [successivePages, queryPages] at hps
        cases hq : b.query M coll .asc with
        | mk r e =>
            rw [hq] at hthrow hps
            cases hthrow
            cases hps
      · rintro ⟨-, h | h⟩
        · exact absurd h hid
        · omega

/-- With `skip = 0` and a limit of two, three documents come in two pages. -/
theorem pagesAreDrop_iff_sample :
    PagesAreDrop Mongo.plain ((List.range 3).map fun i => sampleDocument (Fin.ofNat _ (i + 1)))
      (sampleBroker 0 2 10) :=
  (pagesAreDrop_iff Mongo.plain _ (by decide) (fun _ => none) (sampleOptions 0 2 10)
    (sampleBroker 0 2 10) (by decide) (by decide) (by decide)).mpr
      ⟨Or.inl (by decide), Or.inl (by decide)⟩

/-- With `skip = 1` and `limit = 1` the documents 1, 2, 3, 4 come as 2 and 4: the second page
skips 3. -/
theorem not_pagesAreDrop_sample :
    new.openOn (fun _ => none) (some (sampleOptions 1 1 10)) = (sampleBroker 1 1 10, none) ∧
      ¬PagesAreDrop Mongo.plain
        [sampleDocument 1, sampleDocument 2, sampleDocument 3, sampleDocument 4]
        (sampleBroker 1 1 10) := by
  refine ⟨by decide, ?_⟩
  rintro ⟨ps, hps, hflat⟩
  have hpages : successivePages Mongo.plain
      [sampleDocument 1, sampleDocument 2, sampleDocument 3, sampleDocument 4]
      (sampleBroker 1 1 10) =
        some [[(sampleDocument 2).toBSON], [(sampleDocument 4).toBSON]] := by decide
  rw [hpages] at hps
  cases hps
  exact absurd hflat (by decide)

end Broker

end Zbroker
