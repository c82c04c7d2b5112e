import Zbroker.Broker.Basic

/-!
# `broker::query`

`query` reads the position and sets `m_querying`, goes to the database, and stores the position
of the last document. The three parts are separate definitions, since other threads run between
them; `query` is their composition.

* `prepareCondition` — the conditions with the lower bound on `_id` that the position asks for.
* `queryStart`, `queryFetch`, `queryStore` — the three parts. `queryStore` ends with the failed
  assertion when the last document has no `_id`.
* `matching M coll b` — the documents the session's conditions select, in ascending `_id` order.
* **`find_prepareCondition`**: what is fetched from a position is the page of `matching` behind
  that position.
-/

namespace Zbroker

open Found

namespace Broker

variable (M : Mongo)

/-! ## The three parts -/

/-- `prepare_condition()`. Source: `broker.cc`, `broker::prepare_condition` -/
def prepareCondition (b : Broker) : BSONObj :=
  match b.lastDocId with
  | some id => b.conditions ++ [("_id", .obj [("$gt", .oid id)])]
  | none => b.conditions

/-- The fields argument of the query: `NULL` without fields. -/
def queryFields (b : Broker) : Option BSONObj := if b.hasFields then some b.fields else none

/-- `m_querying = true`. -/
def queryStart (b : Broker) : Broker := { b with querying := true }

/-- The database round trip: the cache is filled with what the cursor returns. -/
def queryFetch (coll : List Document) (sort : MongoSort) (conditions : BSONObj) (b : Broker) :
    Broker :=
  { b with jsonDocCache := M.find coll conditions sort b.limit b.skip b.queryFields }

/-- The end of the query: the count and the flag. -/
def queryDone (b : Broker) : Broker :=
  { b with queryCount := b.queryCount + 1, querying := false }

/-- The part under `m_rewind_mutex`, and the end: the `_id` of the last document returned, if
there is one, becomes the position. -/
def queryStore (b : Broker) : Broker × Option Exn :=
  match b.jsonDocCache.getLast? with
  | none => (b.queryDone, none)
  | some doc =>
      match BSON.objectID doc with
      | none => (b, some (.assertion "doc.getObjectID(e)"))
      | some id => ({ b with lastDocId := some id }.queryDone, none)

/-- `query(sort)`: the broker after it, with the result in `m_json_doc_cache`.
Source: `broker.cc`, `broker::query` -/
def query (coll : List Document) (sort : MongoSort) (b : Broker) : Broker × Option Exn :=
  (b.queryStart.queryFetch M coll sort b.prepareCondition).queryStore

/-- The broker after a query that returned `docs` and left the position `last`. -/
def queried (docs : List BSONObj) (last : Option OID) (b : Broker) : Broker :=
  { b with
    jsonDocCache := docs, lastDocId := last, queryCount := b.queryCount + 1, querying := false }

section queried

variable (docs : List BSONObj) (last : Option OID) (b : Broker)

@[simp] theorem jsonDocCache_queried : (b.queried docs last).jsonDocCache = docs := rfl
@[simp] theorem lastDocId_queried : (b.queried docs last).lastDocId = last := rfl

end queried

/-! ## The documents of a session -/

/-- The documents the conditions select, in ascending `_id` order. -/
def matching (coll : List Document) (b : Broker) : List Document :=
  Keyset.sortBy Document.oid (coll.filter (M.satisfies b.conditions))

/-- The page of `matching` behind the position `last`. -/
def pageAfter (coll : List Document) (last : Option OID) (b : Broker) : List Document :=
  Keyset.page b.skip.toNat b.limit.toNat (Keyset.after Document.oid last (matching M coll b))

variable {M}

@[simp] theorem matching_queried (coll : List Document) (docs : List BSONObj) (last : Option OID)
    (b : Broker) : matching M coll (b.queried docs last) = matching M coll b := rfl

/-- The matching documents are in ascending order. -/
theorem ascending_matching {coll : List Document} (hcoll : (coll.map Document.oid).Nodup)
    (b : Broker) : Keyset.Ascending Document.oid (matching M coll b) :=
  Keyset.ascending_sortBy (hcoll.sublist (List.filter_sublist.map _))

/-- The prepared conditions select what the conditions select behind the position. -/
theorem satisfies_prepareCondition (b : Broker) (d : Document) :
    M.satisfies b.prepareCondition d =
      (M.satisfies b.conditions d && decide (Keyset.Behind b.lastDocId d.oid)) := by
  unfold prepareCondition
  cases hlast : b.lastDocId with
  | none => simp [Mongo.satisfies]
  | some id => simp [Mongo.satisfies, M.gt_id]

/-- In ascending order, the prepared conditions select what is behind the position. -/
theorem sortById_prepareCondition {coll : List Document} (hcoll : (coll.map Document.oid).Nodup)
    (b : Broker) :
    Mongo.sortById .asc (coll.filter (M.satisfies b.prepareCondition)) =
      Keyset.after Document.oid b.lastDocId (matching M coll b) := by
  have hfilter : coll.filter (M.satisfies b.prepareCondition) =
      (coll.filter (M.satisfies b.conditions)).filter
        fun d => decide (Keyset.Behind b.lastDocId d.oid) := by
    rw [List.filter_filter]
    apply List.filter_congr
    intro d _
    rw [satisfies_prepareCondition, Bool.and_comm]
  rw [hfilter]
  exact Keyset.sortBy_filter (hcoll.sublist (List.filter_sublist.map _)) _

/-- **What a query fetches** from the position `last`: the page of the matching documents behind
it, each with the session's fields. -/
theorem find_prepareCondition {coll : List Document} (hcoll : (coll.map Document.oid).Nodup)
    {b : Broker} (hskip : 0 ≤ b.skip) (hlimit : 1 ≤ b.limit) :
    M.find coll b.prepareCondition .asc b.limit b.skip b.queryFields =
      (pageAfter M coll b.lastDocId b).map (M.view b.queryFields) := by
  have hnat : b.limit.natAbs = b.limit.toNat := by omega
  rw [M.find_eq _ _ _ _ _ hskip, sortById_prepareCondition hcoll, Mongo.limitTo,
    if_neg (by omega), hnat]
  rfl

/-! ## One query -/

section oneQuery

variable {coll docs : List Document} {sort : MongoSort} {b : Broker}

/-- What a query has fetched before it stores the position. -/
theorem queryFetch_of_find {page : List BSONObj}
    (hfind : M.find coll b.prepareCondition sort b.limit b.skip b.queryFields = page) :
    b.queryStart.queryFetch M coll sort b.prepareCondition =
      { b.queryStart with jsonDocCache := page } := by
  rw [← hfind]
  rfl

/-- A query that fetches nothing leaves an empty cache and the position as it is. -/
theorem query_of_find_nil
    (hfind : M.find coll b.prepareCondition sort b.limit b.skip b.queryFields = []) :
    b.query M coll sort = (b.queried [] b.lastDocId, none) := by
  rw [query, queryFetch_of_find hfind]
  rfl

variable (hfind : M.find coll b.prepareCondition sort b.limit b.skip b.queryFields =
  docs.map (M.view b.queryFields)) {d : Document} (hlast : docs.getLast? = some d)
include hfind hlast

/-- A query that returns documents moves the position to the last of them. -/
theorem query_of_find (hid : Mongo.keepsId b.queryFields = true) :
    b.query M coll sort = (b.queried (docs.map (M.view b.queryFields)) (some d.oid), none) := by
  have hdoc : BSON.objectID (M.view b.queryFields d) = some d.oid := by
    rw [M.objectID_view, if_pos hid]
  rw [query, queryFetch_of_find hfind]
  simp only [queryStore, List.getLast?_map, hlast, Option.map_some, hdoc]
  rfl

/-- Without `_id` in the returned documents the query ends with the failed assertion. -/
theorem query_of_find_not_keepsId (hid : Mongo.keepsId b.queryFields = false) :
    (b.query M coll sort).2 = some (.assertion "doc.getObjectID(e)") := by
  have hdoc : BSON.objectID (M.view b.queryFields d) = none := by
    rw [M.objectID_view, if_neg (by simp [hid])]
  rw [query, queryFetch_of_find hfind]
  simp only [queryStore, List.getLast?_map, hlast, Option.map_some, hdoc]

end oneQuery

end Broker

end Zbroker
