import Zbroker.Base.Machine
import Zbroker.Found.Keyset
import Mathlib.Order.Fin.Basic

/-!
# BSON objects, and MongoDB as the broker sees it

* `BSONValue`, `BSONObj` — the values the broker reads and writes. An object is its list of
  elements in order; an array is the object with the keys `0`, `1`, …
* `getField`, `getIntField`, `getStringField`, `getObjectField`, `getBoolField`, `vals`,
  `objectID` — the accessors of the driver, with the value each returns for an absent field or
  one of another type.
* `Document` — a document of a collection: an ObjectID and its other fields.
* `sortById`, `limitTo`, `viewBy` — the parts of a query: the order, the limit, and the fields.
* `objectText` — the text of an object whose members are given by their texts.
* `Mongo` — the driver and the server, which are not part of the repository. `fromjson` reads back
  the objects that `jsonString` printed (`fromjson_objectText`). A conditions object selects the
  documents that satisfy every element of it; the only element whose meaning is used is the
  broker's own lower bound on `_id` (`gt_id`). A projection either leaves `_id` in place or drops
  it (`project_id`). A query filters, sorts, skips and limits, in that order (`find_of_nonneg`),
  unless the server refuses it (`find_of_neg`).

A JSON text in the broker (a queue item, a cached document) is always the driver's `jsonString` of
an object; the model therefore carries the object and takes its `jsonString` where the code looks at
the text.
-/

namespace Zbroker

open Found

/-- An ObjectID: 12 bytes, compared as a big-endian number. -/
abbrev OID := Fin (2 ^ 96)

/-- A BSON value, of the types the broker looks at. -/
inductive BSONValue where
  | int (n : Int)
  | str (s : String)
  | bool (b : Bool)
  | oid (o : OID)
  | obj (fields : List (String × BSONValue))
  deriving Repr

/-- An object is the list of its elements. -/
abbrev BSONObj := List (String × BSONValue)

namespace BSONValue

mutual

/-- Equality of values is decidable. -/
def decEqValue : (a b : BSONValue) → Decidable (a = b)
  | .int m, .int n => decidable_of_iff (m = n) (by simp)
  | .str m, .str n => decidable_of_iff (m = n) (by simp)
  | .bool m, .bool n => decidable_of_iff (m = n) (by simp)
  | .oid m, .oid n => decidable_of_iff (m = n) (by simp)
  | .obj m, .obj n =>
      match decEqFields m n with
      | isTrue h => isTrue (by rw [h])
      | isFalse h => isFalse (by simpa using h)
  | .int _, .str _ | .int _, .bool _ | .int _, .oid _ | .int _, .obj _
  | .str _, .int _ | .str _, .bool _ | .str _, .oid _ | .str _, .obj _
  | .bool _, .int _ | .bool _, .str _ | .bool _, .oid _ | .bool _, .obj _
  | .oid _, .int _ | .oid _, .str _ | .oid _, .bool _ | .oid _, .obj _
  | .obj _, .int _ | .obj _, .str _ | .obj _, .bool _ | .obj _, .oid _ => isFalse (by simp)

/-- Equality of objects is decidable. -/
def decEqFields : (a b : List (String × BSONValue)) → Decidable (a = b)
  | [], [] => isTrue rfl
  | [], _ :: _ => isFalse (by simp)
  | _ :: _, [] => isFalse (by simp)
  | (k, v) :: xs, (l, w) :: ys =>
      match decEq k l, decEqValue v w, decEqFields xs ys with
      | isTrue h₁, isTrue h₂, isTrue h₃ => isTrue (by rw [h₁, h₂, h₃])
      | isFalse h, _, _ => isFalse (by simp [h])
      | _, isFalse h, _ => isFalse (by simp [h])
      | _, _, isFalse h => isFalse (by simp [h])

end

instance : DecidableEq BSONValue := decEqValue

end BSONValue

/-! ## Accessors -/

namespace BSON

/-- The first element with the name. -/
def getField (o : BSONObj) (name : String) : Option BSONValue :=
  (o.find? fun e => e.1 == name).map Prod.snd

/-- The integer, or `INT_MIN`. -/
def getIntField (o : BSONObj) (name : String) : Int :=
  match getField o name with
  | some (.int n) => n
  | _ => intMin

/-- The string, or the empty one. -/
def getStringField (o : BSONObj) (name : String) : String :=
  match getField o name with
  | some (.str s) => s
  | _ => ""

/-- The embedded object, or the empty one. -/
def getObjectField (o : BSONObj) (name : String) : BSONObj :=
  match getField o name with
  | some (.obj fields) => fields
  | _ => []

/-- The boolean, or `false`. -/
def getBoolField (o : BSONObj) (name : String) : Bool :=
  match getField o name with
  | some (.bool b) => b
  | _ => false

/-- `BSONObj::Vals` at objects: the values in order; an exception if one is not an object. -/
def vals : BSONObj → Option (List BSONObj)
  | [] => some []
  | (_, .obj fields) :: rest => (vals rest).map (fields :: ·)
  | _ :: _ => none

/-- `getObjectID` followed by `OID()`: the ObjectID under `_id`. -/
def objectID (o : BSONObj) : Option OID :=
  match getField o "_id" with
  | some (.oid i) => some i
  | _ => none

/-- The object with the values under the keys `0`, `1`, … from `i` on. -/
def indexed (i : Nat) : List BSONObj → BSONObj
  | [] => []
  | d :: ds => (toString i, .obj d) :: indexed (i + 1) ds

/-- The values of the object are the objects. -/
theorem vals_indexed (i : Nat) (ds : List BSONObj) : vals (indexed i ds) = some ds := by
  induction ds generalizing i with
  | nil => rfl
  | cons d ds ih => simp [indexed, vals, ih]

end BSON

/-! ## The text of an object with given members -/

/-- A member: its key, its value, and what follows; `toBSONObj` prints it with one `sprintf`. -/
def memberText (i : Nat) (s tail : String) : String :=
  "\"" ++ toString i ++ "\" : " ++ s ++ tail

/-- The members of the object, from the key `i` on. -/
def members (i : Nat) : List String → List String
  | [] => []
  | s :: rest => memberText i s "" :: members (i + 1) rest

/-- The object with the strings as members. -/
def objectText (strs : List String) : String :=
  "\x7b " ++ String.intercalate "," (members 0 strs) ++ " \x7d"

/-! ## Collections and queries -/

/-- A document of a collection, with an ObjectID. -/
structure Document where
  oid : OID
  rest : BSONObj
  deriving DecidableEq, Repr

/-- The document as an object. -/
def Document.toBSON (d : Document) : BSONObj := ("_id", .oid d.oid) :: d.rest

/-- A projection drops `_id` when it says so. -/
def dropsId (fields : BSONObj) : Bool :=
  match BSON.getField fields "_id" with
  | some (.int 0) => true
  | some (.bool false) => true
  | _ => false

/-- `mongo_sort`. Source: `broker.hpp`. -/
inductive MongoSort where
  | asc
  | desc
  deriving DecidableEq, Repr

namespace Mongo

/-- The order of `sort("_id", ±1)`. -/
def sortById (sort : MongoSort) (ds : List Document) : List Document :=
  match sort with
  | .asc => Keyset.sortBy Document.oid ds
  | .desc => Keyset.sortBy (fun d => OrderDual.toDual d.oid) ds

/-- The `nToReturn` of a query: `0` is no limit, a negative number its absolute value. -/
def limitTo (nToReturn : Int) (ds : List Document) : List Document :=
  if nToReturn = 0 then ds else ds.take nToReturn.natAbs

/-- What the cursor returns for a document, when `project` is how fields objects act; no fields
object means the whole document. -/
def viewBy (project : BSONObj → Document → BSONObj) (fields : Option BSONObj) (d : Document) :
    BSONObj :=
  match fields with
  | none => d.toBSON
  | some f => project f d

end Mongo

/-- The MongoDB driver and server. -/
structure Mongo where
  /-- `BSONObj::jsonString`. -/
  jsonString : BSONObj → String
  /-- `fromjson`, which throws for a text that it cannot read. -/
  fromjson : String → Option BSONObj
  /-- It reads back the objects that `jsonString` printed, under their keys. -/
  fromjson_objectText : ∀ docs, docs ≠ [] →
    fromjson (objectText (docs.map jsonString)) = some (BSON.indexed 0 docs)
  /-- Whether a document satisfies one element of a conditions object. -/
  matchElement : String × BSONValue → Document → Bool
  /-- `{ "_id" : { "$gt" : x } }` selects the documents behind `x`. -/
  gt_id : ∀ x d, matchElement ("_id", .obj [("$gt", .oid x)]) d = decide (x < d.oid)
  /-- The part of a document a fields object selects. -/
  project : BSONObj → Document → BSONObj
  /-- A projection keeps `_id` unless it drops it. -/
  project_id : ∀ f d, BSON.objectID (project f d) = if dropsId f then none else some d.oid
  /-- What the cursor of a query on a collection returns: the arguments are the conditions, the
  sort, `nToReturn`, `nToSkip` and the fields. -/
  find : List Document → BSONObj → MongoSort → Int → Int → Option BSONObj → List BSONObj
  /-- A query: filter, sort, skip, limit, and the fields of each document. -/
  find_of_nonneg : ∀ coll conditions sort nToReturn nToSkip fields, 0 ≤ nToSkip →
    find coll conditions sort nToReturn nToSkip fields =
      (Mongo.limitTo nToReturn ((Mongo.sortById sort (coll.filter fun d =>
        conditions.all fun e => matchElement e d)).drop nToSkip.toNat)).map
          (Mongo.viewBy project fields)
  /-- The server refuses a negative `nToSkip`; the cursor returns the error object, which has no
  `_id`. -/
  find_of_neg : ∀ coll conditions sort nToReturn nToSkip fields, nToSkip < 0 →
    ∃ refusal, find coll conditions sort nToReturn nToSkip fields = [refusal] ∧
      BSON.objectID refusal = none

namespace Mongo

variable (M : Mongo)

/-- A document satisfies a conditions object if it satisfies each element. -/
def satisfies (conditions : BSONObj) (d : Document) : Bool :=
  conditions.all fun e => M.matchElement e d

/-- What the cursor returns for a document. -/
def view (fields : Option BSONObj) (d : Document) : BSONObj := viewBy M.project fields d

/-- Whether the returned objects have their `_id`. -/
def keepsId (fields : Option BSONObj) : Bool :=
  match fields with
  | none => true
  | some f => !dropsId f

/-- A document that is returned has its `_id`, unless the fields drop it. -/
theorem objectID_view (fields : Option BSONObj) (d : Document) :
    BSON.objectID (M.view fields d) = if keepsId fields then some d.oid else none := by
  cases fields with
  | none => simp [view, viewBy, keepsId, Document.toBSON, BSON.objectID, BSON.getField]
  | some f =>
      rw [view, viewBy, M.project_id]
      by_cases h : dropsId f <;> simp [keepsId, h]

/-- A query that the server executes. -/
theorem find_eq (coll : List Document) (conditions : BSONObj) (sort : MongoSort)
    (nToReturn : Int) {nToSkip : Int} (fields : Option BSONObj) (hskip : 0 ≤ nToSkip) :
    M.find coll conditions sort nToReturn nToSkip fields =
      (limitTo nToReturn
        ((sortById sort (coll.filter (M.satisfies conditions))).drop nToSkip.toNat)).map
          (M.view fields) :=
  M.find_of_nonneg coll conditions sort nToReturn nToSkip fields hskip

end Mongo

end Zbroker
