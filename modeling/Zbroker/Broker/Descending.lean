import Zbroker.Broker.Pagination

/-!
# Successive descending queries

`query(Desc)` sorts the other way round, but the position remains a lower bound: `prepare_condition`
asks for what is behind the last document whatever the sort. The first page comes from the end of
`matching`; everything behind its last document is in it, and so is the next page.

* `pageFromEnd M coll last b` — the page that a descending query takes from the position `last`;
  **`find_prepareCondition_desc`**: it is what the query fetches.
* `descendingPages M coll b` — the pages of successive calls of `query(Desc)` up to the first empty one.
* **`descendingPages_eq`**: they are the beginnings of the first page, each one document shorter than the
  one before; no call leaves the first page.
The descending sort is the reverse of the ascending one (`sortBy_toDual`), so the first page is a page of
the reversed matching documents, and what is behind its last document is the page again without it.
By induction on the calls (`descendingPagesUpTo_eq`).
-/

namespace Zbroker

open Found

namespace Broker

variable (M : Mongo) (coll : List Document)

/-- The page that a descending query takes from the position `last`. -/
def pageFromEnd (last : Option OID) (b : Broker) : List Document :=
  Keyset.page b.skip.toNat b.limit.toNat
    (Keyset.after Document.oid last (matching M coll b)).reverse

/-- The pages of at most `fuel` successive calls of `query(Desc)`, up to the first empty one. -/
def descendingPagesUpTo : Nat → Broker → Option (List (List BSONObj))
  | 0, _ => none
  | fuel + 1, b =>
      match b.query M coll .desc with
      | (_, some _) => none
      | (r, none) =>
          if r.jsonDocCache.isEmpty then some []
          else (descendingPagesUpTo fuel r).map (r.jsonDocCache :: ·)

/-- The pages of successive calls of `query(Desc)`, up to the first empty one; `none` when a call ends
with an exception. -/
def descendingPages (b : Broker) : Option (List (List BSONObj)) :=
  descendingPagesUpTo M coll (coll.length + 1) b

variable {M coll}

section descending

variable (hcoll : (coll.map Document.oid).Nodup)
include hcoll

/-- **What a descending query fetches**: the page from the end of what is behind the position. -/
theorem find_prepareCondition_desc {b : Broker} (hskip : 0 ≤ b.skip) (hlimit : 1 ≤ b.limit) :
    M.find coll b.prepareCondition .desc b.limit b.skip b.queryFields =
      (pageFromEnd M coll b.lastDocId b).map (M.view b.queryFields) := by
  have hnodup : ((coll.filter (M.satisfies b.prepareCondition)).map Document.oid).Nodup :=
    hcoll.sublist (List.filter_sublist.map _)
  have hsort : Mongo.sortById .desc (coll.filter (M.satisfies b.prepareCondition)) =
      (Keyset.after Document.oid b.lastDocId (matching M coll b)).reverse :=
    (Keyset.sortBy_toDual hnodup).trans (congrArg _ (sortById_prepareCondition hcoll b))
  have hnat : b.limit.natAbs = b.limit.toNat := by omega
  rw [M.find_eq _ _ _ _ _ hskip, hsort, Mongo.limitTo, if_neg (by omega), hnat]
  rfl

/-- From a position, with fuel for every document of the page, the successive descending queries return
the beginnings of the page. -/
theorem descendingPagesUpTo_eq (fuel : Nat) {b : Broker} (hskip : 0 ≤ b.skip)
    (hlimit : 1 ≤ b.limit) (hid : Mongo.keepsId b.queryFields = true)
    (hfuel : (pageFromEnd M coll b.lastDocId b).length < fuel) :
    descendingPagesUpTo M coll fuel b =
      some ((Keyset.beginnings (pageFromEnd M coll b.lastDocId b)).map
        (List.map (M.view b.queryFields))) := by
  induction fuel generalizing b with
  | zero => omega
  | succ fuel ih =>
      have hfind := find_prepareCondition_desc (M := M) hcoll hskip hlimit
      rcases List.eq_nil_or_concat (pageFromEnd M coll b.lastDocId b) with hnil | ⟨init, d, hpage⟩
      · -- the empty page ends the run
        rw [hnil] at hfind
        rw [descendingPagesUpTo, query_of_find_nil hfind, hnil]
        rfl
      · -- the next page is the same without its last document
        rw [List.concat_eq_append] at hpage
        have hlast : (pageFromEnd M coll b.lastDocId b).getLast? = some d := by
          rw [hpage, List.getLast?_concat]
        have hnext : pageFromEnd M coll (some d.oid) b = init :=
          Keyset.page_reverse_after_lastKey (ascending_matching hcoll b) hpage
        have hquery := query_of_find hfind hlast hid
        generalize hr : b.queried ((pageFromEnd M coll b.lastDocId b).map (M.view b.queryFields))
          (some d.oid) = r at hquery
        have hrnext : pageFromEnd M coll r.lastDocId r = init := by
          rw [← hr]
          exact hnext
        have hrun : descendingPagesUpTo M coll fuel r =
            some ((Keyset.beginnings init).map (List.map (M.view b.queryFields))) := by
          rw [← hrnext, ← hr]
          apply ih
          · exact hskip
          · exact hlimit
          · exact hid
          · rw [hr, hrnext]
            rw [hpage, List.length_append, List.length_singleton] at hfuel
            omega
        have hcache : r.jsonDocCache = (init ++ [d]).map (M.view b.queryFields) := by
          rw [← hr, jsonDocCache_queried, hpage]
        rw [descendingPagesUpTo, hquery]
        dsimp only
        rw [if_neg (by simp [hcache]), hrun, hcache, hpage, Keyset.beginnings_concat]
        rfl

end descending

/-- **Descending queries.** On a freshly opened broker, successive calls of `query(Desc)` return the
beginnings of the first page, each without the last document of the one before, and then nothing, and
never a document that is not in the first page; or the first of them ends with an exception, when the
fields leave out `_id` and there is a document to return. -/
theorem descendingPages_eq (M : Mongo) (coll : List Document)
    (hcoll : (coll.map Document.oid).Nodup) (connect : String → Option String)
    (options : BSONObj) (b : Broker) (hopen : new.openOn connect (some options) = (b, none))
    (hskip : 0 ≤ b.skip) (hlimit : 1 ≤ b.limit) :
    descendingPages M coll b =
      if Mongo.keepsId b.queryFields = true ∨ ((matching M coll b).length : Int) ≤ b.skip then
        some ((Keyset.beginnings
          (Keyset.page b.skip.toNat b.limit.toNat (matching M coll b).reverse)).map
            (List.map (M.view b.queryFields)))
      else none := by
  have hfirst : pageFromEnd M coll b.lastDocId b =
      Keyset.page b.skip.toNat b.limit.toNat (matching M coll b).reverse := by
    rw [pageFromEnd, (fresh_of_openOn hopen).lastDocId, Keyset.after_none]
  have hempty : pageFromEnd M coll b.lastDocId b = [] ↔
      ((matching M coll b).length : Int) ≤ b.skip := by
    rw [hfirst, Keyset.page_eq_nil_iff (by omega), List.length_reverse]
    omega
  have hfind := find_prepareCondition_desc (M := M) hcoll hskip hlimit
  rw [← hfirst]
  by_cases hid : Mongo.keepsId b.queryFields = true
  · rw [if_pos (Or.inl hid)]
    apply descendingPagesUpTo_eq hcoll _ hskip hlimit hid
    have hlen : (pageFromEnd M coll b.lastDocId b).length ≤ (matching M coll b).length := by
      rw [hfirst, Keyset.page, List.length_take, List.length_drop, List.length_reverse]
      omega
    have hall : (matching M coll b).length ≤ coll.length := by
      rw [matching, Keyset.length_sortBy]
      exact List.length_filter_le _ _
    omega
  · rcases hlast : (pageFromEnd M coll b.lastDocId b).getLast? with _ | d
    · have hnil := List.getLast?_eq_none_iff.mp hlast
      rw [if_pos (Or.inr (hempty.mp hnil)), hnil]
      rw [hnil] at hfind
      rw [descendingPages, descendingPagesUpTo, query_of_find_nil hfind]
      rfl
    · have hne : pageFromEnd M coll b.lastDocId b ≠ [] := by
        intro hnil
        rw [hnil] at hlast
        cases hlast
      have hthrow := query_of_find_not_keepsId hfind hlast (by simpa using hid)
      have hnot : ¬(Mongo.keepsId b.queryFields = true ∨
          ((matching M coll b).length : Int) ≤ b.skip) := by
        rw [← hempty]
        exact not_or.mpr ⟨hid, hne⟩
      rw [if_neg hnot, descendingPages, descendingPagesUpTo]
      cases hq : b.query M coll .desc with
      | mk r e =>
          rw [hq] at hthrow
          cases hthrow
          rfl

/-- Four documents, two a page: the pages are 4 and 3, then 4, and 2 and 1 never come. -/
theorem descendingPages_eq_sample :
    descendingPages Mongo.plain
        [sampleDocument 1, sampleDocument 2, sampleDocument 3, sampleDocument 4]
        (sampleBroker 0 2 10) =
      some [[(sampleDocument 4).toBSON, (sampleDocument 3).toBSON], [(sampleDocument 4).toBSON]] := by
  rw [descendingPages_eq Mongo.plain _ (by decide) (fun _ => none) (sampleOptions 0 2 10)
    (sampleBroker 0 2 10) (by decide) (by decide) (by decide)]
  decide

end Broker

end Zbroker
