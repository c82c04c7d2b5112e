import Mathlib.Data.List.Infix
import Mathlib.Data.List.Sort

/-!
# Keyset pagination of a sorted list

A list sorted by a key is read page by page: every page starts behind a watermark, the key of
the last element of the page before.

* `sortBy key l` — `l` sorted by `key`; `sortBy_filter` says that sorting and filtering commute
  when the keys are distinct.
* `after key last l` — what lies behind the watermark `last` (`none`: everything), and
  `upTo key last l` — what lies at or before it (`none`: nothing).
* `page skip limit rest` — the page taken from what is left, and `behind skip limit rest` — what
  is left after it. `after_lastKey` is the step of the reading: the watermark of the page just
  taken cuts off exactly `behind`.
* `pages skip limit rest` — all pages up to the first empty one.
* **`flatten_pages_eq_drop_iff`**: the pages put together are `rest.drop skip` exactly when
  nothing is skipped, or the first page reaches the end. The skip is taken on every page, so
  each page after the first loses `skip` elements.
* `reversedPages skip limit rest` — the pages put together with every page reversed;
  **`ascending_reversedPages_iff`**: ascending exactly when no page has two elements.
* `beginnings l` — the beginnings of `l`, the longest first. Read from the end, behind the same
  watermark, the pages are those of the first page (`page_reverse_after_lastKey`).
-/

namespace Zbroker.Found.Keyset

variable {α κ : Type*} [LinearOrder κ] (key : α → κ)

/-! ## Ascending lists -/

/-- Strictly ascending keys. -/
def Ascending (l : List α) : Prop := l.Pairwise fun x y => key x < key y

/-- `l` sorted by `key`. -/
def sortBy (l : List α) : List α := l.insertionSort fun x y => key x ≤ key y

/-- Sorting keeps the elements. -/
theorem perm_sortBy (l : List α) : (sortBy key l).Perm l := List.perm_insertionSort _ l

@[simp] theorem mem_sortBy {l : List α} {x : α} : x ∈ sortBy key l ↔ x ∈ l :=
  (perm_sortBy key l).mem_iff

@[simp] theorem length_sortBy (l : List α) : (sortBy key l).length = l.length :=
  (perm_sortBy key l).length_eq

variable {key}

/-- Ascending lists with the same elements are equal. -/
theorem Ascending.eq_of_perm {l₁ l₂ : List α} (h₁ : Ascending key l₁) (h₂ : Ascending key l₂)
    (h : l₁.Perm l₂) : l₁ = l₂ :=
  List.Perm.eq_of_pairwise (fun _ _ _ _ hab hba => absurd hba (lt_asymm hab)) h₁ h₂ h

/-- Sorting a list with distinct keys makes it strictly ascending. -/
theorem ascending_sortBy {l : List α} (hl : (l.map key).Nodup) : Ascending key (sortBy key l) := by
  have htotal : Std.Total fun x y : α => key x ≤ key y := ⟨fun x y => le_total (key x) (key y)⟩
  have htrans : IsTrans α fun x y => key x ≤ key y := ⟨fun _ _ _ => le_trans⟩
  have hle : (sortBy key l).Pairwise fun x y => key x ≤ key y := List.pairwise_insertionSort _ l
  have hne : (sortBy key l).Pairwise fun x y => key x ≠ key y := by
    have hnodup : ((sortBy key l).map key).Nodup := ((perm_sortBy key l).map key).nodup_iff.mpr hl
    exact List.pairwise_map.mp hnodup
  exact (hle.and hne).imp fun h => lt_of_le_of_ne h.1 h.2

/-- Filtering an ascending list keeps it ascending. -/
theorem Ascending.filter {l : List α} (h : Ascending key l) (p : α → Bool) :
    Ascending key (l.filter p) :=
  List.Pairwise.filter p h

/-- Sorting and filtering commute on lists with distinct keys. -/
theorem sortBy_filter {l : List α} (hl : (l.map key).Nodup) (p : α → Bool) :
    sortBy key (l.filter p) = (sortBy key l).filter p := by
  have hsub : ((l.filter p).map key).Nodup := hl.sublist (List.filter_sublist.map key)
  apply (ascending_sortBy hsub).eq_of_perm ((ascending_sortBy hl).filter p)
  exact (perm_sortBy key _).trans ((perm_sortBy key l).symm.filter p)

/-- An element with the greatest key is sorted to the end. -/
theorem sortBy_append_of_forall_lt {l : List α} {x : α} (hl : (l.map key).Nodup)
    (hx : ∀ y ∈ l, key y < key x) : sortBy key (l ++ [x]) = sortBy key l ++ [x] := by
  have hnodup : ((l ++ [x]).map key).Nodup := by
    rw [List.map_append, List.nodup_append]
    refine ⟨hl, List.nodup_singleton _, ?_⟩
    intro a ha b hb hab
    obtain ⟨y, hy, rfl⟩ := List.mem_map.mp ha
    rw [List.map_singleton, List.mem_singleton] at hb
    exact absurd (hab.trans hb) (hx y hy).ne
  apply (ascending_sortBy hnodup).eq_of_perm
  · refine List.pairwise_append.mpr ⟨ascending_sortBy hl, List.pairwise_singleton _ _, ?_⟩
    intro y hy z hz
    rw [List.mem_singleton] at hz
    rw [hz]
    exact hx y ((mem_sortBy key).mp hy)
  · exact (perm_sortBy key _).trans ((perm_sortBy key l).symm.append_right [x])

/-! ## The watermark -/

variable (key)

/-- The key `k` lies behind the watermark. -/
def Behind : Option κ → κ → Prop
  | none, _ => True
  | some k₀, k => k₀ < k

instance (last : Option κ) (k : κ) : Decidable (Behind last k) := by
  cases last <;> unfold Behind <;> infer_instance

@[simp] theorem behind_none (k : κ) : Behind none k := trivial

@[simp] theorem behind_some {k₀ k : κ} : Behind (some k₀) k ↔ k₀ < k := Iff.rfl

/-- What lies behind the watermark. -/
def after (last : Option κ) (l : List α) : List α := l.filter fun x => decide (Behind last (key x))

/-- What lies at or before the watermark; nothing when there is none. -/
def upTo (last : Option κ) (l : List α) : List α := l.filter fun x => decide (¬Behind last (key x))

@[simp] theorem after_none (l : List α) : after key none l = l := by simp [after]

@[simp] theorem upTo_none (l : List α) : upTo key none l = [] := by simp [upTo]

variable {key}

/-- What is behind a position. -/
theorem mem_after {last : Option κ} {l : List α} {x : α} :
    x ∈ after key last l ↔ x ∈ l ∧ Behind last (key x) := by simp [after]

/-- What is behind a position is in order. -/
theorem Ascending.after {l : List α} (h : Ascending key l) (last : Option κ) :
    Ascending key (after key last l) :=
  h.filter _

/-- The key of an element cuts an ascending list at that element. -/
theorem after_some_append {l₁ l₂ : List α} {x : α} (h : Ascending key (l₁ ++ x :: l₂)) :
    after key (some (key x)) (l₁ ++ x :: l₂) = l₂ := by
  obtain ⟨-, h₂, h₁₂⟩ := List.pairwise_append.mp h
  have hle : ∀ y ∈ l₁, ¬key x < key y := fun y hy =>
    lt_asymm (h₁₂ y hy x List.mem_cons_self)
  have hlt : ∀ y ∈ l₂, key x < key y := List.pairwise_cons.mp h₂ |>.1
  rw [after, List.filter_append, List.filter_eq_nil_iff.mpr (by simpa using hle),
    List.filter_cons_of_neg (by simp), List.nil_append]
  exact List.filter_eq_self.mpr (by simpa using hlt)

/-- A watermark behind another one may be applied to what is left. -/
theorem after_after {last : Option κ} {k : κ} (h : Behind last k) (l : List α) :
    after key (some k) (after key last l) = after key (some k) l := by
  unfold after
  rw [List.filter_filter]
  apply List.filter_congr
  intro x _
  cases last with
  | none => simp
  | some k₀ =>
      have : k < key x → k₀ < key x := lt_trans h
      by_cases hx : k < key x <;> simp [hx, this]

/-! ## Pages -/

/-- The page taken from what is left: skip, then limit. -/
def page (skip limit : ℕ) (rest : List α) : List α := (rest.drop skip).take limit

/-- What is left behind the page. -/
def behind (skip limit : ℕ) (rest : List α) : List α := (rest.drop skip).drop limit

/-- A page and what is behind it are all that is behind the first `skip`. -/
theorem page_append_behind (skip limit : ℕ) (rest : List α) :
    page skip limit rest ++ behind skip limit rest = rest.drop skip :=
  List.take_append_drop limit _

/-- A page brings nothing new. -/
theorem page_subset (skip limit : ℕ) (rest : List α) : page skip limit rest ⊆ rest :=
  ((List.take_sublist _ _).trans (List.drop_sublist _ _)).subset

/-- A page is in order. -/
theorem Ascending.page {rest : List α} (h : Ascending key rest) (skip limit : ℕ) :
    Ascending key (page skip limit rest) :=
  List.Pairwise.sublist ((List.take_sublist _ _).trans (List.drop_sublist _ _)) h

/-- With a limit of at least one, an empty page means that at most `skip` elements are left. -/
theorem page_eq_nil_iff {skip limit : ℕ} (hlimit : 1 ≤ limit) {rest : List α} :
    page skip limit rest = [] ↔ rest.length ≤ skip := by
  unfold page
  rw [List.take_eq_nil_iff, List.drop_eq_nil_iff]
  omega

/-- **The step of the reading.** The key of the last element of the page, as the new watermark,
leaves exactly what is behind the page. -/
theorem after_lastKey {last : Option κ} {xs : List α} (hxs : Ascending key xs)
    {skip limit : ℕ} {x : α} (hx : (page skip limit (after key last xs)).getLast? = some x) :
    after key (some (key x)) xs = behind skip limit (after key last xs) := by
  obtain ⟨init, hinit⟩ := List.getLast?_eq_some_iff.mp hx
  have hsplit : after key last xs =
      ((after key last xs).take skip ++ init) ++ x :: behind skip limit (after key last xs) := by
    have h := page_append_behind skip limit (after key last xs)
    rw [hinit] at h
    conv_lhs => rw [← List.take_append_drop skip (after key last xs), ← h]
    simp
  have hmem : x ∈ after key last xs := by
    rw [hsplit]
    simp
  rw [← after_after (mem_after.mp hmem).2, hsplit]
  refine (after_some_append (hsplit ▸ hxs.after last)).trans ?_
  rw [← hsplit]

/-- The watermark cuts an ascending list in two. -/
theorem upTo_append_after {xs : List α} (hxs : Ascending key xs) (last : Option κ) :
    upTo key last xs ++ after key last xs = xs := by
  suffices hasc : Ascending key (upTo key last xs ++ after key last xs) by
    apply hasc.eq_of_perm hxs
    have h := List.filter_append_perm (fun x => decide (Behind last (key x))) xs
    refine List.perm_append_comm.trans ?_
    simpa [after, upTo] using h
  refine List.pairwise_append.mpr ⟨hxs.filter _, hxs.filter _, ?_⟩
  intro x hx y hy
  cases last with
  | none => simp [upTo] at hx
  | some k =>
      simp only [upTo, after, List.mem_filter, behind_some, decide_eq_true_eq] at hx hy
      exact lt_of_le_of_lt (not_lt.mp hx.2) hy.2

/-- Without skipping, the watermark of the page adds exactly the page to what lies before it. -/
theorem upTo_lastKey {last : Option κ} {xs : List α} (hxs : Ascending key xs) {limit : ℕ} {x : α}
    (hx : (page 0 limit (after key last xs)).getLast? = some x) :
    upTo key (some (key x)) xs = upTo key last xs ++ page 0 limit (after key last xs) := by
  have hpage := page_append_behind 0 limit (after key last xs)
  rw [List.drop_zero] at hpage
  have hnew := upTo_append_after hxs (some (key x))
  rw [after_lastKey hxs hx] at hnew
  have hold := upTo_append_after hxs last
  rw [← hpage, ← List.append_assoc] at hold
  exact List.append_cancel_right (hnew.trans hold.symm)

/-- Elements behind a watermark do not change what lies before it. -/
theorem upTo_append_of_behind {last : Option κ} {xs ys : List α}
    (h : ∀ y ∈ ys, Behind last (key y)) : upTo key last (xs ++ ys) = upTo key last xs := by
  have hys : upTo key last ys = [] := by
    apply List.filter_eq_nil_iff.mpr
    intro y hy
    simpa using h y hy
  rw [upTo, List.filter_append]
  exact (congrArg _ hys).trans (List.append_nil _)

/-! ## All pages -/

/-- The pages up to the first empty one, at most `fuel` of them. -/
def pagesUpTo (skip limit : ℕ) : ℕ → List α → List (List α)
  | 0, _ => []
  | fuel + 1, rest =>
      if (page skip limit rest).isEmpty then []
      else page skip limit rest :: pagesUpTo skip limit fuel (behind skip limit rest)

/-- The pages up to the first empty one: every page takes at least one element. -/
def pages (skip limit : ℕ) (rest : List α) : List (List α) :=
  pagesUpTo skip limit rest.length rest

/-- Behind a page there is less left. -/
theorem length_behind_lt {skip limit : ℕ} {rest : List α} (h : page skip limit rest ≠ []) :
    (behind skip limit rest).length < rest.length := by
  have hlen := congrArg List.length (page_append_behind skip limit rest)
  have hpos := List.length_pos_iff.mpr h
  simp only [List.length_append, List.length_drop] at hlen
  omega

/-- With fuel for every element, the amount of fuel does not matter. -/
theorem pagesUpTo_congr {skip limit m n : ℕ} {rest : List α} (hm : rest.length ≤ m)
    (hn : rest.length ≤ n) : pagesUpTo skip limit m rest = pagesUpTo skip limit n rest := by
  induction m generalizing n rest with
  | zero =>
      rw [List.length_eq_zero_iff.mp (Nat.le_zero.mp hm)]
      cases n <;> simp [pagesUpTo, page]
  | succ m ih =>
      cases n with
      | zero =>
          rw [List.length_eq_zero_iff.mp (Nat.le_zero.mp hn)]
          simp [pagesUpTo, page]
      | succ n =>
          simp only [pagesUpTo]
          split_ifs with hp
          · rfl
          · have hlt := length_behind_lt (by simpa using hp)
            rw [@ih n _ (by omega) (by omega)]

/-- Fuel for every element is enough. -/
theorem pagesUpTo_eq_pages {skip limit fuel : ℕ} {rest : List α} (h : rest.length ≤ fuel) :
    pagesUpTo skip limit fuel rest = pages skip limit rest :=
  pagesUpTo_congr h le_rfl

/-- The first page and the pages behind it. -/
theorem pages_eq {skip limit : ℕ} (rest : List α) :
    pages skip limit rest =
      if (page skip limit rest).isEmpty then []
      else page skip limit rest :: pages skip limit (behind skip limit rest) := by
  rw [← pagesUpTo_eq_pages (Nat.le_succ rest.length)]
  simp only [pagesUpTo]
  split_ifs with hp
  · rfl
  · rw [pagesUpTo_eq_pages (length_behind_lt (by simpa using hp)).le]

/-- The pages end with the first empty one. -/
theorem pages_of_page_eq_nil {skip limit : ℕ} {rest : List α} (h : page skip limit rest = []) :
    pages skip limit rest = [] := by
  rw [pages_eq, h]
  rfl

/-- The pages go on behind one that is not empty. -/
theorem pages_of_page_ne_nil {skip limit : ℕ} {rest : List α} (h : page skip limit rest ≠ []) :
    pages skip limit rest =
      page skip limit rest :: pages skip limit (behind skip limit rest) := by
  rw [pages_eq, if_neg (by simpa using h)]

/-- **Induction over the pages**: the empty page, and one page in front of what is behind it. -/
theorem pages_induction (skip limit : ℕ) {motive : List α → Prop}
    (stop : ∀ rest, page skip limit rest = [] → motive rest)
    (next : ∀ rest, page skip limit rest ≠ [] → motive (behind skip limit rest) → motive rest)
    (rest : List α) : motive rest := by
  induction hn : rest.length using Nat.strong_induction_on generalizing rest with
  | _ n ih =>
      by_cases hp : page skip limit rest = []
      · exact stop rest hp
      · exact next rest hp (ih _ (hn ▸ length_behind_lt hp) _ rfl)

/-- The pages are read off the list in order. -/
theorem flatten_pages_sublist (skip limit : ℕ) (rest : List α) :
    (pages skip limit rest).flatten.Sublist (rest.drop skip) := by
  induction rest using pages_induction skip limit with
  | stop rest hp =>
      rw [pages_of_page_eq_nil hp]
      exact List.nil_sublist _
  | next rest hp ih =>
      rw [pages_of_page_ne_nil hp, List.flatten_cons, ← page_append_behind skip limit rest]
      exact (List.Sublist.refl _).append (ih.trans (List.drop_sublist _ _))

/-- Without skipping, the pages are the whole list. -/
theorem flatten_pages_zero {limit : ℕ} (hlimit : 1 ≤ limit) (rest : List α) :
    (pages 0 limit rest).flatten = rest := by
  induction rest using pages_induction 0 limit with
  | stop rest hp =>
      have hnil := (page_eq_nil_iff hlimit).mp hp
      rw [pages_of_page_eq_nil hp, List.length_eq_zero_iff.mp (Nat.le_zero.mp hnil)]
      rfl
  | next rest hp ih =>
      rw [pages_of_page_ne_nil hp, List.flatten_cons, ih]
      exact page_append_behind 0 limit rest

/-- **The pages of a list with a skip on every page.** They have as many elements as there are
behind the first `skip` exactly when nothing is skipped or the first page reaches the end. -/
theorem length_flatten_pages_iff {skip limit : ℕ} (hlimit : 1 ≤ limit) (rest : List α) :
    (pages skip limit rest).flatten.length = (rest.drop skip).length ↔
      skip = 0 ∨ rest.length ≤ skip + limit := by
  constructor
  · intro hlen
    by_contra hcon
    rw [not_or] at hcon
    have hp : page skip limit rest ≠ [] := fun hnil => by
      have := (page_eq_nil_iff hlimit).mp hnil
      omega
    -- behind the first page the next `skip` elements are left out again
    rw [pages_of_page_ne_nil hp, List.flatten_cons, List.length_append] at hlen
    have hbehind := (flatten_pages_sublist skip limit (behind skip limit rest)).length_le
    have hsplit := congrArg List.length (page_append_behind skip limit rest)
    simp only [List.length_append, List.length_drop, behind] at hlen hbehind hsplit
    omega
  · rintro (rfl | hlen)
    · rw [flatten_pages_zero hlimit]
      rfl
    · by_cases hp : page skip limit rest = []
      · rw [pages_of_page_eq_nil hp, List.drop_eq_nil_of_le ((page_eq_nil_iff hlimit).mp hp)]
        rfl
      · have hnil : behind skip limit rest = [] := by
          unfold behind
          rw [List.drop_drop]
          exact List.drop_eq_nil_of_le (by omega)
        rw [pages_of_page_ne_nil hp, hnil, pages_of_page_eq_nil (by simp [page]),
          ← page_append_behind skip limit rest, hnil]
        simp

/-- The pages are a sublist of what is behind the first `skip` elements, so the number of
elements decides. -/
theorem flatten_pages_eq_drop_iff {skip limit : ℕ} (hlimit : 1 ≤ limit) (rest : List α) :
    (pages skip limit rest).flatten = rest.drop skip ↔
      skip = 0 ∨ rest.length ≤ skip + limit := by
  rw [← length_flatten_pages_iff hlimit]
  exact ⟨congrArg _, (flatten_pages_sublist skip limit rest).eq_of_length⟩

/-! ## Reversed pages -/

/-- The pages put together with every page reversed. -/
def reversedPages (skip limit : ℕ) (rest : List α) : List α :=
  ((pages skip limit rest).map List.reverse).flatten

/-- The reversed pages end with the first empty one. -/
theorem reversedPages_of_page_eq_nil {skip limit : ℕ} {rest : List α}
    (h : page skip limit rest = []) : reversedPages skip limit rest = [] := by
  rw [reversedPages, pages_of_page_eq_nil h]
  rfl

/-- The reversed pages go on behind one that is not empty. -/
theorem reversedPages_of_page_ne_nil {skip limit : ℕ} {rest : List α}
    (h : page skip limit rest ≠ []) :
    reversedPages skip limit rest = (page skip limit rest).reverse ++
      reversedPages skip limit (behind skip limit rest) := by
  rw [reversedPages, pages_of_page_ne_nil h]
  rfl

/-- The empty page may be put in front as well. -/
theorem reversedPages_eq_append {skip limit : ℕ} (hlimit : 1 ≤ limit) (rest : List α) :
    reversedPages skip limit rest = (page skip limit rest).reverse ++
      reversedPages skip limit (behind skip limit rest) := by
  by_cases h : page skip limit rest = []
  · have hlen := (page_eq_nil_iff hlimit).mp h
    have hbehind : page skip limit (behind skip limit rest) = [] := by
      apply (page_eq_nil_iff hlimit).mpr
      simp only [behind, List.length_drop]
      omega
    rw [reversedPages_of_page_eq_nil h, reversedPages_of_page_eq_nil hbehind, h]
    rfl
  · exact reversedPages_of_page_ne_nil h

/-- Reversed pages bring nothing new. -/
theorem reversedPages_subset (skip limit : ℕ) (rest : List α) :
    reversedPages skip limit rest ⊆ rest := by
  intro x hx
  have hmem : x ∈ (pages skip limit rest).flatten := by
    obtain ⟨l, hl, hxl⟩ := List.mem_flatten.mp hx
    obtain ⟨p, hp, rfl⟩ := List.mem_map.mp hl
    exact List.mem_flatten.mpr ⟨p, hp, List.mem_reverse.mp hxl⟩
  exact (List.drop_sublist _ _).subset ((flatten_pages_sublist skip limit rest).subset hmem)

/-- **Reversed pages are ascending exactly when no page has two elements.** -/
theorem ascending_reversedPages_iff {skip limit : ℕ} (hlimit : 1 ≤ limit) {rest : List α}
    (hrest : Ascending key rest) :
    Ascending key (reversedPages skip limit rest) ↔ limit = 1 ∨ rest.length ≤ skip + 1 := by
  constructor
  · intro h
    by_contra hcon
    rw [not_or] at hcon
    have hp : page skip limit rest ≠ [] := fun hnil => by
      have := (page_eq_nil_iff hlimit).mp hnil
      omega
    rw [reversedPages_of_page_ne_nil hp] at h
    have hrev := List.pairwise_reverse.mp (List.pairwise_append.mp h).1
    have htwo : 2 ≤ (page skip limit rest).length := by
      simp only [page, List.length_take, List.length_drop]
      omega
    -- the first two elements of the page are ascending in the list and descending in the answer
    obtain ⟨x, y, l, hxy⟩ : ∃ x y l, page skip limit rest = x :: y :: l := by
      match page skip limit rest, htwo with
      | x :: y :: l, _ => exact ⟨x, y, l, rfl⟩
    have hasc := hrest.page skip limit
    rw [hxy] at hrev hasc
    exact lt_asymm ((List.pairwise_cons.mp hrev).1 y List.mem_cons_self)
      ((List.pairwise_cons.mp hasc).1 y List.mem_cons_self)
  · rintro (rfl | hlen)
    · induction rest using pages_induction skip 1 with
      | stop rest hp =>
          rw [reversedPages_of_page_eq_nil hp]
          exact List.Pairwise.nil
      | next rest hp ih =>
          have hsplit : page skip 1 rest ++ behind skip 1 rest = rest.drop skip :=
            page_append_behind skip 1 rest
          have hdrop : Ascending key (page skip 1 rest ++ behind skip 1 rest) :=
            hsplit ▸ List.Pairwise.sublist (List.drop_sublist _ _) hrest
          obtain ⟨h₁, h₂, h₁₂⟩ := List.pairwise_append.mp hdrop
          rw [reversedPages_of_page_ne_nil hp]
          obtain ⟨x, hx⟩ : ∃ x, page skip 1 rest = [x] := by
            have hone : (page skip 1 rest).length ≤ 1 := by simp [page]
            match page skip 1 rest, hp, hone with
            | [x], _, _ => exact ⟨x, rfl⟩
          refine List.pairwise_append.mpr ⟨?_, ih h₂, ?_⟩
          · rw [hx]
            exact List.pairwise_singleton _ _
          · intro a ha b hb
            exact h₁₂ a (List.mem_reverse.mp ha) b (reversedPages_subset _ _ _ hb)
    · by_cases hp : page skip limit rest = []
      · rw [reversedPages_of_page_eq_nil hp]
        exact List.Pairwise.nil
      · have hone : (page skip limit rest).length ≤ 1 := by
          simp only [page, List.length_take, List.length_drop]
          omega
        have hnil : behind skip limit rest = [] := by
          unfold behind
          rw [List.drop_drop]
          exact List.drop_eq_nil_of_le (by omega)
        rw [reversedPages_of_page_ne_nil hp, hnil,
          reversedPages_of_page_eq_nil (by simp [page]), List.append_nil]
        match page skip limit rest, hone with
        | [], _ => exact List.Pairwise.nil
        | [x], _ => exact List.pairwise_singleton _ _

/-! ## Descending pages -/

/-- On distinct keys, the opposite order sorts the other way round. -/
theorem sortBy_toDual {l : List α} (hl : (l.map key).Nodup) :
    sortBy (fun x => OrderDual.toDual (key x)) l = (sortBy key l).reverse := by
  have hdual : (l.map fun x => OrderDual.toDual (key x)).Nodup := by
    have h := hl.map OrderDual.toDual.injective
    rwa [List.map_map] at h
  apply (ascending_sortBy hdual).eq_of_perm
  · refine List.pairwise_reverse.mpr ((ascending_sortBy hl).imp ?_)
    intro x y hxy
    exact OrderDual.toDual_lt_toDual.mpr hxy
  · exact (perm_sortBy _ l).trans ((perm_sortBy key l).symm.trans (List.reverse_perm _).symm)

/-- **The step of the reading, from the end.** The watermark is a lower bound, and a page from the end
lies behind the key of its last element: it comes again, without that element. -/
theorem page_reverse_after_lastKey {last : Option κ} {xs : List α} (hxs : Ascending key xs)
    {skip limit : ℕ} {init : List α} {x : α}
    (hx : page skip limit (after key last xs).reverse = init ++ [x]) :
    page skip limit (after key (some (key x)) xs).reverse = init := by
  have hpage := page_append_behind skip limit (after key last xs).reverse
  have hsplit : (after key last xs).reverse =
      (after key last xs).reverse.take skip ++ (init ++ [x] ++
        behind skip limit (after key last xs).reverse) := by
    rw [← hx, hpage, List.take_append_drop]
  generalize hskipped : (after key last xs).reverse.take skip = skipped at hsplit
  generalize behind skip limit (after key last xs).reverse = rest at hsplit
  have hxs' : after key last xs = rest.reverse ++ x :: (init.reverse ++ skipped.reverse) := by
    have h := congrArg List.reverse hsplit
    simpa using h
  have hmem : x ∈ after key last xs := by
    rw [hxs']
    simp
  have hafter : after key (some (key x)) xs = init.reverse ++ skipped.reverse := by
    rw [← after_after (mem_after.mp hmem).2, hxs']
    exact after_some_append (hxs' ▸ hxs.after last)
  -- the page is not empty, so as many elements as wanted are skipped, and the rest fits
  have hlen : (init ++ [x]).length ≤ limit := by
    rw [← hx]
    exact List.length_take_le _ _
  have hlong : skipped.length = skip := by
    rw [← hskipped, List.length_take, Nat.min_eq_left]
    by_contra hshort
    rw [page, List.drop_eq_nil_of_le (by omega), List.take_nil] at hx
    simp at hx
  rw [List.length_append, List.length_singleton] at hlen
  rw [hafter, page, List.reverse_append, List.reverse_reverse, List.reverse_reverse, ← hlong,
    List.drop_left, List.take_of_length_le (by omega)]

/-- The beginnings of a list that are not empty, the longest first. -/
def beginnings (l : List α) : List (List α) := l.inits.tail.reverse

@[simp] theorem beginnings_nil : beginnings ([] : List α) = [] := rfl

@[simp] theorem beginnings_concat (l : List α) (x : α) :
    beginnings (l ++ [x]) = (l ++ [x]) :: beginnings l := by
  have hne : l.inits ≠ [] := by
    cases l <;> simp
  rw [beginnings, List.inits_append, List.tail_append_of_ne_nil hne]
  simp [beginnings]

end Zbroker.Found.Keyset
