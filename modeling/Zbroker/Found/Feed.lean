import Mathlib.Data.List.Infix

/-!
# A page-wise feed

One thread reads a source page by page and moves what it read into a queue; another takes items
out of the queue, collects them for a request and delivers them. This is the bookkeeping of such
a feed, with what each move may do to it, and nothing about threads, waiting or timeouts.

* `Source γ κ χ δ` — contents `γ` read with requests `χ` that are made from positions `κ`, each
  answered by a page of items `δ`.
* `Feed`, `Move`, `Feed.Step` — the state, the names of the moves, and what each of them does.
  The logs of a feed start again when it is rewound.
* `Feed.Conserves` — what was popped, is queued and is held, in this order and the held page
  from its back, is what the stored pages were, each from its back.
* `Feed.Delivers` — what was popped is what was delivered and is collected.
* `Feed.OnStream` — over unchanging contents: what was stored and what a reader at the position
  will still get is the whole stream.
* `Feed.IssuesFresh` — the first request after a rewind asks from the start.

For each there is one lemma on a step, with the moves that it excludes as hypotheses.
**`popped_isPrefix`** and **`delivered_isPrefix`** put the first three together.
-/

namespace Zbroker.Found

/-- A source that is read page by page. -/
structure Source (γ κ χ δ : Type*) where
  /-- The request made from a position. -/
  ask : κ → χ
  /-- The page that answers a request. -/
  find : γ → χ → List δ
  /-- The position after a page, if the page gives one. -/
  advance : κ → List δ → Option κ
  /-- An empty page leaves the position. -/
  advance_nil : ∀ k, advance k [] = some k

/-- The request in flight: none, one that was asked, or one whose page has come. -/
inductive Flight (χ δ : Type*) where
  | idle
  | asked (q : χ)
  | got (page : List δ)

/-- The bookkeeping of a feed. -/
structure Feed (γ κ χ δ : Type*) where
  contents : γ
  position : κ
  flight : Flight χ δ
  /-- The page that is being moved into the queue, from its back. -/
  held : List δ
  /-- The queue, front first. -/
  queue : List δ
  /-- What the request under way has collected. -/
  taken : List δ
  exiting : Bool
  /-- No request was asked since the last rewind. -/
  rewound : Bool
  /-- Since the start or the last rewind: what left the queue, in order. -/
  popped : List δ
  /-- Since the start or the last rewind: what was delivered, in order. -/
  delivered : List δ
  /-- Since the start or the last rewind: the pages stored. -/
  stored : List (List δ)
  /-- All requests, with `true` for each that was the first after a rewind. -/
  issued : List (Bool × χ)

/-- The moves of a feed. -/
inductive Move where
  | quiet | ask | fetch | store | push | drop | take | collect | deliver | lose | rewind
  | change | exit | close
  deriving DecidableEq, Repr

variable {γ κ χ δ : Type*}

namespace Feed

/-- What a move does. -/
inductive Step (S : Source γ κ χ δ) (start : κ) : Feed γ κ χ δ → Move → Feed γ κ χ δ → Prop
  | quiet (f) : Step S start f .quiet f
  | ask (f) (hidle : f.flight = .idle) : Step S start f .ask
      { f with
        flight := .asked (S.ask f.position), rewound := false
        issued := f.issued ++ [(f.rewound, S.ask f.position)] }
  | fetch (f) (q) (hq : f.flight = .asked q) : Step S start f .fetch
      { f with flight := .got (S.find f.contents q) }
  | store (f) (page) (k) (hpage : f.flight = .got page) (hheld : f.held = [])
      (hk : S.advance f.position page = some k) : Step S start f .store
      { f with flight := .idle, held := page, position := k, stored := f.stored ++ [page] }
  | push (f) (queue held) (hmoved : queue ++ held.reverse = f.queue ++ f.held.reverse) :
      Step S start f .push { f with queue := queue, held := held }
  | drop (f) (hexit : f.exiting = true) : Step S start f .drop { f with held := [] }
  | take (f) (d) (queue) (hq : f.queue = d :: queue) : Step S start f .take
      { f with queue := queue, popped := f.popped ++ [d] }
  | collect (f) (d) (queue) (hq : f.queue = d :: queue) : Step S start f .collect
      { f with queue := queue, popped := f.popped ++ [d], taken := f.taken ++ [d] }
  | deliver (f) : Step S start f .deliver
      { f with delivered := f.delivered ++ f.taken, taken := [] }
  | lose (f) : Step S start f .lose { f with taken := [] }
  | rewind (f) (htaken : f.taken = []) : Step S start f .rewind
      { f with position := start, rewound := true, popped := [], delivered := [], stored := [] }
  | change (f) (contents) : Step S start f .change { f with contents := contents }
  | exit (f) : Step S start f .exit { f with exiting := true }
  | close (f) : Step S start f .close { f with position := start, exiting := false }

variable {S : Source γ κ χ δ} {start : κ} {f g : Feed γ κ χ δ} {m : Move}

/-! ## Nothing is lost or reordered -/

/-- What was stored has been popped, is queued, or is held. -/
def Conserves (f : Feed γ κ χ δ) : Prop :=
  f.popped ++ f.queue ++ f.held.reverse = (f.stored.map List.reverse).flatten

/-- Conservation survives every move that drops nothing, and a rewind that finds nothing
undelivered. -/
theorem Step.conserves (h : Step S start f m g) (hdrop : m ≠ .drop)
    (hrewind : m = .rewind → f.queue = [] ∧ f.held = []) (hf : f.Conserves) : g.Conserves := by
  unfold Conserves at hf ⊢
  cases h with
  | store page k hpage hheld hk =>
      simp only [hheld, List.reverse_nil, List.append_nil] at hf
      simp [hf]
  | push queue held hmoved =>
      show f.popped ++ queue ++ held.reverse = _
      rw [List.append_assoc, hmoved, ← hf, List.append_assoc]
  | take d queue hq =>
      rw [← hf, hq]
      simp
  | collect d queue hq =>
      rw [← hf, hq]
      simp
  | rewind htaken =>
      obtain ⟨hqueue, hheld⟩ := hrewind rfl
      simp [hqueue, hheld]
  | drop hexit => exact absurd rfl hdrop
  | quiet => exact hf
  | ask hidle => exact hf
  | fetch q hq => exact hf
  | deliver => exact hf
  | lose => exact hf
  | change contents => exact hf
  | exit => exact hf
  | close => exact hf

/-- What was popped is delivered or collected. -/
def Delivers (f : Feed γ κ χ δ) : Prop := f.delivered ++ f.taken = f.popped

/-- That survives every move but one that pops for nobody and one that loses a collection. -/
theorem Step.delivers (h : Step S start f m g) (htake : m ≠ .take) (hlose : m ≠ .lose)
    (hf : f.Delivers) : g.Delivers := by
  unfold Delivers at hf ⊢
  cases h with
  | collect d queue hq =>
      show f.delivered ++ (f.taken ++ [d]) = f.popped ++ [d]
      rw [← hf, List.append_assoc]
  | deliver =>
      show f.delivered ++ f.taken ++ [] = f.popped
      rw [List.append_nil, hf]
  | rewind htaken =>
      show [] ++ f.taken = []
      rw [htaken, List.append_nil]
  | take d queue hq => exact absurd rfl htake
  | lose => exact absurd rfl hlose
  | quiet => exact hf
  | ask hidle => exact hf
  | fetch q hq => exact hf
  | store page k hpage hheld hk => exact hf
  | push queue held hmoved => exact hf
  | drop hexit => exact hf
  | change contents => exact hf
  | exit => exact hf
  | close => exact hf

/-! ## The exit flag -/

/-- Only its own move sets the exit flag, and without the flag nothing is dropped. -/
theorem Step.exiting (h : Step S start f m g) (hexit : m ≠ .exit) (hf : f.exiting = false) :
    g.exiting = false ∧ m ≠ .drop := by
  cases h with
  | drop h =>
      rw [hf] at h
      cases h
  | exit => exact absurd rfl hexit
  | close => exact ⟨rfl, by simp⟩
  | quiet => exact ⟨hf, by simp⟩
  | ask hidle => exact ⟨hf, by simp⟩
  | fetch q hq => exact ⟨hf, by simp⟩
  | store page k hpage hheld hk => exact ⟨hf, by simp⟩
  | push queue held hmoved => exact ⟨hf, by simp⟩
  | take d queue hq => exact ⟨hf, by simp⟩
  | collect d queue hq => exact ⟨hf, by simp⟩
  | deliver => exact ⟨hf, by simp⟩
  | lose => exact ⟨hf, by simp⟩
  | rewind htaken => exact ⟨hf, by simp⟩
  | change contents => exact ⟨hf, by simp⟩

/-! ## The stream over unchanging contents -/

/-- Only its own move changes the contents. -/
theorem Step.contents_eq (h : Step S start f m g) (hchange : m ≠ .change) :
    g.contents = f.contents := by
  cases h with
  | change contents => exact absurd rfl hchange
  | _ => rfl

/-- The page that the request in flight brings. -/
def page (S : Source γ κ χ δ) (c : γ) : Flight χ δ → List δ
  | .idle => []
  | .asked q => S.find c q
  | .got page => page

/-- `stream k` is what a reader at the position `k` gets, each page from its back. -/
def IsStream (S : Source γ κ χ δ) (c : γ) (stream : κ → List δ) : Prop :=
  ∀ k k', S.advance k (S.find c (S.ask k)) = some k' →
    stream k = (S.find c (S.ask k)).reverse ++ stream k'

/-- A feed over the contents `c` whose stored pages are pages of the source and the stream up to
the position, and whose request in flight brings nothing or the page at the position. -/
structure OnStream (S : Source γ κ χ δ) (start : κ) (c : γ) (stream : κ → List δ)
    (f : Feed γ κ χ δ) : Prop where
  contents : f.contents = c
  flight : page S c f.flight = [] ∨ page S c f.flight = S.find c (S.ask f.position)
  pages : ∀ p ∈ f.stored, p = [] ∨ ∃ k k', p = S.find c (S.ask k) ∧ S.advance k p = some k'
  stored : (f.stored.map List.reverse).flatten ++ stream f.position = stream start

/-- A feed stays on the stream as long as the contents do not change, if every rewind finds a
request in flight that brings nothing or the first page. -/
theorem Step.onStream {c : γ} {stream : κ → List δ} (hstream : IsStream S c stream)
    (h : Step S start f m g) (hchange : m ≠ .change) (hclose : m ≠ .close)
    (hrewind : m = .rewind →
      page S c f.flight = [] ∨ page S c f.flight = S.find c (S.ask start))
    (hf : OnStream S start c stream f) : OnStream S start c stream g := by
  cases h with
  | ask hidle => exact ⟨hf.contents, Or.inr rfl, hf.pages, hf.stored⟩
  | fetch q hq =>
      have hflight := hf.flight
      rw [hq] at hflight
      refine ⟨hf.contents, ?_, hf.pages, hf.stored⟩
      show S.find f.contents q = [] ∨ S.find f.contents q = _
      rw [hf.contents]
      exact hflight
  | store pg k hpage hheld hk =>
      have hflight := hf.flight
      rw [hpage] at hflight
      have hpages : ∀ p ∈ f.stored ++ [pg],
          p = [] ∨ ∃ k k', p = S.find c (S.ask k) ∧ S.advance k p = some k' := by
        intro p hp
        rcases List.mem_append.mp hp with hp | hp
        · exact hf.pages p hp
        · rw [List.mem_singleton] at hp
          subst hp
          exact hflight.imp id fun h => ⟨f.position, k, h, hk⟩
      refine ⟨hf.contents, Or.inl rfl, hpages, ?_⟩
      show ((f.stored ++ [pg]).map List.reverse).flatten ++ stream k = stream start
      rw [← hf.stored]
      rcases hflight with hnil | hpg
      · -- an empty page: the position stays
        simp only [page] at hnil
        subst hnil
        rw [S.advance_nil] at hk
        cases hk
        simp
      · -- the page at the position
        simp only [page] at hpg
        subst hpg
        rw [hstream f.position k hk]
        simp
  | rewind htaken => exact ⟨hf.contents, hrewind rfl, fun p hp => absurd hp List.not_mem_nil, rfl⟩
  | change contents => exact absurd rfl hchange
  | close => exact absurd rfl hclose
  | quiet => exact hf
  | push queue held hmoved => exact ⟨hf.contents, hf.flight, hf.pages, hf.stored⟩
  | drop hexit => exact ⟨hf.contents, hf.flight, hf.pages, hf.stored⟩
  | take d queue hq => exact ⟨hf.contents, hf.flight, hf.pages, hf.stored⟩
  | collect d queue hq => exact ⟨hf.contents, hf.flight, hf.pages, hf.stored⟩
  | deliver => exact ⟨hf.contents, hf.flight, hf.pages, hf.stored⟩
  | lose => exact ⟨hf.contents, hf.flight, hf.pages, hf.stored⟩
  | exit => exact ⟨hf.contents, hf.flight, hf.pages, hf.stored⟩

/-- **What was popped, is queued, is held and is still to come is the stream.** -/
theorem popped_append {c : γ} {stream : κ → List δ} (hf : OnStream S start c stream f)
    (hconserves : f.Conserves) :
    f.popped ++ f.queue ++ f.held.reverse ++ stream f.position = stream start := by
  rw [hconserves, hf.stored]

/-- What was popped is a beginning of the stream. -/
theorem popped_isPrefix {c : γ} {stream : κ → List δ} (hf : OnStream S start c stream f)
    (hconserves : f.Conserves) : f.popped <+: stream start := by
  rw [← popped_append hf hconserves, List.append_assoc, List.append_assoc]
  exact List.prefix_append _ _

/-- What was delivered is a beginning of the stream. -/
theorem delivered_isPrefix {c : γ} {stream : κ → List δ} (hf : OnStream S start c stream f)
    (hconserves : f.Conserves) (hdelivers : f.Delivers) : f.delivered <+: stream start := by
  apply List.IsPrefix.trans _ (popped_isPrefix hf hconserves)
  rw [← hdelivers]
  exact List.prefix_append _ _

/-! ## Rewinding -/

/-- The position is the start as long as nothing was asked since the rewind, and each request
that was the first after a rewind asked from the start. -/
structure IssuesFresh (S : Source γ κ χ δ) (start : κ) (f : Feed γ κ χ δ) : Prop where
  position : f.rewound = true → f.position = start
  issued : ∀ q ∈ f.issued, q.1 = true → q.2 = S.ask start

/-- That survives every move, if no page with items is stored between a rewind and the next
request. -/
theorem Step.issuesFresh (h : Step S start f m g)
    (hstore : m = .store → f.rewound = true → f.flight = .got []) (hf : IssuesFresh S start f) :
    IssuesFresh S start g := by
  cases h with
  | ask hidle =>
      refine ⟨fun h => Bool.noConfusion h, ?_⟩
      intro q hq hfirst
      rcases List.mem_append.mp hq with hq | hq
      · exact hf.issued q hq hfirst
      · rw [List.mem_singleton] at hq
        subst hq
        show S.ask f.position = S.ask start
        rw [hf.position hfirst]
  | store pg k hpage hheld hk =>
      refine ⟨?_, hf.issued⟩
      intro hrew
      have hnil := hstore rfl hrew
      rw [hpage] at hnil
      cases hnil
      rw [S.advance_nil] at hk
      cases hk
      exact hf.position hrew
  | rewind htaken => exact ⟨fun _ => rfl, hf.issued⟩
  | close => exact ⟨fun _ => rfl, hf.issued⟩
  | quiet => exact hf
  | fetch q hq => exact ⟨hf.position, hf.issued⟩
  | push queue held hmoved => exact ⟨hf.position, hf.issued⟩
  | drop hexit => exact ⟨hf.position, hf.issued⟩
  | take d queue hq => exact ⟨hf.position, hf.issued⟩
  | collect d queue hq => exact ⟨hf.position, hf.issued⟩
  | deliver => exact ⟨hf.position, hf.issued⟩
  | lose => exact ⟨hf.position, hf.issued⟩
  | change contents => exact ⟨hf.position, hf.issued⟩
  | exit => exact ⟨hf.position, hf.issued⟩

end Feed

end Zbroker.Found
