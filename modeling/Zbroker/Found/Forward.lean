import Mathlib.Data.List.Perm.Basic
import Mathlib.Order.Basic
import Zbroker.Found.Feed

/-!
# A feed that only reads forward

The contents of a source may change in any way while it is read. What makes up for that is that
every page lies strictly behind the position it was asked from, and at or before the position that
it leads to.

* `Leads rank key k page k'` — the page does that, and is ascending itself.
* `Feed.Forward` — what was stored is strictly ascending and lies at or before the position.
  **`Step.forward`**: every move keeps that but a rewind, and closing.
* `Feed.Passed` — a place that the position has passed, and of which nothing was stored.
  `Step.passed`: nothing will be, until the feed is rewound.
* `Feed.Known` — what is stored, or in flight and about to be stored, has a property that the source
  warrants.
* `Step.delivered_sublist` — what was delivered or collected has been popped, whatever is lost on the
  way.
* **`nodup_of_forward`**: nothing is popped, queued or held twice.
-/

namespace Zbroker.Found

variable {γ κ χ δ ι : Type*} [Preorder ι]

/-- A page that leads from one position to another one. -/
structure Leads (rank : κ → ι) (key : δ → ι) (k : κ) (page : List δ) (k' : κ) : Prop where
  ascending : page.Pairwise fun x y => key x < key y
  behind : ∀ x ∈ page, rank k < key x
  upTo : ∀ x ∈ page, key x ≤ rank k'
  le : rank k ≤ rank k'

namespace Feed

/-- A feed that only reads forward. -/
structure Forward (S : Source γ κ χ δ) (rank : κ → ι) (key : δ → ι) (f : Feed γ κ χ δ) : Prop where
  asked : ∀ q, f.flight = .asked q → q = S.ask f.position
  got : ∀ page k, f.flight = .got page → S.advance f.position page = some k →
    Leads rank key f.position page k
  ascending : f.stored.flatten.Pairwise fun x y => key x < key y
  upTo : ∀ x ∈ f.stored.flatten, key x ≤ rank f.position

variable {S : Source γ κ χ δ} {start : κ} {rank : κ → ι} {key : δ → ι} {f g : Feed γ κ χ δ}
  {m : Move}

/-- **A feed keeps reading forward**, whatever happens to the contents, as long as the pages of the
contents lead forward and it is neither rewound nor closed. -/
theorem Step.forward (h : Step S start f m g) (hrewind : m ≠ .rewind) (hclose : m ≠ .close)
    (hfind : ∀ k k', S.advance k (S.find f.contents (S.ask k)) = some k' →
      Leads rank key k (S.find f.contents (S.ask k)) k')
    (hf : Forward S rank key f) : Forward S rank key g := by
  cases h with
  | ask hidle =>
      refine ⟨?_, ?_, hf.ascending, hf.upTo⟩
      · intro q hq
        cases hq
        rfl
      · intro page k hpage
        cases hpage
  | fetch q hq =>
      have hask := hf.asked q hq
      subst hask
      refine ⟨?_, ?_, hf.ascending, hf.upTo⟩
      · intro q hq
        cases hq
      · intro page k hpage hk
        cases hpage
        exact hfind f.position k hk
  | store page k hpage hheld hk =>
      have hleads := hf.got page k hpage hk
      have hmem : ∀ x, x ∈ (f.stored ++ [page]).flatten → x ∈ f.stored.flatten ∨ x ∈ page := by
        intro x hx
        rwa [List.flatten_concat, List.mem_append] at hx
      refine ⟨?_, ?_, ?_, ?_⟩
      · intro q hq
        cases hq
      · intro page k hpage
        cases hpage
      · show (f.stored ++ [page]).flatten.Pairwise _
        rw [List.flatten_concat]
        refine List.pairwise_append.mpr ⟨hf.ascending, hleads.ascending, ?_⟩
        intro x hx y hy
        exact lt_of_le_of_lt (hf.upTo x hx) (hleads.behind y hy)
      · intro x hx
        rcases hmem x hx with hold | hnew
        · exact (hf.upTo x hold).trans hleads.le
        · exact hleads.upTo x hnew
  | rewind htaken => exact absurd rfl hrewind
  | close => exact absurd rfl hclose
  | quiet => exact hf
  | push queue held hmoved => exact ⟨hf.asked, hf.got, hf.ascending, hf.upTo⟩
  | drop hexit => exact ⟨hf.asked, hf.got, hf.ascending, hf.upTo⟩
  | take d queue hq => exact ⟨hf.asked, hf.got, hf.ascending, hf.upTo⟩
  | collect d queue hq => exact ⟨hf.asked, hf.got, hf.ascending, hf.upTo⟩
  | deliver => exact ⟨hf.asked, hf.got, hf.ascending, hf.upTo⟩
  | lose => exact ⟨hf.asked, hf.got, hf.ascending, hf.upTo⟩
  | change contents => exact ⟨hf.asked, hf.got, hf.ascending, hf.upTo⟩
  | exit => exact ⟨hf.asked, hf.got, hf.ascending, hf.upTo⟩

/-- A place that the position has passed, and of which nothing was stored. -/
structure Passed (rank : κ → ι) (key : δ → ι) (i : ι) (f : Feed γ κ χ δ) : Prop where
  le : i ≤ rank f.position
  stored : ∀ x ∈ f.stored.flatten, key x ≠ i

/-- A place that was passed stays so, and nothing of it is stored any more. -/
theorem Step.passed {i : ι} (h : Step S start f m g) (hrewind : m ≠ .rewind) (hclose : m ≠ .close)
    (hf : Forward S rank key f) (hi : Passed rank key i f) : Passed rank key i g := by
  cases h with
  | store page k hpage hheld hk =>
      have hleads := hf.got page k hpage hk
      refine ⟨hi.le.trans hleads.le, ?_⟩
      intro x hx
      rw [List.flatten_concat, List.mem_append] at hx
      rcases hx with hold | hnew
      · exact hi.stored x hold
      · exact (lt_of_le_of_lt hi.le (hleads.behind x hnew)).ne'
  | rewind htaken => exact absurd rfl hrewind
  | close => exact absurd rfl hclose
  | _ => exact ⟨hi.le, hi.stored⟩

/-- What is stored has the property, and so has a page in flight that can be stored. -/
structure Known (S : Source γ κ χ δ) (P : γ → δ → Prop) (f : Feed γ κ χ δ) : Prop where
  got : ∀ page k, f.flight = .got page → S.advance f.position page = some k →
    ∀ x ∈ page, P f.contents x
  stored : ∀ x ∈ f.stored.flatten, P f.contents x

/-- That stays so until the position is set back, if the source finds nothing else and no change takes
the property away. -/
theorem Step.known {P : γ → δ → Prop} (h : Step S start f m g) (hrewind : m ≠ .rewind)
    (hclose : m ≠ .close)
    (hfind : ∀ q k, f.flight = .asked q → S.advance f.position (S.find f.contents q) = some k →
      ∀ x ∈ S.find f.contents q, P f.contents x)
    (hchange : m = .change → ∀ x, P f.contents x → P g.contents x) (hf : Known S P f) :
    Known S P g := by
  cases h with
  | ask hidle =>
      refine ⟨?_, hf.stored⟩
      intro page k hpage
      cases hpage
  | fetch q hq =>
      refine ⟨?_, hf.stored⟩
      intro page k hpage hk
      cases hpage
      exact hfind q k hq hk
  | store page k hpage hheld hk =>
      refine ⟨?_, ?_⟩
      · intro page k hpage
        cases hpage
      · intro x hx
        rw [List.flatten_concat, List.mem_append] at hx
        rcases hx with hold | hnew
        · exact hf.stored x hold
        · exact hf.got page k hpage hk x hnew
  | change contents =>
      exact ⟨fun page k hpage hk x hx => hchange rfl x (hf.got page k hpage hk x hx),
        fun x hx => hchange rfl x (hf.stored x hx)⟩
  | rewind htaken => exact absurd rfl hrewind
  | close => exact absurd rfl hclose
  | _ => exact ⟨hf.got, hf.stored⟩

/-- What was delivered or collected has been popped. -/
theorem Step.delivered_sublist (h : Step S start f m g)
    (hf : (f.delivered ++ f.taken).Sublist f.popped) : (g.delivered ++ g.taken).Sublist g.popped := by
  cases h with
  | take d queue hq => exact hf.trans (List.sublist_append_left _ _)
  | collect d queue hq =>
      show (f.delivered ++ (f.taken ++ [d])).Sublist (f.popped ++ [d])
      rw [← List.append_assoc]
      exact hf.append (List.Sublist.refl _)
  | deliver =>
      show (f.delivered ++ f.taken ++ []).Sublist f.popped
      rwa [List.append_nil]
  | lose =>
      show (f.delivered ++ []).Sublist f.popped
      rw [List.append_nil]
      exact (List.sublist_append_left _ _).trans hf
  | rewind htaken =>
      show ([] ++ f.taken).Sublist []
      rw [htaken]
      exact List.Sublist.refl _
  | quiet => exact hf
  | ask hidle => exact hf
  | fetch q hq => exact hf
  | store page k hpage hheld hk => exact hf
  | push queue held hmoved => exact hf
  | drop hexit => exact hf
  | change contents => exact hf
  | exit => exact hf
  | close => exact hf

/-- What is popped, queued and held is what was stored. -/
theorem perm_stored (hconserves : f.Conserves) :
    (f.popped ++ f.queue ++ f.held).Perm f.stored.flatten := by
  calc (f.popped ++ f.queue ++ f.held).Perm (f.popped ++ f.queue ++ f.held.reverse) :=
        (List.reverse_perm _).symm.append_left _
    _ = (f.stored.map List.reverse).flatten := hconserves
    _ |>.Perm f.stored.flatten := by
        rw [← List.flatMap_def, ← List.flatMap_id]
        exact List.Perm.flatMap_left _ fun page _ => List.reverse_perm page

/-- **Nothing comes twice.** -/
theorem nodup_of_forward (hf : Forward S rank key f) (hconserves : f.Conserves) :
    ((f.popped ++ f.queue ++ f.held).map key).Nodup := by
  have hstored : (f.stored.flatten.map key).Nodup :=
    List.pairwise_map.mpr (hf.ascending.imp fun hlt => hlt.ne)
  exact ((perm_stored hconserves).map key).nodup_iff.mpr hstored

end Feed

end Zbroker.Found
