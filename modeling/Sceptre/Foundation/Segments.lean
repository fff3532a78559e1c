import Mathlib.Data.List.Infix
import Mathlib.Data.List.Chain
import Mathlib.Data.List.NodupEquivFin

namespace Foundation

variable {α β : Type} {Stray : α → Prop} {Link : α → α → Prop}

theorem isChain_within {R : α → α → Prop} {w items : List α} (chain : items.IsChain R) (inside : w <:+: items) :
    w.IsChain R := by
  obtain ⟨before, after, rfl⟩ := inside
  exact chain.left_of_append.right_of_append

theorem isChain_both {R S : α → α → Prop} {items : List α} (first : items.IsChain R) (second : items.IsChain S) :
    items.IsChain fun a b => R a b ∧ S a b := by
  rw [List.isChain_iff_forall_rel_of_append_cons_cons] at first second ⊢
  exact fun a b before after split => ⟨first split, second split⟩

theorem places_of_sublist {R : α → β → Prop} {sources all : List α} {items : List β} (part : sources.Sublist all)
    (made : List.Forall₂ R sources items) : ∃ placed : List (Nat × β), placed.map Prod.snd = items ∧
      (∀ r ∈ placed, ∃ a, all[r.1]? = some a ∧ R a r.2) ∧ placed.IsChain fun r r' => r.1 < r'.1 := by
  obtain ⟨place, same⟩ := List.sublist_iff_exists_orderEmbedding_getElem?_eq.mp part
  obtain ⟨length, related⟩ := List.forall₂_iff_get.mp made
  refine ⟨items.mapIdx fun j b => (place j, b), List.ext_getElem (by simp) (by simp), ?_, ?_⟩
  · intro r member
    obtain ⟨j, inside, rfl⟩ := List.mem_mapIdx.mp member
    have source : j < sources.length := length ▸ inside
    exact ⟨sources[j], by rw [← same j, List.getElem?_eq_getElem source], related j source inside⟩
  · rw [List.isChain_iff_getElem]
    intro j inside
    rw [List.getElem_mapIdx, List.getElem_mapIdx]
    exact place.lt_iff_lt.mpr (Nat.lt_succ_self j)

/-- How a sequence was cut: `closed` holds the finished segments, `current` the one still open. An item
    between two segments is a stray; inside a segment each item is linked to the one before it. -/
inductive Segmentation (Stray : α → Prop) (Link : α → α → Prop) :
    List α → List (List α) → List α → Prop where
  | empty : Segmentation Stray Link [] [] []
  | stray {items : List α} {closed : List (List α)} {a : α} (before : Segmentation Stray Link items closed [])
      (stray : Stray a) : Segmentation Stray Link (items ++ [a]) closed []
  | start {items : List α} {closed : List (List α)} {a : α} (before : Segmentation Stray Link items closed [])
      (solid : ¬ Stray a) : Segmentation Stray Link (items ++ [a]) closed [a]
  | extend {items current : List α} {closed : List (List α)} {last a : α}
      (before : Segmentation Stray Link items closed (current ++ [last])) (link : Link last a) :
      Segmentation Stray Link (items ++ [a]) closed (current ++ [last] ++ [a])
  | close {items current : List α} {closed : List (List α)}
      (before : Segmentation Stray Link items closed current) (nonempty : current ≠ []) :
      Segmentation Stray Link items (closed ++ [current]) []

namespace Segmentation

variable {items current : List α} {closed : List (List α)}

theorem isSuffix (cut : Segmentation Stray Link items closed current) : current <:+ items := by
  induction cut with
  | empty => exact List.suffix_refl []
  | stray => exact List.nil_suffix
  | start => exact List.suffix_append _ _
  | extend before link ih =>
    obtain ⟨earlier, rfl⟩ := ih
    exact ⟨earlier, by simp⟩
  | close => exact List.nil_suffix

theorem isInfix (cut : Segmentation Stray Link items closed current) : ∀ segment ∈ closed, segment <:+: items := by
  have grow : ∀ {items segment : List α} (a : α), segment <:+: items → segment <:+: items ++ [a] :=
    fun a inside => inside.trans (List.prefix_append _ _).isInfix
  induction cut with
  | empty => simp
  | stray before stray ih => exact fun segment member => grow _ (ih segment member)
  | start before solid ih => exact fun segment member => grow _ (ih segment member)
  | extend before link ih => exact fun segment member => grow _ (ih segment member)
  | close before nonempty ih =>
    intro segment member
    rcases List.mem_append.mp member with earlier | here
    · exact ih segment earlier
    · rw [List.mem_singleton.mp here]
      exact before.isSuffix.isInfix

theorem chain (cut : Segmentation Stray Link items closed current) :
    (∀ segment ∈ closed, segment.IsChain Link) ∧ current.IsChain Link := by
  induction cut with
  | empty => simp
  | stray before stray ih => exact ih
  | start before solid ih => exact ⟨ih.1, List.isChain_singleton _⟩
  | @extend items current closed last a before link ih =>
    refine ⟨ih.1, List.isChain_append.mpr ⟨ih.2, List.isChain_singleton _, ?_⟩⟩
    intro x atEnd y atStart
    rw [List.getLast?_concat, Option.mem_some_iff] at atEnd
    rw [List.head?_cons, Option.mem_some_iff] at atStart
    rw [← atEnd, ← atStart]
    exact link
  | close before nonempty ih =>
    refine ⟨fun segment member => ?_, List.isChain_nil⟩
    rcases List.mem_append.mp member with earlier | here
    · exact ih.1 segment earlier
    · rw [List.mem_singleton.mp here]
      exact ih.2

theorem head (cut : Segmentation Stray Link items closed current) :
    (∀ segment ∈ closed, ∃ a rest, segment = a :: rest ∧ ¬ Stray a) ∧
      (current ≠ [] → ∃ a rest, current = a :: rest ∧ ¬ Stray a) := by
  induction cut with
  | empty => simp
  | stray before stray ih => exact ⟨ih.1, fun h => absurd rfl h⟩
  | start before solid ih => exact ⟨ih.1, fun _ => ⟨_, [], rfl, solid⟩⟩
  | extend before link ih =>
    refine ⟨ih.1, fun _ => ?_⟩
    obtain ⟨a, rest, same, solid⟩ := ih.2 (by simp)
    exact ⟨a, rest ++ [_], by rw [same, List.cons_append], solid⟩
  | close before nonempty ih =>
    refine ⟨fun segment member => ?_, fun h => absurd rfl h⟩
    rcases List.mem_append.mp member with earlier | here
    · exact ih.1 segment earlier
    · rw [List.mem_singleton.mp here]
      exact ih.2 nonempty

/-- Conservation: what strays contribute nothing to is the same over the segments as over the items. -/
theorem conserved (cut : Segmentation Stray Link items closed current) (f : α → List β)
    (weightless : ∀ a, Stray a → f a = []) :
    items.flatMap f = closed.flatten.flatMap f ++ current.flatMap f := by
  induction cut with
  | empty => rfl
  | stray before stray ih => simp [ih, weightless _ stray]
  | start before solid ih => simp [ih]
  | extend before link ih => simp [ih]
  | close before nonempty ih => simp [ih]

theorem placed (cut : Segmentation Stray Link items closed current) {a : α} (member : a ∈ items) (solid : ¬ Stray a) :
    (∃ segment ∈ closed, a ∈ segment) ∨ a ∈ current := by
  classical
  have kept := cut.conserved (fun b => if Stray b then [] else [b]) fun b stray => if_pos stray
  have here : a ∈ items.flatMap fun b => if Stray b then [] else [b] :=
    List.mem_flatMap.mpr ⟨a, member, by simp [solid]⟩
  rw [kept, List.mem_append] at here
  rcases here with inClosed | inCurrent
  · obtain ⟨b, inside, same⟩ := List.mem_flatMap.mp inClosed
    obtain ⟨segment, among, holds⟩ := List.mem_flatten.mp inside
    split at same
    · cases same
    · rw [List.mem_singleton.mp same]
      exact .inl ⟨segment, among, holds⟩
  · obtain ⟨b, inside, same⟩ := List.mem_flatMap.mp inCurrent
    split at same
    · cases same
    · rw [List.mem_singleton.mp same]
      exact .inr inside

theorem map (Stray' : β → Prop) (Link' : β → β → Prop) (f : α → β)
    (cut : Segmentation Stray Link items closed current) (strays : ∀ a, Stray a ↔ Stray' (f a))
    (links : ∀ a b, Link a b → Link' (f a) (f b)) :
    Segmentation Stray' Link' (items.map f) (closed.map (List.map f)) (current.map f) := by
  induction cut with
  | empty => exact .empty
  | stray before stray ih =>
    rw [List.map_append]
    exact .stray ih ((strays _).mp stray)
  | start before solid ih =>
    rw [List.map_append]
    exact .start ih fun stray => solid ((strays _).mpr stray)
  | extend before link ih =>
    rw [List.map_append] at ih
    rw [List.map_append, List.map_append, List.map_append]
    exact .extend ih (links _ _ link)
  | close before nonempty ih =>
    rw [List.map_append]
    exact .close ih (by simpa using nonempty)

theorem unmap {Stray' : β → Prop} {Link' : β → β → Prop} (f : α → β) {images : List β} {closed' : List (List β)}
    {current' : List β} (cut : Segmentation Stray' Link' images closed' current') {items : List α}
    (same : items.map f = images) : ∃ closed current, closed.map (List.map f) = closed' ∧ current.map f = current' ∧
      Segmentation (fun a => Stray' (f a)) (fun a b => Link' (f a) (f b)) items closed current := by
  induction cut generalizing items with
  | empty =>
    rw [List.map_eq_nil_iff.mp same]
    exact ⟨[], [], rfl, rfl, .empty⟩
  | stray before stray ih =>
    obtain ⟨earlier, last, rfl, front, back⟩ := List.map_eq_append_iff.mp same
    obtain ⟨a, rfl, rfl⟩ := List.map_eq_singleton_iff.mp back
    obtain ⟨closed, current, closes, opens, cut⟩ := ih front
    rw [List.map_eq_nil_iff.mp opens] at cut
    exact ⟨closed, [], closes, rfl, cut.stray stray⟩
  | start before solid ih =>
    obtain ⟨earlier, last, rfl, front, back⟩ := List.map_eq_append_iff.mp same
    obtain ⟨a, rfl, rfl⟩ := List.map_eq_singleton_iff.mp back
    obtain ⟨closed, current, closes, opens, cut⟩ := ih front
    rw [List.map_eq_nil_iff.mp opens] at cut
    exact ⟨closed, [a], closes, rfl, cut.start solid⟩
  | extend before link ih =>
    obtain ⟨earlier, last, rfl, front, back⟩ := List.map_eq_append_iff.mp same
    obtain ⟨a, rfl, rfl⟩ := List.map_eq_singleton_iff.mp back
    obtain ⟨closed, current, closes, opens, cut⟩ := ih front
    obtain ⟨segment, ending, rfl, begins, ends⟩ := List.map_eq_append_iff.mp opens
    obtain ⟨b, rfl, rfl⟩ := List.map_eq_singleton_iff.mp ends
    exact ⟨closed, segment ++ [b] ++ [a], closes, by simp [begins], cut.extend link⟩
  | close before nonempty ih =>
    obtain ⟨closed, current, closes, opens, cut⟩ := ih same
    refine ⟨closed ++ [current], [], by simp [closes, opens], rfl, cut.close fun none => nonempty ?_⟩
    rw [← opens, none, List.map_nil]

theorem relink {R Link' : α → α → Prop} (cut : Segmentation Stray Link items closed current) (chain : items.IsChain R)
    (stronger : ∀ a b, Link a b → R a b → Link' a b) : Segmentation Stray Link' items closed current := by
  induction cut with
  | empty => exact .empty
  | stray before stray ih => exact .stray (ih chain.left_of_append) stray
  | start before solid ih => exact .start (ih chain.left_of_append) solid
  | @extend items current closed last a before link ih =>
    have later := ih chain.left_of_append
    obtain ⟨earlier, rfl⟩ := before.isSuffix
    refine .extend later (stronger last a link ?_)
    rw [← List.append_assoc, List.append_assoc] at chain
    exact List.isChain_pair.mp chain.right_of_append
  | close before nonempty ih => exact .close (ih chain) nonempty

theorem tiled (cut : Segmentation Stray Link items closed current) (solid : ∀ a ∈ items, ¬ Stray a) :
    items = closed.flatten ++ current := by
  induction cut with
  | empty => rfl
  | stray before stray ih => exact absurd stray (solid _ (by simp))
  | start before _ ih => rw [ih fun a member => solid a (List.mem_append_left _ member), List.append_nil]
  | extend before link ih =>
    rw [ih fun a member => solid a (List.mem_append_left _ member), List.append_assoc]
  | close before nonempty ih =>
    rw [ih solid, List.flatten_append, List.flatten_cons, List.flatten_nil, List.append_nil, List.append_nil]

end Segmentation

end Foundation
