import Sceptre.Foundation.Fifo
import Sceptre.Wire.Formats

namespace Sceptre

open Foundation

/-- The constructor refuses a bound below one, so the queue has room for one item at least. -/
structure BoundedRawQueue (α : Type) where
  maxsize : Nat
  items : List α
  dropped : Nat
  positive : 1 ≤ maxsize
  bounded : items.length ≤ maxsize

namespace BoundedRawQueue

variable {α : Type}

def new (maxsize : Int) : Except Exn (BoundedRawQueue α) :=
  if valid : maxsize < 1 then .error (.valueError "maxsize must be >= 1")
  else .ok {
    maxsize := maxsize.toNat
    items := []
    dropped := 0
    positive := by omega
    bounded := Nat.zero_le _ }

def put (q : BoundedRawQueue α) (item : α) : BoundedRawQueue α :=
  if full : q.items.length ≥ q.maxsize then
    { q with
      items := q.items.tail ++ [item]
      dropped := q.dropped + 1
      bounded := by
        have positive := q.positive
        have bounded := q.bounded
        simp only [List.length_append, List.length_tail, List.length_singleton]
        omega }
  else
    { q with
      items := q.items ++ [item]
      bounded := by
        simp only [List.length_append, List.length_singleton]
        omega }

/-- `get`: the end of the wait. It gives None, and changes nothing, when the time ran out on an empty queue. -/
def get (q : BoundedRawQueue α) : Option α × BoundedRawQueue α :=
  (q.items.head?, { q with
    items := q.items.tail
    bounded := by
      have bounded := q.bounded
      rw [List.length_tail]
      omega })

@[simp] theorem put_maxsize (q : BoundedRawQueue α) (item : α) : (q.put item).maxsize = q.maxsize := by
  unfold put
  split <;> rfl

@[simp] theorem get_maxsize (q : BoundedRawQueue α) : q.get.2.maxsize = q.maxsize := rfl

@[simp] theorem get_dropped (q : BoundedRawQueue α) : q.get.2.dropped = q.dropped := rfl

@[simp] theorem get_items (q : BoundedRawQueue α) : q.get.2.items = q.items.tail := rfl

theorem put_cases (q : BoundedRawQueue α) (item : α) :
    (q.items.length = q.maxsize ∧ (∃ oldest rest, q.items = oldest :: rest ∧ (q.put item).items = rest ++ [item]) ∧
        (q.put item).dropped = q.dropped + 1) ∨
      (q.items.length < q.maxsize ∧ (q.put item).items = q.items ++ [item] ∧ (q.put item).dropped = q.dropped) := by
  have bounded := q.bounded
  have positive := q.positive
  unfold put
  split
  · left
    obtain ⟨oldest, rest, items⟩ := List.exists_cons_of_length_pos (l := q.items) (by omega)
    refine ⟨by omega, ⟨oldest, rest, items, ?_⟩, rfl⟩
    dsimp only
    rw [items, List.tail_cons]
  · right
    exact ⟨by omega, rfl, rfl⟩

theorem mem_put (q : BoundedRawQueue α) (item : α) : item ∈ (q.put item).items := by
  rcases q.put_cases item with ⟨-, ⟨oldest, rest, -, items⟩, -⟩ | ⟨-, items, -⟩
  · rw [items]
    exact List.mem_append_right _ (List.mem_singleton.mpr rfl)
  · rw [items]
    exact List.mem_append_right _ (List.mem_singleton.mpr rfl)

theorem put_subset (q : BoundedRawQueue α) (item : α) : (q.put item).items ⊆ q.items ++ [item] := by
  intro other member
  rcases q.put_cases item with ⟨-, ⟨oldest, rest, split, items⟩, -⟩ | ⟨-, items, -⟩
  · rw [items] at member
    rw [split]
    exact List.mem_cons_of_mem _ member
  · rwa [items] at member

inductive Op (α : Type) where
  | put (item : α)
  | get
  deriving DecidableEq

def Op.item? : Op α → Option α
  | .put item => some item
  | .get => none

def puts (ops : List (Op α)) : List α := ops.filterMap Op.item?

def perform (q : BoundedRawQueue α) : Op α → Option α × BoundedRawQueue α
  | .put item => (none, q.put item)
  | .get => q.get

def run : List (Op α) → BoundedRawQueue α → List α × BoundedRawQueue α
  | [], q => ([], q)
  | op :: rest, q =>
    let (got, q') := q.perform op
    let (returned, final) := run rest q'
    (got.toList ++ returned, final)

theorem run_cons (op : Op α) (rest : List (Op α)) (q : BoundedRawQueue α) :
    run (op :: rest) q =
      ((q.perform op).1.toList ++ (run rest (q.perform op).2).1, (run rest (q.perform op).2).2) := rfl

theorem run_append (first second : List (Op α)) (q : BoundedRawQueue α) :
    run (first ++ second) q =
      ((run first q).1 ++ (run second (run first q).2).1, (run second (run first q).2).2) := by
  induction first generalizing q with
  | nil => rfl
  | cons op rest ih => rw [List.cons_append, run_cons, run_cons, ih, List.append_assoc]

def evicts (q : BoundedRawQueue α) : Op α → Option α
  | .put _ => if q.items.length ≥ q.maxsize then q.items.head? else none
  | .get => none

def evictions : List (Op α) → BoundedRawQueue α → List α
  | [], _ => []
  | op :: rest, q => (q.evicts op).toList ++ evictions rest (q.perform op).2

theorem perform_items (q : BoundedRawQueue α) (op : Op α) :
    (q.evicts op ≠ none → q.items.length = q.maxsize) ∧
      (q.evicts op).toList ++ (q.perform op).1.toList ++ (q.perform op).2.items = q.items ++ op.item?.toList := by
  cases op with
  | put item =>
    simp only [perform, evicts]
    rcases q.put_cases item with ⟨full, ⟨oldest, rest, items, put⟩, -⟩ | ⟨room, put, -⟩
    · rw [if_pos (by omega), put, items]
      exact ⟨fun _ => by rw [← items, full], rfl⟩
    · rw [if_neg (by omega), put]
      exact ⟨fun some => absurd rfl some, rfl⟩
  | get =>
    refine ⟨fun some => absurd rfl some, ?_⟩
    show q.items.head?.toList ++ q.items.tail = q.items ++ []
    cases q.items <;> simp

structure Tracks (q : BoundedRawQueue α) (f : Fifo α) : Prop where
  contents : f.contents = q.items
  dropped : (f.gone .evicted).length = q.dropped
  last : List.Sublist (f.gone .evicted) f.entered.dropLast

def past (q : BoundedRawQueue α) (f : Fifo α) : Op α → Fifo α
  | .put item => (if q.items.length ≥ q.maxsize then f.leave .evicted else f).enter item
  | .get => f.leave .returned

variable {q : BoundedRawQueue α} {f : Fifo α}

theorem Tracks.put (tracks : q.Tracks f) (item : α) : (q.put item).Tracks (q.past f (.put item)) := by
  have early : ∀ g : Fifo α, g.entered = f.entered → List.Sublist (g.gone .evicted) f.entered := by
    intro g same
    rw [← same]
    exact (List.sublist_append_left ..).trans (g.gone_sublist .evicted)
  unfold past
  rcases q.put_cases item with ⟨full, ⟨oldest, rest, split, items⟩, dropped⟩ | ⟨room, items, dropped⟩
  · rw [if_pos (by omega)]
    refine ⟨?_, ?_, ?_⟩
    · rw [Fifo.enter_contents, Fifo.leave_contents, tracks.contents, split, items, List.tail_cons]
    · rw [Fifo.gone_enter, Fifo.gone_leave, tracks.contents, split, List.length_append, tracks.dropped, dropped]
      rfl
    · rw [Fifo.gone_enter, Fifo.entered_enter, List.dropLast_concat, Fifo.entered_leave]
      exact early _ (Fifo.entered_leave ..)
  · rw [if_neg (by omega)]
    refine ⟨?_, ?_, ?_⟩
    · rw [Fifo.enter_contents, tracks.contents, items]
    · rw [Fifo.gone_enter, tracks.dropped, dropped]
    · rw [Fifo.gone_enter, Fifo.entered_enter, List.dropLast_concat]
      exact early f rfl

theorem Tracks.get (tracks : q.Tracks f) : q.get.2.Tracks (q.past f .get) := by
  refine ⟨?_, ?_, ?_⟩
  · rw [past, Fifo.leave_contents, tracks.contents, get_items]
  · rw [past, Fifo.gone_leave_other f (by decide), tracks.dropped, get_dropped]
  · rw [past, Fifo.gone_leave_other f (by decide), Fifo.entered_leave]
    exact tracks.last

theorem Tracks.perform (tracks : q.Tracks f) (op : Op α) :
    (q.perform op).2.Tracks (q.past f op) ∧
      (q.past f op).entered = f.entered ++ op.item?.toList ∧
      (q.past f op).gone .returned = f.gone .returned ++ (q.perform op).1.toList ∧
      (q.past f op).gone .evicted = f.gone .evicted ++ (q.evicts op).toList := by
  cases op with
  | put item =>
    refine ⟨tracks.put item, ?_⟩
    simp only [past, evicts]
    split
    · refine ⟨by simp [Op.item?], ?_, ?_⟩
      · rw [Fifo.gone_enter, Fifo.gone_leave_other f (by decide)]
        exact (List.append_nil _).symm
      · rw [Fifo.gone_enter, Fifo.gone_leave, tracks.contents]
    · exact ⟨by simp [Op.item?], (List.append_nil _).symm, (List.append_nil _).symm⟩
  | get =>
    refine ⟨tracks.get, ?_, ?_, ?_⟩
    · rw [past, Fifo.entered_leave]
      exact (List.append_nil _).symm
    · rw [past, Fifo.gone_leave, tracks.contents]
      rfl
    · rw [past, Fifo.gone_leave_other f (by decide)]
      exact (List.append_nil _).symm

theorem Tracks.run (ops : List (Op α)) (tracks : q.Tracks f) :
    ∃ g, (run ops q).2.Tracks g ∧ g.entered = f.entered ++ puts ops ∧
      g.gone .returned = f.gone .returned ++ (run ops q).1 ∧
      g.gone .evicted = f.gone .evicted ++ evictions ops q := by
  induction ops generalizing q f with
  | nil => exact ⟨f, tracks, by simp [puts], by simp [BoundedRawQueue.run], by simp [evictions]⟩
  | cons op rest ih =>
    obtain ⟨tracks', entered, returned, evicted⟩ := tracks.perform op
    obtain ⟨g, final, entered', returned', evicted'⟩ := ih tracks'
    refine ⟨g, final, ?_, ?_, ?_⟩
    · rw [entered', entered, List.append_assoc]
      cases op <;> rfl
    · rw [returned', returned, List.append_assoc]
      rfl
    · rw [evicted', evicted, List.append_assoc]
      rfl

theorem new_tracks {maxsize : Int} (created : new maxsize = .ok q) : q.Tracks .empty ∧ (q.maxsize : Int) = maxsize := by
  unfold new at created
  split at created
  · cases created
  · cases created
    refine ⟨⟨rfl, rfl, List.Sublist.refl _⟩, ?_⟩
    show ((maxsize.toNat : Nat) : Int) = maxsize
    omega

@[simp] theorem run_maxsize (ops : List (Op α)) (q : BoundedRawQueue α) : (run ops q).2.maxsize = q.maxsize := by
  induction ops generalizing q with
  | nil => rfl
  | cons op rest ih =>
    show (run rest (q.perform op).2).2.maxsize = q.maxsize
    rw [ih]
    cases op with
    | put item => exact put_maxsize ..
    | get => exact get_maxsize ..

end BoundedRawQueue

end Sceptre
