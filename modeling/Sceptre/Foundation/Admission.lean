import Mathlib.Data.List.Infix
import Mathlib.Tactic.Common

namespace Foundation

variable {α : Type} {fits : List α → α → Prop}

/-- A log that closes at the first item it refuses. -/
structure Log (α : Type) where
  kept : List α
  closed : Bool

def Admissible (fits : List α → α → Prop) (items : List α) : Prop :=
  ∀ before item after, items = before ++ item :: after → fits before item

/-- The longest prefix of the items whose every item fits after the items before it. -/
structure LongestAdmissible (fits : List α → α → Prop) (kept items : List α) : Prop where
  isPrefix : kept <+: items
  admissible : Admissible fits kept
  longest : ∀ other, other <+: items → Admissible fits other → other <+: kept

theorem admissible_nil : Admissible fits [] := by
  intro before item after split
  cases before with
  | nil => cases split
  | cons first rest => cases split

theorem Admissible.snoc {items : List α} {item : α} (admissible : Admissible fits items) (fit : fits items item) :
    Admissible fits (items ++ [item]) := by
  intro before next after split
  rcases List.eq_nil_or_concat' after with rfl | ⟨middle, last, rfl⟩
  · obtain ⟨rfl, same⟩ := List.append_inj' split rfl
    cases same
    exact fit
  · have longer : items ++ [item] = (before ++ next :: middle) ++ [last] := by
      rw [split, List.append_assoc, List.cons_append]
    exact admissible before next middle (List.append_inj' longer rfl).1

namespace Log

def empty : Log α := ⟨[], false⟩

def offer (fits : List α → α → Prop) (l : Log α) (item : α) [Decidable (fits l.kept item)] : Bool × Log α :=
  if l.closed then (false, l)
  else if fits l.kept item then (true, ⟨l.kept ++ [item], false⟩)
  else (false, ⟨l.kept, true⟩)

structure Answered (fits : List α → α → Prop) (l : Log α) (answers : List (α × Bool)) : Prop where
  admissible : Admissible fits l.kept
  split : ∃ refused, answers = l.kept.map (fun item => (item, true)) ++ refused.map (fun item => (item, false)) ∧
    (l.closed = false → refused = []) ∧
    (l.closed = true → ∃ item rest, refused = item :: rest ∧ ¬ fits l.kept item)

theorem answered_empty : Answered fits (empty : Log α) [] :=
  ⟨admissible_nil, [], rfl, fun _ => rfl, nofun⟩

theorem Answered.offer {l : Log α} {answers : List (α × Bool)} (answered : Answered fits l answers) (item : α)
    [Decidable (fits l.kept item)] :
    Answered fits (l.offer fits item).2 (answers ++ [(item, (l.offer fits item).1)]) := by
  obtain ⟨refused, split, opened, ended⟩ := answered.split
  unfold Log.offer
  by_cases closed : l.closed = true
  · rw [if_pos closed]
    obtain ⟨first, rest, shut, unfit⟩ := ended closed
    refine ⟨answered.admissible, refused ++ [item], ?_, ?_, ?_⟩
    · rw [split, List.map_append, List.append_assoc]
      rfl
    · intro other
      rw [closed] at other
      cases other
    · intro _
      exact ⟨first, rest ++ [item], by rw [shut, List.cons_append], unfit⟩
  · rw [if_neg closed]
    have none := opened (Bool.eq_false_iff.mpr closed)
    rw [none, List.map_nil, List.append_nil] at split
    by_cases fit : fits l.kept item
    · rw [if_pos fit]
      refine ⟨answered.admissible.snoc fit, [], ?_, fun _ => rfl, nofun⟩
      rw [split, List.map_append, List.map_nil, List.append_nil]
      rfl
    · rw [if_neg fit]
      refine ⟨answered.admissible, [item], ?_, nofun, fun _ => ⟨item, [], rfl, fit⟩⟩
      rw [split]
      rfl

theorem map_answers (kept refused : List α) :
    (kept.map (fun item => (item, true)) ++ refused.map fun item => (item, false)).map Prod.fst = kept ++ refused := by
  rw [List.map_append, List.map_map, List.map_map]
  show kept.map (fun item => item) ++ refused.map (fun item => item) = _
  rw [List.map_id', List.map_id']

theorem Answered.answers_eq {l : Log α} {answers : List (α × Bool)} (answered : Answered fits l answers) :
    answers = l.kept.map (fun item => (item, true)) ++
      ((answers.map Prod.fst).drop l.kept.length).map fun item => (item, false) := by
  obtain ⟨refused, split, -, -⟩ := answered.split
  have offered : answers.map Prod.fst = l.kept ++ refused := by
    rw [split, map_answers]
  rw [offered, List.drop_left]
  exact split

/-- Whatever fits after the first refusal, the log holds the longest admissible prefix of what it was offered. -/
theorem Answered.longest {l : Log α} {answers : List (α × Bool)} (answered : Answered fits l answers) :
    LongestAdmissible fits l.kept (answers.map Prod.fst) := by
  obtain ⟨refused, split, opened, ended⟩ := answered.split
  have offered : answers.map Prod.fst = l.kept ++ refused := by
    rw [split, map_answers]
  rw [offered]
  refine ⟨List.prefix_append .., answered.admissible, ?_⟩
  intro other inside admissible
  rcases List.prefix_or_prefix_of_prefix inside (List.prefix_append l.kept refused) with shorter | ⟨more, longer⟩
  · exact shorter
  · cases more with
    | nil =>
      rw [List.append_nil] at longer
      rw [longer]
    | cons item rest =>
      -- an item beyond the log would have to be the one it refused
      rw [← longer] at inside
      obtain ⟨tail, whole⟩ := inside
      have refusedNow : (item :: rest) ++ tail = refused := by
        have lined : l.kept ++ ((item :: rest) ++ tail) = l.kept ++ refused := by
          rw [← List.append_assoc]
          exact whole
        exact List.append_cancel_left lined
      cases closed : l.closed with
      | false =>
        rw [opened closed] at refusedNow
        cases refusedNow
      | true =>
        obtain ⟨first, rest', shut, unfit⟩ := ended closed
        rw [shut] at refusedNow
        obtain ⟨rfl, -⟩ := List.cons.inj refusedNow
        exact absurd (admissible l.kept item rest longer.symm) unfit

end Log

end Foundation
