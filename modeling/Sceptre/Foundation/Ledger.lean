import Mathlib.Algebra.Order.Field.Basic
import Mathlib.Algebra.BigOperators.Intervals
import Mathlib.Tactic.Linarith
import Mathlib.Tactic.FieldSimp
import Mathlib.Tactic.Ring

namespace Foundation

variable {K : Type} [Field K] [LinearOrder K] [IsStrictOrderedRing K]

structure Span (K : Type) where
  start : K
  rate : K
  amount : K

def Span.stop (w : Span K) : K := w.start + w.amount / w.rate

/-- What was received of a timeline and what it should have held, up to a frontier and the rate there. -/
structure Ledger (K : Type) where
  received : K
  expected : K
  frontier : Option (K × K)

namespace Ledger

def empty : Ledger K := ⟨0, 0, none⟩

def missed (l : Ledger K) (start : K) : K :=
  match l.frontier with
  | none => 0
  | some (stop, rate) => if start - stop > 0 then rate * (start - stop) else 0

def advance (l : Ledger K) (w : Span K) : Option (K × K) :=
  match l.frontier with
  | none => some (w.stop, w.rate)
  | some (stop, rate) => if w.stop > stop then some (w.stop, w.rate) else some (stop, rate)

def commit (l : Ledger K) (w : Span K) : Ledger K :=
  ⟨l.received + w.amount, l.expected + l.missed w.start + w.amount, l.advance w⟩

omit [IsStrictOrderedRing K] in
theorem advance_reaches (l : Ledger K) (w : Span K) :
    ∃ stop rate, l.advance w = some (stop, rate) ∧ w.stop ≤ stop := by
  unfold advance
  cases l.frontier with
  | none => exact ⟨w.stop, w.rate, rfl, le_rfl⟩
  | some edge =>
    obtain ⟨stop, rate⟩ := edge
    dsimp only
    split
    · exact ⟨w.stop, w.rate, rfl, le_rfl⟩
    · rename_i covered
      exact ⟨stop, rate, rfl, not_lt.mp covered⟩

theorem missed_of_le {l : Ledger K} {start stop rate : K} (edge : l.frontier = some (stop, rate))
    (reached : start ≤ stop) : l.missed start = 0 := by
  have none : ¬ start - stop > 0 := by
    intro beyond
    linarith
  simp only [missed, edge, none, if_false]

theorem commit_split (l : Ledger K) {start rate first second : K} (positive : 0 < rate) (later : 0 < second) :
    l.commit ⟨start, rate, first + second⟩ =
      (l.commit ⟨start, rate, first⟩).commit ⟨start + first / rate, rate, second⟩ := by
  have grows : 0 < second / rate := div_pos later positive
  have whole : start + (first + second) / rate = start + first / rate + second / rate := by
    rw [add_div, add_assoc]
  have abuts : (l.commit ⟨start, rate, first⟩).missed (start + first / rate) = 0 := by
    obtain ⟨stop, edgeRate, edge, reached⟩ := l.advance_reaches ⟨start, rate, first⟩
    exact missed_of_le edge reached
  have frontier : l.advance ⟨start, rate, first + second⟩ =
      (l.commit ⟨start, rate, first⟩).advance ⟨start + first / rate, rate, second⟩ := by
    simp only [commit, advance, Span.stop, whole]
    cases l.frontier with
    | none =>
      have beyond : start + first / rate + second / rate > start + first / rate := by linarith
      simp only [beyond, if_true]
    | some edge =>
      obtain ⟨stop, edgeRate⟩ := edge
      by_cases reached : start + first / rate > stop
      · have beyond : start + first / rate + second / rate > stop := by linarith
        have beyond' : start + first / rate + second / rate > start + first / rate := by linarith
        simp only [reached, beyond, beyond', if_true]
      · simp only [reached, if_false]
        congr
  unfold commit at abuts frontier ⊢
  rw [frontier, abuts]
  congr 1
  · ring
  · ring

def Abuts (w w' : Span K) : Prop := w'.rate = w.rate ∧ w'.start = w.stop

theorem sum_positive (w : Span K) (rest : List (Span K)) (some : ∀ w' ∈ w :: rest, 0 < w'.amount) :
    0 < ((w :: rest).map Span.amount).sum := by
  induction rest generalizing w with
  | nil => simpa using some w (by simp)
  | cons w' rest ih =>
    have here := some w (by simp)
    have later := ih w' fun v member => some v (List.mem_cons_of_mem _ member)
    rw [List.map_cons, List.sum_cons]
    linarith

theorem commit_run (l : Ledger K) (first : Span K) (rest : List (Span K)) (positive : 0 < first.rate)
    (some : ∀ w ∈ rest, 0 < w.amount) (run : (first :: rest).IsChain Abuts) :
    l.commit ⟨first.start, first.rate, ((first :: rest).map Span.amount).sum⟩ =
      (first :: rest).foldl commit l := by
  induction rest generalizing l first with
  | nil => simp
  | cons second rest ih =>
    obtain ⟨⟨rate, start⟩, run'⟩ := List.isChain_cons_cons.mp run
    have later : 0 < ((second :: rest).map Span.amount).sum := sum_positive second rest some
    rw [List.map_cons, List.sum_cons, l.commit_split positive later, List.foldl_cons, ← ih (l.commit first) second
      (by rw [rate]; exact positive) (fun w member => some w (List.mem_cons_of_mem _ member)) run', start, rate]
    rfl

section Clock

-- a timeline of consecutive spans of one rate: span `k` carries `amount k`
variable {rate : K} {amount : Nat → K} {time : Nat → K}

omit [LinearOrder K] [IsStrictOrderedRing K] in
theorem time_eq (succ : ∀ k, time (k + 1) = time k + amount k / rate) (k : Nat) :
    time k = time 0 + (∑ i ∈ Finset.range k, amount i) / rate := by
  induction k with
  | zero => simp
  | succ k ih => rw [succ, ih, Finset.sum_range_succ, add_div, add_assoc]

theorem time_mono (amount : Nat → K) (positive : 0 < rate) (carries : ∀ k, 0 < amount k)
    (succ : ∀ k, time (k + 1) = time k + amount k / rate) : StrictMono time :=
  strictMono_nat_of_lt_succ fun k => by
    have grows := div_pos (carries k) positive
    rw [succ]
    linarith

def reached (e : Nat) (ks : List Nat) : Nat := (ks.getLast?.map (· + 1)).getD e

theorem reached_cons (e k : Nat) (rest : List Nat) : reached e (k :: rest) = reached (k + 1) rest := by
  rw [reached, List.getLast?_cons, reached]
  cases rest.getLast? <;> rfl

theorem le_reached {e : Nat} {ks : List Nat} (ordered : ks.IsChain (· < ·)) (later : ∀ k ∈ ks.head?, e ≤ k) :
    e ≤ reached e ks := by
  induction ks generalizing e with
  | nil => exact le_rfl
  | cons k rest ih =>
    have ahead : e ≤ k := later k (by simp)
    rw [reached_cons]
    exact ahead.trans ((Nat.le_succ k).trans
      (ih (List.isChain_cons.mp ordered).2 (List.isChain_cons.mp ordered).1))

theorem missed_between (positive : 0 < rate) (carries : ∀ k, 0 < amount k)
    (succ : ∀ k, time (k + 1) = time k + amount k / rate) {l : Ledger K} {e k : Nat} (later : e ≤ k)
    (edge : l.frontier = some (time e, rate)) :
    l.missed (time k) = (∑ i ∈ Finset.range k, amount i) - ∑ i ∈ Finset.range e, amount i := by
  have between : rate * (time k - time e) =
      (∑ i ∈ Finset.range k, amount i) - ∑ i ∈ Finset.range e, amount i := by
    rw [time_eq succ k, time_eq succ e]
    field_simp
    ring
  rcases Nat.lt_or_eq_of_le later with before | same
  · have ahead : time k - time e > 0 := by
      have increasing := time_mono amount positive carries succ before
      linarith
    simp only [missed, edge, ahead, if_true, between]
  · subst same
    simp [missed, edge]

theorem commit_later (positive : 0 < rate) (carries : ∀ k, 0 < amount k)
    (succ : ∀ k, time (k + 1) = time k + amount k / rate) {l : Ledger K} {e : Nat} {ks : List Nat}
    (edge : l.frontier = some (time e, rate)) (ordered : ks.IsChain (· < ·)) (later : ∀ k ∈ ks.head?, e ≤ k) :
    ks.foldl (fun l k => l.commit ⟨time k, rate, amount k⟩) l =
      ⟨l.received + (ks.map amount).sum,
        l.expected + ((∑ i ∈ Finset.range (reached e ks), amount i) - ∑ i ∈ Finset.range e, amount i),
        some (time (reached e ks), rate)⟩ := by
  induction ks generalizing l e with
  | nil =>
    obtain ⟨received, expected, frontier⟩ := l
    simp [reached] at edge ⊢
    exact edge
  | cons k rest ih =>
    have ahead : e ≤ k := later k (by simp)
    have missed := missed_between positive carries succ ahead edge
    have stop : Span.stop ⟨time k, rate, amount k⟩ = time (k + 1) := (succ k).symm
    have frontier : (l.commit ⟨time k, rate, amount k⟩).frontier = some (time (k + 1), rate) := by
      have beyond : time (k + 1) > time e := time_mono amount positive carries succ (Nat.lt_succ_of_le ahead)
      simp only [commit, advance, edge, stop, beyond, if_true]
    have rest' : ∀ k' ∈ rest.head?, k + 1 ≤ k' := fun k' first => (List.isChain_cons.mp ordered).1 k' first
    rw [List.foldl_cons, ih frontier (List.isChain_cons.mp ordered).2 rest', reached_cons, List.map_cons,
      List.sum_cons]
    simp only [commit, missed, Finset.sum_range_succ]
    congr 1
    · ring
    · ring

/-- The ledger of the spans received of a timeline, in order: received is their sum, and expected is the
    sum of all spans from the first to the last. -/
theorem commit_received (amount : Nat → K) (positive : 0 < rate) (carries : ∀ k, 0 < amount k)
    (succ : ∀ k, time (k + 1) = time k + amount k / rate) {first : Nat} {ks : List Nat}
    (ordered : (first :: ks).IsChain (· < ·)) :
    let l := (first :: ks).foldl (fun l k => l.commit ⟨time k, rate, amount k⟩) empty
    l.received = ((first :: ks).map amount).sum ∧
      l.expected = ∑ i ∈ Finset.Ico first (reached first (first :: ks)), amount i := by
  have started : (empty : Ledger K).commit ⟨time first, rate, amount first⟩ =
      ⟨amount first, amount first, some (time (first + 1), rate)⟩ := by
    simp [commit, empty, missed, advance, Span.stop, succ]
  have later : ∀ k ∈ ks.head?, first + 1 ≤ k := fun k second => (List.isChain_cons.mp ordered).1 k second
  have whole := commit_later positive carries succ (l := ⟨amount first, amount first, some (time (first + 1), rate)⟩)
    rfl (List.isChain_cons.mp ordered).2 later
  have bound : first ≤ reached first (first :: ks) := le_reached ordered fun k head => by
    rw [List.head?_cons, Option.mem_some_iff] at head
    exact head.le
  dsimp only
  rw [List.foldl_cons, started, whole, Finset.sum_Ico_eq_sub _ bound, reached_cons, Finset.sum_range_succ]
  simp only [List.map_cons, List.sum_cons]
  refine ⟨trivial, ?_⟩
  ring

end Clock

end Ledger

end Foundation
