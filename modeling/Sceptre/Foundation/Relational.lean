import Sceptre.Foundation.OrderedDict

namespace Foundation

namespace Method

variable {ε σ τ σ' τ' α β : Type} {R : σ → τ → Prop}

def AlikeAt (R : σ → τ → Prop) (s : σ) (t : τ) (x : Method ε σ α) (y : Method ε τ α) : Prop :=
  (x s).1 = (y t).1 ∧ R (x s).2 (y t).2

def Alike (R : σ → τ → Prop) (x : Method ε σ α) (y : Method ε τ α) : Prop :=
  ∀ s t, R s t → AlikeAt R s t x y

theorem Alike.nothing (a : α) : Alike R (pure a : Method ε σ α) (pure a : Method ε τ α) :=
  fun _ _ related => ⟨rfl, related⟩

theorem AlikeAt.bind {s : σ} {t : τ} {x : Method ε σ α} {y : Method ε τ α} {f : α → Method ε σ β}
    {g : α → Method ε τ β} (head : AlikeAt R s t x y) (tail : ∀ a, Alike R (f a) (g a)) :
    AlikeAt R s t (x >>= f) (y >>= g) := by
  obtain ⟨same, related⟩ := head
  rw [AlikeAt, bind_run, bind_run]
  cases ran : x s with
  | mk result s' =>
    cases ran' : y t with
    | mk result' t' =>
      rw [ran, ran'] at same related
      cases same
      cases result with
      | error e => exact ⟨rfl, related⟩
      | ok a => exact tail a s' t' related

theorem Alike.bind {x : Method ε σ α} {y : Method ε τ α} {f : α → Method ε σ β} {g : α → Method ε τ β}
    (head : Alike R x y) (tail : ∀ a, Alike R (f a) (g a)) : Alike R (x >>= f) (y >>= g) :=
  fun s t related => (head s t related).bind tail

theorem Alike.read {f : σ → Method ε σ β} {g : τ → Method ε τ β}
    (alike : ∀ s t, R s t → AlikeAt R s t (f s) (g t)) : Alike R (Method.read >>= f) (Method.read >>= g) :=
  fun s t related => alike s t related

theorem AlikeAt.update {s : σ} {t : τ} {f : σ → σ} {g : τ → τ} (related : R (f s) (g t)) :
    AlikeAt R s t (Method.update f : Method ε σ Unit) (Method.update g) := ⟨rfl, related⟩

theorem AlikeAt.when {s : σ} {t : τ} {c d : Prop} [Decidable c] [Decidable d] {x : Method ε σ Unit}
    {y : Method ε τ Unit} (related : R s t) (same : c ↔ d) (alike : c → AlikeAt R s t x y) :
    AlikeAt R s t (Method.when c x) (Method.when d y) := by
  by_cases holds : c
  · rw [when_true holds, when_true (same.mp holds)]
    exact alike holds
  · rw [when_false holds, when_false fun other => holds (same.mpr other)]
    exact ⟨rfl, related⟩

theorem AlikeAt.within {R' : σ' → τ' → Prop} {s : σ} {t : τ} {part : σ → σ'} {put : σ' → σ → σ} {part' : τ → τ'}
    {put' : τ' → τ → τ} {x : Method ε σ' α} {y : Method ε τ' α} (alike : AlikeAt R' (part s) (part' t) x y)
    (written : ∀ u v, R' u v → R (put u s) (put' v t)) :
    AlikeAt R s t (Method.within part put x) (Method.within part' put' y) :=
  ⟨alike.1, written _ _ alike.2⟩

end Method

namespace OrderedDict

variable {κ ν γ ε : Type} {V : ν → ν → Prop}

def Alike (V : ν → ν → Prop) (entries entries' : List (κ × ν)) : Prop :=
  List.Forall₂ (fun e e' => e.1 = e'.1 ∧ V e.2 e'.2) entries entries'

theorem Alike.keys {entries entries' : List (κ × ν)} (alike : Alike V entries entries') :
    entries.map Prod.fst = entries'.map Prod.fst := by
  induction alike with
  | nil => rfl
  | cons head tail ih => rw [List.map_cons, List.map_cons, head.1, ih]

theorem Alike.get? [DecidableEq κ] {d d' : OrderedDict κ ν} (alike : Alike V d.entries d'.entries) (key : κ) :
    (d.get? key = none ∧ d'.get? key = none) ∨ ∃ v v', d.get? key = some v ∧ d'.get? key = some v' ∧ V v v' := by
  have general : ∀ entries entries' : List (κ × ν), Alike V entries entries' →
      (entries.lookup key = none ∧ entries'.lookup key = none) ∨
        ∃ v v', entries.lookup key = some v ∧ entries'.lookup key = some v' ∧ V v v' := by
    intro entries entries' alike
    induction alike with
    | nil => exact .inl ⟨rfl, rfl⟩
    | @cons e e' rest rest' head tail ih =>
      obtain ⟨k, v⟩ := e
      obtain ⟨k', v'⟩ := e'
      obtain ⟨rfl, related⟩ := head
      rw [lookup_entry, lookup_entry]
      by_cases here : key = k
      · rw [if_pos here, if_pos here]
        exact .inr ⟨v, v', rfl, rfl, related⟩
      · rw [if_neg here, if_neg here]
        exact ih
  exact general d.entries d'.entries alike

theorem Alike.assign [DecidableEq κ] {entries entries' : List (κ × ν)} (alike : Alike V entries entries') (key : κ)
    {v v' : ν} (related : V v v') : Alike V (assign key v entries) (assign key v' entries') := by
  induction alike with
  | nil => exact .cons ⟨rfl, related⟩ .nil
  | @cons e e' rest rest' head tail ih =>
    obtain ⟨k, w⟩ := e
    obtain ⟨k', w'⟩ := e'
    obtain ⟨rfl, values⟩ := head
    unfold OrderedDict.assign
    dsimp only
    by_cases here : k = key
    · rw [if_pos here, if_pos here]
      exact .cons ⟨rfl, related⟩ tail
    · rw [if_neg here, if_neg here]
      exact .cons ⟨rfl, values⟩ ih

theorem Alike.forEntries {body body' : Method ε (ν × γ) Unit}
    (calls : Method.Alike (fun s t => V s.1 t.1 ∧ s.2 = t.2) body body') {entries entries' : List (κ × ν)} (c : γ)
    (alike : Alike V entries entries') :
    (forEntries body entries c).1 = (forEntries body' entries' c).1 ∧
      Alike V (forEntries body entries c).2.1 (forEntries body' entries' c).2.1 ∧
      (forEntries body entries c).2.2 = (forEntries body' entries' c).2.2 := by
  induction alike generalizing c with
  | nil => exact ⟨rfl, .nil, rfl⟩
  | @cons e e' rest rest' head tail ih =>
    obtain ⟨k, v⟩ := e
    obtain ⟨k', v'⟩ := e'
    obtain ⟨rfl, values⟩ := head
    obtain ⟨same, written, shared⟩ := calls (v, c) (v', c) ⟨values, rfl⟩
    unfold OrderedDict.forEntries
    dsimp only
    cases ran : body (v, c) with
    | mk result s =>
      cases ran' : body' (v', c) with
      | mk result' s' =>
        obtain ⟨w, d⟩ := s
        obtain ⟨w', d'⟩ := s'
        rw [ran, ran'] at same written shared
        cases same
        cases shared
        cases result with
        | error e => exact ⟨rfl, .cons ⟨rfl, written⟩ tail, rfl⟩
        | ok a =>
          obtain ⟨ended, entries, final⟩ := ih d
          exact ⟨ended, .cons ⟨rfl, written⟩ entries, final⟩

end OrderedDict

end Foundation
