import Mathlib.Data.List.Nodup
import Sceptre.Foundation.Method

namespace Foundation

/-- A dictionary that iterates in insertion order; updating a key keeps its place. -/
structure OrderedDict (κ ν : Type) where
  entries : List (κ × ν)
  nodup : (entries.map Prod.fst).Nodup

namespace OrderedDict

variable {κ ν γ ε : Type} [DecidableEq κ]

def assign (key : κ) (value : ν) : List (κ × ν) → List (κ × ν)
  | [] => [(key, value)]
  | (k, v) :: rest => if k = key then (key, value) :: rest else (k, v) :: assign key value rest

theorem assign_keys (key : κ) (value : ν) (entries : List (κ × ν)) :
    (assign key value entries).map Prod.fst =
      if key ∈ entries.map Prod.fst then entries.map Prod.fst else entries.map Prod.fst ++ [key] := by
  induction entries with
  | nil => simp [assign]
  | cons entry rest ih =>
    obtain ⟨k, v⟩ := entry
    by_cases same : k = key
    · simp [assign, same]
    · have other : key ≠ k := fun h => same h.symm
      simp only [assign, same, if_false, List.map_cons, ih, List.mem_cons, other, false_or]
      split <;> rfl

theorem assign_nodup (key : κ) (value : ν) (entries : List (κ × ν))
    (nodup : (entries.map Prod.fst).Nodup) : ((assign key value entries).map Prod.fst).Nodup := by
  rw [assign_keys]
  split
  · exact nodup
  · rename_i absent
    exact List.Nodup.append nodup (List.nodup_singleton key) (by simpa using absent)

theorem lookup_entry (k key : κ) (value : ν) (rest : List (κ × ν)) :
    ((key, value) :: rest).lookup k = if k = key then some value else rest.lookup k := by
  rw [List.lookup_cons]
  by_cases same : k = key
  · rw [beq_iff_eq.mpr same, if_pos same]
  · rw [beq_eq_false_iff_ne.mpr same, if_neg same]

theorem assign_lookup (key : κ) (value : ν) (entries : List (κ × ν)) (k : κ) :
    (assign key value entries).lookup k = if k = key then some value else entries.lookup k := by
  induction entries with
  | nil => rw [assign, lookup_entry]
  | cons entry rest ih =>
    obtain ⟨k', v⟩ := entry
    by_cases here : k' = key
    · subst here
      simp only [assign, if_true, lookup_entry]
      split <;> rfl
    · simp only [assign, here, if_false, lookup_entry, ih]
      by_cases same : k = k'
      · subst same
        simp only [here, if_false, if_true]
      · simp only [same, if_false]

theorem assign_same {key : κ} {value : ν} {entries : List (κ × ν)} (found : entries.lookup key = some value) :
    assign key value entries = entries := by
  induction entries with
  | nil => cases found
  | cons entry rest ih =>
    obtain ⟨k, v⟩ := entry
    rw [lookup_entry] at found
    rw [assign]
    by_cases here : k = key
    · rw [if_pos here.symm] at found
      cases found
      rw [if_pos here, here]
    · rw [if_neg fun same => here same.symm] at found
      rw [if_neg here, ih found]

def empty : OrderedDict κ ν := ⟨[], List.nodup_nil⟩

def keys (d : OrderedDict κ ν) : List κ := d.entries.map Prod.fst

def size (d : OrderedDict κ ν) : Nat := d.entries.length

def get? (d : OrderedDict κ ν) (key : κ) : Option ν := d.entries.lookup key

def insert (d : OrderedDict κ ν) (key : κ) (value : ν) : OrderedDict κ ν :=
  ⟨assign key value d.entries, assign_nodup key value d.entries d.nodup⟩

def map (f : κ → ν → ν) (d : OrderedDict κ ν) : OrderedDict κ ν :=
  ⟨d.entries.map fun e => (e.1, f e.1 e.2), by
    simpa only [List.map_map, Function.comp_def] using d.nodup⟩

omit [DecidableEq κ] in
theorem keys_nodup (d : OrderedDict κ ν) : d.keys.Nodup := d.nodup

omit [DecidableEq κ] in
theorem size_eq (d : OrderedDict κ ν) : d.size = d.keys.length := by
  simp [size, keys]

@[simp] theorem get?_empty (key : κ) : (empty : OrderedDict κ ν).get? key = none := rfl

omit [DecidableEq κ] in
@[simp] theorem keys_empty : (empty : OrderedDict κ ν).keys = [] := rfl

theorem get?_insert (d : OrderedDict κ ν) (key k : κ) (value : ν) :
    (d.insert key value).get? k = if k = key then some value else d.get? k :=
  assign_lookup key value d.entries k

@[simp] theorem get?_insert_self (d : OrderedDict κ ν) (key : κ) (value : ν) :
    (d.insert key value).get? key = some value := by
  rw [get?_insert, if_pos rfl]

theorem get?_insert_of_ne (d : OrderedDict κ ν) {key k : κ} (value : ν) (other : k ≠ key) :
    (d.insert key value).get? k = d.get? k := by
  rw [get?_insert, if_neg other]

theorem keys_insert (d : OrderedDict κ ν) (key : κ) (value : ν) :
    (d.insert key value).keys = if key ∈ d.keys then d.keys else d.keys ++ [key] :=
  assign_keys key value d.entries

theorem mem_keys_insert (d : OrderedDict κ ν) (key k : κ) (value : ν) :
    k ∈ (d.insert key value).keys ↔ k = key ∨ k ∈ d.keys := by
  rw [keys_insert]
  split
  · rename_i present
    exact ⟨Or.inr, fun h => h.elim (fun same => same ▸ present) id⟩
  · simp [or_comm]

theorem size_insert_le (d : OrderedDict κ ν) (key : κ) (value : ν) :
    (d.insert key value).size ≤ d.size + 1 := by
  rw [size_eq, size_eq, keys_insert]
  split <;> simp

theorem size_insert_of_mem (d : OrderedDict κ ν) {key : κ} (value : ν) (present : key ∈ d.keys) :
    (d.insert key value).size = d.size := by
  rw [size_eq, size_eq, keys_insert, if_pos present]

theorem mem_keys_iff (d : OrderedDict κ ν) (key : κ) : key ∈ d.keys ↔ ∃ value, d.get? key = some value := by
  obtain ⟨entries, nodup⟩ := d
  simp only [keys, get?]
  clear nodup
  induction entries with
  | nil => simp
  | cons entry rest ih =>
    rw [List.map_cons, List.mem_cons, lookup_entry, ih]
    split
    · rename_i same
      exact ⟨fun _ => ⟨_, rfl⟩, fun _ => Or.inl same⟩
    · rename_i other
      exact ⟨fun h => h.resolve_left other, Or.inr⟩

theorem get?_eq_none_iff (d : OrderedDict κ ν) (key : κ) : d.get? key = none ↔ key ∉ d.keys := by
  rw [mem_keys_iff, ← Option.isSome_iff_exists, Option.not_isSome_iff_eq_none]

theorem get?_of_mem (d : OrderedDict κ ν) {key : κ} {value : ν} (member : (key, value) ∈ d.entries) :
    d.get? key = some value := by
  have general : ∀ entries : List (κ × ν), (entries.map Prod.fst).Nodup → (key, value) ∈ entries →
      entries.lookup key = some value := by
    intro entries nodup member
    induction entries with
    | nil => cases member
    | cons entry rest ih =>
      obtain ⟨k, v⟩ := entry
      rw [List.map_cons, List.nodup_cons] at nodup
      rcases List.mem_cons.mp member with same | later
      · cases same
        exact List.lookup_cons_self
      · have other : key ≠ k := by
          rintro rfl
          exact nodup.1 (List.mem_map.mpr ⟨_, later, rfl⟩)
        rw [lookup_entry, if_neg other]
        exact ih nodup.2 later
  exact general d.entries d.nodup member

theorem mem_of_get? (d : OrderedDict κ ν) {key : κ} {value : ν} (found : d.get? key = some value) :
    (key, value) ∈ d.entries := by
  obtain ⟨before, after, split, -⟩ := List.lookup_eq_some_iff.mp found
  rw [split]
  exact List.mem_append_right _ (List.mem_cons_self ..)

theorem entries_singleton {d : OrderedDict κ ν} {key : κ} {value : ν} (only : ∀ k ∈ d.keys, k = key)
    (found : d.get? key = some value) : d.entries = [(key, value)] := by
  have member := d.mem_of_get? found
  obtain ⟨entries, nodup⟩ := d
  cases entries with
  | nil => cases member
  | cons entry rest =>
    have first : entry.1 = key := only _ List.mem_cons_self
    have none : rest = [] := by
      apply List.eq_nil_iff_forall_not_mem.mpr
      intro other later
      have second : other.1 = key := only _ (List.mem_cons_of_mem _ (List.mem_map_of_mem later))
      rw [List.map_cons, List.nodup_cons, first, ← second] at nodup
      exact nodup.1 (List.mem_map_of_mem later)
    subst none
    exact congrArg (fun e => [e]) (List.mem_singleton.mp member).symm

omit [DecidableEq κ] in
@[simp] theorem keys_map (f : κ → ν → ν) (d : OrderedDict κ ν) : (d.map f).keys = d.keys := by
  simp [keys, map, Function.comp_def]

@[simp] theorem get?_map (f : κ → ν → ν) (d : OrderedDict κ ν) (key : κ) :
    (d.map f).get? key = (d.get? key).map (f key) := by
  obtain ⟨entries, nodup⟩ := d
  simp only [get?, map]
  clear nodup
  induction entries with
  | nil => rfl
  | cons entry rest ih =>
    rw [List.map_cons, lookup_entry, lookup_entry, ih]
    split
    · rename_i same
      rw [same, Option.map_some]
    · rfl

theorem filter_contributions {β : Type} (d : OrderedDict κ ν) (contribution : ν → List β) (tag : β → κ)
    (tagged : ∀ e ∈ d.entries, ∀ x ∈ contribution e.2, tag x = e.1) (key : κ) :
    (d.entries.flatMap fun e => contribution e.2).filter (fun x => tag x = key) =
      (d.get? key).elim [] contribution := by
  obtain ⟨entries, nodup⟩ := d
  simp only [get?] at *
  induction entries with
  | nil => rfl
  | cons entry rest ih =>
    obtain ⟨k, v⟩ := entry
    rw [List.map_cons, List.nodup_cons] at nodup
    have later := ih nodup.2 fun e member => tagged e (List.mem_cons_of_mem _ member)
    have own : ∀ x ∈ contribution v, tag x = k := tagged (k, v) (List.mem_cons_self ..)
    rw [List.flatMap_cons, List.filter_append, later, lookup_entry]
    by_cases same : key = k
    · subst same
      have absent : rest.lookup key = none := by
        rw [List.lookup_eq_none_iff]
        intro e member
        refine bne_iff_ne.mpr ?_
        rintro rfl
        exact nodup.1 (List.mem_map.mpr ⟨e, member, rfl⟩)
      have all : (contribution v).filter (fun x => tag x = key) = contribution v :=
        List.filter_eq_self.mpr fun x member => by simp [own x member]
      rw [if_pos rfl, absent, all]
      simp
    · have nothing : (contribution v).filter (fun x => tag x = key) = [] :=
        List.filter_eq_nil_iff.mpr fun x member => by
          rw [own x member]
          simpa using fun h => same h.symm
      rw [if_neg same, nothing, List.nil_append]

/-- `for v in d.values(): v.body()`, each call sharing the state `γ`; the first exception ends the loop. -/
def forEntries (body : Method ε (ν × γ) Unit) : List (κ × ν) → γ → Except ε Unit × List (κ × ν) × γ
  | [], c => (.ok (), [], c)
  | (k, v) :: rest, c =>
    match body (v, c) with
    | (.error e, v', c') => (.error e, (k, v') :: rest, c')
    | (.ok _, v', c') =>
      let later := forEntries body rest c'
      (later.1, (k, v') :: later.2.1, later.2.2)

omit [DecidableEq κ] in
theorem forEntries_keys (body : Method ε (ν × γ) Unit) (entries : List (κ × ν)) (c : γ) :
    (forEntries body entries c).2.1.map Prod.fst = entries.map Prod.fst := by
  induction entries generalizing c with
  | nil => rfl
  | cons entry rest ih =>
    simp only [forEntries]
    split
    · rfl
    · simp [ih]

def forValues (body : Method ε (ν × γ) Unit) : Method ε (OrderedDict κ ν × γ) Unit := fun s =>
  let looped := forEntries body s.1.entries s.2
  (looped.1, ⟨looped.2.1, by simpa only [looped, forEntries_keys] using s.1.nodup⟩, looped.2.2)

omit [DecidableEq κ] in
/-- The loop rule: when every value's call returns, with new value `f v` and shared state `g v c`,
    the loop maps the values by `f` and folds `g` over them in order. -/
theorem forValues_returns {body : Method ε (ν × γ) Unit} (f : ν → ν) (g : ν → γ → γ) (shared : γ → Prop)
    (d : OrderedDict κ ν) (c : γ) (initial : shared c)
    (returns : ∀ e ∈ d.entries, ∀ c, shared c → body (e.2, c) = (.ok (), f e.2, g e.2 c) ∧ shared (g e.2 c)) :
    forValues body (d, c) =
      (.ok (), d.map (fun _ v => f v), d.entries.foldl (fun c e => g e.2 c) c) := by
  have general : ∀ (entries : List (κ × ν)) (c : γ), shared c →
      (∀ e ∈ entries, ∀ c, shared c → body (e.2, c) = (.ok (), f e.2, g e.2 c) ∧ shared (g e.2 c)) →
      forEntries body entries c =
        (.ok (), entries.map (fun e => (e.1, f e.2)), entries.foldl (fun c e => g e.2 c) c) := by
    intro entries
    induction entries with
    | nil => intro c _ _; rfl
    | cons entry rest ih =>
      intro c holds returns
      obtain ⟨k, v⟩ := entry
      obtain ⟨returned, next⟩ := returns (k, v) (by simp) c holds
      simp only [forEntries, returned, List.map_cons, List.foldl_cons]
      rw [ih _ next (fun e member => returns e (List.mem_cons_of_mem _ member))]
  have looped := general d.entries c initial returns
  simp only [forValues, map, looped]

theorem assign_split {key : κ} {done : List (κ × ν)} (fresh : key ∉ done.map Prod.fst) (v value : ν)
    (rest : List (κ × ν)) : assign key value (done ++ (key, v) :: rest) = done ++ (key, value) :: rest := by
  induction done with
  | nil => simp [assign]
  | cons entry earlier ih =>
    obtain ⟨k, w⟩ := entry
    rw [List.map_cons, List.mem_cons, not_or] at fresh
    have other : k ≠ key := fun same => fresh.1 same.symm
    rw [List.cons_append, assign, if_neg other, ih fresh.2, List.cons_append]

omit [DecidableEq κ] in
theorem ext_entries {d d' : OrderedDict κ ν} (same : d.entries = d'.entries) : d = d' := by
  cases d
  cases d'
  cases same
  rfl

theorem insert_same {d : OrderedDict κ ν} {key : κ} {value : ν} (found : d.get? key = some value) :
    d.insert key value = d :=
  ext_entries (assign_same found)

/-- The loop rule for calls that may raise: what every call keeps, with its value written back in place,
    holds where the loop ends or is left. -/
theorem forValues_invariant {body : Method ε (ν × γ) Unit} (Holds : OrderedDict κ ν → γ → Prop)
    (d : OrderedDict κ ν) (c : γ) (initial : Holds d c)
    (kept : ∀ d c key v, Holds d c → d.get? key = some v →
      Holds (d.insert key (body (v, c)).2.1) (body (v, c)).2.2) :
    Holds (forValues body (d, c)).2.1 (forValues body (d, c)).2.2 := by
  have general : ∀ (rest done : List (κ × ν)) (d d' : OrderedDict κ ν) (c : γ), Holds d c →
      d.entries = done ++ rest → d'.entries = done ++ (forEntries body rest c).2.1 →
      Holds d' (forEntries body rest c).2.2 := by
    intro rest
    induction rest with
    | nil =>
      intro done d d' c holds before after
      rw [ext_entries (after.trans before.symm)]
      exact holds
    | cons entry rest ih =>
      intro done d d' c holds before after
      obtain ⟨k, v⟩ := entry
      have found : d.get? k = some v := d.get?_of_mem (by simp [before])
      have fresh : k ∉ done.map Prod.fst := by
        have nodup := d.nodup
        rw [before, List.map_append, List.map_cons] at nodup
        exact fun member => (List.nodup_append.mp nodup).2.2 k member k (List.mem_cons_self ..) rfl
      have next := kept d c k v holds found
      have written : (d.insert k (body (v, c)).2.1).entries = done ++ (k, (body (v, c)).2.1) :: rest := by
        show assign k _ d.entries = _
        rw [before]
        exact assign_split fresh v _ rest
      cases called : body (v, c) with
      | mk result state =>
        rw [called] at next written
        cases result with
        | error e =>
          simp only [forEntries, called] at after ⊢
          rw [ext_entries (after.trans written.symm)]
          exact next
        | ok _ =>
          simp only [forEntries, called] at after ⊢
          refine ih (done ++ [(k, state.1)]) _ d' state.2 next ?_ ?_
          · rw [written, List.append_assoc, List.singleton_append]
          · rw [after, List.append_assoc, List.singleton_append]
  exact general d.entries [] d _ c initial rfl rfl

end OrderedDict

end Foundation
