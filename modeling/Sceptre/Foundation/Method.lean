namespace Foundation

/-- A method of a stateful object: it returns or raises, and the state it reached stays either way. -/
abbrev Method (ε σ : Type) : Type → Type := ExceptT ε (StateM σ)

namespace Method

variable {ε σ τ α β : Type}

def read : Method ε σ σ := get

def update (f : σ → σ) : Method ε σ Unit := modify f

def when (condition : Prop) [Decidable condition] (body : Method ε σ Unit) : Method ε σ Unit :=
  if condition then body else pure ()

def within (part : σ → τ) (put : τ → σ → σ) (body : Method ε τ α) : Method ε σ α := fun s =>
  ((body (part s)).1, put (body (part s)).2 s)

/-- `try: body` with its exception as a value, for an `except` branch to look at. -/
def attempt (body : Method ε σ α) : Method ε σ (Except ε α) := observing body

/-- `try: body` / `finally: last`: an exception of `last` replaces the one of `body`. -/
def ensure (body : Method ε σ α) (last : Method ε σ Unit) : Method ε σ α := tryFinally body last

theorem pure_run (a : α) (s : σ) : (pure a : Method ε σ α) s = (.ok a, s) := rfl

theorem update_run (f : σ → σ) (s : σ) : (update f : Method ε σ Unit) s = (.ok (), f s) := rfl

theorem bind_run (x : Method ε σ α) (f : α → Method ε σ β) (s : σ) :
    (x >>= f) s = match x s with
      | (.ok a, s') => f a s'
      | (.error e, s') => (.error e, s') := by
  change ExceptT.bindCont f (x s).1 (x s).2 = _
  cases x s with
  | mk result s' => cases result <;> rfl

theorem tryCatch_run (x : Method ε σ α) (handle : ε → Method ε σ α) (s : σ) :
    (tryCatch x handle : Method ε σ α) s = match x s with
      | (.ok a, s') => (.ok a, s')
      | (.error e, s') => handle e s' := by
  change (match (x s).1 with
    | .ok a => (pure (.ok a) : StateM σ (Except ε α))
    | .error e => handle e) (x s).2 = _
  cases x s with
  | mk result s' => cases result <;> rfl

theorem attempt_run (body : Method ε σ α) (s : σ) : attempt body s = (.ok (body s).1, (body s).2) := by
  change (tryCatch (body >>= fun a => pure (.ok a)) (fun e => pure (.error e)) : Method ε σ (Except ε α)) s = _
  rw [tryCatch_run, bind_run]
  cases body s with
  | mk result s' => cases result <;> rfl

theorem ensure_run (body : Method ε σ α) (last : Method ε σ Unit) (s : σ) :
    ensure body last s = match last (body s).2 with
      | (.ok _, s') => ((body s).1, s')
      | (.error e, s') => (.error e, s') := by
  cases ran : body s with
  | mk result s' =>
    cases finished : last s' with
    | mk result' s'' =>
      cases result <;> cases result' <;>
        simp [ensure, tryFinally, tryFinally', Functor.map, ExceptT.map, ExceptT.mk, StateT.bind, bind, ran,
          finished] <;>
        rfl

theorem read_bind (f : σ → Method ε σ β) (s : σ) : (read >>= f) s = f s s := rfl

/-- The sequencing rule: a first part known to return hands its state to the second. -/
theorem bind_returns {x : Method ε σ α} {s s' : σ} {a : α} (first : x s = (.ok a, s'))
    (f : α → Method ε σ β) : (x >>= f) s = f a s' := by
  rw [bind_run, first]

theorem when_true {condition : Prop} [Decidable condition] (holds : condition)
    (body : Method ε σ Unit) : when condition body = body := if_pos holds

theorem when_false {condition : Prop} [Decidable condition] (fails : ¬ condition)
    (body : Method ε σ Unit) : when condition body = pure () := if_neg fails

theorem attempt_returns {body : Method ε σ α} {s s' : σ} {a : α} (returned : body s = (.ok a, s')) :
    attempt body s = (.ok (.ok a), s') := by
  rw [attempt_run, returned]

theorem within_returns {part : σ → τ} {put : τ → σ → σ} {body : Method ε τ α} {s : σ} {t : τ} {a : α}
    (returned : body (part s) = (.ok a, t)) : within part put body s = (.ok a, put t s) := by
  simp only [within, returned]

theorem ensure_returns {body : Method ε σ α} {last : Method ε σ Unit} {s s' s'' : σ} {a : α}
    (first : body s = (.ok a, s')) (second : last s' = (.ok (), s'')) :
    ensure body last s = (.ok a, s'') := by
  rw [ensure_run, first]
  simp only [second]

end Method

end Foundation
