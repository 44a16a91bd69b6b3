import ComponentCatalog.Source.Provider

/-!
What a reading comes to, step by step: its value or failure, and the session in which it leaves
the source.
-/
namespace ComponentCatalog.Reading

variable {σ τ α β : Type}

@[simp] theorem run_pure (a : α) (s : Session σ) : run (pure a : Reading σ α) s = (.ok a, s) := rfl

/-- A failure ends a reading where it stands; what was done until then stays done. -/
@[simp] theorem run_bind (r : Reading σ α) (f : α → Reading σ β) (s : Session σ) :
    run (r >>= f) s =
      match run r s with
      | (.ok a, t) => run (f a) t
      | (.error e, t) => (.error e, t) := by
  simp only [run, bind, ExceptT.bind, ExceptT.run, ExceptT.mk, StateT.run, StateT.bind]
  rcases r s with ⟨_ | _, t⟩ <;> rfl

@[simp] theorem run_map (f : α → β) (r : Reading σ α) (s : Session σ) :
    run (f <$> r) s = ((run r s).1.map f, (run r s).2) := by
  simp only [run, Functor.map, ExceptT.map, ExceptT.run, ExceptT.mk, StateT.run, bind,
    StateT.bind]
  rcases r s with ⟨_ | _, t⟩ <;> rfl

@[simp] theorem run_get (s : Session σ) : run (get : Reading σ (Session σ)) s = (.ok s, s) := rfl

@[simp] theorem run_modify (f : Session σ → Session σ) (s : Session σ) :
    run (modify f : Reading σ Unit) s = (.ok (), f s) := rfl

@[simp] theorem run_report (level : Log.Level) (area : String) (message : Text) (s : Session σ) :
    run (report level area message) s = (.ok (), s.report level area message) := rfl

@[simp] theorem run_within (part : τ → σ) (update : τ → σ → τ) (r : Reading σ α) (s : Session τ) :
    run (within part update r) s =
      ((run r ⟨part s.state, s.log⟩).1,
        ⟨update s.state (run r ⟨part s.state, s.log⟩).2.state,
          (run r ⟨part s.state, s.log⟩).2.log⟩) := rfl

theorem run_attempt (r : Reading σ α) (s : Session σ) :
    run (attempt r) s =
      match run r s with
      | (.ok a, t) => (.ok (.ok a), t)
      | (.error (.source e), t) => (.ok (.error e), t)
      | (.error e, t) => (.error e, t) := by
  simp only [run, attempt, tryCatch, tryCatchThe, MonadExceptOf.tryCatch, ExceptT.tryCatch,
    Functor.map, ExceptT.map, ExceptT.run, ExceptT.mk, StateT.run, bind, StateT.bind]
  rcases r s with ⟨(_ | _ | _ | _) | _, t⟩ <;> rfl

theorem run_optional (r : Reading σ α) (s : Session σ) :
    run (optional r) s =
      match run r s with
      | (.ok a, t) => (.ok (some a), t)
      | (.error (.source e), t) => (if e.isAbsence then .ok none else .error (.source e), t)
      | (.error e, t) => (.error e, t) := by
  rw [optional, run_bind, run_attempt]
  rcases run r s with ⟨(e | _ | _ | _) | a, t⟩ <;> try rfl
  dsimp only
  split <;> rfl

/-- A run of steps that do not fail gives what they give. -/
theorem run_filterMapM {f : α → Reading σ (Option β)} {g : α → Option β}
    (h : ∀ a s, ((f a).run s).1 = .ok (g a)) (items : List α) (s : Session σ) :
    ((items.filterMapM f).run s).1 = .ok (items.filterMap g) := by
  induction items generalizing s with
  | nil => rfl
  | cons a items ih =>
    have hrun : run (f a) s = (.ok (g a), (run (f a) s).2) := Prod.ext (h a s) rfl
    rw [List.filterMapM_cons, run_bind, hrun]
    generalize (run (f a) s).2 = t
    have hrest : run (items.filterMapM f) t =
        (.ok (items.filterMap g), (run (items.filterMapM f) t).2) := Prod.ext (ih t) rfl
    cases hg : g a with
    | none =>
      rw [List.filterMap_cons_none hg]
      exact ih t
    | some b =>
      rw [List.filterMap_cons_some hg]
      dsimp only
      rw [run_bind, hrest]
      rfl

end ComponentCatalog.Reading
