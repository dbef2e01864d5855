import Stackwise.Session

/-!
# Outcomes of computations

Assembling, acting on the world and executing are computations with a state that may fail and keep
the state when they do. `outcome` runs one of them, and `chain` is what sequencing does to outcomes,
so that a proof about a `do` block peels off one computation at a time.
-/
namespace Stackwise

/-- The result of a computation from a state, and the state after it. -/
def outcome {σ α : Type} (e : ExceptT Fault (StateM σ) α) (s : σ) : Except Fault α × σ :=
  (StateT.run (ExceptT.run e) s).run

/-- Go on after a computation that returned; a fault ends everything. -/
def chain {σ α β : Type} (r : Except Fault α × σ) (k : α → σ → Except Fault β × σ) :
    Except Fault β × σ :=
  match r with
  | (.ok a, s) => k a s
  | (.error f, s) => (.error f, s)

section
variable {σ α β γ : Type}

@[simp] theorem chain_ok (a : α) (s : σ) (k : α → σ → Except Fault β × σ) :
    chain (.ok a, s) k = k a s := rfl

@[simp] theorem chain_error (f : Fault) (s : σ) (k : α → σ → Except Fault β × σ) :
    chain (.error f, s) k = (.error f, s) := rfl

theorem chain_eq_ok {r : Except Fault α × σ} {k : α → σ → Except Fault β × σ} {b : β} {t : σ} :
    chain r k = (.ok b, t) ↔ ∃ a s, r = (.ok a, s) ∧ k a s = (.ok b, t) := by
  obtain ⟨_ | a, s⟩ := r <;> simp [and_assoc]

theorem chain_eq_error {r : Except Fault α × σ} {k : α → σ → Except Fault β × σ} {f : Fault}
    {t : σ} : chain r k = (.error f, t) ↔
      r = (.error f, t) ∨ ∃ a s, r = (.ok a, s) ∧ k a s = (.error f, t) := by
  obtain ⟨_ | a, s⟩ := r <;> simp [and_assoc]

theorem chain_congr {r : Except Fault α × σ} {k l : α → σ → Except Fault β × σ}
    (h : ∀ a s, r = (.ok a, s) → k a s = l a s) : chain r k = chain r l := by
  obtain ⟨_ | a, s⟩ := r
  · rfl
  · exact h a s rfl

@[simp] theorem chain_chain (r : Except Fault α × σ) (k : α → σ → Except Fault β × σ)
    (l : β → σ → Except Fault γ × σ) :
    chain (chain r k) l = chain r fun a s => chain (k a s) l := by
  obtain ⟨_ | a, s⟩ := r <;> rfl

@[simp] theorem outcome_pure (a : α) (s : σ) :
    outcome (pure a : ExceptT Fault (StateM σ) α) s = (.ok a, s) := rfl

@[simp] theorem outcome_throw (f : Fault) (s : σ) :
    outcome (throw f : ExceptT Fault (StateM σ) α) s = (.error f, s) := rfl

@[simp] theorem outcome_bind (e : ExceptT Fault (StateM σ) α)
    (g : α → ExceptT Fault (StateM σ) β) (s : σ) :
    outcome (e >>= g) s = chain (outcome e s) fun a s' => outcome (g a) s' := by
  simp only [outcome, ExceptT.run_bind, StateT.run_bind]
  cases StateT.run (ExceptT.run e) s with
  | mk r s' => cases r <;> rfl

@[simp] theorem outcome_map (g : α → β) (e : ExceptT Fault (StateM σ) α) (s : σ) :
    outcome (g <$> e) s = chain (outcome e s) fun a s' => (.ok (g a), s') := by
  rw [← bind_pure_comp, outcome_bind]
  simp

@[simp] theorem outcome_get (s : σ) :
    outcome (get : ExceptT Fault (StateM σ) σ) s = (.ok s, s) := rfl

@[simp] theorem outcome_set (s t : σ) :
    outcome (set t : ExceptT Fault (StateM σ) PUnit) s = (.ok ⟨⟩, t) := rfl

@[simp] theorem outcome_modify (g : σ → σ) (s : σ) :
    outcome (modify g : ExceptT Fault (StateM σ) PUnit) s = (.ok ⟨⟩, g s) := rfl

@[simp] theorem outcome_ite (c : Prop) [Decidable c] (e e' : ExceptT Fault (StateM σ) α) (s : σ) :
    outcome (if c then e else e') s = if c then outcome e s else outcome e' s := by
  split <;> rfl

end

theorem ok_bind {ε α β : Type} (a : α) (f : α → Except ε β) : Except.ok a >>= f = f a := rfl

theorem bind_eq_ok {ε α β : Type} {x : Except ε α} {f : α → Except ε β} {b : β} :
    x >>= f = .ok b ↔ ∃ a, x = .ok a ∧ f a = .ok b := by
  cases x <;> simp [bind, Except.bind]

theorem pure_eq_ok {ε α : Type} {a b : α} : (pure a : Except ε α) = .ok b ↔ a = b := by
  simp [pure, Except.pure]

theorem bind_eq_error {ε α β : Type} {x : Except ε α} {f : α → Except ε β} {e : ε} :
    x >>= f = .error e ↔ x = .error e ∨ ∃ a, x = .ok a ∧ f a = .error e := by
  cases x <;> simp [bind, Except.bind]

theorem pure_ne_error {ε α : Type} {a : α} {e : ε} : (pure a : Except ε α) ≠ .error e := nofun

/-- What returned has returned something, of which holds what holds of every result. -/
theorem exists_ok_and {ε α : Type} {r : Except ε α} {P : α → Prop} (h : r.toBool = true)
    (hP : ∀ a, r = .ok a → P a) : ∃ a, r = .ok a ∧ P a := by
  cases r with
  | ok a => exact ⟨a, rfl, hP a rfl⟩
  | error e => cases h

/-- What holds of a result can be computed together with it. -/
instance decidableExistsOk {ε α : Type} {r : Except ε α} {P : α → Prop} [DecidablePred P] :
    Decidable (∃ a, r = .ok a ∧ P a) :=
  match r with
  | .ok a => decidable_of_iff (P a) ⟨fun h => ⟨a, rfl, h⟩, fun ⟨_, rfl, h⟩ => h⟩
  | .error _ => .isFalse nofun

theorem Machine.perform_eq {α : Type} (m : Machine) (e : Exec α) : m.perform e = outcome e m := rfl

end Stackwise
