import Mathlib.Control.Basic
import Mathlib.Data.Prod.Basic

/-!
# Computations with a state and an error

A handler is a computation `Exec ε σ α`: it reads and writes a state `σ` and either returns a value
or stops with an error `ε`, and then its state changes are lost. Nothing here knows what the state
is. Four things are provided:

* the checks a handler is built from (`require`, `failIf`, `orFail`);
* INVERSION: what a successful run did, one equivalence for each way to build a computation;
* `Avoids e x`: `x` never stops with the error `e`;
* `Respects R x`: two runs of `x` from `R`-related states -- if the left one succeeds, so does the
  right one, with the same value, and the final states are `R`-related.
-/

namespace Lib

/-- A computation over the state `σ` that may stop with an error `ε`. -/
abbrev Exec (ε σ α : Type) := StateT σ (Except ε) α

namespace Exec

variable {ε σ α β : Type}

/-! ## 1. The checks -/

/-- Go on only if `c` holds. -/
def require (c : Prop) [Decidable c] (e : ε) : Exec ε σ Unit :=
  if c then pure () else throw e

/-- Stop if `c` holds: the shape `if c { return Err(e) }`. -/
def failIf (c : Prop) [Decidable c] (e : ε) : Exec ε σ Unit :=
  if c then throw e else pure ()

/-- Do `x` only if `c` holds. -/
def onlyIf (c : Prop) [Decidable c] (x : Exec ε σ Unit) : Exec ε σ Unit :=
  if c then x else pure ()

/-- The value of an option, or the error: the shape `opt.ok_or(e)?`. -/
def orFail (o : Option α) (e : ε) : Exec ε σ α :=
  match o with
  | some a => pure a
  | none => throw e

/-! ## 2. Inversion of a successful run -/

@[simp] theorem pure_eq_ok {a b : α} {s s' : σ} :
    (pure a : Exec ε σ α) s = .ok (b, s') ↔ b = a ∧ s' = s := by
  constructor
  · intro h
    cases h
    exact ⟨rfl, rfl⟩
  · rintro ⟨rfl, rfl⟩
    rfl

@[simp] theorem throw_eq_ok {e : ε} {s : σ} {r : α × σ} :
    (throw e : Exec ε σ α) s = .ok r ↔ False := by
  constructor
  · intro h
    cases h
  · exact False.elim

/-- **A successful sequence is two successful runs.** -/
@[simp] theorem bind_eq_ok {x : Exec ε σ α} {f : α → Exec ε σ β} {s : σ} {r : β × σ} :
    (x >>= f) s = .ok r ↔ ∃ a s', x s = .ok (a, s') ∧ f a s' = .ok r := by
  show (Except.bind (x s) fun p => f p.1 p.2) = .ok r ↔ _
  cases hx : x s with
  | error e => simp [Except.bind]
  | ok p =>
    obtain ⟨a, s'⟩ := p
    constructor
    · intro h
      exact ⟨a, s', rfl, h⟩
    · rintro ⟨b, t, hbt, h⟩
      cases hbt
      exact h

/-- A sequence whose first part succeeds is its second part. -/
theorem bind_of_ok {x : Exec ε σ α} {f : α → Exec ε σ β} {s s' : σ} {a : α} (h : x s = .ok (a, s')) :
    (x >>= f) s = f a s' := by
  show (Except.bind (x s) fun p => f p.1 p.2) = _
  rw [h]
  rfl

/-- A sequence stops where its first part stops. -/
theorem bind_of_error {x : Exec ε σ α} {f : α → Exec ε σ β} {s : σ} {e : ε} (h : x s = .error e) :
    (x >>= f) s = .error e := by
  show (Except.bind (x s) fun p => f p.1 p.2) = _
  rw [h]
  rfl

@[simp] theorem get_eq_ok {s : σ} {t s' : σ} :
    (get : Exec ε σ σ) s = .ok (t, s') ↔ t = s ∧ s' = s :=
  pure_eq_ok

@[simp] theorem set_eq_ok {t s : σ} {u : PUnit} {s' : σ} :
    (set t : Exec ε σ PUnit) s = .ok (u, s') ↔ s' = t := by
  constructor
  · intro h
    cases h
    rfl
  · rintro rfl
    rfl

@[simp] theorem modify_eq_ok {f : σ → σ} {s : σ} {u : PUnit} {s' : σ} :
    (modify f : Exec ε σ PUnit) s = .ok (u, s') ↔ s' = f s := by
  constructor
  · intro h
    cases h
    rfl
  · rintro rfl
    rfl

@[simp] theorem require_eq_ok {c : Prop} [Decidable c] {e : ε} {s : σ} {u : Unit} {s' : σ} :
    (require c e : Exec ε σ Unit) s = .ok (u, s') ↔ c ∧ s' = s := by
  unfold require
  split <;> simp [*]

@[simp] theorem failIf_eq_ok {c : Prop} [Decidable c] {e : ε} {s : σ} {u : Unit} {s' : σ} :
    (failIf c e : Exec ε σ Unit) s = .ok (u, s') ↔ ¬ c ∧ s' = s := by
  unfold failIf
  split <;> simp [*]

@[simp] theorem orFail_eq_ok {o : Option α} {e : ε} {s : σ} {a : α} {s' : σ} :
    (orFail o e : Exec ε σ α) s = .ok (a, s') ↔ o = some a ∧ s' = s := by
  cases o with
  | none => simp [orFail]
  | some b =>
    simp only [orFail, pure_eq_ok, Option.some.injEq]
    rw [eq_comm]

/-- A branch succeeds as the branch its condition chooses. -/
theorem ite_eq_ok {c : Prop} [Decidable c] {x y : Exec ε σ α} {s : σ} {r : α × σ} :
    (if c then x else y) s = .ok r ↔ (c ∧ x s = .ok r) ∨ (¬ c ∧ y s = .ok r) := by
  split <;> simp [*]

theorem onlyIf_eq_ok {c : Prop} [Decidable c] {x : Exec ε σ Unit} {s : σ} {u : Unit} {s' : σ} :
    onlyIf c x s = .ok (u, s') ↔ (c ∧ x s = .ok (u, s')) ∨ (¬ c ∧ s' = s) := by
  unfold onlyIf
  split <;> simp [*]

/-! ## 3. Errors a computation does not raise -/

/-- `x` never stops with the error `e`. -/
def Avoids (e : ε) (x : Exec ε σ α) : Prop := ∀ s, x s ≠ .error e

section Avoids

variable {e : ε}

theorem avoids_pure (a : α) : Avoids e (pure a : Exec ε σ α) := fun _ h => nomatch h

theorem avoids_throw {e' : ε} (h : e' ≠ e) : Avoids e (throw e' : Exec ε σ α) := by
  intro s hs
  cases hs
  exact h rfl

theorem avoids_bind {x : Exec ε σ α} {f : α → Exec ε σ β} (hx : Avoids e x) (hf : ∀ a, Avoids e (f a)) :
    Avoids e (x >>= f) := by
  intro s
  show (Except.bind (x s) fun p => f p.1 p.2) ≠ _
  cases h : x s with
  | error e' =>
    intro h'
    cases h'
    exact hx s h
  | ok p => exact hf p.1 p.2

/-- The error of a sequence whose first part does not raise it comes from the second. -/
theorem Avoids.bind_eq_error {x : Exec ε σ α} {f : α → Exec ε σ β} (hx : Avoids e x) {s : σ}
    (h : (x >>= f) s = .error e) : ∃ a s', x s = .ok (a, s') ∧ f a s' = .error e := by
  cases hr : x s with
  | error e' =>
    have h' : (Except.bind (x s) fun p => f p.1 p.2) = .error e := h
    rw [hr] at h'
    cases h'
    exact absurd hr (hx s)
  | ok p =>
    have h' : (Except.bind (x s) fun p => f p.1 p.2) = .error e := h
    rw [hr] at h'
    exact ⟨p.1, p.2, rfl, h'⟩

theorem avoids_get : Avoids e (get : Exec ε σ σ) := fun _ h => nomatch h

theorem avoids_modify (f : σ → σ) : Avoids e (modify f : Exec ε σ PUnit) := fun _ h => nomatch h

theorem avoids_require {c : Prop} [Decidable c] {e' : ε} (h : e' ≠ e) :
    Avoids e (require c e' : Exec ε σ Unit) := by
  unfold require
  split
  · exact avoids_pure _
  · exact avoids_throw h

theorem avoids_failIf {c : Prop} [Decidable c] {e' : ε} (h : e' ≠ e) :
    Avoids e (failIf c e' : Exec ε σ Unit) := by
  unfold failIf
  split
  · exact avoids_throw h
  · exact avoids_pure _

theorem avoids_orFail {o : Option α} {e' : ε} (h : e' ≠ e) :
    Avoids e (orFail o e' : Exec ε σ α) := by
  cases o with
  | none => exact avoids_throw h
  | some a => exact avoids_pure a

theorem avoids_onlyIf {c : Prop} [Decidable c] {x : Exec ε σ Unit} (hx : Avoids e x) :
    Avoids e (onlyIf c x) := by
  unfold onlyIf
  split
  · exact hx
  · exact avoids_pure _

theorem avoids_ite {c : Prop} [Decidable c] {x y : Exec ε σ α} (hx : Avoids e x) (hy : Avoids e y) :
    Avoids e (if c then x else y) := by
  split
  · exact hx
  · exact hy

end Avoids

/-! ## 4. Two runs -/

/-- **Two runs from related states**: where the left one succeeds, the right one succeeds with the
    same value, in related states. -/
def Respects (R : σ → σ → Prop) (x : Exec ε σ α) : Prop :=
  ∀ s₁ s₂, R s₁ s₂ → ∀ a s₁', x s₁ = .ok (a, s₁') → ∃ s₂', x s₂ = .ok (a, s₂') ∧ R s₁' s₂'

section Respects

variable {R : σ → σ → Prop}

theorem respects_pure (a : α) : Respects R (pure a : Exec ε σ α) := by
  intro s₁ s₂ hR b s₁' h
  obtain ⟨rfl, rfl⟩ := pure_eq_ok.mp h
  exact ⟨s₂, rfl, hR⟩

theorem respects_throw (e : ε) : Respects R (throw e : Exec ε σ α) := by
  intro s₁ s₂ _ a s₁' h
  exact (throw_eq_ok.mp h).elim

/-- **Sequencing**: the second part may use that the first part gave its value somewhere. -/
theorem respects_bind {x : Exec ε σ α} {f : α → Exec ε σ β} (hx : Respects R x)
    (hf : ∀ a, (∃ s s', x s = .ok (a, s')) → Respects R (f a)) : Respects R (x >>= f) := by
  intro s₁ s₂ hR b s₁'' h
  obtain ⟨a, s₁', h1, h2⟩ := bind_eq_ok.mp h
  obtain ⟨s₂', h1', hR'⟩ := hx s₁ s₂ hR a s₁' h1
  obtain ⟨s₂'', h2', hR''⟩ := hf a ⟨s₁, s₁', h1⟩ s₁' s₂' hR' b s₁'' h2
  exact ⟨s₂'', bind_eq_ok.mpr ⟨a, s₂', h1', h2'⟩, hR''⟩

/-- A value that related states have in common may be read. -/
theorem respects_read {x : Exec ε σ α} {g : σ → α} (hx : ∀ s, x s = .ok (g s, s))
    (h : ∀ s₁ s₂, R s₁ s₂ → g s₂ = g s₁) : Respects R x := by
  intro s₁ s₂ hR a s₁' h1
  rw [hx] at h1
  cases h1
  exact ⟨s₂, by rw [hx, h s₁ s₂ hR], hR⟩

theorem respects_modify {f : σ → σ} (h : ∀ s₁ s₂, R s₁ s₂ → R (f s₁) (f s₂)) :
    Respects R (modify f : Exec ε σ PUnit) := by
  intro s₁ s₂ hR u s₁' hs
  obtain rfl := modify_eq_ok.mp hs
  exact ⟨f s₂, rfl, h s₁ s₂ hR⟩

theorem respects_require (c : Prop) [Decidable c] (e : ε) :
    Respects R (require c e : Exec ε σ Unit) := by
  unfold require
  split
  · exact respects_pure _
  · exact respects_throw _

theorem respects_failIf (c : Prop) [Decidable c] (e : ε) :
    Respects R (failIf c e : Exec ε σ Unit) := by
  unfold failIf
  split
  · exact respects_throw _
  · exact respects_pure _

theorem respects_orFail (o : Option α) (e : ε) : Respects R (orFail o e : Exec ε σ α) := by
  cases o with
  | none => exact respects_throw _
  | some a => exact respects_pure a

theorem respects_ite {c : Prop} [Decidable c] {x y : Exec ε σ α} (hx : c → Respects R x)
    (hy : ¬ c → Respects R y) : Respects R (if c then x else y) := by
  split
  · rename_i hc
    exact hx hc
  · rename_i hc
    exact hy hc

theorem respects_onlyIf {c : Prop} [Decidable c] {x : Exec ε σ Unit} (hx : c → Respects R x) :
    Respects R (onlyIf c x) := respects_ite hx fun _ => respects_pure _

/-- What a computation keeps on its own can be added to the relation. -/
theorem Respects.keeping {Q : σ → Prop} {x : Exec ε σ α} (h : Respects R x)
    (hQ : ∀ s a s', x s = .ok (a, s') → Q s → Q s') :
    Respects (fun s₁ s₂ => R s₁ s₂ ∧ Q s₁ ∧ Q s₂) x := by
  intro s₁ s₂ hR a s₁' h₁
  obtain ⟨s₂', h₂, hR'⟩ := h s₁ s₂ hR.1 a s₁' h₁
  exact ⟨s₂', h₂, hR', hQ _ _ _ h₁ hR.2.1, hQ _ _ _ h₂ hR.2.2⟩

end Respects

end Exec

end Lib
