import Txtcel.Lib.Exec

/-!
# Weakest preconditions

`wp x Q s`: from the state `s` the computation `x` succeeds, and its value and its final state
satisfy `Q`. This is total correctness: a computation that stops with an error satisfies no `wp`.

One equivalence for each way to build a computation; with them as rewrite rules the `wp` of a
handler becomes the conjunction of its checks, interrupted by the operations that have a rule of
their own (`wp_eq`, `wp_of_iff`).
-/

namespace Lib

namespace Exec

variable {ε σ α β : Type} {x : Exec ε σ α} {f : α → Exec ε σ β} {s s' : σ} {a : α} {e : ε}

/-- `x` succeeds from `s`, and then `Q` holds. -/
def wp (x : Exec ε σ α) (Q : α → σ → Prop) (s : σ) : Prop :=
  ∃ a s', x s = .ok (a, s') ∧ Q a s'

/-- A computation that succeeds under one condition, with one result. -/
theorem wp_of_iff {c : Prop} {Q : α → σ → Prop} (h : ∀ b t, x s = .ok (b, t) ↔ c ∧ b = a ∧ t = s') :
    wp x Q s ↔ c ∧ Q a s' := by
  constructor
  · intro hwp
    obtain ⟨b, t, hx, hQ⟩ := hwp
    obtain ⟨hc, rfl, rfl⟩ := (h b t).mp hx
    exact ⟨hc, hQ⟩
  · intro ⟨hc, hQ⟩
    exact ⟨a, s', (h a s').mpr ⟨hc, rfl, rfl⟩, hQ⟩

theorem wp_eq {Q : α → σ → Prop} (h : x s = .ok (a, s')) : wp x Q s ↔ Q a s' := by
  constructor
  · intro hwp
    obtain ⟨b, t, hx, hQ⟩ := hwp
    cases h.symm.trans hx
    exact hQ
  · exact fun hQ => ⟨a, s', h, hQ⟩

/-! ## 1. Sequences and branches -/

/-- **The sequence rule.** -/
theorem wp_bind {Q : β → σ → Prop} :
    wp (x >>= f) Q s ↔ wp x (fun a s' => wp (f a) Q s') s := by
  unfold wp
  constructor
  · intro h
    obtain ⟨b, t, hrun, hQ⟩ := h
    obtain ⟨a, s', hx, hf⟩ := bind_eq_ok.mp hrun
    exact ⟨a, s', hx, b, t, hf, hQ⟩
  · intro h
    obtain ⟨a, s', hx, b, t, hf, hQ⟩ := h
    exact ⟨b, t, bind_eq_ok.mpr ⟨a, s', hx, hf⟩, hQ⟩

theorem wp_pure {Q : α → σ → Prop} : wp (pure a : Exec ε σ α) Q s ↔ Q a s := wp_eq rfl

theorem wp_onlyIf {c : Prop} [Decidable c] {y : Exec ε σ Unit} {Q : Unit → σ → Prop} :
    wp (onlyIf c y) Q s ↔ (c → wp y Q s) ∧ (¬ c → Q () s) := by
  unfold onlyIf
  split <;> simp [*, wp_pure]

/-! ## 2. Checks -/

theorem wp_require {c : Prop} [Decidable c] {Q : Unit → σ → Prop} :
    wp (require c e : Exec ε σ Unit) Q s ↔ c ∧ Q () s := wp_of_iff fun _ _ => by simp

theorem wp_failIf {c : Prop} [Decidable c] {Q : Unit → σ → Prop} :
    wp (failIf c e : Exec ε σ Unit) Q s ↔ ¬ c ∧ Q () s := wp_of_iff fun _ _ => by simp

theorem wp_orFail {o : Option α} {Q : α → σ → Prop} :
    wp (orFail o e) Q s ↔ ∃ a, o = some a ∧ Q a s := by
  simp only [wp, orFail_eq_ok, and_assoc, exists_and_left, exists_eq_left]

end Exec

end Lib
