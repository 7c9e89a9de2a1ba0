import Mathlib.Data.List.Forall2
import Txtcel.Lib.Runs

/-!
# Simulations between transition systems

`Simulates A B Ok Ok' abs corr Quiet`: seen through `abs`, every step of `A` is a step of `B` under
a corresponding label, or it is a quiet one and `B` does not move. Only reachable states have to be
looked at.

* `Simulates.reach`: what `A` reaches, `B` reaches;
* `Simulates.path`: a run of `A` is a run of `B`, step for step once the quiet steps are left out
  (`Seen`); with no quiet steps the two runs are in lockstep (`Seen.forall₂`).
-/

namespace Lib

namespace Lts

variable {S T L M : Type} {A : Lts S L} {B : Lts T M} {Ok : S → L → S → Prop}
  {Ok' : T → M → T → Prop} {abs : S → T} {corr : L → M → Prop} {Quiet : S × L × S → Prop}

/-- **`B` simulates `A`**, but for the quiet steps. -/
structure Simulates (A : Lts S L) (B : Lts T M) (Ok : S → L → S → Prop) (Ok' : T → M → T → Prop)
    (abs : S → T) (corr : L → M → Prop) (Quiet : S × L × S → Prop) : Prop where
  init : ∀ s, A.init s → B.init (abs s)
  step : ∀ s l t, A.Reach Ok s → A.step s l t → Ok s l t →
    (∃ m, corr l m ∧ B.step (abs s) m (abs t) ∧ Ok' (abs s) m (abs t)) ∨
      Quiet (s, l, t) ∧ abs t = abs s

/-- The step of `B` that a step of `A` is seen as. -/
structure SeenAs (abs : S → T) (corr : L → M → Prop) (x : S × L × S) (y : T × M × T) : Prop where
  source : y.1 = abs x.1
  label : corr x.2.1 y.2.1
  target : y.2.2 = abs x.2.2

/-- The run of `B` that a run of `A` is seen as. -/
inductive Seen (abs : S → T) (corr : L → M → Prop) (Quiet : S × L × S → Prop) :
    List (S × L × S) → List (T × M × T) → Prop where
  | nil : Seen abs corr Quiet [] []
  | step {xs : List (S × L × S)} {ys : List (T × M × T)} {x : S × L × S} {y : T × M × T}
      (h : Seen abs corr Quiet xs ys) (hx : SeenAs abs corr x y) :
      Seen abs corr Quiet (xs ++ [x]) (ys ++ [y])
  | quiet {xs : List (S × L × S)} {ys : List (T × M × T)} {x : S × L × S}
      (h : Seen abs corr Quiet xs ys) (hx : Quiet x) (he : abs x.2.2 = abs x.1) :
      Seen abs corr Quiet (xs ++ [x]) ys

namespace Seen

variable {xs : List (S × L × S)} {ys : List (T × M × T)}

/-- **Without quiet steps the runs are in lockstep.** -/
theorem forall₂ (h : Seen abs corr Quiet xs ys) (hq : ∀ x, ¬ Quiet x) :
    List.Forall₂ (SeenAs abs corr) xs ys := by
  induction h with
  | nil => exact .nil
  | step _ hx ih => exact List.rel_append ih (.cons hx .nil)
  | quiet _ hx _ _ => exact absurd hx (hq _)

/-- Every step of `B` is a step of `A` that is seen. -/
theorem of_mem_right (h : Seen abs corr Quiet xs ys) {y : T × M × T} (hy : y ∈ ys) :
    ∃ x ∈ xs, SeenAs abs corr x y := by
  induction h with
  | nil => cases hy
  | step _ hs ih =>
    rcases List.mem_append.mp hy with hy | hy
    · obtain ⟨x, hx, h⟩ := ih hy
      exact ⟨x, List.mem_append_left _ hx, h⟩
    · obtain rfl := List.mem_singleton.mp hy
      exact ⟨_, List.mem_append_right _ (List.mem_singleton_self _), hs⟩
  | quiet _ _ _ ih =>
    obtain ⟨x, hx, h⟩ := ih hy
    exact ⟨x, List.mem_append_left _ hx, h⟩

end Seen

namespace Simulates

theorem reach (h : Simulates A B Ok Ok' abs corr Quiet) {s : S} (hs : A.Reach Ok s) :
    B.Reach Ok' (abs s) := by
  induction hs with
  | init hi => exact .init (h.init _ hi)
  | step hr hst hok ih =>
    rcases h.step _ _ _ hr hst hok with ⟨m, -, hm, hok'⟩ | ⟨-, he⟩
    · exact .step ih hm hok'
    · rw [he]
      exact ih

/-- **A run of `A` is seen as a run of `B`.** -/
theorem path (h : Simulates A B Ok Ok' abs corr Quiet) {s t : S} {tr : List (S × L × S)}
    (hs : A.Reach Ok s) (hp : A.Path Ok s tr t) :
    ∃ tr', Seen abs corr Quiet tr tr' ∧ B.Path Ok' (abs s) tr' (abs t) := by
  induction hp with
  | nil => exact ⟨[], .nil, .nil⟩
  | snoc hp hst hok ih =>
    obtain ⟨tr', hseen, hpath⟩ := ih
    rcases h.step _ _ _ (hp.reach hs) hst hok with ⟨m, hc, hm, hok'⟩ | ⟨hq, he⟩
    · exact ⟨_, hseen.step ⟨rfl, hc, rfl⟩, .snoc hpath hm hok'⟩
    · rw [he]
      exact ⟨tr', hseen.quiet hq he, hpath⟩

end Simulates

end Lts

end Lib
