import Txtcel.Lib.Simulation

/-!
# Where a property of a run began

What holds at the end of a run and did not at its start began at one of its steps, and has held ever
since (`Began`).

* `Path.began`: there is such a step;
* `Simulates.began`: if it is a property of what is seen of the states, the step is not a quiet one.
-/

namespace Lib

namespace Lts

variable {S T L M : Type} {A : Lts S L} {B : Lts T M} {Ok : S → L → S → Prop}
  {Ok' : T → M → T → Prop} {abs : S → T} {corr : L → M → Prop} {Quiet : S × L × S → Prop}
  {s t : S} {tr : List (S × L × S)}

/-- **The property began at the step `x`** of a run from `s` to `t`, and has held since. -/
structure Began (A : Lts S L) (Ok : S → L → S → Prop) (P : S → Prop) (s t : S)
    (past : List (S × L × S)) (x : S × L × S) (since : List (S × L × S)) : Prop where
  reached : A.Path Ok s past x.1
  step : A.step x.1 x.2.1 x.2.2
  ok : Ok x.1 x.2.1 x.2.2
  rest : A.Path Ok x.2.2 since t
  before : ¬ P x.1
  after : P x.2.2
  kept : ∀ y ∈ since, P y.1 ∧ P y.2.2

/-- **What holds at the end and did not at the start began at some step.** -/
theorem Path.began {P : S → Prop} (h : A.Path Ok s tr t) (hs : ¬ P s) (ht : P t) :
    ∃ past x since, tr = past ++ x :: since ∧ Began A Ok P s t past x since := by
  induction h with
  | nil => exact absurd ht hs
  | snoc hp hst hok ih =>
    rename_i tr u t l
    by_cases hu : P u
    · obtain ⟨past, x, since, rfl, hb⟩ := ih hu
      refine ⟨past, x, since ++ [(u, l, t)], by simp, hb.reached, hb.step, hb.ok,
        hb.rest.snoc hst hok, hb.before, hb.after, fun y hy => ?_⟩
      rcases List.mem_append.mp hy with hy | hy
      · exact hb.kept y hy
      · obtain rfl := List.mem_singleton.mp hy
        exact ⟨hu, ht⟩
    · exact ⟨tr, (u, l, t), [], rfl, hp, hst, hok, .nil, hu, ht, nofun⟩

/-- **A property of what is seen began at a step that is seen.** -/
theorem Simulates.began (h : Simulates A B Ok Ok' abs corr Quiet) {P : T → Prop}
    (hr : A.Reach Ok s) (hp : A.Path Ok s tr t) (hs : ¬ P (abs s)) (ht : P (abs t)) :
    ∃ past x since m, tr = past ++ x :: since ∧ corr x.2.1 m ∧ B.step (abs x.1) m (abs x.2.2) ∧
      Began A Ok (fun u => P (abs u)) s t past x since := by
  obtain ⟨past, x, since, rfl, hb⟩ := hp.began (P := fun u => P (abs u)) hs ht
  rcases h.step _ _ _ (hb.reached.reach hr) hb.step hb.ok with ⟨m, hm, hstep, -⟩ | ⟨-, he⟩
  · exact ⟨past, x, since, m, rfl, hm, hstep, hb⟩
  · exact absurd (he ▸ hb.after) hb.before

end Lts

end Lib
