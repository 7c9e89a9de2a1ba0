import Mathlib.Logic.Relation

/-!
# Runs of a labelled transition system

A system has initial states and labelled steps. A run may be restricted by a side condition on
each of its steps (`Ok s l t`): the same system is then looked at under an assumption about its
environment without a second step relation.

* `Reach Ok s`: `s` is reached from an initial state;
* `Path Ok s tr t`: the steps `tr` lead from `s` to `t`; each is recorded with both its states.

The induction over a run is done once, here: `Reach.invariant` for what holds of every reachable
state, `Path.rel` for what relates the two ends of a run.
-/

namespace Lib

/-- A labelled transition system. -/
structure Lts (S L : Type) where
  init : S → Prop
  step : S → L → S → Prop

namespace Lts

variable {S L : Type} (A : Lts S L)

/-- The states reached through steps that meet `Ok`. -/
inductive Reach (Ok : S → L → S → Prop) : S → Prop where
  | init {s : S} (h : A.init s) : Reach Ok s
  | step {s t : S} {l : L} (h : Reach Ok s) (hs : A.step s l t) (hok : Ok s l t) : Reach Ok t

/-- A run from `s`, as the list of its steps. -/
inductive Path (Ok : S → L → S → Prop) (s : S) : List (S × L × S) → S → Prop where
  | nil : Path Ok s [] s
  | snoc {tr : List (S × L × S)} {t u : S} {l : L} (h : Path Ok s tr t) (hs : A.step t l u)
      (hok : Ok t l u) : Path Ok s (tr ++ [(t, l, u)]) u

variable {A} {Ok Ok' : S → L → S → Prop}

/-- **An invariant holds of every reachable state.** -/
theorem Reach.invariant {I : S → Prop} (h0 : ∀ s, A.init s → I s)
    (hstep : ∀ s l t, A.Reach Ok s → I s → A.step s l t → Ok s l t → I t) {s : S}
    (h : A.Reach Ok s) : I s := by
  induction h with
  | init h => exact h0 _ h
  | step hr hs hok ih => exact hstep _ _ _ hr ih hs hok

/-- A weaker side condition admits every run of a stronger one. -/
theorem Reach.mono (himp : ∀ s l t, Ok s l t → Ok' s l t) {s : S} (h : A.Reach Ok s) :
    A.Reach Ok' s := by
  induction h with
  | init h => exact .init h
  | step _ hs hok ih => exact .step ih hs (himp _ _ _ hok)

theorem Path.reach {s t : S} {tr : List (S × L × S)} (h : A.Path Ok s tr t)
    (hs : A.Reach Ok s) : A.Reach Ok t := by
  induction h with
  | nil => exact hs
  | snoc _ hst hok ih => exact .step ih hst hok

/-- Every reachable state is the end of a run from an initial one. -/
theorem Reach.path {t : S} (h : A.Reach Ok t) : ∃ s tr, A.init s ∧ A.Path Ok s tr t := by
  induction h with
  | init h => exact ⟨_, [], h, .nil⟩
  | step _ hs hok ih =>
    obtain ⟨s, tr, hi, hp⟩ := ih
    exact ⟨s, _, hi, .snoc hp hs hok⟩

/-- Every recorded step of a run is a step of the system, from a state the run reached. -/
theorem Path.mem {s t : S} {tr : List (S × L × S)} (h : A.Path Ok s tr t)
    {x : S × L × S} (hx : x ∈ tr) :
    A.step x.1 x.2.1 x.2.2 ∧ Ok x.1 x.2.1 x.2.2 ∧ ∃ tr', A.Path Ok s tr' x.1 := by
  induction h with
  | nil => cases hx
  | snoc hp hst hok ih =>
    rcases List.mem_append.mp hx with hx | hx
    · exact ih hx
    · obtain rfl := List.mem_singleton.mp hx
      exact ⟨hst, hok, _, hp⟩

/-- **A preorder that every step respects relates the ends of a run.** -/
theorem Path.rel {R : S → S → Prop} (hrefl : ∀ s, R s s)
    (htrans : ∀ s t u, R s t → R t u → R s u) {s t : S} {tr : List (S × L × S)}
    (h : A.Path Ok s tr t) (hstep : ∀ x ∈ tr, R x.1 x.2.2) : R s t := by
  induction h with
  | nil => exact hrefl _
  | snoc hp hst hok ih =>
    exact htrans _ _ _ (ih fun x hx => hstep x (List.mem_append_left _ hx))
      (hstep _ (List.mem_append_right _ (List.mem_singleton_self _)))

/-- **An invariant of the steps of a run holds at its end** when it holds at its start. -/
theorem Path.invariant {I : S → Prop} {s t : S} {tr : List (S × L × S)} (h : A.Path Ok s tr t)
    (hs : I s) (hstep : ∀ x ∈ tr, I x.1 → I x.2.2) : I t :=
  Path.rel (R := fun s t => I s → I t) (fun _ h => h) (fun _ _ _ h1 h2 h => h2 (h1 h)) h hstep hs

end Lts

end Lib
