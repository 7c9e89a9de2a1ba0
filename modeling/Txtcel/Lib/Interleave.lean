import Mathlib.Data.List.Pairwise
import Mathlib.Data.List.Perm.Basic
import Txtcel.Lib.Runs

/-!
# Independent operations, in any order

Operations are labels of a system, given by `ev`. They are independent when an operation that is
ready stays ready while those that are apart from it are executed (`Independent`).

* `exists_runs`: operations that are all ready and pairwise apart succeed in every order;
* `read_runs`: an observation that each operation updates by itself is a fold over them;
* `read_perm`: where the updates commute, the observation is the same after every order.
-/

namespace Lib

namespace Lts

variable {S L α V : Type} {A : Lts S L} {ev : α → L} {Ready : α → S → Prop}
  {Apart : α → α → Prop} {s t t' : S} {l l' : List α}

/-- The labels are executed one after the other. -/
inductive Runs (A : Lts S L) : S → List L → S → Prop where
  | nil {s : S} : Runs A s [] s
  | cons {s t u : S} {a : L} {l : List L} (hs : A.step s a t) (h : Runs A t l u) :
      Runs A s (a :: l) u

/-- Whatever is ready can be executed, and leaves ready what is apart from it. -/
structure Independent (A : Lts S L) (ev : α → L) (Ready : α → S → Prop) (Apart : α → α → Prop) :
    Prop where
  symm : ∀ a b, Apart a b → Apart b a
  steps : ∀ a s, Ready a s → ∃ t, A.step s (ev a) t
  keeps : ∀ a b s t, Apart a b → Ready a s → Ready b s → A.step s (ev b) t → Ready a t

/-- Each operation updates what is observed by itself. -/
def Updates (A : Lts S L) (ev : α → L) (Ready : α → S → Prop) (read : S → V) (act : V → α → V) :
    Prop :=
  ∀ a s t, Ready a s → A.step s (ev a) t → read t = act (read s) a

namespace Independent

variable (h : Independent A ev Ready Apart)
include h

/-- What is ready in a list stays ready when its first operation is executed. -/
theorem ready_tail {a : α} (hl : (a :: l).Pairwise Apart) (hr : ∀ b ∈ a :: l, Ready b s)
    (hs : A.step s (ev a) t) : ∀ b ∈ l, Ready b t := by
  intro b hb
  have hab : Apart a b := (List.pairwise_cons.mp hl).1 b hb
  exact h.keeps b a s t (h.symm a b hab) (hr b (List.mem_cons_of_mem a hb))
    (hr a List.mem_cons_self) hs

/-- **All of them succeed.** -/
theorem exists_runs (hl : l.Pairwise Apart) (hr : ∀ a ∈ l, Ready a s) :
    ∃ t, A.Runs s (l.map ev) t := by
  induction l generalizing s with
  | nil => exact ⟨s, .nil⟩
  | cons a l ih =>
    obtain ⟨t, hs⟩ := h.steps a s (hr a List.mem_cons_self)
    obtain ⟨u, hu⟩ := ih (List.pairwise_cons.mp hl).2 (h.ready_tail hl hr hs)
    exact ⟨u, .cons hs hu⟩

/-- **An observation is a fold.** -/
theorem read_runs {read : S → V} {act : V → α → V} (hact : Updates A ev Ready read act)
    (hl : l.Pairwise Apart) (hr : ∀ a ∈ l, Ready a s) (hrun : A.Runs s (l.map ev) t) :
    read t = l.foldl act (read s) := by
  induction l generalizing s with
  | nil =>
    cases hrun
    rfl
  | cons a l ih =>
    rw [List.map_cons] at hrun
    cases hrun with
    | cons hs hrest =>
      have htail := ih (List.pairwise_cons.mp hl).2 (h.ready_tail hl hr hs) hrest
      rw [htail, hact a _ _ (hr a List.mem_cons_self) hs, List.foldl_cons]

/-- Being pairwise apart does not depend on the order. -/
theorem pairwise_perm (hp : l.Perm l') (hl : l.Pairwise Apart) : l'.Pairwise Apart :=
  hl.perm hp fun hab => h.symm _ _ hab

/-- **The order does not matter** to an observation whose updates commute. -/
theorem read_perm {read : S → V} {act : V → α → V} (hact : Updates A ev Ready read act)
    (hcomm : ∀ a ∈ l, ∀ b ∈ l, Apart a b → ∀ v, act (act v a) b = act (act v b) a)
    (hp : l.Perm l') (hl : l.Pairwise Apart) (hr : ∀ a ∈ l, Ready a s)
    (hrun : A.Runs s (l.map ev) t) (hrun' : A.Runs s (l'.map ev) t') : read t = read t' := by
  have : Std.Symm Apart := ⟨fun a b hab => h.symm a b hab⟩
  rw [h.read_runs hact hl hr hrun, h.read_runs hact (h.pairwise_perm hp hl)
    (fun a ha => hr a (hp.mem_iff.mpr ha)) hrun']
  refine hp.foldl_eq' (fun a ha b hb v => ?_) _
  by_cases hab : a = b
  · rw [hab]
  · exact hcomm a ha b hb (hl.forall ha hb hab) v

end Independent

end Lts

end Lib
