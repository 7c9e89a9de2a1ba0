import Txtcel.Lib.Runs
import Txtcel.System.Changes

/-!
# The program as a state machine

The states are the ledgers. A step is a successful instruction -- any accounts, any signers but the
program's own addresses, any clock and rent -- or something outside the program:

* `Outside`: others send lamports anywhere and hand accounts to the program, zero-filled and at no
  address of its ten derivations; what the program already owns they neither write nor debit, and
  its free addresses they cannot claim. Other accounts are theirs to change.

A failed instruction is rolled back and is no step. Runs start from a ledger in which the program
owns nothing (`Fresh`). What is presumed of the addresses of the program (`IsPda`) is that nobody
else signs for them: not a wallet, which is a point of the curve (`OwnKeys.of_onCurve`), and not
another program, whose addresses are hashed from its own id.

* `reach_tidy`: no reachable account of the program holds bytes that are none of its structures;
* `reach_act`: so every successful instruction from a reachable state is an act;
* `reach_induction`: the induction every invariant uses.
-/

namespace Txtcel

open Lib

/-! ## 1. The machine -/

/-- What moves the ledger. -/
inductive Event where
  | call (sv : Sysvars) (accounts : List AccountInfo) (ix : ProgramInstruction)
  | outside

/-- A step outside the program. -/
structure Outside (R : Runtime) (σ σ' : Ledger) : Prop where
  owner : ∀ k, σ.owner k = R.programId → σ'.owner k = R.programId
  data : ∀ k, σ.owner k = R.programId → σ'.data k = σ.data k
  lamports : ∀ k, σ.owner k = R.programId → σ.lamports k ≤ σ'.lamports k
  created : ∀ k, σ'.owner k = R.programId → σ.owner k ≠ R.programId →
    ¬ R.IsPda k ∧ ∃ n, σ'.data k = List.replicate n 0
  /-- Allocating or assigning an address takes its signature. -/
  unclaimed : ∀ k, R.IsPda k → σ.Free k → σ'.Free k

/-- Nobody outside can sign for an address of the program. -/
def OwnKeys (R : Runtime) (accounts : List AccountInfo) : Prop :=
  ∀ k ∈ signers accounts, ¬ R.IsPda k

/-- Wallets are points of the curve, so none of them is an address of the program. -/
theorem OwnKeys.of_onCurve {R : Runtime} {accounts : List AccountInfo}
    (h : ∀ k ∈ signers accounts, R.onCurve k = true) : OwnKeys R accounts := by
  intro k hk hpda
  have hcurve := h k hk
  rw [hpda.not_onCurve] at hcurve
  cases hcurve

/-- The signers of a step are not the addresses of the program. -/
theorem OwnKeys.ne {R : Runtime} {accounts : List AccountInfo} {s : Pubkey}
    (h : OwnKeys R accounts) (hs : R.IsPda s) : ∀ w ∈ signers accounts, s ≠ w :=
  fun w hw he => h w hw (he ▸ hs)

/-- The program owns nothing yet, and nobody has claimed its addresses. -/
structure Fresh (R : Runtime) (σ : Ledger) : Prop where
  unowned : ∀ k, σ.owner k ≠ R.programId
  unclaimed : ∀ k, R.IsPda k → σ.Free k

/-- The deployed program. -/
def program (R : Runtime) : Lts Ledger Event where
  init := Fresh R
  step σ e σ' :=
    match e with
    | .call sv accounts ix =>
      OwnKeys R accounts ∧ processInstruction R sv accounts ix σ = .ok ((), σ')
    | .outside => Outside R σ σ'

/-- No condition on the steps. -/
def anyStep (_ : Ledger) (_ : Event) (_ : Ledger) : Prop := True

/-- The wallet an instruction names. -/
def ProgramInstruction.wallet? (ix : ProgramInstruction) : Option Pubkey :=
  (ix.addsTo <|> ix.removesFrom).map (·.1)

/-- Only keys in `K` sign and are named as wallets: with the platform's own, these are all keys that
    addresses are derived from. -/
def Within (K : Set Pubkey) (_ : Ledger) (e : Event) (_ : Ledger) : Prop :=
  ∀ sv accounts ix, e = .call sv accounts ix →
    (∀ k ∈ signers accounts, k ∈ K) ∧ ∀ w, ix.wallet? = some w → w ∈ K

/-- The rent is the same in every step. -/
def FixedRent (rent : Nat → UInt64) (_ : Ledger) (e : Event) (_ : Ledger) : Prop :=
  ∀ sv accounts ix, e = .call sv accounts ix → sv.minimumBalance = rent

/-- A fixed rent, and no keys but those in `K`. -/
def Steady (rent : Nat → UInt64) (K : Set Pubkey) (σ : Ledger) (e : Event) (σ' : Ledger) : Prop :=
  FixedRent rent σ e σ' ∧ Within K σ e σ'

/-! ## 2. Steps outside the program -/

section Outside

variable {R : Runtime} {σ σ' : Ledger} {k : Pubkey}

/-- What belongs to the program keeps its cell. -/
theorem Outside.cell_of_owner (h : Outside R σ σ') (ho : σ.owner k = R.programId) :
    σ'.cell R k = σ.cell R k :=
  cell_congr ((h.owner k ho).trans ho.symm) (h.data k ho)

/-- What was not the program's, and is now, holds nothing. -/
theorem Outside.cell_created (h : Outside R σ σ') (ho : σ.owner k ≠ R.programId)
    (ho' : σ'.owner k = R.programId) :
    ¬ R.IsPda k ∧ (σ'.cell R k = .vault ∨ σ'.cell R k = .blank) := by
  obtain ⟨hpda, n, hd⟩ := h.created k ho' ho
  refine ⟨hpda, ?_⟩
  rw [Txtcel.cell_of_owner ho', hd]
  cases n with
  | zero => exact .inl rfl
  | succ n => exact .inr (Cell.ofData_replicate _ (Nat.succ_pos n))

theorem owner_of_cell_holds {a : AccountData} (h : σ.cell R k = .holds a) :
    σ.owner k = R.programId := (cell_eq_holds.mp h).1

/-- **Structures are the same before and after.** -/
theorem Outside.holds_iff (h : Outside R σ σ') {a : AccountData} :
    σ'.cell R k = .holds a ↔ σ.cell R k = .holds a := by
  by_cases ho : σ.owner k = R.programId
  · rw [h.cell_of_owner ho]
  · constructor
    · intro hc
      rcases (h.cell_created ho (owner_of_cell_holds hc)).2 with hv | hb
      · exact nomatch hv.symm.trans hc
      · exact nomatch hb.symm.trans hc
    · intro hc
      exact absurd (owner_of_cell_holds hc) ho

/-- What is read off structures only is not changed from outside. -/
theorem Outside.read_eq {B : Type} (h : Outside R σ σ') {read : Cell → Option B}
    (hread : ∀ x, (∀ a, x ≠ .holds a) → read x = none) (k : Pubkey) :
    read (σ'.cell R k) = read (σ.cell R k) := by
  by_cases hx : ∃ a, σ.cell R k = .holds a
  · obtain ⟨a, ha⟩ := hx
    rw [ha, h.holds_iff.mpr ha]
  · rw [not_exists] at hx
    rw [hread _ hx, hread _ fun a ha => hx a (h.holds_iff.mp ha)]

/-- At an address of the program, a vault was a vault before. -/
theorem Outside.vault_iff (h : Outside R σ σ') (hk : R.IsPda k) :
    σ'.cell R k = .vault ↔ σ.cell R k = .vault := by
  by_cases ho : σ.owner k = R.programId
  · rw [h.cell_of_owner ho]
  · constructor
    · intro hc
      exact absurd hk (h.cell_created ho (cell_eq_vault.mp hc).1).1
    · intro hc
      exact absurd (cell_eq_vault.mp hc).1 ho

end Outside

/-! ## 3. Reachable states -/

section Reach

variable {R : Runtime} {Ok : Ledger → Event → Ledger → Prop}

/-- A cell that is not the program's is free or foreign. -/
theorem cell_of_ne_owner {σ : Ledger} {k : Pubkey} (h : σ.owner k ≠ R.programId) :
    σ.cell R k = .free ∨ σ.cell R k = .foreign := by
  unfold Ledger.cell
  rw [if_neg h]
  split
  · exact .inl rfl
  · exact .inr rfl

/-- Nothing an instruction writes is junk. -/
theorem Change.ne_junk {sv : Sysvars} {accounts : List AccountInfo} {σ σ' : Ledger}
    {ix : ProgramInstruction} {k : Pubkey} {x y : Cell}
    (h : Change R sv accounts σ σ' ix k x y) : y ≠ .junk := by
  cases h <;> nofun

theorem Act.tidy {sv : Sysvars} {accounts : List AccountInfo} {σ σ' : Ledger}
    {ix : ProgramInstruction} (h : Act R sv accounts σ σ' ix) (hT : σ.Tidy R) : σ'.Tidy R := by
  intro k hk
  rcases h.change k with he | hc
  · exact hT k (he.symm.trans hk)
  · exact hc.ne_junk hk

/-- **No reachable account of the program holds junk.** -/
theorem reach_tidy {σ : Ledger} (h : (program R).Reach Ok σ) : σ.Tidy R := by
  refine h.invariant (I := fun σ => σ.Tidy R) ?_ ?_
  · intro σ hinit k hk
    rcases cell_of_ne_owner (hinit.unowned k) with hc | hc
    · exact nomatch hc.symm.trans hk
    · exact nomatch hc.symm.trans hk
  · intro σ e σ' _ hT hs _
    cases e with
    | call sv accounts ix => exact (processInstruction_ok hT hs.1 hs.2).tidy hT
    | outside =>
      intro k hk
      by_cases ho : σ.owner k = R.programId
      · exact hT k ((Outside.cell_of_owner hs ho).symm.trans hk)
      · by_cases ho' : σ'.owner k = R.programId
        · rcases (Outside.cell_created hs ho ho').2 with hv | hb
          · exact nomatch hv.symm.trans hk
          · exact nomatch hb.symm.trans hk
        · rcases cell_of_ne_owner ho' with hc | hc
          · exact nomatch hc.symm.trans hk
          · exact nomatch hc.symm.trans hk

/-- **A successful instruction from a reachable state is an act.** -/
theorem reach_act {σ σ' : Ledger} {sv : Sysvars} {accounts : List AccountInfo}
    {ix : ProgramInstruction} (h : (program R).Reach Ok σ)
    (hs : (program R).step σ (.call sv accounts ix) σ') : Act R sv accounts σ σ' ix :=
  processInstruction_ok (reach_tidy h) hs.1 hs.2

/-- **Induction over reachable states**: a fresh ledger; an act; a step outside. -/
theorem reach_induction {I : Ledger → Prop} (h0 : ∀ σ, Fresh R σ → I σ)
    (hcall : ∀ σ σ' sv accounts ix, (program R).Reach Ok σ → I σ →
      Act R sv accounts σ σ' ix → OwnKeys R accounts → Ok σ (.call sv accounts ix) σ' → I σ')
    (hout : ∀ σ σ', (program R).Reach Ok σ → I σ → Outside R σ σ' → Ok σ .outside σ' → I σ')
    {σ : Ledger} (h : (program R).Reach Ok σ) : I σ := by
  refine h.invariant h0 ?_
  intro σ e σ' hr hI hs hok
  cases e with
  | call sv accounts ix => exact hcall σ σ' sv accounts ix hr hI (reach_act hr hs) hs.1 hok
  | outside => exact hout σ σ' hr hI hs hok

/-- A cell that is not foreign is free or the program's. -/
theorem cell_ne_foreign {σ : Ledger} {k : Pubkey} :
    σ.cell R k ≠ .foreign ↔ σ.Free k ∨ σ.owner k = R.programId := by
  constructor
  · intro h
    by_cases ho : σ.owner k = R.programId
    · exact .inr ho
    · rcases cell_of_ne_owner ho with hc | hc
      · exact .inl (cell_eq_free.mp hc)
      · exact absurd hc h
  · rintro (hf | ho)
    · rw [cell_eq_free.mpr hf]
      nofun
    · rw [cell_of_owner ho]
      unfold Cell.ofData
      repeat' split
      all_goals nofun

theorem Change.ne_foreign {sv : Sysvars} {accounts : List AccountInfo} {σ σ' : Ledger}
    {ix : ProgramInstruction} {k : Pubkey} {x y : Cell}
    (h : Change R sv accounts σ σ' ix k x y) : y ≠ .foreign := by
  cases h <;> nofun

/-- **An address of the program is free or the program's**, in every reachable store. -/
theorem reach_pda {σ : Ledger} {k : Pubkey} (h : (program R).Reach Ok σ) (hk : R.IsPda k) :
    σ.Free k ∨ σ.owner k = R.programId := by
  refine reach_induction (I := fun σ => σ.Free k ∨ σ.owner k = R.programId) ?_ ?_ ?_ h
  · intro σ h0
    exact .inl (h0.unclaimed k hk)
  · intro σ σ' sv accounts ix _ hI hact _ _
    rw [← cell_ne_foreign] at hI ⊢
    rcases hact.change k with he | hc
    · rwa [he]
    · exact hc.ne_foreign
  · intro σ σ' _ hI hout _
    exact hI.imp (hout.unclaimed k hk) (hout.owner k)

end Reach

end Txtcel
