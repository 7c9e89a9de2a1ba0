import Txtcel.System.Invariants
import Txtcel.System.Deployment

/-!
# The store is well formed

Whatever outsiders do between instructions, an account of the program that starts with a non-zero
byte is one structure, exactly, of the kind its tag names, as long as that structure's `size()`, at
the address of its own fields; and what is empty at a derived address is a fee shard. Forged bytes
never get in: outsiders hand over zeros only, and only at addresses the program cannot derive.
-/

namespace Txtcel

open Lib

variable {R : Runtime}

/-- Some step of the run created the thread at `k`, and `k` signed it. -/
def SignedCreation (R : Runtime) (k : Pubkey) (tr : List (Ledger × Event × Ledger)) : Prop :=
  ∃ τ sv accounts ix τ', (τ, Event.call sv accounts ix, τ') ∈ tr ∧ k ∈ signers accounts ∧
    τ.Free k ∧ (τ'.cell R).Live k

/-- The bytes of `k` are the structure `a`, and no other. -/
structure StoredAs (R : Runtime) (tr : List (Ledger × Event × Ledger)) (σ : Ledger) (k : Pubkey)
    (tag : UInt8) (a : AccountData) : Prop where
  kind : Kind.ofTag tag = some a.kind
  /-- `try_from_slice` of that kind reads it, with no byte left over. -/
  decodes : a.kind.read (σ.data k) = some a
  unique : ∀ b : AccountData, b.Valid → σ.data k = b.bytes → b = a
  size : (σ.data k).length = a.size
  placed : Placed R (σ.cell R) k a
  signed : ∀ x, a = .thread x → SignedCreation R k tr

/-- What is true of every account of the program. -/
structure WellStored (R : Runtime) (tr : List (Ledger × Event × Ledger)) (σ : Ledger)
    (k : Pubkey) : Prop where
  stored : ∀ tag, (σ.data k).head? = some tag → tag ≠ 0 → ∃ a, StoredAs R tr σ k tag a
  shard : R.IsPda k → σ.data k = [] → ShardPlaced R (σ.cell R) k
  zero : R.IsPda k → (σ.data k).head? ≠ some 0

/-- Every thread of a run was created in it by an instruction its key signed. -/
theorem path_signed {Ok : Ledger → Event → Ledger → Prop} {σ₀ σ : Ledger}
    {tr : List (Ledger × Event × Ledger)} (h0 : (program R).init σ₀)
    (h : (program R).Path Ok σ₀ tr σ) :
    ∀ k x, σ.cell R k = .holds (.thread x) → SignedCreation R k tr := by
  induction h with
  | nil => exact fun k x hk => absurd (owner_of_cell_holds hk) (h0.unowned k)
  | snoc hp hs hok ih =>
    rename_i tr τ σ e
    have hmono : ∀ k, SignedCreation R k tr → SignedCreation R k (tr ++ [(τ, e, σ)]) := by
      rintro k ⟨υ, sv, accounts, ix, υ', hmem, hrest⟩
      exact ⟨υ, sv, accounts, ix, υ', List.mem_append_left _ hmem, hrest⟩
    intro k x hk
    cases e with
    | outside => exact hmono k (ih k x ((Outside.holds_iff hs).mp hk))
    | call sv accounts ix =>
      have hlive : (σ.cell R).Live k := ⟨x, hk⟩
      rcases (reach_act (hp.reach (.init h0)) hs).change k with he | hc
      · exact hmono k (ih k x (he.symm.trans hk))
      · rw [hk] at hc
        generalize hx : τ.cell R k = y at hc
        cases hc with
        | createThread d h =>
          exact ⟨τ, sv, accounts, ix, σ, List.mem_append_right _ (List.mem_singleton_self _),
            h.thread_signed, h.thread_free, hlive⟩
        | growThread d h _ => exact hmono _ (ih _ _ hx)
        | editThread d h => exact hmono _ (ih _ _ hx)

/-- **The store is well formed**, after every run of instructions and outside steps. -/
theorem store_wellFormed {σ₀ σ : Ledger} {tr : List (Ledger × Event × Ledger)} {k : Pubkey}
    (h0 : (program R).init σ₀) (h : (program R).Path anyStep σ₀ tr σ)
    (ho : σ.owner k = R.programId) : WellStored R tr σ k := by
  have hw : WellFormed R (σ.cell R) := reach_wellFormed (h.reach (.init h0))
  have hcell : σ.cell R k = Cell.ofData (σ.data k) := cell_of_owner ho
  refine ⟨fun tag htag h0' => ?_, fun hpda hd => ?_, fun hpda hz => ?_⟩
  · -- the cell is neither junk nor empty, so it holds the structure of the tag
    have hne : ∃ a, σ.cell R k = .holds a := by
      cases hd : σ.data k with
      | nil => rw [hd] at htag; cases htag
      | cons b bs =>
        obtain rfl : b = tag := by
          rw [hd] at htag
          exact Option.some.inj htag
        have hjunk := hw.junk k
        rw [hd] at hcell
        simp only [Cell.ofData, if_neg h0'] at hcell
        cases hdec : AccountData.decode (b :: bs) with
        | some a => exact ⟨a, by rw [hcell, hdec]⟩
        | none => exact absurd (by rw [hcell, hdec]) hjunk
    obtain ⟨a, ha⟩ := hne
    obtain ⟨-, hv, hd⟩ := cell_eq_holds.mp ha
    have htag' : tag = a.kind.tag := by
      rw [hd, AccountData.head_bytes] at htag
      rw [← hv.tag_eq, Option.some.inj htag]
    exact ⟨a,
      { kind := Kind.ofTag_eq_some.mpr htag'
        decodes := AccountData.read_eq_some.mpr ⟨rfl, hv.fits, hd⟩
        unique := fun b hb hbd => by
          have hcb := cell_eq_holds.mpr ⟨ho, hb, hbd⟩
          rw [ha] at hcb
          exact (Cell.holds.inj hcb).symm
        size := by rw [hd, AccountData.length_bytes]
        placed := hw.placed k a ha
        signed := fun x hx => path_signed h0 h k x (hx ▸ ha) }⟩
  · exact hw.vault k hpda (cell_eq_vault.mpr ⟨ho, hd⟩)
  · refine hw.blank k ?_ hpda
    rw [hcell]
    cases hd : σ.data k with
    | nil => rw [hd] at hz; cases hz
    | cons b bs =>
      obtain rfl : b = 0 := by
        rw [hd] at hz
        exact Option.some.inj hz
      rfl

/-- The channel of the local history is stored well. -/
theorem store_wellFormed_channel :
    ∃ tr, WellStored localnet tr (afterCalls localnet Local.history Local.genesis)
      Local.channel := by
  obtain ⟨tr, hp, -⟩ := Local.history_path
    (show ∀ c ∈ Local.history, ∀ σ τ, anyStep σ c.event τ from fun _ _ _ _ => trivial)
  exact ⟨tr, store_wellFormed Local.genesis_init hp (by decide +kernel)⟩

end Txtcel
