import Txtcel.Properties.PostCharge

/-!
# Rent exemption is never lost

At a fixed rent that grows with the size, every account the program created holds the rent minimum
of its current data, until it is closed: a created account is funded, a resized one is topped up or
keeps its new minimum, a sweep leaves the minimum of an empty account, and nothing else debits an
account of the program.

* `Exempt`: the invariant, for the accounts that hold a structure; shards are `reach_funded`;
* `Act.exempt`: one act keeps it;
* `rent_exempt`: every reachable state.
-/

namespace Txtcel

open Lib Function

variable {R : Runtime} {sv : Sysvars} {accounts : List AccountInfo} {σ σ' : Ledger}
  {ix : ProgramInstruction} {K : Set Pubkey} {rent : Nat → UInt64} {k j s t a : Pubkey}
  {c : Cells} {lam lam' : Pubkey → Nat} {m : Nat → Nat}

/-! ## 1. The invariant -/

/-- Every structure is on an account that holds the minimum `m` of its size. -/
def Exempt (m : Nat → Nat) (c : Cells) (lam : Pubkey → Nat) : Prop :=
  ∀ k a, c k = .holds a → m a.size ≤ lam k

namespace Exempt

theorem mono (h : Exempt m c lam) (hle : ∀ k a, c k = .holds a → lam k ≤ lam' k) :
    Exempt m c lam' :=
  fun k a hk => (h k a hk).trans (hle k a hk)

/-- A written account is looked at, the others are as before. -/
theorem update {x : Cell} (h : ∀ k, k ≠ j → ∀ a, c k = .holds a → m a.size ≤ lam k)
    (hx : ∀ a, x = .holds a → m a.size ≤ lam j) : Exempt m (update c j x) lam := by
  intro k a hk
  by_cases hkj : k = j
  · subst hkj
    rw [update_self] at hk
    exact hx a hk
  · rw [update_of_ne hkj] at hk
    exact h k hkj a hk

/-- A new account needs its funds. -/
theorem holds {x : AccountData} (h : Exempt m c lam) (hx : m x.size ≤ lam j) :
    Exempt m (Function.update c j (.holds x)) lam :=
  .update (fun k _ => h k) fun a ha => by
    cases ha
    exact hx

/-- An account that is rewritten in its size keeps its funds. -/
theorem rewrite {x y : AccountData} (h : Exempt m c lam) (hold : c j = .holds x)
    (hsize : y.size = x.size) : Exempt m (Function.update c j (.holds y)) lam :=
  h.holds (hsize ▸ h j x hold)

theorem freed (h : ∀ k, k ≠ j → ∀ a, c k = .holds a → m a.size ≤ lam k) :
    Exempt m (Function.update c j .free) lam :=
  .update h fun a ha => by cases ha

/-- An opened shard holds no structure. -/
theorem opened (h : Exempt m c lam) : Exempt m (c.open s) lam := by
  intro k a hk
  rcases c.open_apply s k with he | ⟨-, -, hv⟩
  · exact h k a (he.symm.trans hk)
  · rw [hv] at hk
    cases hk

end Exempt

/-- An account of the program is not debited by who pays. -/
theorem spends_le {p : Pubkey} {x : AccountData} (h : σ.Spends p σ') (hk : σ.cell R k = .holds x) :
    σ.lamports k ≤ σ'.lamports k := by
  by_cases hp : k = p
  · subst hp
    by_contra hlt
    exact R.programId_ne ((owner_of_cell_holds hk).symm.trans (h.payer (Nat.lt_of_not_le hlt)))
  · exact h.others k hp

/-! ## 2. One act -/

section Acts

variable (hS : OwnKeys R accounts) (hI : Exempt sv.rent (σ.cell R) σ.lamports)

include hS hI

theorem InitSettings.Ok.exempt {d : InitSettings} (h : d.Ok R sv accounts σ σ') :
    Exempt sv.rent (σ'.cell R) σ'.lamports := by
  have hne := hS.ne h.addr.isPda _ h.signer
  rw [h.cells]
  refine (hI.mono fun k a => spends_le h.spends).holds ?_
  rw [h.post, Ledger.put_lamports]
  exact Ledger.create_funds hne

theorem RootAlloc.Ok.exempt {d : RootAlloc} (h : d.Ok R sv accounts σ σ') :
    Exempt sv.rent (σ'.cell R) σ'.lamports := by
  have hna := hS.ne h.alloc_addr.isPda _ h.payer_signed
  rw [h.cells]
  refine (((hI.mono fun k a => spends_le h.spends).opened.holds ?_).holds ?_)
  · rw [h.post, Ledger.put_lamports, Ledger.put_lamports, RootAlloc.funded]
    exact ((Ledger.create_funds h.thread_ne_payer).trans (Ledger.le_collect h.thread_ne_payer)).trans
      (Ledger.le_create h.thread_ne_payer)
  · rw [h.post, Ledger.put_lamports, Ledger.put_lamports, RootAlloc.funded]
    exact Ledger.create_funds hna

theorem NextAlloc.Ok.exempt {d : NextAlloc} (h : d.Ok R sv accounts σ σ') :
    Exempt sv.rent (σ'.cell R) σ'.lamports := by
  have hnp := hS.ne h.page_addr.isPda _ h.payer_signed
  have hth := h.thread_holds.cell h.thread_tag
  rw [h.cells]
  refine ((hI.mono fun k a => spends_le h.spends).holds ?_).rewrite
    (x := .thread d.old) ((update_of_ne h.page_ne _ _).trans hth) rfl
  rw [h.post, Ledger.put_lamports, Ledger.put_lamports]
  exact Ledger.create_funds hnp

theorem InitAccess.Ok.exempt {d : InitAccess} (h : d.Ok R sv accounts σ σ') :
    Exempt sv.rent (σ'.cell R) σ'.lamports := by
  have hne := hS.ne h.access_addr.isPda _ h.signer
  rw [h.cells]
  refine (hI.mono fun k a => spends_le h.spends).opened.holds ?_
  rw [h.post, Ledger.put_lamports]
  exact Ledger.create_funds hne

theorem SetEntry.Ok.exempt {d : SetEntry} (h : d.Ok R sv accounts σ σ') :
    Exempt sv.rent (σ'.cell R) σ'.lamports := by
  have hne := hS.ne h.entry_addr.isPda _ h.signer
  have hac := h.access_holds.cell h.access_tag
  have hle := hI.mono fun k a => spends_le h.spends
  rw [h.cells]
  refine Exempt.rewrite ?_ ((update_of_ne h.access_ne _ _).trans hac) rfl
  refine hle.holds ?_
  have hb := h.before
  rw [h.post, Ledger.put_lamports]
  cases hp : d.prev with
  | none =>
    simp only [SetEntry.written, hp, Ledger.put_lamports]
    exact Ledger.create_funds hne
  | some c =>
    simp only [SetEntry.Before, hp] at hb
    simp only [SetEntry.written, hp, Ledger.put_lamports]
    exact hI d.entry (.entry (entryNode d.old.thread d.wallet c)) (hb.cell rfl)

omit hS in
theorem RemoveEntry.Ok.exempt {d : RemoveEntry} (h : d.Ok R accounts σ σ') :
    Exempt sv.rent (σ'.cell R) σ'.lamports := by
  have hac := h.access_holds.cell h.access_tag
  rw [h.cells]
  refine Exempt.rewrite (.freed ?_) ((update_of_ne h.access_ne _ _).trans hac) rfl
  intro k hk a hx
  rw [h.post, Ledger.put_lamports, Ledger.allot_lamports]
  exact (hI k a hx).trans (Ledger.le_pay hk)

theorem RequestAccess.Ok.exempt {d : RequestAccess} (h : d.Ok R sv accounts σ σ') :
    Exempt sv.rent (σ'.cell R) σ'.lamports := by
  have hne := hS.ne h.entry_addr.isPda _ h.signer
  have hac := h.access_holds.cell h.access_tag
  have hle := hI.mono fun k a => spends_le h.spends
  have hopen : (((σ.cell R).open d.treasury).open d.author) d.access = .holds (.access d.old) := by
    have h1 : (σ.cell R).open d.treasury d.access = σ.cell R d.access :=
      Cells.open_of_ne_free (by rw [hac]; simp)
    rw [Cells.open_of_ne_free (by rw [h1, hac]; simp), h1, hac]
    rfl
  rw [h.cells]
  refine Exempt.rewrite (x := .access d.old) (hle.opened.opened.holds ?_)
    ((update_of_ne h.access_ne _ _).trans hopen) rfl
  rw [h.post, Ledger.put_lamports, Ledger.put_lamports]
  exact Ledger.create_funds hne

theorem FillSlot.Ok.exempt {d : FillSlot} (h : d.Ok R sv accounts σ σ') :
    Exempt sv.rent (σ'.cell R) σ'.lamports := by
  have hne := hS.ne h.content_addr.isPda _ h.signer
  have hstored : d.rent sv ≤ (d.stored R sv σ).lamports d.content := by
    rw [FillSlot.stored, Ledger.put_lamports]
    exact Ledger.create_funds hne
  have hfunds : d.rent sv ≤ σ'.lamports d.content := by
    rw [h.post_eq]
    exact hstored.trans ((Ledger.le_collect hne).trans (Ledger.le_split hne))
  rw [h.cells]
  exact (hI.mono fun k a => spends_le h.spends).opened.opened.holds
    (x := .content (d.message sv)) hfunds

theorem AppendContent.Ok.exempt {d : AppendContent} (h : d.Ok R sv accounts σ σ') :
    Exempt sv.rent (σ'.cell R) σ'.lamports := by
  have hne := hS.ne h.content_addr.isPda _ h.signer
  have hfunds : d.newRent sv ≤ σ'.lamports d.content := by
    rw [h.post, Ledger.put_lamports, AppendContent.charged]
    split
    · exact (Ledger.pay_funds hne).trans ((Ledger.le_openShard hne).trans (Ledger.le_collect hne))
    · exact Ledger.pay_funds hne
  have hle := hI.mono fun k a => spends_le h.spends
  rw [h.cells]
  split
  · exact hle.opened.holds hfunds
  · exact hle.holds hfunds

theorem LikeContent.Ok.exempt {d : LikeContent} (h : d.Ok R sv accounts σ σ') :
    Exempt sv.rent (σ'.cell R) σ'.lamports := by
  have hne := hS.ne h.likes_addr.isPda _ h.signer
  have hle := hI.mono fun k a => spends_le h.spends
  have hb := h.before
  have hfunds : sv.rent AllocLikes.size ≤ σ'.lamports d.likes := by
    cases hp : d.prev with
    | none =>
      have hcounted : sv.rent AllocLikes.size ≤ (d.counted R sv σ).lamports d.likes := by
        simp only [LikeContent.counted, hp, Ledger.put_lamports]
        exact Ledger.create_funds hne
      rw [h.post]
      exact hcounted.trans (Ledger.le_split hne)
    | some l =>
      simp only [LikeContent.Before, hp] at hb
      exact hle d.likes (.likes l) (hb.1.cell hb.2)
  rw [h.cells]
  exact hle.opened.opened.holds (x := .likes d.new) hfunds

omit hS in
theorem CloseContent.Ok.exempt {d : CloseContent} (h : d.Ok R accounts σ σ') :
    Exempt sv.rent (σ'.cell R) σ'.lamports := by
  rw [h.cells]
  have hcleared : Exempt sv.rent (d.clearedCells (σ.cell R)) σ.lamports := by
    unfold CloseContent.clearedCells
    cases hr : d.reset with
    | none => exact hI
    | some r =>
      have hok := h.reset r hr
      exact hI.rewrite (hok.holds.cell hok.tag) rfl
  have hlam : (d.cleared σ).lamports = σ.lamports := by
    unfold CloseContent.cleared
    cases d.reset <;> rfl
  refine .freed fun k hk a hx => ?_
  rw [h.post, Ledger.allot_lamports]
  refine (hcleared k a hx).trans ?_
  rw [← hlam]
  exact Ledger.le_pay hk

theorem Subscribe.Ok.exempt {d : Subscribe} (h : d.Ok R sv accounts σ σ') :
    Exempt sv.rent (σ'.cell R) σ'.lamports := by
  have hnr := hS.ne h.registry_addr.isPda _ h.signer
  have hns := hS.ne h.shard_addr.isPda _ h.signer
  have hle := hI.mono fun k a => spends_le h.spends
  have hb := h.shard_before
  rw [h.cells]
  refine (hle.holds ?_).holds ?_
  · have hreg : sv.rent (FollowRegistry.size d.new.channels.length) ≤
        (d.registered R sv σ).lamports d.registry := Ledger.pay_funds hnr
    rw [h.post, Subscribe.counted]
    cases d.prevShard with
    | none =>
      simp only [Ledger.put_lamports]
      exact hreg.trans (Ledger.le_create hnr)
    | some c => exact hreg
  · cases hp : d.prevShard with
    | none =>
      simp only [h.post, Subscribe.counted, hp, Ledger.put_lamports]
      exact Ledger.create_funds hns
    | some c =>
      simp only [Subscribe.ShardBefore, hp] at hb
      exact hle d.shard (.follower c) (hb.1.cell hb.2.1)

theorem Unsubscribe.Ok.exempt {d : Unsubscribe} (hm : Monotone sv.rent)
    (h : d.Ok R sv accounts σ σ') : Exempt sv.rent (σ'.cell R) σ'.lamports := by
  have hnr : d.registry ≠ d.user := hS.ne h.registry_addr.isPda _ h.signer
  have hreg : σ.cell R d.registry = .holds (.registry d.old) :=
    h.registry_holds.cell h.registry_tag
  have hsh := h.shard_holds.cell h.shard_tag
  have hlam : σ'.lamports = (σ.pay d.registry d.user
      (σ.lamports d.registry - d.required sv)).lamports := by
    rw [h.post]
    rfl
  have hothers : ∀ k, k ≠ d.registry → σ.lamports k ≤ σ'.lamports k := fun k hk => by
    rw [hlam]
    exact Ledger.le_pay hk
  have hrefund : d.required sv ≤ σ'.lamports d.registry := by
    -- the larger registry was exempt, so what stays behind is the smaller one's minimum
    have hold : sv.rent (FollowRegistry.size d.old.channels.length) ≤ σ.lamports d.registry :=
      hI d.registry _ hreg
    have hless : d.required sv ≤ sv.rent (FollowRegistry.size d.old.channels.length) := by
      refine hm ?_
      simp only [Unsubscribe.new, length_swapRemove, FollowRegistry.size]
      omega
    rw [hlam, Ledger.pay_src _ _ _ _ (Ne.symm hnr)]
    omega
  rw [h.cells]
  refine .update (fun k hk a ha => ?_) fun a ha => ?_
  · by_cases hkr : k = d.registry
    · subst hkr
      rw [update_self] at ha
      cases ha
      exact hrefund
    · rw [update_of_ne hkr] at ha
      exact (hI k a ha).trans (hothers k hkr)
  · cases ha
    exact (hI d.shard _ hsh).trans (hothers _ (Ne.symm h.registry_ne))

omit hS

theorem SettingsEdit.Ok.exempt {d : SettingsEdit} (h : d.Ok R accounts σ σ') :
    Exempt sv.rent (σ'.cell R) σ'.lamports := by
  have hold := h.holds.cell h.tag
  rw [h.cells, h.post]
  exact hI.rewrite hold rfl

theorem ThreadEdit.Ok.exempt {d : ThreadEdit} (h : d.Ok R accounts σ σ') :
    Exempt sv.rent (σ'.cell R) σ'.lamports := by
  have hold := h.holds.cell h.tag
  have hsize : (AccountData.thread d.new).size = (AccountData.thread d.old).size :=
    congrArg (fun t : Bytes => ThreadNode.size t.length) h.change.title_eq
  rw [h.cells, h.post]
  exact hI.rewrite hold hsize

theorem AccessEdit.Ok.exempt {d : AccessEdit} (h : d.Ok R accounts σ σ') :
    Exempt sv.rent (σ'.cell R) σ'.lamports := by
  have hold := h.holds.cell h.tag
  rw [h.cells, h.post]
  exact hI.rewrite hold rfl

/-- A sweep debits vaults only. -/
theorem exempt_of_sweep {q : Pubkey} {ks : List Pubkey} (hpost : σ' = σ.sweep (sv.rent 0) q ks)
    (hcells : σ'.cell R = σ.cell R) (hks : ∀ k ∈ ks, ¬ σ.Free k → σ.cell R k = .vault) :
    Exempt sv.rent (σ'.cell R) σ'.lamports := by
  rw [hcells]
  refine hI.mono fun k a hk => ?_
  by_contra hlt
  rw [hpost] at hlt
  obtain ⟨-, hmem, hnf, -⟩ := sweep_debit (Nat.lt_of_not_le hlt)
  rw [hks k hmem hnf] at hk
  cases hk

end Acts

/-- Every fee shard of a live thread, and of the platform, is free or a vault. -/
def ShardsApart (R : Runtime) (σ : Ledger) : Prop :=
  ∀ (p : Pda) (k : Pubkey), p.IsFeeShard → R.HasAddress p k →
    (∀ t, p.thread? = some t → (σ.cell R).Live t) → ¬ σ.Free k → σ.cell R k = .vault

/-- **One act keeps every account exempt.** -/
theorem Act.exempt (h : Act R sv accounts σ σ' ix) (hS : OwnKeys R accounts)
    (hm : Monotone sv.rent) (hV : ShardsApart R σ)
    (hI : Exempt sv.rent (σ.cell R) σ.lamports) : Exempt sv.rent (σ'.cell R) σ'.lamports := by
  cases h with
  | initSettings d h => exact h.exempt hS hI
  | settingsEdit d h _ => exact h.exempt hI
  | treasurySweep d h =>
    refine exempt_of_sweep hI h.post h.cells fun k hk hnf => ?_
    obtain ⟨-, i, hi, ha⟩ := h.shards k hk hnf
    exact hV (.treasuryShard i) k hi ha (by simp [Pda.thread?]) hnf
  | authorSweep d h =>
    refine exempt_of_sweep hI h.post h.cells fun k hk hnf => ?_
    obtain ⟨-, i, hi, ha⟩ := h.shards k hk hnf
    refine hV (.authorFee d.thread i) k hi ha (fun t ht => ?_) hnf
    cases ht
    exact ⟨d.node, h.holds.cell h.tag⟩
  | rootAlloc d h => exact h.exempt hS hI
  | nextAlloc d h => exact h.exempt hS hI
  | threadEdit d h _ => exact h.exempt hI
  | initAccess d h => exact h.exempt hS hI
  | accessEdit d h _ => exact h.exempt hI
  | setEntry d h _ => exact h.exempt hS hI
  | removeEntry d h _ => exact h.exempt hI
  | requestAccess d h => exact h.exempt hS hI
  | fillSlot d h _ => exact h.exempt hS hI
  | appendContent d h => exact h.exempt hS hI
  | likeContent d h => exact h.exempt hS hI
  | closeContent d h => exact h.exempt hI
  | subscribe d h => exact h.exempt hS hI
  | unsubscribe d h => exact h.exempt hS hI hm

/-! ## 3. Every reachable state -/

theorem reach_shardsApart (hK : R.CollisionFree K) (h : (program R).Reach (Within K) σ) :
    ShardsApart R σ := by
  intro p k hp ha ht hnf
  have hkeys := hp.keys_subset fun t h' => reach_live_within h (ht t h')
  rcases reach_stored hK h ha hkeys with hf | hst
  · exact absurd hf hnf
  · generalize σ.cell R k = x at hst
    cases p with
    | treasuryShard i => cases hst; rfl
    | authorFee t i => cases hst; rfl
    | _ => exact False.elim hp

/-- **Every structure in a reachable store is on an exempt account.** -/
theorem reach_exempt (hK : R.CollisionFree K) (hm : Monotone fun n => (rent n).toNat)
    (h : (program R).Reach (Steady rent K) σ) :
    Exempt (fun n => (rent n).toNat) (σ.cell R) σ.lamports := by
  refine reach_induction
    (I := fun σ => Exempt (fun n => (rent n).toNat) (σ.cell R) σ.lamports) ?_ ?_ ?_ h
  · intro σ h0 k a hk
    exact absurd (owner_of_cell_holds hk) (h0.unowned k)
  · intro σ σ' sv accounts ix hr hI hact hown hok
    obtain rfl : sv.minimumBalance = rent := hok.1 _ _ _ rfl
    exact hact.exempt hown hm
      (reach_shardsApart hK (hr.mono fun _ _ _ hok => hok.2)) hI
  · intro σ σ' _ hI hout _ k a hk
    have hold := hout.holds_iff.mp hk
    exact (hI k a hold).trans (hout.lamports k (owner_of_cell_holds hold))

/-! ## 4. What the program created -/

/-- An account as the program leaves it: a structure, or a fee shard. -/
def Made (R : Runtime) (σ : Ledger) (k : Pubkey) : Prop :=
  (∃ a, σ.cell R k = .holds a) ∨ (R.IsPda k ∧ σ.cell R k = .vault)

/-- The run `tr` created the account `k` by an instruction, and did not close it since. -/
def CreatedIn (R : Runtime) (k : Pubkey) (tr : List (Ledger × Event × Ledger)) : Prop :=
  ∃ pre x post, tr = pre ++ x :: post ∧ (∃ sv accounts ix, x.2.1 = .call sv accounts ix) ∧
    x.1.owner k ≠ R.programId ∧ ∀ y ∈ x :: post, y.2.2.owner k = R.programId

/-- The last step of a run created the account, or kept it. -/
theorem CreatedIn.snoc {tr : List (Ledger × Event × Ledger)} {y : Ledger × Event × Ledger}
    (h : CreatedIn R k (tr ++ [y])) : y.2.2.owner k = R.programId ∧
      (CreatedIn R k tr ∨
        ((∃ sv accounts ix, y.2.1 = .call sv accounts ix) ∧ y.1.owner k ≠ R.programId)) := by
  obtain ⟨pre, x, post, htr, hcall, hne, hkept⟩ := h
  rcases List.eq_nil_or_concat post with rfl | ⟨post, z, rfl⟩
  · obtain ⟨-, hy⟩ := List.append_inj' htr rfl
    obtain rfl := List.singleton_inj.mp hy
    exact ⟨hkept _ (List.mem_singleton_self _), .inr ⟨hcall, hne⟩⟩
  · rw [List.concat_eq_append, ← List.cons_append, ← List.append_assoc] at htr
    obtain ⟨rfl, hy⟩ := List.append_inj' htr rfl
    obtain rfl := List.singleton_inj.mp hy
    refine ⟨hkept _ (by simp), .inl ⟨pre, x, post, rfl, hcall, hne, fun w hw => hkept w ?_⟩⟩
    rw [List.concat_eq_append, ← List.cons_append]
    exact List.mem_append_left _ hw

/-- What a change leaves is free or as the program leaves an account. -/
theorem Change.made {y : Cell} {x : Cell} (h : Change R sv accounts σ σ' ix k x y) :
    y = .free ∨ (∃ a, y = .holds a) ∨ (R.IsPda k ∧ y = .vault) := by
  cases h with
  | openShard p _ ha _ => exact .inr (.inr ⟨ha.isPda, rfl⟩)
  | removeEntry d h _ => exact .inl rfl
  | closeContent d h _ => exact .inl rfl
  | _ => exact .inr (.inl ⟨_, rfl⟩)

/-- An instruction leaves an account of the program as it was, or as it leaves accounts. -/
theorem Act.made (h : Act R sv accounts σ σ' ix) (ho : σ'.owner k = R.programId)
    (hbefore : σ.owner k = R.programId → Made R σ k) : Made R σ' k := by
  rcases h.change k with he | hc
  · have hown : σ.owner k = R.programId := by
      have hnf : σ'.cell R k ≠ .free := fun hf =>
        R.programId_ne (ho.symm.trans (cell_eq_free.mp hf).1)
      have hnn : σ'.cell R k ≠ .foreign := cell_ne_foreign.mpr (.inr ho)
      rw [he] at hnf hnn
      exact (cell_ne_foreign.mp hnn).resolve_left fun hf => hnf (cell_eq_free.mpr hf)
    unfold Made
    rw [he]
    exact hbefore hown
  · rcases hc.made with hf | hm
    · exact absurd (ho.symm.trans (cell_eq_free.mp hf).1) R.programId_ne
    · exact hm

theorem path_made {Ok : Ledger → Event → Ledger → Prop} {σ₀ : Ledger}
    {tr : List (Ledger × Event × Ledger)} (h0 : (program R).init σ₀)
    (hp : (program R).Path Ok σ₀ tr σ) (hk : CreatedIn R k tr) : Made R σ k := by
  induction hp with
  | nil =>
    obtain ⟨pre, x, post, htr, -⟩ := hk
    simp at htr
  | @snoc tr τ σ e hp hstep _ ih =>
    obtain ⟨ho, hlast⟩ := hk.snoc
    cases e with
    | call sv accounts ix =>
      refine (reach_act (hp.reach (.init h0)) hstep).made ho fun hown => ?_
      exact ih (hlast.resolve_right fun hnew => hnew.2 hown)
    | outside =>
      have hcreated : CreatedIn R k tr := hlast.resolve_right fun hnew => by
        obtain ⟨⟨_, _, _, hcall⟩, -⟩ := hnew
        cases hcall
      have hown : τ.owner k = R.programId := by
        rcases ih hcreated with ⟨a, ha⟩ | ⟨-, hv⟩
        · exact owner_of_cell_holds ha
        · exact (cell_eq_vault.mp hv).1
      unfold Made
      rw [Outside.cell_of_owner hstep hown]
      exact ih hcreated

/-- **Rent exemption is never lost.** At a fixed rent that grows with the size, every account an
    instruction created, and none closed since, holds the minimum of its current data. -/
theorem rent_exempt {σ₀ : Ledger} {tr : List (Ledger × Event × Ledger)} (hK : R.CollisionFree K)
    (hm : Monotone fun n => (rent n).toNat) (h0 : (program R).init σ₀)
    (hp : (program R).Path (Steady rent K) σ₀ tr σ) (hk : CreatedIn R k tr) :
    (rent (σ.data k).length).toNat ≤ σ.lamports k := by
  have hr := hp.reach (.init h0)
  rcases path_made h0 hp hk with ⟨a, ha⟩ | ⟨hpda, hv⟩
  · rw [(cell_eq_holds.mp ha).2.2, a.length_bytes]
    exact reach_exempt hK hm hr k a ha
  · rw [(cell_eq_vault.mp hv).2]
    exact reach_funded (hr.mono fun _ _ _ hok => hok.1) hpda hv

namespace Local

/-- A rent that grows with the size, up to one no account reaches. -/
def growingRent : Sysvars where
  minimumBalance n := UInt64.ofNat (100 + min n 20000)
  unixTimestamp := 0

/-- The gated channel, at that rent. -/
def grownHistory : List Call := history.map fun c => { c with sv := growingRent }

def grownPost : Call := { postBob with sv := growingRent }

theorem growingRent_mono : Monotone fun n => (growingRent.minimumBalance n).toNat := by
  intro n m hnm
  simp only [growingRent, UInt64.toNat_ofNat']
  omega

theorem grown_steady {c : Call} (hc : c ∈ grownHistory ++ [grownPost]) (σ τ : Ledger) :
    Steady growingRent.minimumBalance {k | Plain k} σ c.event τ := by
  refine ⟨fun sv accounts ix he => ?_, within_of_plain (by decide +kernel) c hc σ τ⟩
  have hsv : ∀ c ∈ grownHistory ++ [grownPost], c.sv = growingRent := by
    simp [grownHistory, grownPost, history]
  cases he
  rw [hsv c hc]

end Local

/-- The message of `bob`, posted after the gated channel was set up, is exempt. -/
theorem rent_exempt_bob :
    (Local.growingRent.minimumBalance ((afterCalls localnet [Local.grownPost]
      (afterCalls localnet Local.grownHistory Local.genesis)).data
        (Local.addressOf (.content Local.channel 0 0))).length).toNat ≤
      (afterCalls localnet [Local.grownPost]
        (afterCalls localnet Local.grownHistory Local.genesis)).lamports
          (Local.addressOf (.content Local.channel 0 0)) := by
  have hplain : (Local.grownHistory ++ [Local.grownPost]).all Call.isPlain = true := by
    decide +kernel
  have hown := ownKeys_of_plain hplain
  obtain ⟨tr, hp, -⟩ := path_afterCalls (σ := Local.genesis)
    (fun c hc => hown c (List.mem_append_left _ hc))
    (fun c hc => Local.grown_steady (List.mem_append_left _ hc))
    (show (runCalls localnet Local.grownHistory Local.genesis).isSome by decide +kernel)
  have hstep := step_afterCalls (hown _ (List.mem_append_right _ (List.mem_singleton_self _)))
    (show (runCalls localnet [Local.grownPost]
      (afterCalls localnet Local.grownHistory Local.genesis)).isSome by decide +kernel)
  have hsteady := Local.grown_steady (List.mem_append_right _ (List.mem_singleton_self _))
    (afterCalls localnet Local.grownHistory Local.genesis)
    (afterCalls localnet [Local.grownPost] (afterCalls localnet Local.grownHistory Local.genesis))
  refine rent_exempt localnet_collisionFree Local.growingRent_mono Local.genesis_init
    (hp.snoc hstep hsteady) ⟨tr, _, [], rfl, ⟨_, _, _, rfl⟩, ?_, fun y hy => ?_⟩
  · decide +kernel
  · obtain rfl := List.mem_singleton.mp hy
    decide +kernel

end Txtcel
