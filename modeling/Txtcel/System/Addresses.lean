import Txtcel.System.Invariants

/-!
# What is created where

`Pda.Stores p` is what the account at the address of the derivation `p` can hold. An act creates an
account only at a key that signed (a thread) or at the address of a derivation that stores it, over
keys that signed, were named or are live (`Change.created`). So over a hash without collisions among
those keys it is known what can be created at an address (`step_created`).
-/

namespace Txtcel

open Lib

variable {R : Runtime} {sv : Sysvars} {accounts : List AccountInfo} {σ σ' : Ledger}
  {ix : ProgramInstruction} {k : Pubkey} {K : Set Pubkey} {p : Pda} {y : Cell}

/-- What the account at the address of a derivation holds. -/
inductive Pda.Stores : Pda → Cell → Prop where
  | settings (x : ProgramSettings) : Stores .settings (.holds (.settings x))
  | alloc (x : AllocNode) : Stores (.alloc x.thread x.allocSeq) (.holds (.alloc x))
  | content (x : ContentNode) :
      Stores (.content x.header.thread x.header.allocSeq x.header.slot) (.holds (.content x))
  | access (x : ThreadAccess) : Stores (.access x.thread) (.holds (.access x))
  | entry (x : AccessEntry) : Stores (.entry x.thread x.wallet) (.holds (.entry x))
  | likes (t : Pubkey) (x : AllocLikes) : Stores (.likes t x.allocSeq) (.holds (.likes x))
  | treasuryShard (i : UInt16) : Stores (.treasuryShard i) .vault
  | authorFee (t : Pubkey) (i : UInt8) : Stores (.authorFee t i) .vault
  | registry (x : FollowRegistry) : Stores (.followRegistry x.owner) (.holds (.registry x))
  | follower (x : FollowerShard) : Stores (.followerShard x.thread x.shard) (.holds (.follower x))

/-- A fee shard stores nothing but lamports. -/
theorem Pda.IsFeeShard.stores (h : p.IsFeeShard) : p.Stores .vault := by
  cases p with
  | treasuryShard i => exact .treasuryShard i
  | authorFee t i => exact .authorFee t i
  | _ => exact False.elim h

/-- The keys of a fee shard are its thread. -/
theorem Pda.IsFeeShard.keys_subset (h : p.IsFeeShard) (ht : ∀ t, p.thread? = some t → t ∈ K) :
    ∀ j ∈ p.keys, j ∈ K := by
  cases p with
  | treasuryShard i => exact nofun
  | authorFee t i =>
    intro j hj
    obtain rfl := List.mem_singleton.mp hj
    exact ht j rfl
  | _ => exact False.elim h

theorem ProgramInstruction.wallet_of_addsTo {w : Pubkey} {s : UInt8}
    (h : ix.addsTo = some (w, s)) : ix.wallet? = some w := by
  simp [ProgramInstruction.wallet?, h]

theorem ProgramInstruction.wallet_of_removesFrom {w : Pubkey} {s : UInt8}
    (h : ix.removesFrom = some (w, s)) : ix.wallet? = some w := by
  cases ix <;> simp_all [ProgramInstruction.wallet?, removesFrom, addsTo]

/-- **Where an account is created**: at a key that signed, as a thread, or at the address of a
    derivation over known keys that stores it. -/
theorem Change.created (h : Change R sv accounts σ σ' ix k .free y) (hS : OwnKeys R accounts)
    (hw : WellFormed R (σ.cell R)) (hsig : ∀ j ∈ signers accounts, j ∈ K) (hwal : ∀ w, ix.wallet? = some w → w ∈ K)
    (hlive : ∀ t, (σ.cell R).Live t → t ∈ K) :
    ¬ R.IsPda k ∨ ∃ p : Pda, R.HasAddress p k ∧ (∀ j ∈ p.keys, j ∈ K) ∧ p.Stores y := by
  have hone : ∀ {t : Pubkey}, t ∈ K → ∀ j ∈ [t], j ∈ K := by
    intro t ht j hj
    rwa [List.mem_singleton.mp hj]
  cases h with
  | openShard p hp ha ht =>
    exact .inr ⟨p, ha, hp.keys_subset fun t h => hlive t (ht t h), hp.stores⟩
  | initSettings d h => exact .inr ⟨_, h.addr, nofun, .settings _⟩
  | createThread d h => exact .inl (hS _ h.thread_signed)
  | createRoot d h => exact .inr ⟨_, h.alloc_addr, hone (hsig _ h.thread_signed), .alloc d.page⟩
  | createPage d h _ =>
    have ht := h.thread_holds.cell h.thread_tag
    exact .inr ⟨_, h.page_addr, hone (hlive _ ⟨_, ht⟩), .alloc d.node⟩
  | createAccess d h =>
    have ht := h.thread_holds.cell h.thread_tag
    exact .inr ⟨_, h.access_addr, hone (hlive _ ⟨_, ht⟩), .access d.new⟩
  | createEntry d h _ hix =>
    have ha := h.access_holds.cell h.access_tag
    refine .inr ⟨_, h.entry_addr, ?_, .entry (entryNode d.old.thread d.wallet d.status)⟩
    intro j hj
    rcases List.mem_cons.mp hj with rfl | hj
    · exact hlive _ (hw.placed _ _ ha).2
    · exact hone (hwal _ (ProgramInstruction.wallet_of_addsTo hix)) j hj
  | requestEntry d h _ =>
    have ht := h.thread_holds.cell h.thread_tag
    refine .inr ⟨_, h.entry_addr, ?_, .entry (entryNode d.thread d.payer accessAllowed)⟩
    intro j hj
    rcases List.mem_cons.mp hj with rfl | hj
    · exact hlive _ ⟨_, ht⟩
    · exact hone (hsig _ h.signer) j hj
  | createContent d h _ _ =>
    have ht := h.thread_holds.cell h.thread_tag
    exact .inr ⟨_, h.content_addr, hone (hlive _ ⟨_, ht⟩), .content (d.message sv)⟩
  | createLikes d h hp =>
    have ht := h.thread_holds.cell h.thread_tag
    have hseq : d.new.allocSeq = d.allocSeq := by
      simp [LikeContent.new, hp, freshLikes, AllocLikes.bump]
    exact .inr ⟨_, h.likes_addr, hone (hlive _ ⟨_, ht⟩), hseq ▸ .likes d.thread d.new⟩
  | createRegistry d h hp =>
    have hown : d.new.owner = d.user := by simp [Subscribe.new, Subscribe.old, hp, emptyRegistry]
    exact .inr ⟨_, h.registry_addr, hone (hsig _ h.signer), hown ▸ .registry d.new⟩
  | createFollower d h hp =>
    have ht := h.thread_holds.cell h.thread_tag
    exact .inr ⟨_, h.shard_addr, hone (hlive _ ⟨_, ht⟩), .follower d.newShard⟩

/-- **What is created at a known address** is what the address stores. -/
theorem step_created {e : Event} (hK : R.CollisionFree K) (h : (program R).Reach (Within K) σ)
    (hs : (program R).step σ e σ') (hin : Within K σ e σ') (ha : R.HasAddress p k)
    (hp : ∀ j ∈ p.keys, j ∈ K) (hf : σ.Free k) : σ'.Free k ∨ p.Stores (σ'.cell R k) := by
  cases e with
  | outside => exact .inl (hs.unclaimed k ha.isPda hf)
  | call sv accounts ix =>
    obtain ⟨hsig, hwal⟩ := hin _ _ _ rfl
    have hcell := cell_eq_free (R := R).mpr hf
    rcases (reach_act h hs).change k with he | hc
    · exact .inl (cell_eq_free.mp (he.trans hcell))
    · rw [hcell] at hc
      rcases hc.created hs.1 (reach_wellFormed h) hsig hwal fun t => reach_live_within h with
        hpda | ⟨q, hq, hqk, hst⟩
      · exact absurd ha.isPda hpda
      · rw [address_inj hK hp hqk ha hq]
        exact .inr hst

/-- **An account stays what its address stores**, until it is closed. -/
theorem Change.stores {x : Cell} (h : Change R sv accounts σ σ' ix k x y) (hst : p.Stores x) :
    y = .free ∨ p.Stores y := by
  cases h with
  | editSettings d h =>
    cases hst
    exact .inr (.settings _)
  | editAccess d h =>
    cases hst
    have hth : d.new.thread = d.old.thread := by
      have hch := h.change
      generalize d.new = n at hch ⊢
      cases hch <;> rfl
    exact .inr (hth ▸ .access d.new)
  | flipEntry d h s _ _ =>
    cases hst
    exact .inr (.entry (entryNode d.old.thread d.wallet d.status))
  | countSet d h _ =>
    cases hst
    exact .inr (.access (d.old.shift d.delta))
  | removeEntry d h _ => exact .inl rfl
  | countRemove d h _ =>
    cases hst
    exact .inr (.access (d.old.shift d.delta))
  | countRequest d h _ =>
    cases hst
    exact .inr (.access (d.old.shift 1))
  | appendContent d h _ =>
    cases hst
    exact .inr (.content d.new)
  | closeContent d h => exact .inl rfl
  | bumpLikes d h l hp =>
    cases hst with
    | likes t _ =>
      have hseq : d.new.allocSeq = l.allocSeq := by simp [LikeContent.new, hp, AllocLikes.bump]
      exact .inr (hseq ▸ .likes t d.new)
  | resetLikes d h r hr =>
    cases hst with
    | likes t _ => exact .inr (.likes t r.new)
  | growRegistry d h r hp =>
    cases hst
    have hown : d.new.owner = r.owner := by simp [Subscribe.new, Subscribe.old, hp]
    exact .inr (hown ▸ .registry d.new)
  | bumpFollower d h c hp =>
    cases hst
    have hb := h.shard_before
    simp only [Subscribe.ShardBefore, hp] at hb
    obtain ⟨-, -, ht, hi, -⟩ := hb
    have hnew : d.newShard.thread = c.thread ∧ d.newShard.shard = c.shard := ⟨ht.symm, hi.symm⟩
    exact .inr (hnew.1 ▸ hnew.2 ▸ .follower d.newShard)
  | shrinkRegistry d h =>
    cases hst
    exact .inr (.registry d.new)
  | dropFollower d h =>
    cases hst
    exact .inr (.follower d.newShard)
  | growThread d h _ => cases hst
  | editThread d h => cases hst
  | _ => cases hst

/-- **Every address of the program is free or holds what its derivation stores**, over keys whose
    strings do not collide. -/
theorem reach_stored (hK : R.CollisionFree K) (h : (program R).Reach (Within K) σ)
    (ha : R.HasAddress p k) (hp : ∀ j ∈ p.keys, j ∈ K) : σ.Free k ∨ p.Stores (σ.cell R k) := by
  refine h.invariant (I := fun σ => σ.Free k ∨ p.Stores (σ.cell R k)) ?_ ?_
  · exact fun σ h0 => .inl (h0.unclaimed k ha.isPda)
  · intro σ e σ' hr hI hs hok
    rcases hI with hf | hst
    · exact step_created hK hr hs hok ha hp hf
    · cases e with
      | call sv accounts ix =>
        rcases (reach_act hr hs).change k with he | hc
        · exact .inr (he ▸ hst)
        · exact (hc.stores hst).imp cell_eq_free.mp id
      | outside =>
        have ho : σ.owner k = R.programId := by
          generalize hx : σ.cell R k = x at hst
          cases hst with
          | treasuryShard i => exact (cell_eq_vault.mp hx).1
          | authorFee t i => exact (cell_eq_vault.mp hx).1
          | _ => exact owner_of_cell_holds hx
        exact .inr (Outside.cell_of_owner hs ho ▸ hst)

end Txtcel
