import Txtcel.System.Acts

/-!
# The footprint of an instruction

`Touches S σ σ'`: off the accounts in `S`, no data and no owner changed, and nobody lost lamports.
It composes, so it is stated once for each operation on the ledger; each kind of act touches only
accounts that it was given (`*.Ok.touches`).
-/

namespace Txtcel

open Lib Borsh Function

variable {R : Runtime} {sv : Sysvars} {accounts : List AccountInfo} {S : Set Pubkey}
  {σ σ' σ'' : Ledger}

/-- What changed is in `S`; who received something may be anybody. -/
structure Touches (S : Set Pubkey) (σ σ' : Ledger) : Prop where
  data : ∀ k, k ∉ S → σ'.data k = σ.data k
  owner : ∀ k, k ∉ S → σ'.owner k = σ.owner k
  lamports : ∀ k, k ∉ S → σ.lamports k ≤ σ'.lamports k

namespace Touches

variable {p k s a o : Pubkey} {n r c : Nat}

/-! ## 1. Operations on the ledger -/

theorem refl (S : Set Pubkey) (σ : Ledger) : Touches S σ σ :=
  ⟨fun _ _ => rfl, fun _ _ => rfl, fun _ _ => le_refl _⟩

theorem trans (h : Touches S σ σ') (h' : Touches S σ' σ'') : Touches S σ σ'' where
  data k hk := (h'.data k hk).trans (h.data k hk)
  owner k hk := (h'.owner k hk).trans (h.owner k hk)
  lamports k hk := (h.lamports k hk).trans (h'.lamports k hk)

theorem ne_of_not_mem {j : Pubkey} (hk : k ∈ S) (hj : j ∉ S) : j ≠ k := fun h => hj (h ▸ hk)

theorem pay (hp : p ∈ S) : Touches S σ (σ.pay p k n) := by
  refine ⟨fun _ _ => rfl, fun _ _ => rfl, fun j hj => ?_⟩
  have hjp := ne_of_not_mem hp hj
  by_cases hjk : j = k
  · subst hjk
    rw [Ledger.pay_dst _ _ _ _ hjp]
    omega
  · rw [Ledger.pay_other _ _ _ _ _ hjp hjk]

theorem setData {bs : Bytes} (hk : k ∈ S) : Touches S σ (σ.setData k bs) :=
  ⟨fun _ hj => update_of_ne (ne_of_not_mem hk hj) _ _, fun _ _ => rfl, fun _ _ => le_refl _⟩

theorem put {α : Type} [Borsh α] {x : α} (hk : k ∈ S) : Touches S σ (σ.put k x) := setData hk

theorem allot (hk : k ∈ S) : Touches S σ (σ.allot k n o) :=
  ⟨fun _ hj => update_of_ne (ne_of_not_mem hk hj) _ _,
    fun _ hj => update_of_ne (ne_of_not_mem hk hj) _ _, fun _ _ => le_refl _⟩

theorem create (hp : p ∈ S) (hk : k ∈ S) : Touches S σ (σ.create p k o r n) :=
  (pay hp).trans (allot hk)

theorem openShard (hp : p ∈ S) (hs : s ∈ S) : Touches S σ (σ.openShard R r p s) := by
  unfold Ledger.openShard
  split
  · exact create hp hs
  · exact refl S σ

theorem openShards (hp : p ∈ S) (hs : s ∈ S) (ha : a ∈ S) :
    Touches S σ (σ.openShards R r p s a) := (openShard hp hs).trans (openShard hp ha)

theorem collect (hp : p ∈ S) : Touches S σ (σ.collect r n p s) := by
  unfold Ledger.collect
  split
  · exact refl S σ
  · exact pay hp

theorem split (hp : p ∈ S) : Touches S σ (σ.split r n c p a s) := (collect hp).trans (collect hp)

theorem sweep {q : Pubkey} {ks : List Pubkey} (h : ∀ k ∈ ks, ¬ σ.Free k → k ∈ S) :
    Touches S σ (σ.sweep r q ks) := by
  induction ks generalizing σ with
  | nil => exact refl S σ
  | cons k ks ih =>
    unfold Ledger.sweep
    split
    · exact ih fun j hj => h j (List.mem_cons_of_mem _ hj)
    · rename_i hf
      exact (pay (h k List.mem_cons_self hf)).trans
        (ih fun j hj hfree => h j (List.mem_cons_of_mem _ hj) hfree)

end Touches

/-! ## 2. Acts -/

theorem RootAlloc.Ok.touches {d : RootAlloc} (h : d.Ok R sv accounts σ σ') (hp : d.payer ∈ S)
    (ht : d.thread ∈ S) (ha : d.alloc ∈ S) (hs : d.treasury ∈ S) : Touches S σ σ' := by
  rw [h.post]
  have hfunded : Touches S σ (d.funded R sv σ) :=
    (((Touches.openShard hp hs).trans (.create hp ht)).trans (.collect hp)).trans (.create hp ha)
  exact (hfunded.trans (.put ht)).trans (.put ha)

theorem NextAlloc.Ok.touches {d : NextAlloc} (h : d.Ok R sv accounts σ σ') (hp : d.payer ∈ S)
    (hg : d.page ∈ S) (ht : d.thread ∈ S) : Touches S σ σ' := by
  rw [h.post]
  exact ((Touches.create hp hg).trans (.put hg)).trans (.put ht)

theorem ThreadEdit.Ok.touches {d : ThreadEdit} (h : d.Ok R accounts σ σ') (ht : d.thread ∈ S) :
    Touches S σ σ' := by
  rw [h.post]
  exact .put ht

theorem InitAccess.Ok.touches {d : InitAccess} (h : d.Ok R sv accounts σ σ')
    (hp : d.authority ∈ S) (ha : d.access ∈ S) (hs : d.treasury ∈ S) : Touches S σ σ' := by
  rw [h.post]
  exact (((Touches.openShard hp hs).trans (.collect hp)).trans (.create hp ha)).trans (.put ha)

theorem AccessEdit.Ok.touches {d : AccessEdit} (h : d.Ok R accounts σ σ') (ha : d.access ∈ S) :
    Touches S σ σ' := by
  rw [h.post]
  exact .put ha

theorem SetEntry.Ok.touches {d : SetEntry} (h : d.Ok R sv accounts σ σ') (hp : d.authority ∈ S)
    (ha : d.access ∈ S) (he : d.entry ∈ S) : Touches S σ σ' := by
  have hwritten : Touches S σ (d.written R sv σ) := by
    unfold SetEntry.written
    split
    · exact (Touches.create hp he).trans (.put he)
    · exact .put he
  rw [h.post]
  exact hwritten.trans (.put ha)

theorem RemoveEntry.Ok.touches {d : RemoveEntry} (h : d.Ok R accounts σ σ') (ha : d.access ∈ S)
    (he : d.entry ∈ S) : Touches S σ σ' := by
  rw [h.post]
  exact ((Touches.pay he).trans (.allot he)).trans (.put ha)

theorem RequestAccess.Ok.touches {d : RequestAccess} (h : d.Ok R sv accounts σ σ')
    (hp : d.payer ∈ S) (ha : d.access ∈ S) (he : d.entry ∈ S) (hs : d.treasury ∈ S)
    (hu : d.author ∈ S) : Touches S σ σ' := by
  have hpaid : Touches S σ (d.paid R sv σ) := (Touches.openShards hp hs hu).trans (.split hp)
  rw [h.post]
  exact ((hpaid.trans (.create hp he)).trans (.put he)).trans (.put ha)

theorem FillSlot.Ok.touches {d : FillSlot} (h : d.Ok R sv accounts σ σ') (hp : d.payer ∈ S)
    (hs : d.treasury ∈ S) (hu : d.author ∈ S) (hc : d.content ∈ S) : Touches S σ σ' := by
  have hstored : Touches S σ (d.stored R sv σ) :=
    ((Touches.openShards hp hs hu).trans (.create hp hc)).trans (.put hc)
  rw [h.post_eq]
  exact (hstored.trans (.collect hp)).trans (.split hp)

theorem AppendContent.Ok.touches {d : AppendContent} (h : d.Ok R sv accounts σ σ')
    (hp : d.payer ∈ S) (hs : d.treasury ∈ S) (hc : d.content ∈ S) : Touches S σ σ' := by
  have hcharged : Touches S σ (d.charged R sv σ) := by
    unfold AppendContent.charged
    split
    · exact ((Touches.pay hp).trans (.openShard hp hs)).trans (.collect hp)
    · exact .pay hp
  rw [h.post]
  exact hcharged.trans (.put hc)

theorem LikeContent.Ok.touches {d : LikeContent} (h : d.Ok R sv accounts σ σ') (hp : d.payer ∈ S)
    (hl : d.likes ∈ S) (hs : d.treasury ∈ S) (hu : d.author ∈ S) : Touches S σ σ' := by
  have hcounted : Touches S σ (d.counted R sv σ) := by
    unfold LikeContent.counted
    have hopen : Touches S σ (σ.openShards R (sv.rent 0) d.payer d.treasury d.author) :=
      .openShards hp hs hu
    cases d.prev with
    | none => exact (hopen.trans (.create hp hl)).trans (.put hl)
    | some l => exact hopen.trans (.put hl)
  rw [h.post]
  exact hcounted.trans (.split hp)

theorem CloseContent.Ok.touches {d : CloseContent} (h : d.Ok R accounts σ σ') (hc : d.content ∈ S)
    (hl : ∀ r, d.reset = some r → r.likes ∈ S) : Touches S σ σ' := by
  have hcleared : Touches S σ (d.cleared σ) := by
    unfold CloseContent.cleared
    cases hr : d.reset with
    | none => exact .refl S σ
    | some r => exact .put (hl r hr)
  rw [h.post]
  exact (hcleared.trans (.pay hc)).trans (.allot hc)

theorem Subscribe.Ok.touches {d : Subscribe} (h : d.Ok R sv accounts σ σ') (hp : d.user ∈ S)
    (hr : d.registry ∈ S) (hs : d.shard ∈ S) : Touches S σ σ' := by
  have hopened : Touches S σ (d.opened R sv σ) := by
    unfold Subscribe.opened
    cases d.prevRegistry with
    | none => exact (Touches.create hp hr).trans (.put hr)
    | some r => exact .refl S σ
  have hregistered : Touches S σ (d.registered R sv σ) := (hopened.trans (.pay hp)).trans (.put hr)
  rw [h.post]
  unfold Subscribe.counted
  cases d.prevShard with
  | none => exact (hregistered.trans (.create hp hs)).trans (.put hs)
  | some s => exact hregistered.trans (.put hs)

theorem Unsubscribe.Ok.touches {d : Unsubscribe} (h : d.Ok R sv accounts σ σ')
    (hr : d.registry ∈ S) (hs : d.shard ∈ S) : Touches S σ σ' := by
  rw [h.post]
  exact ((Touches.put hr).trans (.pay hr)).trans (.put hs)

theorem AuthorSweep.Ok.touches {d : AuthorSweep} (h : d.Ok R sv accounts σ σ')
    (hs : ∀ k ∈ d.shards, ¬ σ.Free k → k ∈ S) : Touches S σ σ' := by
  rw [h.post]
  exact .sweep hs

end Txtcel
