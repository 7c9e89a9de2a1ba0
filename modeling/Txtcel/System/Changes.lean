import Txtcel.System.Acts

/-!
# What an act does to the cells

For each kind of act the cells after it are the cells before it, updated at the addresses the act
writes (`*.Ok.cells`). From these, once for all: a cell that an instruction changed was changed in
one of the ways listed by `Change`, and each of them names the act that did it (`Act.change`).
Every frame and invariant about single accounts is an inversion of `Change`.
-/

namespace Txtcel

open Lib Exec Borsh Function

variable {R : Runtime} {sv : Sysvars} {σ σ' : Ledger} {accounts : List AccountInfo}

/-! ## 1. The cells after each act -/

section Cells

/-- A new account, before it is written. -/
theorem cells_create {p k : Pubkey} {r n : Nat} :
    (σ.create p k R.programId r n).cell R =
      update (σ.cell R) k (Cell.ofData (List.replicate n 0)) := by
  funext j
  by_cases hj : j = k
  · subst hj
    rw [update_self, cell_of_owner (by simp)]
    simp
  · rw [update_of_ne hj, cells_create_of_ne hj]

theorem InitSettings.Ok.cells {d : InitSettings} (h : d.Ok R sv accounts σ σ') :
    σ'.cell R = update (σ.cell R) d.settings
      (.holds (.settings (initialSettings d.authority d.treasury))) := by
  rw [h.post]
  exact cells_create_put ⟨rfl, ProgramSettings.fits _⟩

theorem SettingsEdit.Ok.cells {d : SettingsEdit} (h : d.Ok R accounts σ σ') :
    σ'.cell R = update (σ.cell R) d.settings (.holds (.settings d.new)) := by
  rw [h.post]
  exact cells_put h.holds.owner ⟨h.change.tag_eq.trans h.tag, ProgramSettings.fits _⟩

theorem TreasurySweep.Ok.cells {d : TreasurySweep} (h : d.Ok R sv accounts σ σ') :
    σ'.cell R = σ.cell R := by
  rw [h.post, cells_sweep]

theorem AuthorSweep.Ok.cells {d : AuthorSweep} (h : d.Ok R sv accounts σ σ') :
    σ'.cell R = σ.cell R := by
  rw [h.post, cells_sweep]

theorem RootAlloc.Ok.cells {d : RootAlloc} (h : d.Ok R sv accounts σ σ') :
    σ'.cell R = update (update ((σ.cell R).open d.treasury) d.thread (.holds (.thread d.node)))
      d.alloc (.holds (.alloc d.page)) := by
  have hfits : Borsh.Fits d.node := by
    have hm : maxTitleLen < 2 ^ 32 := by decide
    have := h.title_le
    exact (ThreadNode.fits_iff _).mpr (show d.title.length < _ by omega)
  have ht : (d.funded R sv σ).owner d.thread = R.programId := by
    simp [RootAlloc.funded, h.alloc_ne.symm]
  have ha : ((d.funded R sv σ).put d.thread d.node).owner d.alloc = R.programId := by
    simp [RootAlloc.funded]
  have h1 := cells_put (x := d.node) ht ⟨rfl, hfits⟩
  have h2 := cells_put (x := d.page) ha ⟨rfl, AllocNode.fits _⟩
  rw [h.post, h2, h1]
  unfold RootAlloc.funded
  rw [cells_create, cells_collect, cells_create, cells_openShard]
  rw [update_comm h.alloc_ne, update_idem, update_idem]
  rfl

theorem NextAlloc.Ok.cells {d : NextAlloc} (h : d.Ok R sv accounts σ σ') :
    σ'.cell R = update (update (σ.cell R) d.page (.holds (.alloc d.node))) d.thread
      (.holds (.thread d.new)) := by
  have hfits : Borsh.Fits d.new := (ThreadNode.fits_iff _).mpr
    ((ThreadNode.fits_iff _).mp h.thread_holds.fits)
  have ho : ((σ.create d.payer d.page R.programId (sv.rent AllocNode.size) AllocNode.size).put
      d.page d.node).owner d.thread = R.programId := by
    simp [h.page_ne, h.thread_holds.owner]
  have h1 := cells_put (x := d.new) ho ⟨h.thread_tag, hfits⟩
  rw [h.post, h1, cells_create_put ⟨rfl, AllocNode.fits _⟩]
  rfl

theorem ThreadEdit.Ok.cells {d : ThreadEdit} (h : d.Ok R accounts σ σ') :
    σ'.cell R = update (σ.cell R) d.thread (.holds (.thread d.new)) := by
  rw [h.post]
  refine cells_put h.holds.owner ⟨h.change.tag_eq.trans h.tag, ?_⟩
  · refine (ThreadNode.fits_iff _).mpr ?_
    rw [h.change.title_eq]
    exact (ThreadNode.fits_iff _).mp h.holds.fits

theorem InitAccess.Ok.cells {d : InitAccess} (h : d.Ok R sv accounts σ σ') :
    σ'.cell R = update ((σ.cell R).open d.treasury) d.access (.holds (.access d.new)) := by
  rw [h.post, cells_create_put ⟨rfl, ThreadAccess.fits _⟩, cells_collect, cells_openShard]
  rfl

theorem AccessEdit.Ok.cells {d : AccessEdit} (h : d.Ok R accounts σ σ') :
    σ'.cell R = update (σ.cell R) d.access (.holds (.access d.new)) := by
  rw [h.post]
  exact cells_put h.holds.owner ⟨h.change.tag_eq.trans h.tag, ThreadAccess.fits _⟩

theorem SetEntry.Ok.cells {d : SetEntry} (h : d.Ok R sv accounts σ σ') :
    σ'.cell R = update (update (σ.cell R) d.entry
      (.holds (.entry (entryNode d.old.thread d.wallet d.status)))) d.access
        (.holds (.access (d.old.shift d.delta))) := by
  have hb := h.before
  have ho : (d.written R sv σ).owner d.access = R.programId := by
    cases hp : d.prev <;> simp [SetEntry.written, hp, h.access_ne, h.access_holds.owner]
  have h1 := cells_put (x := d.old.shift d.delta) ho ⟨h.access_tag, ThreadAccess.fits _⟩
  rw [h.post, h1]
  congr 1
  cases hp : d.prev with
  | none =>
    simp only [SetEntry.written, hp]
    exact cells_create_put ⟨rfl, AccessEntry.fits _⟩
  | some s =>
    simp only [SetEntry.written, SetEntry.Before, hp] at hb ⊢
    exact cells_put hb.owner ⟨rfl, AccessEntry.fits _⟩

theorem RemoveEntry.Ok.cells {d : RemoveEntry} (h : d.Ok R accounts σ σ') :
    σ'.cell R = update (update (σ.cell R) d.entry .free) d.access
      (.holds (.access (d.old.shift d.delta))) := by
  have ho : ((σ.pay d.entry d.authority (σ.lamports d.entry)).allot d.entry 0
      systemProgram).owner d.access = R.programId := by
    simp [h.access_ne, h.access_holds.owner]
  have h1 := cells_put (x := d.old.shift d.delta) ho ⟨h.access_tag, ThreadAccess.fits _⟩
  rw [h.post, h1, cells_close, cells_pay]
  rfl

theorem RequestAccess.Ok.cells {d : RequestAccess} (h : d.Ok R sv accounts σ σ') :
    σ'.cell R = update (update (((σ.cell R).open d.treasury).open d.author) d.entry
      (.holds (.entry (entryNode d.thread d.payer accessAllowed)))) d.access
        (.holds (.access (d.old.shift 1))) := by
  have ho : (d.paid R sv σ).owner d.access = R.programId := by
    rw [RequestAccess.paid_owner]
    exact (h.access_holds.openShards).owner
  have ho' : (((d.paid R sv σ).create d.payer d.entry R.programId (sv.rent AccessEntry.size)
      AccessEntry.size).put d.entry (entryNode d.thread d.payer accessAllowed)).owner d.access =
        R.programId := by
    simp [h.access_ne, ← ho]
  have h1 := cells_put (x := d.old.shift 1) ho' ⟨h.access_tag, ThreadAccess.fits _⟩
  rw [h.post, h1, cells_create_put ⟨rfl, AccessEntry.fits _⟩, RequestAccess.paid, cells_split, cells_openShards]
  rfl

theorem FillSlot.message_fits {d : FillSlot} (h : d.post.body.length ≤ maxBodyLen) :
    Borsh.Fits (d.message sv) := by
  have hm : maxBodyLen < 2 ^ 32 := by decide
  exact (ContentNode.fits_iff _).mpr (show d.post.body.length < _ by omega)

theorem FillSlot.Ok.cells {d : FillSlot} (h : d.Ok R sv accounts σ σ') :
    σ'.cell R = update (((σ.cell R).open d.treasury).open d.author) d.content
      (.holds (.content (d.message sv))) := by
  have hfits : Borsh.Fits (d.message sv) := FillSlot.message_fits h.body_le
  rw [h.post_eq, cells_split, cells_collect]
  refine Eq.trans (cells_create_put ?_) ?_
  · exact ⟨rfl, hfits⟩
  · rw [cells_openShards]
    rfl

theorem AppendContent.new_fits {d : AppendContent} (h : d.new.body.length ≤ maxBodyLen) :
    Borsh.Fits d.new := by
  have hm : maxBodyLen < 2 ^ 32 := by decide
  exact (ContentNode.fits_iff _).mpr (by omega)

theorem AppendContent.Ok.cells {d : AppendContent} (h : d.Ok R sv accounts σ σ') :
    σ'.cell R = update (if 0 < d.rentDelta sv then (σ.cell R).open d.treasury else σ.cell R)
      d.content (.holds (.content d.new)) := by
  have hc : (d.charged R sv σ).cell R =
      if 0 < d.rentDelta sv then (σ.cell R).open d.treasury else σ.cell R := by
    unfold AppendContent.charged
    split
    · rw [cells_collect, cells_openShard, cells_pay]
    · rw [cells_pay]
  have ho : (d.charged R sv σ).owner d.content = R.programId := by
    unfold AppendContent.charged
    split
    · rw [Ledger.collect_owner]
      unfold Ledger.openShard
      split
      · rename_i hf
        have hne : d.content ≠ d.treasury := h.content_holds.ne_of_free ⟨hf.1, hf.2⟩
        rw [Ledger.create_owner, update_of_ne hne]
        exact h.content_holds.owner
      · exact h.content_holds.owner
    · exact h.content_holds.owner
  have h1 := cells_put (x := d.new) ho ⟨h.content_tag, AppendContent.new_fits h.body_le⟩
  rw [h.post, h1, hc]
  rfl

theorem LikeContent.new_tag {d : LikeContent} (h : d.Before R σ) : d.new.tag = tagLikes := by
  unfold LikeContent.Before at h
  unfold LikeContent.new
  cases hp : d.prev with
  | none => rfl
  | some l =>
    simp only [hp] at h
    exact h.2

theorem LikeContent.Ok.cells {d : LikeContent} (h : d.Ok R sv accounts σ σ') :
    σ'.cell R = update (((σ.cell R).open d.treasury).open d.author) d.likes
      (.holds (.likes d.new)) := by
  have hb := h.before
  have htag : d.new.tag = tagLikes := LikeContent.new_tag hb
  rw [h.post, cells_split]
  cases hp : d.prev with
  | none =>
    simp only [LikeContent.counted, hp]
    have h1 := cells_create_put (R := R) (r := sv.rent AllocLikes.size) (n := AllocLikes.size)
      (p := d.payer) (σ := σ.openShards R (sv.rent 0) d.payer d.treasury d.author) (k := d.likes)
      (x := d.new) ⟨htag, AllocLikes.fits _⟩
    rw [h1, cells_openShards]
    rfl
  | some l =>
    simp only [LikeContent.Before, LikeContent.counted, hp] at hb ⊢
    have h1 := cells_put (x := d.new)
      (hb.1.openShards (r := sv.rent 0) (p := d.payer) (s := d.treasury) (a := d.author)).owner
      ⟨htag, AllocLikes.fits _⟩
    rw [h1, cells_openShards]
    rfl

/-- The cells once the counter was set back. -/
def CloseContent.clearedCells (d : CloseContent) (c : Cells) : Cells :=
  match d.reset with
  | none => c
  | some r => update c r.likes (.holds (.likes r.new))

theorem CloseContent.Ok.cells {d : CloseContent} (h : d.Ok R accounts σ σ') :
    σ'.cell R = update (d.clearedCells (σ.cell R)) d.content .free := by
  rw [h.post, cells_close, cells_pay]
  congr 1
  unfold CloseContent.cleared CloseContent.clearedCells
  cases hr : d.reset with
  | none => rfl
  | some r =>
    have hok := h.reset r hr
    exact cells_put hok.holds.owner ⟨hok.tag, AllocLikes.fits _⟩

theorem Subscribe.Ok.cells {d : Subscribe} (h : d.Ok R sv accounts σ σ') :
    σ'.cell R = update (update (σ.cell R) d.registry (.holds (.registry d.new))) d.shard
      (.holds (.follower d.newShard)) := by
  obtain ⟨hreg, hrtag⟩ : (d.registered R sv σ).Holds R d.registry d.new ∧
      d.new.tag = tagFollowRegistry := Subscribe.registered_holds h.registry_before h.not_full
  have hcells : (d.registered R sv σ).cell R =
      update (σ.cell R) d.registry (.holds (.registry d.new)) := by
    funext k
    by_cases hk : k = d.registry
    · subst hk
      rw [update_self]
      exact hreg.cell hrtag
    · rw [update_of_ne hk]
      exact cell_congr (Subscribe.registered_owner hk) (Subscribe.registered_data hk)
  have hb := h.shard_before
  rw [h.post]
  unfold Subscribe.counted
  cases hp : d.prevShard with
  | none =>
    simp only
    rw [cells_create_put ⟨rfl, FollowerShard.fits _⟩, hcells]
    rfl
  | some s =>
    simp only [Subscribe.ShardBefore, hp] at hb ⊢
    have ho : (d.registered R sv σ).owner d.shard = R.programId := by
      rw [Subscribe.registered_owner h.registry_ne.symm]
      exact hb.1.owner
    have h1 := cells_put (x := d.newShard) ho ⟨rfl, FollowerShard.fits _⟩
    rw [h1, hcells]
    rfl

theorem Unsubscribe.Ok.cells {d : Unsubscribe} (h : d.Ok R sv accounts σ σ') :
    σ'.cell R = update (update (σ.cell R) d.registry (.holds (.registry d.new))) d.shard
      (.holds (.follower d.newShard)) := by
  have h1 := cells_put (x := d.new) h.registry_holds.owner
    ⟨h.registry_tag, d.new_fits h.registry_holds.fits⟩
  have ho : ((σ.put d.registry d.new).pay d.registry d.user
      (σ.lamports d.registry - d.required sv)).owner d.shard = R.programId := h.shard_holds.owner
  have h2 := cells_put (x := d.newShard) ho ⟨h.shard_tag, FollowerShard.fits _⟩
  rw [h.post, h2, cells_pay, h1]
  rfl

end Cells

/-! ## 2. What can happen to one cell -/

/-- One changed cell: its address, what it was and what it became, with the act that did it. -/
inductive Change (R : Runtime) (sv : Sysvars) (accounts : List AccountInfo) (σ σ' : Ledger)
    (ix : ProgramInstruction) : Pubkey → Cell → Cell → Prop where
  | openShard {k : Pubkey} (p : Pda) (hp : p.IsFeeShard) (ha : R.HasAddress p k)
      (ht : ∀ t, p.thread? = some t → ∃ x, σ.cell R t = .holds (.thread x)) :
      Change R sv accounts σ σ' ix k .free .vault
  | initSettings (d : InitSettings) (h : d.Ok R sv accounts σ σ') :
      Change R sv accounts σ σ' ix d.settings .free
        (.holds (.settings (initialSettings d.authority d.treasury)))
  | editSettings (d : SettingsEdit) (h : d.Ok R accounts σ σ') :
      Change R sv accounts σ σ' ix d.settings (.holds (.settings d.old)) (.holds (.settings d.new))
  | createThread (d : RootAlloc) (h : d.Ok R sv accounts σ σ') :
      Change R sv accounts σ σ' ix d.thread .free (.holds (.thread d.node))
  | createRoot (d : RootAlloc) (h : d.Ok R sv accounts σ σ') :
      Change R sv accounts σ σ' ix d.alloc .free (.holds (.alloc d.page))
  | createPage (d : NextAlloc) (h : d.Ok R sv accounts σ σ')
      (hix : ix = .prepareAlloc d.old.lastAllocSeq) :
      Change R sv accounts σ σ' ix d.page .free (.holds (.alloc d.node))
  | growThread (d : NextAlloc) (h : d.Ok R sv accounts σ σ')
      (hix : ix = .prepareAlloc d.old.lastAllocSeq) :
      Change R sv accounts σ σ' ix d.thread (.holds (.thread d.old)) (.holds (.thread d.new))
  | editThread (d : ThreadEdit) (h : d.Ok R accounts σ σ') :
      Change R sv accounts σ σ' ix d.thread (.holds (.thread d.old)) (.holds (.thread d.new))
  | createAccess (d : InitAccess) (h : d.Ok R sv accounts σ σ') :
      Change R sv accounts σ σ' ix d.access .free (.holds (.access d.new))
  | editAccess (d : AccessEdit) (h : d.Ok R accounts σ σ') :
      Change R sv accounts σ σ' ix d.access (.holds (.access d.old)) (.holds (.access d.new))
  | createEntry (d : SetEntry) (h : d.Ok R sv accounts σ σ') (hp : d.prev = none)
      (hix : ix.addsTo = some (d.wallet, d.status)) :
      Change R sv accounts σ σ' ix d.entry .free
        (.holds (.entry (entryNode d.old.thread d.wallet d.status)))
  | flipEntry (d : SetEntry) (h : d.Ok R sv accounts σ σ') (s : UInt8) (hp : d.prev = some s)
      (hix : ix.addsTo = some (d.wallet, d.status)) :
      Change R sv accounts σ σ' ix d.entry (.holds (.entry (entryNode d.old.thread d.wallet s)))
        (.holds (.entry (entryNode d.old.thread d.wallet d.status)))
  | countSet (d : SetEntry) (h : d.Ok R sv accounts σ σ')
      (hix : ix.addsTo = some (d.wallet, d.status)) :
      Change R sv accounts σ σ' ix d.access (.holds (.access d.old))
        (.holds (.access (d.old.shift d.delta)))
  | removeEntry (d : RemoveEntry) (h : d.Ok R accounts σ σ')
      (hix : ix.removesFrom = some (d.wallet, d.status)) :
      Change R sv accounts σ σ' ix d.entry
        (.holds (.entry (entryNode d.old.thread d.wallet d.status))) .free
  | countRemove (d : RemoveEntry) (h : d.Ok R accounts σ σ')
      (hix : ix.removesFrom = some (d.wallet, d.status)) :
      Change R sv accounts σ σ' ix d.access (.holds (.access d.old))
        (.holds (.access (d.old.shift d.delta)))
  | requestEntry (d : RequestAccess) (h : d.Ok R sv accounts σ σ') {ti : UInt16} {ai : UInt8}
      (hix : ix = .requestAccess ti ai) :
      Change R sv accounts σ σ' ix d.entry .free
        (.holds (.entry (entryNode d.thread d.payer accessAllowed)))
  | countRequest (d : RequestAccess) (h : d.Ok R sv accounts σ σ') {ti : UInt16} {ai : UInt8}
      (hix : ix = .requestAccess ti ai) :
      Change R sv accounts σ σ' ix d.access (.holds (.access d.old))
        (.holds (.access (d.old.shift 1)))
  | createContent (d : FillSlot) (h : d.Ok R sv accounts σ σ') {candidates : List CandidateSlot}
      (hc : d.candidate ∈ candidates)
      (hix : ix = .fillSlot d.post.kind d.post.body candidates d.treasuryIdx d.authorIdx
        d.post.replyAllocSeq d.post.replySlot d.post.maxFee) :
      Change R sv accounts σ σ' ix d.content .free (.holds (.content (d.message sv)))
  | appendContent (d : AppendContent) (h : d.Ok R sv accounts σ σ') {ai : UInt8}
      (hix : ix = .appendContent d.chunk d.treasuryIdx ai) :
      Change R sv accounts σ σ' ix d.content (.holds (.content d.old)) (.holds (.content d.new))
  | closeContent (d : CloseContent) (h : d.Ok R accounts σ σ') (hix : ix = .closeAccount) :
      Change R sv accounts σ σ' ix d.content (.holds (.content d.old)) .free
  | createLikes (d : LikeContent) (h : d.Ok R sv accounts σ σ') (hp : d.prev = none)
      {maxFee : UInt64}
      (hix : ix = .likeContent d.allocSeq d.slot d.treasuryIdx d.authorIdx maxFee) :
      Change R sv accounts σ σ' ix d.likes .free (.holds (.likes d.new))
  | bumpLikes (d : LikeContent) (h : d.Ok R sv accounts σ σ') (l : AllocLikes)
      (hp : d.prev = some l) {maxFee : UInt64}
      (hix : ix = .likeContent d.allocSeq d.slot d.treasuryIdx d.authorIdx maxFee) :
      Change R sv accounts σ σ' ix d.likes (.holds (.likes l)) (.holds (.likes d.new))
  | resetLikes (d : CloseContent) (h : d.Ok R accounts σ σ') (r : LikesReset)
      (hr : d.reset = some r) (hix : ix = .closeAccount) :
      Change R sv accounts σ σ' ix r.likes (.holds (.likes r.old)) (.holds (.likes r.new))
  | createRegistry (d : Subscribe) (h : d.Ok R sv accounts σ σ') (hp : d.prevRegistry = none)
      (hix : ix = .subscribe) :
      Change R sv accounts σ σ' ix d.registry .free (.holds (.registry d.new))
  | growRegistry (d : Subscribe) (h : d.Ok R sv accounts σ σ') (r : FollowRegistry)
      (hp : d.prevRegistry = some r) (hix : ix = .subscribe) :
      Change R sv accounts σ σ' ix d.registry (.holds (.registry r)) (.holds (.registry d.new))
  | createFollower (d : Subscribe) (h : d.Ok R sv accounts σ σ') (hp : d.prevShard = none)
      (hix : ix = .subscribe) :
      Change R sv accounts σ σ' ix d.shard .free (.holds (.follower d.newShard))
  | bumpFollower (d : Subscribe) (h : d.Ok R sv accounts σ σ') (s : FollowerShard)
      (hp : d.prevShard = some s) (hix : ix = .subscribe) :
      Change R sv accounts σ σ' ix d.shard (.holds (.follower s)) (.holds (.follower d.newShard))
  | shrinkRegistry (d : Unsubscribe) (h : d.Ok R sv accounts σ σ') (hix : ix = .unsubscribe) :
      Change R sv accounts σ σ' ix d.registry (.holds (.registry d.old)) (.holds (.registry d.new))
  | dropFollower (d : Unsubscribe) (h : d.Ok R sv accounts σ σ') (hix : ix = .unsubscribe) :
      Change R sv accounts σ σ' ix d.shard (.holds (.follower d.oldShard))
        (.holds (.follower d.newShard))

section Change

variable {ix : ProgramInstruction} {k : Pubkey}

theorem open_treasury_change {i : UInt16} {s : Pubkey} (hi : i < nTreasuryShards)
    (ha : R.HasAddress (.treasuryShard i) s) :
    (σ.cell R).open s k = σ.cell R k ∨
      Change R sv accounts σ σ' ix k (σ.cell R k) ((σ.cell R).open s k) := by
  rcases (σ.cell R).open_apply s k with h | ⟨rfl, hf, hv⟩
  · exact .inl h
  · rw [hf, hv]
    exact .inr (.openShard (.treasuryShard i) hi ha nofun)

theorem opens_change {t ts as : Pubkey} {x : ThreadNode} {ti : UInt16} {ai : UInt8}
    (hs : FeeShards R t ts as ti ai) (ht : σ.cell R t = .holds (.thread x)) :
    ((σ.cell R).open ts).open as k = σ.cell R k ∨
      Change R sv accounts σ σ' ix k (σ.cell R k) (((σ.cell R).open ts).open as k) := by
  rcases ((σ.cell R).open ts).open_apply as k with h | ⟨rfl, hf, hv⟩
  · rw [h]
    exact open_treasury_change hs.treasury_lt hs.treasury_addr
  · rw [hv, Cells.free_of_open hf]
    refine .inr (.openShard (.authorFee t ai) hs.author_lt hs.author_addr fun t' ht' => ?_)
    cases ht'
    exact ⟨x, ht⟩

/-- An update changes the cell it names. -/
theorem change_update {c : Cells} {a : Pubkey} {v : Cell}
    (hne : k ≠ a → c k = σ.cell R k ∨ Change R sv accounts σ σ' ix k (σ.cell R k) (c k))
    (hself : Change R sv accounts σ σ' ix a (σ.cell R a) v) :
    update c a v k = σ.cell R k ∨ Change R sv accounts σ σ' ix k (σ.cell R k) (update c a v k) := by
  by_cases hk : k = a
  · subst hk
    rw [update_self]
    exact .inr hself
  · rw [update_of_ne hk]
    exact hne hk

/-- **Every changed cell was changed in one of the listed ways.** -/
theorem Act.change (h : Act R sv accounts σ σ' ix) (k : Pubkey) :
    σ'.cell R k = σ.cell R k ∨ Change R sv accounts σ σ' ix k (σ.cell R k) (σ'.cell R k) := by
  cases h with
  | initSettings d h =>
    rw [h.cells]
    refine change_update (fun _ => .inl rfl) ?_
    rw [cell_eq_free.mpr h.free]
    exact .initSettings d h
  | settingsEdit d h =>
    have hc := h.holds.cell h.tag
    rw [h.cells]
    refine change_update (fun _ => .inl rfl) ?_
    rw [hc]
    exact .editSettings d h
  | treasurySweep d h => exact .inl (congrFun h.cells k)
  | authorSweep d h => exact .inl (congrFun h.cells k)
  | rootAlloc d h =>
    rw [h.cells]
    refine change_update (fun _ => change_update (fun _ =>
      open_treasury_change h.shard_lt h.shard_addr) ?_) ?_
    · rw [cell_eq_free.mpr h.thread_free]
      exact .createThread d h
    · rw [cell_eq_free.mpr h.alloc_free]
      exact .createRoot d h
  | nextAlloc d h =>
    have hc := h.thread_holds.cell h.thread_tag
    rw [h.cells]
    refine change_update (fun _ => change_update (fun _ => .inl rfl) ?_) ?_
    · rw [cell_eq_free.mpr h.page_free]
      exact .createPage d h rfl
    · rw [hc]
      exact .growThread d h rfl
  | threadEdit d h =>
    have hc := h.holds.cell h.tag
    rw [h.cells]
    refine change_update (fun _ => .inl rfl) ?_
    rw [hc]
    exact .editThread d h
  | initAccess d h =>
    rw [h.cells]
    refine change_update (fun _ => open_treasury_change h.shard_lt h.shard_addr) ?_
    rw [cell_eq_free.mpr h.access_free]
    exact .createAccess d h
  | accessEdit d h =>
    have hc := h.holds.cell h.tag
    rw [h.cells]
    refine change_update (fun _ => .inl rfl) ?_
    rw [hc]
    exact .editAccess d h
  | setEntry d h hix =>
    have hc := h.access_holds.cell h.access_tag
    have hb := h.before
    rw [h.cells]
    refine change_update (fun _ => change_update (fun _ => .inl rfl) ?_) ?_
    · cases hp : d.prev with
      | none =>
        simp only [SetEntry.Before, hp] at hb
        rw [cell_eq_free.mpr hb]
        exact .createEntry d h hp hix
      | some s =>
        simp only [SetEntry.Before, hp] at hb
        have he := hb.cell rfl
        rw [he]
        exact .flipEntry d h s hp hix
    · rw [hc]
      exact .countSet d h hix
  | removeEntry d h hix =>
    have hc := h.access_holds.cell h.access_tag
    have he := h.entry_holds.cell rfl
    rw [h.cells]
    refine change_update (fun _ => change_update (fun _ => .inl rfl) ?_) ?_
    · rw [he]
      exact .removeEntry d h hix
    · rw [hc]
      exact .countRemove d h hix
  | requestAccess d h =>
    have hc := h.access_holds.cell h.access_tag
    have ht := h.thread_holds.cell h.thread_tag
    rw [h.cells]
    refine change_update (fun _ => change_update (fun _ => opens_change h.shards ht) ?_) ?_
    · rw [cell_eq_free.mpr h.entry_free]
      exact .requestEntry d h rfl
    · rw [hc]
      exact .countRequest d h rfl
  | fillSlot d h hcand =>
    have ht := h.thread_holds.cell h.thread_tag
    rw [h.cells]
    refine change_update (fun _ => opens_change h.shards ht) ?_
    rw [cell_eq_free.mpr h.content_free]
    exact .createContent d h hcand rfl
  | appendContent d h =>
    have hc := h.content_holds.cell h.content_tag
    rw [h.cells]
    refine change_update (fun _ => ?_) ?_
    · split
      · exact open_treasury_change h.shards.treasury_lt h.shards.treasury_addr
      · exact .inl rfl
    · rw [hc]
      exact .appendContent d h rfl
  | likeContent d h =>
    have ht := h.thread_holds.cell h.thread_tag
    have hb := h.before
    rw [h.cells]
    refine change_update (fun _ => opens_change h.shards ht) ?_
    cases hp : d.prev with
    | none =>
      simp only [LikeContent.Before, hp] at hb
      rw [cell_eq_free.mpr hb.1]
      exact .createLikes d h hp rfl
    | some l =>
      simp only [LikeContent.Before, hp] at hb
      have hl := hb.1.cell hb.2
      rw [hl]
      exact .bumpLikes d h l hp rfl
  | closeContent d h =>
    have hc := h.holds.cell h.tag
    rw [h.cells]
    refine change_update (fun _ => ?_) ?_
    · unfold CloseContent.clearedCells
      cases hr : d.reset with
      | none => exact .inl rfl
      | some r =>
        have hok := h.reset r hr
        have hl := hok.holds.cell hok.tag
        refine change_update (fun _ => .inl rfl) ?_
        rw [hl]
        exact .resetLikes d h r hr rfl
    · rw [hc]
      exact .closeContent d h rfl
  | subscribe d h =>
    have hrb := h.registry_before
    have hsb := h.shard_before
    rw [h.cells]
    refine change_update (fun _ => change_update (fun _ => .inl rfl) ?_) ?_
    · cases hp : d.prevRegistry with
      | none =>
        simp only [Subscribe.RegistryBefore, hp] at hrb
        rw [cell_eq_free.mpr hrb]
        exact .createRegistry d h hp rfl
      | some r =>
        simp only [Subscribe.RegistryBefore, hp] at hrb
        have hr := hrb.1.cell hrb.2.1
        rw [hr]
        exact .growRegistry d h r hp rfl
    · cases hp : d.prevShard with
      | none =>
        simp only [Subscribe.ShardBefore, hp] at hsb
        rw [cell_eq_free.mpr hsb.1]
        exact .createFollower d h hp rfl
      | some s =>
        simp only [Subscribe.ShardBefore, hp] at hsb
        have hs := hsb.1.cell hsb.2.1
        rw [hs]
        exact .bumpFollower d h s hp rfl
  | unsubscribe d h =>
    have hr := h.registry_holds.cell h.registry_tag
    have hs := h.shard_holds.cell h.shard_tag
    rw [h.cells]
    refine change_update (fun _ => change_update (fun _ => .inl rfl) ?_) ?_
    · rw [hr]
      exact .shrinkRegistry d h rfl
    · rw [hs]
      exact .dropFollower d h rfl

end Change

end Txtcel
