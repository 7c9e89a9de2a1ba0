import Txtcel.Spec.Follows
import Txtcel.Spec.Success
import Txtcel.System.FollowMap
import Txtcel.System.Deployment
import Txtcel.System.Invariants

/-!
# Registries and counters agree

A channel's followers are spread over one registry for each wallet, and counted in shards, one for
each class of wallets. A follow and an unfollow write one of each, and keep:

* `FollowAgrees`: each shard counts the wallets of its class whose registry lists the channel, and
  each registry lists distinct channels, not too many;
* `FollowStep`: a follow adds its channel once, an unfollow removes it, and nobody else's registry
  changes;
* `UnsubscribeAccounts.passes_iff`: so an unfollow gets past its membership check exactly when the
  channel is listed, and then finds the follower counted.
-/

namespace Txtcel

open Lib Exec Borsh Function

variable {R : Runtime} {sv : Sysvars} {accounts : List AccountInfo} {σ σ' : Ledger}
  {ix : ProgramInstruction} {k t w : Pubkey} {i : UInt8}

/-! ## 1. The agreement -/

/-- The channels the wallet follows. -/
def Cells.channels (c : Cells) (R : Runtime) (w : Pubkey) : List Pubkey :=
  (c.following R w).getD []

/-- What shard `i` of the channel counts: `0` where it does not exist. -/
def Cells.counted (c : Cells) (R : Runtime) (t : Pubkey) (i : UInt8) : Nat :=
  (c.tally R (t, i)).getD 0

/-- The wallets of class `i` that follow the channel. -/
def followersIn (R : Runtime) (σ : Ledger) (t : Pubkey) (i : UInt8) : Set Pubkey :=
  {w | followerShardIndex w = i ∧ t ∈ (σ.cell R).channels R w}

/-- The wallets that follow the channel. -/
def followers (R : Runtime) (σ : Ledger) (t : Pubkey) : Set Pubkey :=
  {w | t ∈ (σ.cell R).channels R w}

/-- A registry lists distinct channels, at most `MAX_FOLLOWS`. -/
structure FollowRegistry.Distinct (r : FollowRegistry) : Prop where
  nodup : r.channels.Nodup
  length_le : r.channels.length ≤ maxFollows

/-- **Registries and counters agree.** -/
structure FollowAgrees (R : Runtime) (σ : Ledger) : Prop where
  counted : ∀ t i, (σ.cell R).counted R t i = (followersIn R σ t i).ncard
  registry : ∀ k r, σ.cell R k = .holds (.registry r) → r.Distinct

/-- Membership in a class, as a value. -/
def follows (c : Cells) (R : Runtime) (t : Pubkey) (i : UInt8) (w : Pubkey) : Bool :=
  decide (followerShardIndex w = i ∧ t ∈ c.channels R w)

theorem ncard_followersIn : (followersIn R σ t i).ncard = countOf (follows (σ.cell R) R t i) true := by
  simp [countOf, followersIn, follows]

/-! ## 2. What one act does -/

/-- The channels of the wallets, after a follow or an unfollow by `w`. -/
theorem channels_update {c c' : Cells} {cs : List Pubkey}
    (h : c'.following R = update (c.following R) w (some cs)) :
    c'.channels R = update (c.channels R) w cs := by
  funext v
  unfold Cells.channels
  rw [h]
  by_cases hv : v = w
  · subst hv
    rw [update_self, update_self]
    rfl
  · rw [update_of_ne hv, update_of_ne hv]

/-- One wallet's list changed: its class gains or loses one. -/
theorem countOf_follows {c c' : Cells} {cs : List Pubkey}
    (h : c'.channels R = update (c.channels R) w cs) (t : Pubkey) (i : UInt8) :
    countOf (follows c' R t i) true + (if follows c R t i w = true then 1 else 0) =
      countOf (follows c R t i) true +
        (if followerShardIndex w = i ∧ t ∈ cs then 1 else 0) := by
  have hf : follows c' R t i =
      update (follows c R t i) w (decide (followerShardIndex w = i ∧ t ∈ cs)) := by
    funext v
    unfold follows
    rw [h]
    by_cases hv : v = w
    · subst hv
      rw [update_self, update_self]
    · rw [update_of_ne hv, update_of_ne hv]
  have hu := countOf_update (follows c R t i) w (decide (followerShardIndex w = i ∧ t ∈ cs)) true
  rw [hf]
  simpa using hu

/-- **What a follow or an unfollow does to the follow sets.** -/
inductive FollowStep (R : Runtime) (ix : ProgramInstruction) (w t : Pubkey) (σ σ' : Ledger) :
    Prop where
  | follow (hix : ix = .subscribe) (absent : t ∉ (σ.cell R).channels R w)
      (added : (σ'.cell R).channels R =
        update ((σ.cell R).channels R) w ((σ.cell R).channels R w ++ [t]))
  | unfollow (hix : ix = .unsubscribe) (present : t ∈ (σ.cell R).channels R w)
      (removed : ∃ cs, cs.Perm (((σ.cell R).channels R w).erase t) ∧
        (σ'.cell R).channels R = update ((σ.cell R).channels R) w cs)

theorem Subscribe.Ok.followStep {d : Subscribe} (h : d.Ok R sv accounts σ σ') :
    FollowStep R .subscribe d.user d.thread σ σ' := by
  obtain ⟨hold, hnew⟩ := h.following
  have hchannels : (σ.cell R).channels R d.user = d.old.channels := hold
  refine .follow rfl (hchannels ▸ h.not_following) ?_
  rw [channels_update hnew, hchannels]
  rfl

theorem Unsubscribe.Ok.followStep {d : Unsubscribe} (h : d.Ok R sv accounts σ σ') :
    FollowStep R .unsubscribe d.user d.thread σ σ' := by
  obtain ⟨hold, hnew⟩ := h.following
  have hchannels : (σ.cell R).channels R d.user = d.old.channels := by
    rw [Cells.channels, hold]
    rfl
  refine .unfollow rfl (hchannels ▸ mem_of_position h.pos_eq) ⟨d.new.channels, ?_, ?_⟩
  · rw [hchannels]
    exact swapRemove_position h.pos_eq
  · exact channels_update hnew

/-- The channels of a registry stay distinct. -/
theorem Change.distinct {x : Cell} {r : FollowRegistry}
    (h : Change R sv accounts σ σ' ix k x (.holds (.registry r)))
    (hold : ∀ r, x = .holds (.registry r) → r.Distinct) : r.Distinct := by
  cases h with
  | createRegistry d h hp _ =>
    have hc : d.new.channels = [d.thread] := by simp [Subscribe.new, Subscribe.old, hp, emptyRegistry]
    refine ⟨?_, ?_⟩
    · rw [hc]
      exact List.nodup_singleton _
    · rw [hc]
      show 1 ≤ maxFollows
      decide
  | growRegistry d h r hp _ =>
    have hr := hold r rfl
    have hnew := h.not_following
    have hfull := h.not_full
    simp only [Subscribe.old, hp, Option.getD_some] at hnew hfull
    have hc : d.new.channels = r.channels ++ [d.thread] := by simp [Subscribe.new, Subscribe.old, hp]
    refine ⟨?_, ?_⟩
    · rw [hc]
      exact List.Nodup.append hr.nodup (List.nodup_singleton _) (by simpa using hnew)
    · rw [hc, List.length_append, List.length_singleton]
      omega
  | shrinkRegistry d h _ =>
    have hr := hold d.old rfl
    have hperm := swapRemove_position h.pos_eq
    refine ⟨hperm.nodup_iff.mpr (hr.nodup.erase _), ?_⟩
    simp only [Unsubscribe.new, length_swapRemove]
    exact (Nat.sub_le _ _).trans hr.length_le

/-- `saturating_sub(1)` -/
theorem pred_toNat (n : UInt64) : (n - min 1 n).toNat = n.toNat - 1 := by
  by_cases h : (1 : UInt64) ≤ n
  · have hmin : min 1 n = 1 := if_pos h
    rw [hmin, UInt64.toNat_sub_of_le _ _ h]
    rfl
  · have hmin : min 1 n = n := if_neg h
    have hz : n.toNat = 0 := by
      have hlt := UInt64.le_iff_toNat_le.not.mp h
      have h1 : (1 : UInt64).toNat = 1 := rfl
      omega
    rw [hmin, hz, UInt64.sub_self]
    rfl

/-- Outside the class and the channel of the act, the wallet is in the same classes. -/
theorem follows_iff_of_ne {old new : List Pubkey} {t' : Pubkey} (hne : (t, i) ≠ (t', followerShardIndex w))
    (h : t ≠ t' → (t ∈ new ↔ t ∈ old)) :
    (followerShardIndex w = i ∧ t ∈ new) ↔ followerShardIndex w = i ∧ t ∈ old :=
  and_congr_right fun hi => h fun ht => hne (by rw [ht, hi])

theorem Subscribe.Ok.counted {d : Subscribe} (h : d.Ok R sv accounts σ σ')
    (hI : (σ.cell R).counted R t i = countOf (follows (σ.cell R) R t i) true) :
    (σ'.cell R).counted R t i = countOf (follows (σ'.cell R) R t i) true := by
  obtain ⟨hold, hnew⟩ := h.following
  obtain ⟨hcount, htally⟩ := h.tally
  have hchannels : (σ.cell R).channels R d.user = d.old.channels := hold
  have hu := countOf_follows (channels_update hnew) t i
  have hin : follows (σ.cell R) R t i d.user = true ↔
      followerShardIndex d.user = i ∧ t ∈ d.old.channels := by
    rw [follows, decide_eq_true_eq, hchannels]
  have hout : t ∈ d.new.channels ↔ t ∈ d.old.channels ∨ t = d.thread := by
    simp [Subscribe.new]
  unfold Cells.counted at hI ⊢
  rw [htally]
  by_cases hp : (t, i) = (d.thread, followerShardIndex d.user)
  · obtain ⟨rfl, rfl⟩ := Prod.mk.inj hp
    rw [update_self, Option.getD_some, hcount, hI]
    rw [if_neg fun hm => h.not_following (hin.mp hm).2, if_pos ⟨rfl, hout.mpr (.inr rfl)⟩] at hu
    omega
  · have hsame := follows_iff_of_ne hp fun ht => hout.trans (or_iff_left ht)
    rw [update_of_ne hp, hI]
    rw [if_congr hin rfl rfl, if_congr hsame rfl rfl] at hu
    omega

theorem Unsubscribe.Ok.counted {d : Unsubscribe} (h : d.Ok R sv accounts σ σ')
    (hnodup : d.old.channels.Nodup)
    (hI : (σ.cell R).counted R t i = countOf (follows (σ.cell R) R t i) true) :
    (σ'.cell R).counted R t i = countOf (follows (σ'.cell R) R t i) true := by
  obtain ⟨hold, hnew⟩ := h.following
  obtain ⟨hcount, htally⟩ := h.tally
  have hchannels : (σ.cell R).channels R d.user = d.old.channels := by
    rw [Cells.channels, hold]
    rfl
  have hu := countOf_follows (channels_update hnew) t i
  have hin : follows (σ.cell R) R t i d.user = true ↔
      followerShardIndex d.user = i ∧ t ∈ d.old.channels := by
    rw [follows, decide_eq_true_eq, hchannels]
  have hmem : d.thread ∈ d.old.channels := mem_of_position h.pos_eq
  have hout : t ∈ d.new.channels ↔ t ≠ d.thread ∧ t ∈ d.old.channels :=
    (swapRemove_position h.pos_eq).mem_iff.trans hnodup.mem_erase_iff
  unfold Cells.counted at hI ⊢
  rw [htally]
  by_cases hp : (t, i) = (d.thread, followerShardIndex d.user)
  · obtain ⟨rfl, rfl⟩ := Prod.mk.inj hp
    rw [hcount, Option.getD_some] at hI
    rw [update_self, Option.getD_some, Unsubscribe.newShard, pred_toNat, hI]
    rw [if_pos (hin.mpr ⟨rfl, hmem⟩), if_neg fun hm => (hout.mp hm.2).1 rfl] at hu
    omega
  · have hsame := follows_iff_of_ne hp fun ht => hout.trans (and_iff_right ht)
    rw [update_of_ne hp, hI]
    rw [if_congr hin rfl rfl, if_congr hsame rfl rfl] at hu
    omega

/-- **One act keeps the agreement.** -/
theorem Act.followAgrees (h : Act R sv accounts σ σ' ix) (hI : FollowAgrees R σ) :
    FollowAgrees R σ' := by
  refine ⟨fun t i => ?_, fun k r hr => ?_⟩
  · have hbefore := hI.counted t i
    rw [ncard_followersIn] at hbefore ⊢
    rcases h.follow_cases with ⟨d, hd, -⟩ | ⟨d, hd, -⟩ | ⟨-, -, hf, ht⟩
    · exact hd.counted hbefore
    · have hreg := hd.registry_holds.cell hd.registry_tag
      exact hd.counted (hI.registry _ _ hreg).nodup hbefore
    · unfold Cells.counted follows Cells.channels at hbefore ⊢
      rw [ht, hf]
      exact hbefore
  · rcases h.change k with he | hc
    · exact hI.registry k r (he.symm.trans hr)
    · rw [hr] at hc
      exact hc.distinct fun r' hr' => hI.registry k r' hr'

/-! ## 3. Every reachable store -/

theorem reach_followAgrees {Ok : Ledger → Event → Ledger → Prop} (h : (program R).Reach Ok σ) :
    FollowAgrees R σ := by
  refine reach_induction (I := FollowAgrees R) ?_ ?_ ?_ h
  · intro σ h0
    have hnone : ∀ k a, σ.cell R k ≠ .holds a := fun k a hk =>
      h0.unowned k (owner_of_cell_holds hk)
    have hchannels : ∀ w, (σ.cell R).channels R w = [] := fun w => by
      unfold Cells.channels
      cases hf : (σ.cell R).following R w with
      | none => rfl
      | some cs =>
        obtain ⟨k, r, -, hk, -⟩ := following_eq_some hf
        exact absurd hk (hnone k _)
    refine ⟨fun t i => ?_, fun k r hk => absurd hk (hnone k _)⟩
    have hempty : followersIn R σ t i = ∅ := by
      ext w
      simp [followersIn, hchannels]
    rw [hempty, Set.ncard_empty, Cells.counted]
    cases ht : (σ.cell R).tally R (t, i) with
    | none => rfl
    | some n =>
      obtain ⟨k, -, hc⟩ := lookup_eq_some.mp ht
      obtain ⟨s, hs, -⟩ := tallyFor_eq_some hc
      exact absurd hs (hnone k _)
  · exact fun σ σ' sv accounts ix _ hI hact _ _ => hact.followAgrees hI
  · intro σ σ' _ hI hout _
    have hf : (σ'.cell R).following R = (σ.cell R).following R :=
      funext fun w => lookup_congr fun k _ => hout.read_eq (fun _ => channelsFor_of_not_holds w) k
    have ht : (σ'.cell R).tally R = (σ.cell R).tally R :=
      funext fun p => lookup_congr fun k _ => hout.read_eq (fun _ => tallyFor_of_not_holds p) k
    refine ⟨fun t i => ?_, fun k r hr => hI.registry k r (hout.holds_iff.mp hr)⟩
    have hcounted := hI.counted t i
    unfold followersIn Cells.counted Cells.channels at hcounted ⊢
    rw [hf, ht]
    exact hcounted

/-- The shards of a channel together count its followers. -/
theorem FollowAgrees.total (h : FollowAgrees R σ) (t : Pubkey) :
    ∑ i ∈ Finset.range nFollowerShards.toNat, (σ.cell R).counted R t (UInt8.ofNat i) =
      (followers R σ t).ncard := by
  have hlt : ∀ w, (followerShardIndex w).toNat < nFollowerShards.toNat := fun w =>
    UInt8.toNat_mod_lt _ (by decide)
  have hsum := countOf_sum (fun w => t ∈ (σ.cell R).channels R w)
    (fun w => (followerShardIndex w).toNat) hlt
  have hall : (followers R σ t).ncard =
      countOf (fun w => decide (t ∈ (σ.cell R).channels R w)) true := by
    simp [countOf, followers]
  rw [hall, ← hsum]
  refine Finset.sum_congr rfl fun i hi => ?_
  have h8 : nFollowerShards.toNat ≤ 2 ^ 8 := by decide
  have hi' := Finset.mem_range.mp hi
  rw [h.counted, ncard_followersIn]
  congr 1
  funext w
  unfold follows
  have hidx : followerShardIndex w = UInt8.ofNat i ↔ (followerShardIndex w).toNat = i := by
    rw [← UInt8.toNat_inj, UInt8.toNat_ofNat', Nat.mod_eq_of_lt (by omega)]
  simp only [hidx]

/-! ## 4. How far an unfollow gets -/

/-- `unsubscribe.rs` up to the membership check: the accounts, the registry and the position of the
    channel in it. -/
def unsubscribeChecks (R : Runtime) (accounts : List AccountInfo) :
    Handler (AccountInfo × AccountInfo × AccountInfo × AccountInfo × FollowRegistry × Nat) := do
  let (user, accounts) ← nextAccountInfo accounts
  let (followRegistry, accounts) ← nextAccountInfo accounts
  let (followerShard, accounts) ← nextAccountInfo accounts
  let (threadAccount, accounts) ← nextAccountInfo accounts
  let (systemProgramAccount, _) ← nextAccountInfo accounts
  assertSigner user
  assertWritable user
  assertWritable followRegistry
  assertWritable followerShard
  assertSystemProgram systemProgramAccount
  assertOwnedBy followRegistry R.programId
  let _thread ← loadThread R threadAccount
  let threadKey := threadAccount.key
  let (expectedRegistry, _) ← orFail (deriveFollowRegistryPda R user.key) .panicked
  assertPda followRegistry expectedRegistry
  let shardIdx := followerShardIndex user.key
  let (expectedShard, _) ← orFail (deriveFollowerShardPda R threadKey shardIdx) .panicked
  assertPda followerShard expectedShard
  let registry ← loadFollowRegistry followRegistry
  failIf (registry.owner ≠ user.key) ProtocolError.unauthorized
  let pos ← orFail (position registry.channels threadKey) ProtocolError.notFollowing
  pure (user, followRegistry, followerShard, threadAccount, registry, pos)

/-- The rest of it. -/
def unsubscribeEffects (R : Runtime) (sv : Sysvars)
    (found : AccountInfo × AccountInfo × AccountInfo × AccountInfo × FollowRegistry × Nat) :
    Handler Unit := do
  let (user, followRegistry, followerShard, threadAccount, registry, pos) := found
  let shrunk : FollowRegistry := { registry with channels := swapRemove registry.channels pos }
  let newSize := FollowRegistry.size shrunk.channels.length
  resize followRegistry newSize
  serializeInto followRegistry shrunk
  let required := sv.rent newSize
  refundExcess followRegistry user required
  let fresh ← isUninitialized followerShard
  failIf (fresh = true) ProtocolError.notFollowing
  let shard ← loadBoundFollowerShard R followerShard threadAccount.key (followerShardIndex user.key)
  serializeInto followerShard { shard with count := shard.count - min 1 shard.count }

/-- The handler is its checks, then its effects. -/
theorem processUnsubscribe_eq :
    processUnsubscribe R sv accounts = unsubscribeChecks R accounts >>= unsubscribeEffects R sv := by
  simp only [processUnsubscribe, unsubscribeChecks, unsubscribeEffects, bind_assoc, pure_bind]

/-- The accounts of an unfollow: the user signed, the registry and the shard are at their addresses,
    and everything is writable that is written. -/
structure UnsubscribeAccounts (R : Runtime) where
  user : AccountInfo
  registry : AccountInfo
  shard : AccountInfo
  thread : AccountInfo
  system : AccountInfo
  rest : List AccountInfo
  signer : user.isSigner = true
  user_writable : user.isWritable = true
  registry_addr : R.HasAddress (.followRegistry user.key) registry.key
  registry_writable : registry.isWritable = true
  shard_addr : R.HasAddress (.followerShard thread.key (followerShardIndex user.key)) shard.key
  shard_writable : shard.isWritable = true
  system_key : system.key = systemProgram

namespace UnsubscribeAccounts

variable (u : UnsubscribeAccounts R)

/-- The accounts as they are passed. -/
def list : List AccountInfo :=
  u.user :: u.registry :: u.shard :: u.thread :: u.system :: u.rest

/-- Where the checks pass, they found the registry, with the channel in it. -/
theorem checks_ok {found : AccountInfo × AccountInfo × AccountInfo × AccountInfo × FollowRegistry × Nat}
    (h : unsubscribeChecks R u.list σ = .ok (found, σ')) :
    u.thread.key ∈ (σ.cell R).channels R u.user.key := by
  simp only [unsubscribeChecks, list, bind_eq_ok, failIf_eq_ok, Prod.exists, nextAccountInfo_eq_ok,
    assertSigner_eq_ok, assertWritable_eq_ok, assertSystemProgram_eq_ok, assertOwnedBy_eq_ok,
    orFail_eq_ok, assertPda_eq_ok, loadThread_iff, and_assoc, true_and, existsAndEq,
    exists_and_left, exists_const, ne_eq, not_not, List.cons.injEq] at h
  obtain ⟨-, -, -, -, -, ho, -, -, -, -, -, -, -, r, τ, hr, hown, pos, hpos, -⟩ := h
  obtain ⟨hreg, htag, rfl⟩ := loadFollowRegistry_ok ho hr
  have hcell : τ.cell R u.registry.key = .holds (.registry r) := hreg.cell htag
  have hself := channelsFor_self r
  rw [hown] at hself
  rw [Cells.channels, following_of_address u.registry_addr, hcell, hself]
  exact mem_of_position hpos

/-- A follower passes the checks. -/
theorem checks_of_mem (ht : (σ.cell R).Live u.thread.key)
    (hmem : u.thread.key ∈ (σ.cell R).channels R u.user.key) :
    ∃ (r : FollowRegistry) (pos : Nat), σ.cell R u.registry.key = .holds (.registry r) ∧
      unsubscribeChecks R u.list σ =
        .ok ((u.user, u.registry, u.shard, u.thread, r, pos), σ) := by
  obtain ⟨x, hx⟩ := ht
  obtain ⟨hto, htv, htd⟩ := cell_eq_holds.mp hx
  have hthread : σ.Holds R u.thread.key x ∧ x.tag = tagThread :=
    ⟨⟨hto, htv.fits, htd⟩, htv.tag_eq⟩
  rw [Cells.channels, following_of_address u.registry_addr] at hmem
  cases hc : (σ.cell R u.registry.key).channelsFor u.user.key with
  | none =>
    rw [hc] at hmem
    cases hmem
  | some cs =>
    rw [hc] at hmem
    obtain ⟨r, hr, hown, rfl⟩ := channelsFor_eq_some hc
    obtain ⟨ho, hv, hd⟩ := cell_eq_holds.mp hr
    have hholds : σ.Holds R u.registry.key r := ⟨ho, hv.fits, hd⟩
    have hload := (loadFollowRegistry_iff ho).mpr ⟨hholds, hv.tag_eq, rfl⟩
    obtain ⟨b, hb⟩ := u.registry_addr
    obtain ⟨c, hc⟩ := u.shard_addr
    obtain ⟨pos, hpos⟩ : ∃ pos, position r.channels u.thread.key = some pos :=
      Option.isSome_iff_exists.mp (List.isSome_idxOf?.mpr hmem)
    refine ⟨r, pos, hr, ?_⟩
    simp only [unsubscribeChecks, list, bind_eq_ok, failIf_eq_ok, Prod.exists,
      nextAccountInfo_eq_ok, assertSigner_eq_ok, assertWritable_eq_ok, assertSystemProgram_eq_ok,
      assertOwnedBy_eq_ok, orFail_eq_ok, assertPda_eq_ok, loadThread_iff, pure_eq_ok, and_assoc,
      true_and, existsAndEq, exists_and_left, exists_const, ne_eq, not_not, List.cons.injEq]
    exact ⟨u.signer, u.user_writable, u.registry_writable, u.shard_writable, u.system_key, ho,
      x, hthread.1, hthread.2, b, hb, c, hc, r, hload, hown, pos, hpos, rfl, trivial⟩

/-- **The membership check passes exactly for a follower.** -/
theorem passes_iff (ht : (σ.cell R).Live u.thread.key) :
    (∃ found σ', unsubscribeChecks R u.list σ = .ok (found, σ')) ↔
      u.thread.key ∈ (σ.cell R).channels R u.user.key := by
  constructor
  · intro h
    obtain ⟨found, σ', hrun⟩ := h
    exact u.checks_ok hrun
  · intro hmem
    obtain ⟨r, pos, -, hrun⟩ := u.checks_of_mem ht hmem
    exact ⟨_, _, hrun⟩

end UnsubscribeAccounts

/-- A follower is counted: the shard exists and is not zero. -/
theorem FollowAgrees.shard (hI : FollowAgrees R σ) (hmem : t ∈ (σ.cell R).channels R w)
    (ha : R.HasAddress (.followerShard t (followerShardIndex w)) k) :
    ∃ s : FollowerShard, σ.cell R k = .holds (.follower s) ∧ s.thread = t ∧
      s.shard = followerShardIndex w ∧ 0 < s.count.toNat := by
  have hpos : 0 < (σ.cell R).counted R t (followerShardIndex w) := by
    rw [hI.counted, Set.ncard_pos]
    exact ⟨w, rfl, hmem⟩
  rw [Cells.counted, tally_of_address ha] at hpos
  cases hc : (σ.cell R k).tallyFor (t, followerShardIndex w) with
  | none =>
    rw [hc] at hpos
    cases hpos
  | some n =>
    rw [hc] at hpos
    obtain ⟨s, hs, hst, hsi, rfl⟩ := tallyFor_eq_some hc
    exact ⟨s, hs, hst, hsi, hpos⟩

/-- A refund succeeds, or the wallet would hold more than an account can. -/
theorem refundExcess_cases (σ : Ledger) (reg user : AccountInfo) (r : Nat) :
    (∃ τ, refundExcess reg user r σ = .ok ((), τ)) ∨
      (2 ^ 64 ≤ σ.lamports user.key + σ.lamports reg.key ∧
        refundExcess reg user r σ = .error ProtocolError.invalidAccountData.toProgramError) := by
  by_cases hlt : r < σ.lamports reg.key
  · rw [refundExcess, bind_of_ok (lamportsOf_eq_ok.mpr ⟨rfl, rfl⟩), onlyIf, if_pos hlt,
      bind_of_ok (modify_eq_ok (u := ()).mpr rfl), bind_of_ok (lamportsOf_eq_ok.mpr ⟨rfl, rfl⟩), checkedAdd64]
    split
    · exact .inl ⟨_, bind_eq_ok.mpr ⟨_, _, orFail_eq_ok.mpr ⟨rfl, rfl⟩, modify_eq_ok.mpr rfl⟩⟩
    · rename_i hsum
      refine .inr ⟨?_, bind_of_error rfl⟩
      rw [Ledger.setLamports_lamports] at hsum
      by_cases hk : user.key = reg.key
      · rw [hk, update_self] at hsum
        omega
      · rw [update_of_ne hk] at hsum
        omega
  · refine .inl ⟨σ, ?_⟩
    rw [refundExcess, bind_of_ok (lamportsOf_eq_ok.mpr ⟨rfl, rfl⟩), onlyIf, if_neg hlt]
    rfl

/-- **Past the membership check nothing fails** but the refund, if the wallet is that full: the
    shard is found, and counts the follower. -/
theorem UnsubscribeAccounts.succeeds (u : UnsubscribeAccounts R) (hI : FollowAgrees R σ)
    (ht : (σ.cell R).Live u.thread.key)
    (hmem : u.thread.key ∈ (σ.cell R).channels R u.user.key) :
    (∃ σ', processUnsubscribe R sv u.list σ = .ok ((), σ')) ∨
      (2 ^ 64 ≤ σ.lamports u.user.key + σ.lamports u.registry.key ∧
        processUnsubscribe R sv u.list σ =
          .error ProtocolError.invalidAccountData.toProgramError) := by
  obtain ⟨r, pos, hreg, hchecks⟩ := u.checks_of_mem ht hmem
  obtain ⟨s, hs, hst, hsi, -⟩ := hI.shard hmem u.shard_addr
  obtain ⟨hso, hsv, hsd⟩ := cell_eq_holds.mp hs
  let shrunk : FollowRegistry := { r with channels := swapRemove r.channels pos }
  have hne : u.shard.key ≠ u.registry.key := ne_of_kind hs hreg fun h => Kind.noConfusion h
  have hput : ∀ bs, (serialize shrunk).length = ((σ.setData u.registry.key bs).data
      u.registry.key).length → serializeInto u.registry shrunk (σ.setData u.registry.key bs) =
        .ok ((), σ.put u.registry.key shrunk) := by
    intro bs hlen
    rw [serializeInto_eq hlen]
    exact congrArg (fun τ => Except.ok ((), τ)) (Ledger.setData_setData _ _ _ _)
  rw [processUnsubscribe_eq, bind_of_ok hchecks, unsubscribeEffects,
    bind_of_ok (resize_eq_ok (u := ()).mpr rfl), bind_of_ok (hput _ ?_)]
  swap
  · rw [Ledger.setData_data, update_self, length_resized, FollowRegistry.length]
  rcases refundExcess_cases (σ.put u.registry.key shrunk) u.registry u.user
    (sv.rent (FollowRegistry.size shrunk.channels.length)) with ⟨τ, hrefund⟩ | ⟨hfull, hrefund⟩
  · left
    have hτ := refundExcess_ok hrefund
    have hshard : τ.Holds R u.shard.key s := by
      refine ⟨?_, hsv.fits, ?_⟩
      · rw [hτ]
        exact hso
      · rw [hτ, Ledger.pay_data, Ledger.put_data, update_of_ne hne]
        exact hsd
    have hnf : ¬ τ.Free u.shard.key := fun hf => R.programId_ne (hshard.owner.symm.trans hf.1)
    have hload := (loadBoundFollowerShard_iff (a := u.shard)).mpr
      ⟨hshard, hsv.tag_eq, hst, hsi, rfl⟩
    rw [bind_of_ok hrefund,
      bind_of_ok (isUninitialized_eq_ok.mpr ⟨(decide_eq_false hnf).symm, rfl⟩),
      bind_of_ok (failIf_eq_ok (u := ()).mpr ⟨by simp, rfl⟩), bind_of_ok hload]
    exact ⟨_, serializeInto_eq (by rw [hshard.data, FollowerShard.length, FollowerShard.length])⟩
  · exact .inr ⟨hfull, bind_of_error hrefund⟩

/-! ## 5. The result -/

/-- What a successful instruction does to the follow sets: a follow and an unfollow change the list
    of their user by their thread, and any other instruction changes no list and no counter. -/
inductive FollowEffect (R : Runtime) (accounts : List AccountInfo) (ix : ProgramInstruction)
    (σ σ' : Ledger) : Prop where
  | change (w t : Pubkey) (user : (keysOf accounts)[0]? = some w)
      (thread : (keysOf accounts)[3]? = some t) (step : FollowStep R ix w t σ σ')
  | same (hix : ix ≠ .subscribe ∧ ix ≠ .unsubscribe)
      (lists : (σ'.cell R).channels R = (σ.cell R).channels R)
      (counts : (σ'.cell R).counted R = (σ.cell R).counted R)

theorem Act.followEffect (h : Act R sv accounts σ σ' ix) : FollowEffect R accounts ix σ σ' := by
  rcases h.follow_cases with ⟨d, hd, rfl⟩ | ⟨d, hd, rfl⟩ | ⟨hsub, hunsub, hf, ht⟩
  · exact .change d.user d.thread (getElem?_of_take hd.keys (by omega))
      (getElem?_of_take hd.keys (by omega)) hd.followStep
  · exact .change d.user d.thread (getElem?_of_take hd.keys (by omega))
      (getElem?_of_take hd.keys (by omega)) hd.followStep
  · refine .same ⟨hsub, hunsub⟩ ?_ ?_
    · funext w
      rw [Cells.channels, Cells.channels, hf]
    · funext t i
      rw [Cells.counted, Cells.counted, ht]

/-- **Follow registries and counters agree in every reachable store**, an unfollow with its own
    accounts gets past the membership check exactly for a follower and then finds the shard live and
    counting, and a follow adds its channel once where an unfollow removes it. -/
theorem follow_counters (h : (program R).Reach anyStep σ) :
    (∀ t, ∀ i < nFollowerShards, (σ.cell R).counted R t i = (followersIn R σ t i).ncard) ∧
    (∀ t, ∑ i ∈ Finset.range nFollowerShards.toNat, (σ.cell R).counted R t (UInt8.ofNat i) =
      (followers R σ t).ncard) ∧
    (∀ k r, σ.cell R k = .holds (.registry r) → r.Distinct ∧
      (σ.data k).length = FollowRegistry.size r.channels.length) ∧
    (∀ (u : UnsubscribeAccounts R) (sv : Sysvars), (σ.cell R).Live u.thread.key →
      ((∃ found σ', unsubscribeChecks R u.list σ = .ok (found, σ')) ↔
        u.thread.key ∈ (σ.cell R).channels R u.user.key) ∧
      (u.thread.key ∈ (σ.cell R).channels R u.user.key →
        (∃ s : FollowerShard, σ.cell R u.shard.key = .holds (.follower s) ∧ 0 < s.count.toNat) ∧
        ((∃ σ', processUnsubscribe R sv u.list σ = .ok ((), σ')) ∨
          (2 ^ 64 ≤ σ.lamports u.user.key + σ.lamports u.registry.key ∧
            processUnsubscribe R sv u.list σ =
              .error ProtocolError.invalidAccountData.toProgramError)))) ∧
    (∀ sv accounts ix σ', (program R).step σ (.call sv accounts ix) σ' →
      FollowEffect R accounts ix σ σ') := by
  have hI := reach_followAgrees h
  refine ⟨fun t i _ => hI.counted t i, hI.total, fun k r hr => ⟨hI.registry k r hr, ?_⟩,
    fun u sv ht => ⟨u.passes_iff ht, fun hmem => ⟨?_, u.succeeds hI ht hmem⟩⟩,
    fun sv accounts ix σ' hs => (reach_act h hs).followEffect⟩
  · obtain ⟨-, -, hd⟩ := cell_eq_holds.mp hr
    rw [hd, AccountData.length_bytes]
    rfl
  · obtain ⟨s, hs, -, -, hpos⟩ := hI.shard hmem u.shard_addr
    exact ⟨s, hs, hpos⟩

namespace Local

/-- `bob` follows the channel. -/
def followBob : Call where
  sv := sysvars
  accounts := [signing bob, passed (addressOf (.followRegistry bob)),
    passed (addressOf (.followerShard channel (followerShardIndex bob))), passed channel,
    passed systemProgram]
  ix := .subscribe

def followed : List Call := inUse ++ [followBob]

theorem followed_reach : (program localnet).Reach anyStep (afterCalls localnet followed genesis) := by
  obtain ⟨tr, hp, -⟩ := path_afterCalls
    (ownKeys_of_plain (show followed.all Call.isPlain = true by decide +kernel))
    (show ∀ c ∈ followed, ∀ σ τ, anyStep σ c.event τ from fun _ _ _ _ => trivial)
    (show (runCalls localnet followed genesis).isSome by decide +kernel)
  exact hp.reach (.init genesis_init)

end Local

/-- After one follow the channel counts one follower. -/
theorem follow_counters_bob :
    (followers localnet (afterCalls localnet Local.followed Local.genesis) Local.channel).ncard = 1 := by
  rw [← (follow_counters Local.followed_reach).2.1]
  decide +kernel

end Txtcel
