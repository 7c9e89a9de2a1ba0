import Txtcel.Processor.Follows
import Txtcel.Spec.Access

/-!
# What a successful follow or unfollow did

`subscribe` and `unsubscribe`: the follower's registry, resized, and one shard of the channel's
counter.
-/

namespace Txtcel

open Lib Exec Borsh Function

variable {R : Runtime} {sv : Sysvars} {σ σ' : Ledger} {u : Unit} {accounts : List AccountInfo}

/-- Structures of different kinds are at different addresses. -/
theorem ne_of_kind {a b : AccountData} {j k : Pubkey} (h : σ.cell R j = .holds a)
    (h' : σ.cell R k = .holds b) (hne : a.kind ≠ b.kind) : j ≠ k := by
  rintro rfl
  rw [h] at h'
  exact hne (congrArg AccountData.kind (Cell.holds.inj h'))

/-! ## 1. `subscribe` -/

/-- A registry without channels. -/
def emptyRegistry (owner : Pubkey) : FollowRegistry :=
  { tag := tagFollowRegistry, owner := owner, channels := [] }

structure Subscribe where
  user : Pubkey
  registry : Pubkey
  shard : Pubkey
  thread : Pubkey
  node : ThreadNode
  prevRegistry : Option FollowRegistry
  prevShard : Option FollowerShard
  count : UInt64

namespace Subscribe

/-- The registry before the channel is added. -/
def old (d : Subscribe) : FollowRegistry := d.prevRegistry.getD (emptyRegistry d.user)

def new (d : Subscribe) : FollowRegistry := { d.old with channels := d.old.channels ++ [d.thread] }

/-- The counter with the new follower. -/
def newShard (d : Subscribe) : FollowerShard :=
  { tag := tagFollowerShard, thread := d.thread, shard := followerShardIndex d.user
    count := d.count }

def opened (d : Subscribe) (R : Runtime) (sv : Sysvars) (σ : Ledger) : Ledger :=
  match d.prevRegistry with
  | none => (σ.create d.user d.registry R.programId (sv.rent (FollowRegistry.size 0))
      (FollowRegistry.size 0)).put d.registry d.old
  | some _ => σ

/-- The ledger with the channel in the registry. -/
def registered (d : Subscribe) (R : Runtime) (sv : Sysvars) (σ : Ledger) : Ledger :=
  ((d.opened R sv σ).pay d.user d.registry (sv.rent (FollowRegistry.size d.new.channels.length) -
    (d.opened R sv σ).lamports d.registry)).put d.registry d.new

/-- The ledger with the follower counted. -/
def counted (d : Subscribe) (R : Runtime) (sv : Sysvars) (σ : Ledger) : Ledger :=
  match d.prevShard with
  | none => ((d.registered R sv σ).create d.user d.shard R.programId (sv.rent FollowerShard.size)
      FollowerShard.size).put d.shard d.newShard
  | some _ => (d.registered R sv σ).put d.shard d.newShard

def RegistryBefore (d : Subscribe) (R : Runtime) (σ : Ledger) : Prop :=
  match d.prevRegistry with
  | none => σ.Free d.registry
  | some r => σ.Holds R d.registry r ∧ r.tag = tagFollowRegistry ∧ r.owner = d.user

def ShardBefore (d : Subscribe) (R : Runtime) (σ : Ledger) : Prop :=
  match d.prevShard with
  | none => σ.Free d.shard ∧ d.count = 1
  | some s => σ.Holds R d.shard s ∧ s.tag = tagFollowerShard ∧ s.thread = d.thread ∧
      s.shard = followerShardIndex d.user ∧ d.count.toNat = s.count.toNat + 1

structure Ok (R : Runtime) (sv : Sysvars) (accounts : List AccountInfo) (d : Subscribe)
    (σ σ' : Ledger) : Prop where
  keys : (keysOf accounts).take 4 = [d.user, d.registry, d.shard, d.thread]
  signer : d.user ∈ signers accounts
  thread_holds : σ.Holds R d.thread d.node
  thread_tag : d.node.tag = tagThread
  registry_addr : R.HasAddress (.followRegistry d.user) d.registry
  shard_addr : R.HasAddress (.followerShard d.thread (followerShardIndex d.user)) d.shard
  registry_before : d.RegistryBefore R σ
  shard_before : d.ShardBefore R σ
  not_following : d.thread ∉ d.old.channels
  not_full : d.old.channels.length < maxFollows
  registry_ne : d.registry ≠ d.shard
  post : σ' = d.counted R sv σ
  spends : σ.Spends d.user σ'

end Subscribe

theorem openRegistry_ok {user reg sys : AccountInfo} {b : UInt8} {r : FollowRegistry}
    (h : openRegistry R sv user reg sys b σ = .ok (r, σ')) :
    (σ.Free reg.key ∧ r = emptyRegistry user.key ∧
      σ' = (σ.create user.key reg.key R.programId (sv.rent (FollowRegistry.size 0))
        (FollowRegistry.size 0)).put reg.key (emptyRegistry user.key) ∧ σ.Spends user.key σ') ∨
    (σ.Holds R reg.key r ∧ r.tag = tagFollowRegistry ∧ r.owner = user.key ∧ σ' = σ) := by
  simp only [openRegistry, bind_eq_ok (x := isUninitialized _), isUninitialized_eq_ok, and_assoc,
    true_and, existsAndEq, decide_eq_true_eq] at h
  rcases ite_eq_ok.mp h with ⟨hf, h⟩ | ⟨-, h⟩
  · simp only [bind_eq_ok, pure_eq_ok] at h
    obtain ⟨_, σ₁, hcr, _, σ₂, hput, rfl, rfl⟩ := h
    obtain ⟨-, -, rfl, hs⟩ := createPdaAccount_ok hcr
    have hput' := serializeInto_create hput (FollowRegistry.length _)
    refine .inl ⟨hf, rfl, hput', ?_⟩
    rw [hput']
    exact hs.trans (.put _ _)
  · simp only [bind_eq_ok, assertOwnedBy_eq_ok, failIf_eq_ok, pure_eq_ok, and_assoc, true_and,
      existsAndEq, exists_and_left, exists_const, ne_eq, not_not] at h
    obtain ⟨ho, hl, hown, -⟩ := h
    obtain ⟨hx, htag, rfl⟩ := loadFollowRegistry_ok ho hl
    exact .inr ⟨hx, htag, hown, rfl⟩

theorem bumpFollowers_ok {user shard sys : AccountInfo} {t : Pubkey} {i b : UInt8}
    (h : bumpFollowers R sv user shard sys t i b σ = .ok (u, σ')) :
    (σ.Free shard.key ∧
      σ' = (σ.create user.key shard.key R.programId (sv.rent FollowerShard.size)
        FollowerShard.size).put shard.key
          { tag := tagFollowerShard, thread := t, shard := i, count := 1 : FollowerShard } ∧
      σ.Spends user.key σ') ∨
    ∃ s : FollowerShard, σ.Holds R shard.key s ∧ s.tag = tagFollowerShard ∧ s.thread = t ∧
      s.shard = i ∧ ∃ n : UInt64, n.toNat = s.count.toNat + 1 ∧
        σ' = σ.put shard.key { s with count := n } := by
  simp only [bumpFollowers, bind_eq_ok (x := isUninitialized _), isUninitialized_eq_ok, and_assoc,
    true_and, existsAndEq, decide_eq_true_eq] at h
  rcases ite_eq_ok.mp h with ⟨hf, h⟩ | ⟨-, h⟩
  · obtain ⟨_, σ₁, hcr, hput⟩ := bind_eq_ok.mp h
    obtain ⟨-, -, rfl, hs⟩ := createPdaAccount_ok hcr
    have hput' := serializeInto_create hput (FollowerShard.length _)
    refine .inl ⟨hf, hput', ?_⟩
    rw [hput']
    exact hs.trans (.put _ _)
  · simp only [bind_eq_ok, orFail_eq_ok, and_assoc, true_and, existsAndEq, exists_and_left] at h
    obtain ⟨s, _, hl, n, hn, hput⟩ := h
    obtain ⟨hs, htag, ht, hi, rfl⟩ := loadBoundFollowerShard_ok hl
    refine .inr ⟨s, hs, htag, ht, hi, n, ?_,
      serializeInto_ok hput (by rw [hs.data, FollowerShard.length, FollowerShard.length])⟩
    unfold checkedSucc64 at hn
    split at hn
    · rename_i hlt
      obtain rfl := Option.some.inj hn
      rw [UInt64.toNat_add]
      exact Nat.mod_eq_of_lt hlt
    · cases hn

/-- A resized buffer has the new length. -/
theorem length_resized (bs : Bytes) (n : Nat) :
    (bs.take n ++ List.replicate (n - bs.length) 0).length = n := by
  simp only [List.length_append, List.length_take, List.length_replicate]
  omega

namespace Subscribe

variable {d : Subscribe}

/-- In the registered ledger the registry holds the grown list, and everything but the registry is
    as it was. -/
theorem registered_holds (hb : d.RegistryBefore R σ) (hfull : d.old.channels.length < maxFollows) :
    (d.registered R sv σ).Holds R d.registry d.new ∧ d.new.tag = tagFollowRegistry := by
  have hfits : Borsh.Fits d.new := by
    rw [FollowRegistry.fits_iff]
    simp only [new, List.length_append, List.length_cons, List.length_nil]
    have : maxFollows < 2 ^ 32 - 1 := by decide
    omega
  cases hp : d.prevRegistry with
  | none =>
    refine ⟨⟨?_, hfits, by simp [registered]⟩, ?_⟩
    · simp [registered, opened, hp]
    · simp [new, old, hp, emptyRegistry]
  | some r =>
    simp only [RegistryBefore, hp] at hb
    refine ⟨⟨?_, hfits, by simp [registered]⟩, ?_⟩
    · simp [registered, opened, hp, hb.1.owner]
    · simp [new, old, hp, hb.2.1]

theorem registered_owner {k : Pubkey} (hk : k ≠ d.registry) :
    (d.registered R sv σ).owner k = σ.owner k := by
  cases hp : d.prevRegistry <;> simp [registered, opened, hp, hk]

theorem registered_data {k : Pubkey} (hk : k ≠ d.registry) :
    (d.registered R sv σ).data k = σ.data k := by
  cases hp : d.prevRegistry <;> simp [registered, opened, hp, hk]

end Subscribe

theorem processSubscribe_ok (h : processSubscribe R sv accounts σ = .ok (u, σ')) :
    ∃ d : Subscribe, d.Ok R sv accounts σ σ' := by
  simp only [processSubscribe, bind_eq_ok, failIf_eq_ok, Prod.exists, nextAccountInfo_eq_ok,
    assertSigner_eq_ok, assertWritable_eq_ok, assertSystemProgram_eq_ok, orFail_eq_ok,
    assertPda_eq_ok, resize_eq_ok, and_assoc, true_and, existsAndEq, exists_and_left, exists_const,
    not_le] at h
  obtain ⟨p, r, f, t, sys, rest, hacc, hsig, -, -, -, -, x, τ, hlt, b, hb, c, hc, reg, σ₁, hopen,
    hnew, hfull, _, σ₂, hrent, _, σ₃, hput, hbump⟩ := h
  obtain ⟨hx, hxtag, rfl⟩ := loadThread_ok hlt
  have hreg : ∃ prev : Option FollowRegistry,
      (match prev with
        | none => τ.Free r.key
        | some z => τ.Holds R r.key z ∧ z.tag = tagFollowRegistry ∧ z.owner = p.key) ∧
      reg = prev.getD (emptyRegistry p.key) ∧
      σ₁ = (match prev with
        | none => (τ.create p.key r.key R.programId (sv.rent (FollowRegistry.size 0))
            (FollowRegistry.size 0)).put r.key reg
        | some _ => τ) ∧ τ.Spends p.key σ₁ := by
    rcases openRegistry_ok hopen with ⟨hf, rfl, hσ, hs⟩ | ⟨hr, htag, ho, rfl⟩
    · exact ⟨none, hf, rfl, hσ, hs⟩
    · exact ⟨some reg, ⟨hr, htag, ho⟩, rfl, rfl, .refl _ _⟩
  obtain ⟨prev, hbefore, rfl, hσ₁, hs1⟩ := hreg
  obtain ⟨hσ₂, hs2⟩ := ensureRentExempt_ok hrent
  have hput' := serializeInto_ok hput (by
    rw [hσ₂, Ledger.pay_data, Ledger.setData_data, update_self, length_resized,
      FollowRegistry.length])
  let d : Subscribe := ⟨p.key, r.key, f.key, t.key, x, prev, none, 1⟩
  have hrb : d.RegistryBefore R τ := by
    cases prev <;> exact hbefore
  have hσ₁' : σ₁ = d.opened R sv τ := by
    rw [hσ₁]
    cases prev <;> rfl
  have hregd : σ₃ = d.registered R sv τ := by
    rw [hput', hσ₂, hσ₁']
    ext1
    · rfl
    · simp [Subscribe.registered, Subscribe.new, Subscribe.old, d]
    · rfl
  obtain ⟨hrh, hrtag⟩ : (d.registered R sv τ).Holds R d.registry d.new ∧
      d.new.tag = tagFollowRegistry := Subscribe.registered_holds hrb (show d.old.channels.length < _ from hfull)
  rw [← hregd] at hrh
  have hs3 : τ.Spends p.key σ₃ := by
    rw [hput']
    exact (hs1.trans ((Ledger.Spends.setData _ _).trans hs2)).trans (.setData _ _)
  have hshard : ∃ (prevShard : Option FollowerShard) (n : UInt64), r.key ≠ f.key ∧
      (match prevShard with
        | none => τ.Free f.key ∧ n = 1
        | some s => τ.Holds R f.key s ∧ s.tag = tagFollowerShard ∧ s.thread = t.key ∧
            s.shard = followerShardIndex p.key ∧ n.toNat = s.count.toNat + 1) ∧
      σ' = (⟨p.key, r.key, f.key, t.key, x, prev, prevShard, n⟩ : Subscribe).counted R sv τ ∧
      σ₃.Spends p.key σ' := by
    rcases bumpFollowers_ok hbump with ⟨hf, hσ, hs⟩ | ⟨s, hs, htag, hth, hi, n, hn, hσ⟩
    · have hne : r.key ≠ f.key := hrh.ne_of_free hf
      refine ⟨none, 1, hne, ⟨⟨?_, ?_⟩, rfl⟩, ?_, hs⟩
      · rw [← hf.1, hregd, Subscribe.registered_owner hne.symm]
      · rw [← hf.2, hregd, Subscribe.registered_data hne.symm]
      · rw [hσ, hregd]
        rfl
    · have h1 := hrh.cell hrtag
      have h2 := hs.cell htag
      have hne : r.key ≠ f.key := ne_of_kind h1 h2 fun h => Kind.noConfusion h
      refine ⟨some s, n, hne, ⟨hs.congr ?_ ?_, htag, hth, hi, hn⟩, ?_, ?_⟩
      · rw [hregd, Subscribe.registered_owner hne.symm]
      · rw [hregd, Subscribe.registered_data hne.symm]
      · rw [hσ, hregd]
        obtain ⟨tag, thread, shard, count⟩ := s
        obtain rfl : tag = tagFollowerShard := htag
        obtain rfl : thread = t.key := hth
        obtain rfl : shard = followerShardIndex p.key := hi
        rfl
      · rw [hσ]
        exact .put _ _
  obtain ⟨prevShard, n, hne, hsb, hpost, hs4⟩ := hshard
  refine ⟨⟨p.key, r.key, f.key, t.key, x, prev, prevShard, n⟩,
    { keys := by simp [keysOf, hacc]
      signer := ⟨p, by simp [hacc], hsig, rfl⟩
      thread_holds := hx
      thread_tag := hxtag
      registry_addr := ⟨b, hb⟩
      shard_addr := ⟨c, hc⟩
      registry_before := hrb
      shard_before := by cases prevShard <;> exact hsb
      not_following := hnew
      not_full := hfull
      registry_ne := hne
      post := hpost
      spends := hs3.trans hs4 }⟩

/-! ## 2. `unsubscribe` -/

structure Unsubscribe where
  user : Pubkey
  registry : Pubkey
  shard : Pubkey
  thread : Pubkey
  node : ThreadNode
  old : FollowRegistry
  pos : Nat
  oldShard : FollowerShard

namespace Unsubscribe

def new (d : Unsubscribe) : FollowRegistry :=
  { d.old with channels := swapRemove d.old.channels d.pos }

/-- The counter without the follower. -/
def newShard (d : Unsubscribe) : FollowerShard :=
  { d.oldShard with count := d.oldShard.count - min 1 d.oldShard.count }

/-- The rent minimum of the shrunk registry. -/
def required (d : Unsubscribe) (sv : Sysvars) : Nat :=
  sv.rent (FollowRegistry.size d.new.channels.length)

structure Ok (R : Runtime) (sv : Sysvars) (accounts : List AccountInfo) (d : Unsubscribe)
    (σ σ' : Ledger) : Prop where
  keys : (keysOf accounts).take 4 = [d.user, d.registry, d.shard, d.thread]
  signer : d.user ∈ signers accounts
  thread_holds : σ.Holds R d.thread d.node
  thread_tag : d.node.tag = tagThread
  registry_addr : R.HasAddress (.followRegistry d.user) d.registry
  shard_addr : R.HasAddress (.followerShard d.thread (followerShardIndex d.user)) d.shard
  registry_holds : σ.Holds R d.registry d.old
  registry_tag : d.old.tag = tagFollowRegistry
  registry_owner : d.old.owner = d.user
  pos_eq : position d.old.channels d.thread = some d.pos
  shard_holds : σ.Holds R d.shard d.oldShard
  shard_tag : d.oldShard.tag = tagFollowerShard
  shard_thread : d.oldShard.thread = d.thread
  shard_index : d.oldShard.shard = followerShardIndex d.user
  registry_ne : d.registry ≠ d.shard
  post : σ' = ((σ.put d.registry d.new).pay d.registry d.user
    (σ.lamports d.registry - d.required sv)).put d.shard d.newShard

end Unsubscribe

/-- The refund is a payment out of the registry. -/
theorem refundExcess_ok {reg user : AccountInfo} {r : Nat}
    (h : refundExcess reg user r σ = .ok (u, σ')) :
    σ' = σ.pay reg.key user.key (σ.lamports reg.key - r) := by
  simp only [refundExcess, bind_eq_ok, lamportsOf_eq_ok, onlyIf_eq_ok, modify_eq_ok, orFail_eq_ok,
    checkedAdd64_eq_some, and_assoc, true_and, existsAndEq, exists_and_left, exists_const] at h
  rcases h with ⟨hlt, -, rfl⟩ | ⟨hge, hσ⟩
  · have hr : σ.lamports reg.key - (σ.lamports reg.key - r) = r := by omega
    ext1 <;> simp [Ledger.pay, hr]
  · rw [Nat.sub_eq_zero_of_le (Nat.le_of_not_lt hge), Ledger.pay_zero]
    exact hσ

theorem length_swapRemove {α : Type} (xs : List α) (pos : Nat) :
    (swapRemove xs pos).length = xs.length - 1 := by
  unfold swapRemove
  split
  · rw [List.length_dropLast, List.length_set]
  · rename_i h
    rw [List.getLast?_eq_none_iff.mp h, List.length_nil]

theorem Unsubscribe.new_fits {d : Unsubscribe} (h : Borsh.Fits d.old) : Borsh.Fits d.new := by
  rw [FollowRegistry.fits_iff] at h ⊢
  simp only [new, length_swapRemove]
  omega

theorem processUnsubscribe_ok (h : processUnsubscribe R sv accounts σ = .ok (u, σ')) :
    ∃ d : Unsubscribe, d.Ok R sv accounts σ σ' := by
  simp only [processUnsubscribe, bind_eq_ok, failIf_eq_ok, Prod.exists, nextAccountInfo_eq_ok,
    assertSigner_eq_ok, assertWritable_eq_ok, assertSystemProgram_eq_ok, assertOwnedBy_eq_ok,
    orFail_eq_ok, assertPda_eq_ok, resize_eq_ok, isUninitialized_eq_ok, and_assoc, true_and,
    existsAndEq, exists_and_left, exists_const, ne_eq, not_not] at h
  obtain ⟨p, r, f, t, sys, rest, hacc, hsig, -, -, -, -, ho, x, _, hlt, b, hb, c, hc, reg, τ, hlr,
    how, pos, hpos, _, σ₁, hput1, _, σ₂, href, -, s, σ₃, hls, hput2⟩ := h
  obtain ⟨hx, hxtag, rfl⟩ := loadThread_ok hlt
  obtain ⟨hr, hrtag, rfl⟩ := loadFollowRegistry_ok ho hlr
  let d : Unsubscribe := ⟨p.key, r.key, f.key, t.key, x, reg, pos, s⟩
  have hput1' : σ₁ = τ.put r.key d.new := by
    have := serializeInto_ok hput1 (by
      rw [Ledger.setData_data, update_self, length_resized, FollowRegistry.length])
    rw [this]
    exact Ledger.setData_setData _ _ _ _
  have href' := refundExcess_ok href
  obtain ⟨hs, hstag, hth, hi, rfl⟩ := loadBoundFollowerShard_ok hls
  have hr3 : σ₃.Holds R r.key d.new := by
    refine ⟨?_, d.new_fits hr.fits, ?_⟩
    · rw [href', hput1']
      exact hr.owner
    · rw [href', hput1']
      simp
  have h1 := hr3.cell hrtag
  have h2 := hs.cell hstag
  have hne : r.key ≠ f.key := ne_of_kind h1 h2 fun h => Kind.noConfusion h
  have hs0 : τ.Holds R f.key s := by
    refine hs.congr ?_ ?_
    · rw [href', hput1']
      rfl
    · rw [href', hput1']
      simp [hne.symm]
  refine ⟨d,
    { keys := by simp [keysOf, hacc, d]
      signer := ⟨p, by simp [hacc], hsig, rfl⟩
      thread_holds := hx
      thread_tag := hxtag
      registry_addr := ⟨b, hb⟩
      shard_addr := ⟨c, hc⟩
      registry_holds := hr
      registry_tag := hrtag
      registry_owner := how
      pos_eq := hpos
      shard_holds := hs0
      shard_tag := hstag
      shard_thread := hth
      shard_index := hi
      registry_ne := hne
      post := ?_ }⟩
  have hput2' := serializeInto_ok hput2 (by rw [hs.data, FollowerShard.length, FollowerShard.length])
  rw [hput2', href', hput1']
  rfl

end Txtcel
