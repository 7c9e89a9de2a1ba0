import Txtcel.System.Deployment

/-!
# One address, one account

The strings that `find_program_address` hashes carry no lengths: a seed, keys, numbers and the bump
stand one behind the other, and the ten formats share prefixes (`access`, `acl`, `alloc` and
`author_fee`; `follows` and `follower_count`).

* `message_inj` tells them apart all the same: the length gives the format, but for `alloc` and
  `likes`, which the first byte tells apart, and within a format every field has its own width.
* So two derivations with one address are a collision of the hash, with both strings known
  (`HasAddress.collision`), and over keys whose strings do not collide there are none.
* What a handler checks of an account is `HasAddress` in its specification (`d.Ok`), or in that of the
  loader it calls. Such a fact therefore holds of one derivation and one account (`AddressesTell`).
-/

namespace Txtcel

open Lib

variable {R : Runtime} {K : Set Pubkey} {p q : Pda} {k : Pubkey}

/-! ## 1. The functions of the source -/

/-- The ten functions of `pda.rs` and `content/mod.rs` are the ten derivations. -/
structure DerivesAll (R : Runtime) : Prop where
  settings : deriveSettingsPda R = Pda.settings.derive R
  alloc : ∀ t n, deriveAllocPda R t n = (Pda.alloc t n).derive R
  content : ∀ t n i, deriveContentPda R t n i = (Pda.content t n i).derive R
  access : ∀ t, deriveAccessPda R t = (Pda.access t).derive R
  entry : ∀ t w, deriveAccessEntryPda R t w = (Pda.entry t w).derive R
  likes : ∀ t n, deriveLikesPda R t n = (Pda.likes t n).derive R
  treasuryShard : ∀ i, deriveTreasuryShardPda R i = (Pda.treasuryShard i).derive R
  authorFee : ∀ t i, deriveAuthorFeePda R t i = (Pda.authorFee t i).derive R
  followRegistry : ∀ w, deriveFollowRegistryPda R w = (Pda.followRegistry w).derive R
  followerShard : ∀ t i, deriveFollowerShardPda R t i = (Pda.followerShard t i).derive R

theorem derivesAll (R : Runtime) : DerivesAll R where
  settings := rfl
  alloc _ _ := rfl
  content _ _ _ := rfl
  access _ := rfl
  entry _ _ := rfl
  likes _ _ := rfl
  treasuryShard _ := rfl
  authorFee _ _ := rfl
  followRegistry _ := rfl
  followerShard _ _ := rfl

/-! ## 2. A shared address is a collision -/

/-- The whole string that is hashed: the seeds, the bump, the program id and the marker. -/
def Pda.hashed (p : Pda) (R : Runtime) (bump : UInt8) : Bytes :=
  p.message bump ++ R.programId.bytes ++ pdaMarker

/-- The whole string determines the derivation, its parameters and the bump. -/
theorem Pda.hashed_inj {b c : UInt8} (h : p.hashed R b = q.hashed R c) : p = q ∧ b = c := by
  unfold Pda.hashed at h
  rw [List.append_assoc, List.append_assoc] at h
  exact Pda.message_inj (List.append_cancel_right h)

/-- **Two derivations with one address are a collision**, of two strings that are known. -/
theorem Runtime.HasAddress.collision (h : R.HasAddress p k) (h' : R.HasAddress q k) (hne : p ≠ q) :
    ∃ b c, p.hashed R b ≠ q.hashed R c ∧ R.hash (p.hashed R b) = R.hash (q.hashed R c) := by
  obtain ⟨b, hb⟩ := h.hash_eq
  obtain ⟨c, hc⟩ := h'.hash_eq
  exact ⟨b, c, fun heq => hne (Pda.hashed_inj heq).1, hb.trans hc.symm⟩

/-! ## 3. What a check tells -/

/-- The keys among the parameters are in `K`. -/
def Pda.Over (p : Pda) (K : Set Pubkey) : Prop := ∀ k ∈ p.keys, k ∈ K

/-- What the checks of two handlers tell, over keys whose strings do not collide. -/
structure AddressesTell (R : Runtime) (p q : Pda) : Prop where
  /-- An account that passed as `p` and as `q` passed as one account of the program: thread, wallet,
      sequence, slot and shard are the same. -/
  derivation : ∀ k, R.HasAddress p k → R.HasAddress q k → p = q
  /-- Only one account passes as `p`. -/
  account : ∀ k k', R.HasAddress p k → R.HasAddress p k' → k = k'

theorem addressesTell (hK : R.CollisionFree K) (hp : p.Over K) (hq : q.Over K) :
    AddressesTell R p q where
  derivation _ h h' := address_inj hK hp hq h h'
  account _ _ h h' := h.unique h'

/-- **The seed strings never collide**: for all keys, sequences, indices and bumps they determine
    the derivation, its parameters and the bump. So a shared address is a collision of the hash, and
    without collisions every address and every check tell thread, wallet, sequence, slot and
    shard. -/
theorem seeds_separate (R : Runtime) :
    DerivesAll R ∧
    (∀ (p q : Pda) (b c : UInt8), p.message b = q.message c → p = q ∧ b = c) ∧
    (∀ (p q : Pda) (k : Pubkey), R.HasAddress p k → R.HasAddress q k → p ≠ q →
      ∃ b c, p.hashed R b ≠ q.hashed R c ∧ R.hash (p.hashed R b) = R.hash (q.hashed R c)) ∧
    ∀ (K : Set Pubkey), R.CollisionFree K → ∀ p q : Pda, p.Over K → q.Over K →
      AddressesTell R p q :=
  ⟨derivesAll R, fun _ _ _ _ h => Pda.message_inj h, fun _ _ _ h h' hne => h.collision h' hne,
    fun _ hK _ _ hp hq => addressesTell hK hp hq⟩

/-- On the local deployment a page and its like counters are told apart. -/
theorem seeds_separate_local :
    AddressesTell localnet (.alloc Local.channel 0) (.likes Local.channel 0) := by
  have hover : ∀ j ∈ [Local.channel], j ∈ {k | Plain k} := by
    intro j hj
    rw [List.mem_singleton.mp hj]
    exact ⟨3, rfl⟩
  exact (seeds_separate localnet).2.2.2 {k | Plain k} localnet_collisionFree
    (.alloc Local.channel 0) (.likes Local.channel 0) hover hover

end Txtcel
