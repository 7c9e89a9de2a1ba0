import Txtcel.State.Constants

/-!
# Program-derived addresses

`state/pda.rs` and `derive_content_pda`. Each derivation hashes its own seeds; a derivation that
finds no address panics in the source and is `none` here.

`Pda` names the ten derivations and their parameters as data, so that one statement can speak of
all of them:

* `Pda.message`: the string that is hashed for a bump, without length framing;
* `message_inj`: the string determines the derivation, its parameters and the bump;
* `Runtime.CollisionFree K`: no two strings over the keys in `K` have the same hash -- a condition
  on the hash for the keys in play, not for all keys (there are more strings than addresses);
* `address_inj`: then two derivations over `K` with one address are the same derivation.
-/

namespace Txtcel

open Lib Borsh

/-! ## 1. The derivations -/

section Derive

variable (R : Runtime)

def deriveSettingsPda : Option (Pubkey × UInt8) :=
  R.findProgramAddress [settingsSeed] R.programId

def deriveAllocPda (thread : Pubkey) (allocSeq : UInt32) : Option (Pubkey × UInt8) :=
  R.findProgramAddress [allocSeed, thread.bytes, serialize allocSeq] R.programId

def deriveAccessPda (thread : Pubkey) : Option (Pubkey × UInt8) :=
  R.findProgramAddress [accessSeed, thread.bytes] R.programId

def deriveAccessEntryPda (thread wallet : Pubkey) : Option (Pubkey × UInt8) :=
  R.findProgramAddress [aclSeed, thread.bytes, wallet.bytes] R.programId

def deriveLikesPda (thread : Pubkey) (allocSeq : UInt32) : Option (Pubkey × UInt8) :=
  R.findProgramAddress [likesSeed, thread.bytes, serialize allocSeq] R.programId

def deriveTreasuryShardPda (shard : UInt16) : Option (Pubkey × UInt8) :=
  R.findProgramAddress [treasuryShardSeed, serialize shard] R.programId

def deriveAuthorFeePda (thread : Pubkey) (shard : UInt8) : Option (Pubkey × UInt8) :=
  R.findProgramAddress [authorFeeSeed, thread.bytes, [shard]] R.programId

def deriveFollowRegistryPda (owner : Pubkey) : Option (Pubkey × UInt8) :=
  R.findProgramAddress [followsSeed, owner.bytes] R.programId

def deriveFollowerShardPda (thread : Pubkey) (shard : UInt8) : Option (Pubkey × UInt8) :=
  R.findProgramAddress [followerCountSeed, thread.bytes, [shard]] R.programId

def deriveContentPda (thread : Pubkey) (allocSeq : UInt32) (slot : UInt8) :
    Option (Pubkey × UInt8) :=
  R.findProgramAddress [contentSeed, thread.bytes, serialize allocSeq, [slot]] R.programId

end Derive

/-- The first byte of the wallet, modulo the number of shards. -/
def followerShardIndex (wallet : Pubkey) : UInt8 :=
  wallet.bytes.headD 0 % nFollowerShards

/-! ## 2. The derivations as data -/

/-- One derivation with its parameters. -/
inductive Pda where
  | settings
  | alloc (thread : Pubkey) (allocSeq : UInt32)
  | content (thread : Pubkey) (allocSeq : UInt32) (slot : UInt8)
  | access (thread : Pubkey)
  | entry (thread wallet : Pubkey)
  | likes (thread : Pubkey) (allocSeq : UInt32)
  | treasuryShard (shard : UInt16)
  | authorFee (thread : Pubkey) (shard : UInt8)
  | followRegistry (owner : Pubkey)
  | followerShard (thread : Pubkey) (shard : UInt8)
  deriving DecidableEq

namespace Pda

def seeds : Pda → List Bytes
  | settings => [settingsSeed]
  | alloc t seq => [allocSeed, t.bytes, serialize seq]
  | content t seq slot => [contentSeed, t.bytes, serialize seq, [slot]]
  | access t => [accessSeed, t.bytes]
  | entry t w => [aclSeed, t.bytes, w.bytes]
  | likes t seq => [likesSeed, t.bytes, serialize seq]
  | treasuryShard i => [treasuryShardSeed, serialize i]
  | authorFee t i => [authorFeeSeed, t.bytes, [i]]
  | followRegistry o => [followsSeed, o.bytes]
  | followerShard t i => [followerCountSeed, t.bytes, [i]]

/-- The keys among the parameters. -/
def keys : Pda → List Pubkey
  | settings => []
  | alloc t _ => [t]
  | content t _ _ => [t]
  | access t => [t]
  | entry t w => [t, w]
  | likes t _ => [t]
  | treasuryShard _ => []
  | authorFee t _ => [t]
  | followRegistry o => [o]
  | followerShard t _ => [t]

/-- The thread an account is bound to. -/
def thread? : Pda → Option Pubkey
  | settings => none
  | alloc t _ => some t
  | content t _ _ => some t
  | access t => some t
  | entry t _ => some t
  | likes t _ => some t
  | treasuryShard _ => none
  | authorFee t _ => some t
  | followRegistry _ => none
  | followerShard t _ => some t

theorem thread_mem_keys {p : Pda} {t : Pubkey} (h : p.thread? = some t) : t ∈ p.keys := by
  cases p <;> simp_all [thread?, keys]

/-- A fee shard of the treasury or of a thread. -/
def IsFeeShard : Pda → Prop
  | treasuryShard i => i < nTreasuryShards
  | authorFee _ i => i < nAuthorFeeShards
  | _ => False

def derive (R : Runtime) (p : Pda) : Option (Pubkey × UInt8) :=
  R.findProgramAddress p.seeds R.programId

/-- The seeds with the bump, as they are concatenated. -/
def message (p : Pda) (bump : UInt8) : Bytes := (p.seeds ++ [[bump]]).flatten

end Pda

/-- `k` is the address of the derivation `p`. -/
def Runtime.HasAddress (R : Runtime) (p : Pda) (k : Pubkey) : Prop := ∃ bump, p.derive R = some (k, bump)

section Address

variable {R : Runtime} {p q : Pda} {k k' : Pubkey}

theorem Runtime.HasAddress.unique (h : R.HasAddress p k) (h' : R.HasAddress p k') : k = k' := by
  obtain ⟨b, hb⟩ := h
  obtain ⟨c, hc⟩ := h'
  rw [hb] at hc
  cases hc
  rfl

/-- `k` is an address of the program: of one of the ten derivations, the only ones it signs for. -/
def Runtime.IsPda (R : Runtime) (k : Pubkey) : Prop := ∃ p : Pda, R.HasAddress p k

theorem Runtime.HasAddress.isPda (h : R.HasAddress p k) : R.IsPda k := ⟨p, h⟩

/-- No address of the program is a point of the curve, as the key of a wallet is. -/
theorem Runtime.IsPda.not_onCurve (h : R.IsPda k) : R.onCurve k = false := by
  obtain ⟨p, b, hb⟩ := h
  exact R.not_onCurve_of_create (R.findProgramAddress_spec hb)

end Address

/-! ## 3. The strings are unambiguous -/

namespace Pda

/-- Which derivation a string belongs to, by its length; two share a length and differ in the first
    byte. -/
def kindOf (bs : Bytes) : Nat :=
  match bs.length with
  | 9 => 0
  | 42 => if bs.headD 0 = 97 then 1 else 5
  | 45 => 2
  | 39 => 3
  | 68 => 4
  | 17 => 6
  | 44 => 7
  | 40 => 8
  | _ => 9

def kind : Pda → Nat
  | settings => 0
  | alloc .. => 1
  | content .. => 2
  | access .. => 3
  | entry .. => 4
  | likes .. => 5
  | treasuryShard .. => 6
  | authorFee .. => 7
  | followRegistry .. => 8
  | followerShard .. => 9

theorem kindOf_message (p : Pda) (b : UInt8) : kindOf (p.message b) = p.kind := by
  cases p <;>
    simp [kindOf, message, seeds, kind, Pubkey.size_eq, settingsSeed, allocSeed, contentSeed,
      accessSeed, aclSeed, likesSeed, treasuryShardSeed, authorFeeSeed, followsSeed,
      followerCountSeed]

/-- A key, then the rest: both are read back. -/
theorem key_append_inj {a b : Pubkey} {r s : Bytes} (h : a.bytes ++ r = b.bytes ++ s) :
    a = b ∧ r = s :=
  serialize_append_inj (a := a) (b := b) trivial trivial h

/-- **The hashed string determines the derivation, its parameters and the bump.** -/
theorem message_inj {p q : Pda} {b c : UInt8} (h : p.message b = q.message c) : p = q ∧ b = c := by
  have hk : p.kind = q.kind := by rw [← kindOf_message p b, h, kindOf_message]
  -- strings of different kinds are already told apart
  cases p <;> cases q <;> try (exact absurd hk (by simp only [kind]; omega))
  case settings.settings => simpa [message, seeds] using h
  all_goals
    simp only [message, seeds, List.cons_append, List.nil_append, List.flatten_cons,
      List.flatten_nil, List.append_nil, List.append_cancel_left_eq] at h
  case alloc.alloc t n u m =>
    obtain ⟨rfl, h1⟩ := key_append_inj h
    obtain ⟨rfl, h2⟩ := serialize_append_inj (a := n) (b := m) trivial trivial h1
    simpa using h2
  case content.content t n i u m j =>
    obtain ⟨rfl, h1⟩ := key_append_inj h
    obtain ⟨rfl, h2⟩ := serialize_append_inj (a := n) (b := m) trivial trivial h1
    simpa using h2
  case access.access t u =>
    obtain ⟨rfl, h1⟩ := key_append_inj h
    simpa using h1
  case entry.entry t v u w =>
    obtain ⟨rfl, h1⟩ := key_append_inj h
    obtain ⟨rfl, h2⟩ := key_append_inj h1
    simpa using h2
  case likes.likes t n u m =>
    obtain ⟨rfl, h1⟩ := key_append_inj h
    obtain ⟨rfl, h2⟩ := serialize_append_inj (a := n) (b := m) trivial trivial h1
    simpa using h2
  case treasuryShard.treasuryShard i j =>
    obtain ⟨rfl, h1⟩ := serialize_append_inj (a := i) (b := j) trivial trivial h
    simpa using h1
  case authorFee.authorFee t i u j =>
    obtain ⟨rfl, h1⟩ := key_append_inj h
    simpa using h1
  case followRegistry.followRegistry t u =>
    obtain ⟨rfl, h1⟩ := key_append_inj h
    simpa using h1
  case followerShard.followerShard t i u j =>
    obtain ⟨rfl, h1⟩ := key_append_inj h
    simpa using h1

end Pda

/-! ## 4. No two derivations share an address -/

/-- The hash separates the strings of the derivations whose keys are in `K`. -/
def Runtime.CollisionFree (R : Runtime) (K : Set Pubkey) : Prop :=
  ∀ p q : Pda, (∀ k ∈ p.keys, k ∈ K) → (∀ k ∈ q.keys, k ∈ K) → ∀ b c : UInt8,
    R.hash (p.message b ++ R.programId.bytes ++ pdaMarker) =
      R.hash (q.message c ++ R.programId.bytes ++ pdaMarker) →
    p.message b ++ R.programId.bytes ++ pdaMarker = q.message c ++ R.programId.bytes ++ pdaMarker

section Separate

variable {R : Runtime} {K : Set Pubkey} {p q : Pda} {k : Pubkey}

theorem Runtime.HasAddress.hash_eq (h : R.HasAddress p k) :
    ∃ b, R.hash (p.message b ++ R.programId.bytes ++ pdaMarker) = k := by
  obtain ⟨b, hb⟩ := h
  exact ⟨b, R.hash_of_create (R.findProgramAddress_spec hb)⟩

/-- **One address, one derivation**: over keys whose strings do not collide, the address tells the
    kind of the account and every parameter. -/
theorem address_inj (hK : R.CollisionFree K) (hp : ∀ k ∈ p.keys, k ∈ K)
    (hq : ∀ k ∈ q.keys, k ∈ K) (h : R.HasAddress p k) (h' : R.HasAddress q k) : p = q := by
  obtain ⟨b, hb⟩ := h.hash_eq
  obtain ⟨c, hc⟩ := h'.hash_eq
  have hmsg := hK p q hp hq b c (hb.trans hc.symm)
  rw [List.append_assoc, List.append_assoc] at hmsg
  exact (Pda.message_inj (List.append_cancel_right hmsg)).1

end Separate

end Txtcel
