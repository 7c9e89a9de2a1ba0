import Txtcel.State.AccountUtils

/-!
# Fees and fee shards

`state/fees.rs`. Lamports are natural numbers here; where the source computes in `u128` and casts to
`u64`, so does the definition.

A fee is collected as `max(amount, rent_min - balance)`: on a shard that holds its rent minimum that
is the amount (`collect_funded`), and every shard a handler charges was created with that minimum.
-/

namespace Txtcel

open Lib Exec Borsh Function

variable {R : Runtime} {sv : Sysvars} {σ σ' : Ledger} {u : Unit}

/-! ## 1. The split -/

/-- `u128::saturating_mul` -/
def saturatingMul128 (a b : Nat) : Nat := min (a * b) (2 ^ 128 - 1)

/-- What the author receives, and the platform's cut, rounded down. -/
def computeFeeSplit (amount cutBps : Nat) : Nat × Nat :=
  let platform := saturatingMul128 amount cutBps / 10000
  let platform := platform % 2 ^ 64
  (amount - platform, platform)

/-- `floor(amount * bps / 10000)` -/
def feeShare (amount bps : Nat) : Nat := amount * bps / 10000

/-- A product of an amount and a rate in force does not reach `2 ^ 128`. -/
theorem saturatingMul128_eq {a b : Nat} (ha : a < 2 ^ 64) (hb : b ≤ 10000) :
    saturatingMul128 a b = a * b := by
  have : a * b ≤ 2 ^ 64 * 10000 := Nat.mul_le_mul (Nat.le_of_lt ha) hb
  unfold saturatingMul128
  omega

/-- A rate in force is at most 100 %. -/
theorem rate_le {b : UInt32} (h : b ≤ maxFeeCutBps) : b.toNat ≤ 10000 := by
  have := UInt32.le_iff_toNat_le.mp h
  have hmax : maxFeeCutBps.toNat = 5000 := rfl
  omega

theorem feeShare_le {a b : Nat} (hb : b ≤ 10000) : feeShare a b ≤ a := by
  have : a * b ≤ a * 10000 := Nat.mul_le_mul_left a hb
  unfold feeShare
  omega

/-- A rate of at most one half takes at most half. -/
theorem two_mul_feeShare_le {a b : Nat} (hb : b ≤ 5000) : 2 * feeShare a b ≤ a := by
  have : a * b ≤ a * 5000 := Nat.mul_le_mul_left a hb
  unfold feeShare
  omega

theorem feeShare_mono {a a' b b' : Nat} (ha : a ≤ a') (hb : b ≤ b') :
    feeShare a b ≤ feeShare a' b' :=
  Nat.div_le_div_right (Nat.mul_le_mul ha hb)

/-- Two amounts charged apart lose at most one lamport to the rounding. -/
theorem feeShare_add (a a' b : Nat) : feeShare a b + feeShare a' b ≤ feeShare (a + a') b ∧
    feeShare (a + a') b ≤ feeShare a b + feeShare a' b + 1 := by
  unfold feeShare
  rw [Nat.add_mul]
  omega

/-- **Neither the saturation nor the cast is reached** at a rate of at most 100 %. -/
theorem computeFeeSplit_eq {amount cut : Nat} (ha : amount < 2 ^ 64) (hc : cut ≤ 10000) :
    computeFeeSplit amount cut = (amount - feeShare amount cut, feeShare amount cut) := by
  have hle : feeShare amount cut ≤ amount := feeShare_le hc
  have hmod : feeShare amount cut % 2 ^ 64 = feeShare amount cut := Nat.mod_eq_of_lt (by omega)
  unfold computeFeeSplit
  rw [saturatingMul128_eq ha hc]
  show (amount - feeShare amount cut % 2 ^ 64, feeShare amount cut % 2 ^ 64) = _
  rw [hmod]

/-! ## 2. Collecting -/

/-- Transfers the amount, or what the shard is short of its rent minimum if that is more. -/
def collectFeeToShard (sv : Sysvars) (amount : Nat) (payer shard : AccountInfo) : Handler Unit :=
  if amount = 0 then
    pure ()
  else do
    let shardRentMin := sv.rent 0
    let lamports ← lamportsOf shard
    let fee := max amount (shardRentMin - lamports)
    onlyIf (0 < fee) (invokeTransfer payer shard fee)

/-- `base_fee_bps` of the rent, to the treasury shard. -/
def collectBaseFee (sv : Sysvars) (rentLamports baseFeeBps : Nat)
    (payer treasuryShard : AccountInfo) : Handler Unit :=
  let baseFee := saturatingMul128 rentLamports baseFeeBps / 10000
  collectFeeToShard sv (baseFee % 2 ^ 64) payer treasuryShard

/-- The cut goes to the treasury shard, then the rest to the author shard. -/
def transferFeeSplit (sv : Sysvars) (amount cutBps : Nat)
    (payer authorFeeShard treasuryShard : AccountInfo) : Handler Unit := do
  let (authorReceives, platformCut) := computeFeeSplit amount cutBps
  onlyIf (0 < platformCut) (collectFeeToShard sv platformCut payer treasuryShard)
  onlyIf (0 < authorReceives) (collectFeeToShard sv authorReceives payer authorFeeShard)

namespace Ledger

/-- What collecting a fee does to the ledger. -/
def collect (σ : Ledger) (rentMin amount : Nat) (payer shard : Pubkey) : Ledger :=
  if amount = 0 then σ else σ.pay payer shard (max amount (rentMin - σ.lamports shard))

variable (σ : Ledger) (r n : Nat) (p s k : Pubkey)

@[simp] theorem collect_data : (σ.collect r n p s).data = σ.data := by
  unfold collect
  split <;> rfl

@[simp] theorem collect_owner : (σ.collect r n p s).owner = σ.owner := by
  unfold collect
  split <;> rfl

@[simp] theorem collect_zero : σ.collect r 0 p s = σ := rfl

theorem collect_other {k : Pubkey} (hp : k ≠ p) (hs : k ≠ s) :
    (σ.collect r n p s).lamports k = σ.lamports k := by
  unfold collect
  split
  · rfl
  · exact pay_other _ _ _ _ _ hp hs

/-- **Exactly the amount arrives** in a shard that already holds its rent minimum. -/
theorem collect_funded {σ : Ledger} {r : Nat} {p s : Pubkey} (n : Nat) (h : r ≤ σ.lamports s) :
    σ.collect r n p s = σ.pay p s n := by
  unfold collect
  split
  · subst n
    rw [pay_zero]
  · rw [Nat.sub_eq_zero_of_le h, Nat.max_zero]

end Ledger

theorem collectFeeToShard_ok {n : Nat} {payer shard : AccountInfo}
    (h : collectFeeToShard sv n payer shard σ = .ok (u, σ')) :
    σ' = σ.collect (sv.rent 0) n payer.key shard.key ∧ σ.Spends payer.key σ' := by
  rcases ite_eq_ok.mp h with ⟨h0, h⟩ | ⟨h0, h⟩
  · obtain ⟨-, rfl⟩ := pure_eq_ok.mp h
    subst h0
    exact ⟨rfl, .refl _ _⟩
  · simp only [bind_eq_ok, lamportsOf_eq_ok, and_assoc, true_and, existsAndEq, onlyIf_eq_ok] at h
    rw [Ledger.collect, if_neg h0]
    rcases h with ⟨-, h⟩ | ⟨hz, -⟩
    · exact invokeTransfer_ok h
    · omega

/-- The base fee of `rent` lamports, with the cast. -/
def baseFeeOf (rentLamports bps : Nat) : Nat := saturatingMul128 rentLamports bps / 10000 % 2 ^ 64

theorem baseFeeOf_eq {rentLamports bps : Nat} (h : rentLamports < 2 ^ 64) (hb : bps ≤ 10000) :
    baseFeeOf rentLamports bps = feeShare rentLamports bps := by
  have hle : feeShare rentLamports bps ≤ rentLamports := feeShare_le hb
  unfold baseFeeOf
  rw [saturatingMul128_eq h hb]
  exact Nat.mod_eq_of_lt (show feeShare rentLamports bps < _ by omega)

theorem collectBaseFee_ok {rent bps : Nat} {payer shard : AccountInfo}
    (h : collectBaseFee sv rent bps payer shard σ = .ok (u, σ')) :
    σ' = σ.collect (sv.rent 0) (baseFeeOf rent bps) payer.key shard.key ∧ σ.Spends payer.key σ' :=
  collectFeeToShard_ok h

/-- What paying out a split fee does to the ledger: the treasury leg first. -/
def Ledger.split (σ : Ledger) (rentMin amount cutBps : Nat) (payer author treasury : Pubkey) :
    Ledger :=
  let (authorReceives, platformCut) := computeFeeSplit amount cutBps
  (σ.collect rentMin platformCut payer treasury).collect rentMin authorReceives payer author

section Split

variable (σ : Ledger) (r n c : Nat) (p a t : Pubkey)

@[simp] theorem Ledger.split_data : (σ.split r n c p a t).data = σ.data := by
  simp [Ledger.split]

@[simp] theorem Ledger.split_owner : (σ.split r n c p a t).owner = σ.owner := by
  simp [Ledger.split]

theorem Ledger.split_other {k : Pubkey} (hp : k ≠ p) (ha : k ≠ a) (ht : k ≠ t) :
    (σ.split r n c p a t).lamports k = σ.lamports k := by
  rw [Ledger.split, collect_other _ _ _ _ _ hp ha, collect_other _ _ _ _ _ hp ht]

end Split

/-- A leg that is skipped when it is zero is a collection of zero. -/
theorem onlyIf_collect_ok {n : Nat} {payer shard : AccountInfo}
    (h : onlyIf (0 < n) (collectFeeToShard sv n payer shard) σ = .ok (u, σ')) :
    σ' = σ.collect (sv.rent 0) n payer.key shard.key ∧ σ.Spends payer.key σ' := by
  rcases onlyIf_eq_ok.mp h with ⟨-, h⟩ | ⟨h0, rfl⟩
  · exact collectFeeToShard_ok h
  · obtain rfl : n = 0 := by omega
    exact ⟨rfl, .refl _ _⟩

theorem transferFeeSplit_ok {n cut : Nat} {payer author treasury : AccountInfo}
    (h : transferFeeSplit sv n cut payer author treasury σ = .ok (u, σ')) :
    σ' = σ.split (sv.rent 0) n cut payer.key author.key treasury.key ∧ σ.Spends payer.key σ' := by
  obtain ⟨_, σ₁, h1, h2⟩ := bind_eq_ok.mp h
  obtain ⟨rfl, hs1⟩ := onlyIf_collect_ok h1
  obtain ⟨rfl, hs2⟩ := onlyIf_collect_ok h2
  exact ⟨rfl, hs1.trans hs2⟩

/-! ## 3. The shard accounts -/

def validateTreasuryShard (R : Runtime) (shardAccount : AccountInfo) (shardIdx : UInt16) :
    Handler UInt8 := do
  failIf (nTreasuryShards ≤ shardIdx) ProtocolError.invalidShard
  let (expected, bump) ← orFail (deriveTreasuryShardPda R shardIdx) .panicked
  assertPda shardAccount expected
  pure bump

def validateAuthorFeeShard (R : Runtime) (thread : Pubkey) (shardAccount : AccountInfo)
    (shardIdx : UInt8) : Handler UInt8 := do
  failIf (nAuthorFeeShards ≤ shardIdx) ProtocolError.invalidShard
  let (expected, bump) ← orFail (deriveAuthorFeePda R thread shardIdx) .panicked
  assertPda shardAccount expected
  pure bump

/-- Creates the shard, an account without data, on first use. -/
def ensureShardInitialized (R : Runtime) (sv : Sysvars)
    (payer shardAccount systemProgramAccount : AccountInfo) (signerSeeds : List Bytes)
    (bump : UInt8) : Handler Unit := do
  let fresh ← isUninitialized shardAccount
  onlyIf (fresh = true)
    (createPdaAccount R sv payer shardAccount systemProgramAccount 0 (signerSeeds ++ [[bump]]))

def assertFeeShardAccounts (treasuryShard authorFeeShard systemProgramAccount : AccountInfo) :
    Handler Unit := do
  assertWritable treasuryShard
  assertWritable authorFeeShard
  assertSystemProgram systemProgramAccount

def validateFeeShards (R : Runtime) (treasuryShard authorFeeShard : AccountInfo)
    (threadKey : Pubkey) (treasuryShardIdx : UInt16) (authorFeeShardIdx : UInt8) :
    Handler (UInt8 × UInt8) := do
  let treasuryShardBump ← validateTreasuryShard R treasuryShard treasuryShardIdx
  let authorFeeShardBump ← validateAuthorFeeShard R threadKey authorFeeShard authorFeeShardIdx
  pure (treasuryShardBump, authorFeeShardBump)

def ensureFeeShardsInitialized (R : Runtime) (sv : Sysvars)
    (payer treasuryShard authorFeeShard systemProgramAccount : AccountInfo) (threadKey : Pubkey)
    (treasuryShardIdx : UInt16) (authorFeeShardIdx treasuryShardBump authorFeeShardBump : UInt8) :
    Handler Unit := do
  ensureShardInitialized R sv payer treasuryShard systemProgramAccount
    [treasuryShardSeed, serialize treasuryShardIdx] treasuryShardBump
  ensureShardInitialized R sv payer authorFeeShard systemProgramAccount
    [authorFeeSeed, threadKey.bytes, [authorFeeShardIdx]] authorFeeShardBump

def prepareFeeShards (R : Runtime) (sv : Sysvars)
    (payer treasuryShard authorFeeShard systemProgramAccount : AccountInfo) (threadKey : Pubkey)
    (treasuryShardIdx : UInt16) (authorFeeShardIdx : UInt8) : Handler Unit := do
  let (treasuryShardBump, authorFeeShardBump) ←
    validateFeeShards R treasuryShard authorFeeShard threadKey treasuryShardIdx authorFeeShardIdx
  ensureFeeShardsInitialized R sv payer treasuryShard authorFeeShard systemProgramAccount threadKey
    treasuryShardIdx authorFeeShardIdx treasuryShardBump authorFeeShardBump

/-- Moves what the shard holds above `shardRentMin`; the shard is debited first. -/
def sweepShardExcess (shardAccount recipient : AccountInfo) (shardRentMin : Nat) :
    Handler Unit := do
  let lamports ← lamportsOf shardAccount
  let excess := lamports - shardRentMin
  onlyIf (0 < excess) (do
    modify (·.setLamports shardAccount.key shardRentMin)
    let received ← lamportsOf recipient
    let sum ← orFail (checkedAdd64 received excess) ProtocolError.invalidAccountData
    modify (·.setLamports recipient.key sum))

/-- What `ensure_shard_initialized` does to the ledger. -/
def Ledger.openShard (σ : Ledger) (R : Runtime) (rentMin : Nat) (payer shard : Pubkey) : Ledger :=
  if σ.Free shard then σ.create payer shard R.programId rentMin 0 else σ

theorem validateTreasuryShard_ok {a : AccountInfo} {i : UInt16} {b : UInt8}
    (h : validateTreasuryShard R a i σ = .ok (b, σ')) :
    i < nTreasuryShards ∧ R.HasAddress (.treasuryShard i) a.key ∧ σ' = σ := by
  simp only [validateTreasuryShard, bind_eq_ok, failIf_eq_ok, orFail_eq_ok, assertPda_eq_ok,
    pure_eq_ok, and_assoc, true_and, existsAndEq, exists_and_left, exists_const, Prod.exists,
    UInt16.not_le] at h
  obtain ⟨hi, hb, rfl⟩ := h
  exact ⟨hi, ⟨b, hb⟩, rfl⟩

theorem validateAuthorFeeShard_ok {t : Pubkey} {a : AccountInfo} {i b : UInt8}
    (h : validateAuthorFeeShard R t a i σ = .ok (b, σ')) :
    i < nAuthorFeeShards ∧ R.HasAddress (.authorFee t i) a.key ∧ σ' = σ := by
  simp only [validateAuthorFeeShard, bind_eq_ok, failIf_eq_ok, orFail_eq_ok, assertPda_eq_ok,
    pure_eq_ok, and_assoc, true_and, existsAndEq, exists_and_left, exists_const, Prod.exists,
    UInt8.not_le] at h
  obtain ⟨hi, hb, rfl⟩ := h
  exact ⟨hi, ⟨b, hb⟩, rfl⟩

theorem ensureShardInitialized_ok {payer shard sys : AccountInfo} {seeds : List Bytes} {b : UInt8}
    (h : ensureShardInitialized R sv payer shard sys seeds b σ = .ok (u, σ')) :
    σ' = σ.openShard R (sv.rent 0) payer.key shard.key ∧ σ.Spends payer.key σ' := by
  simp only [ensureShardInitialized, bind_eq_ok, isUninitialized_eq_ok, and_assoc, true_and,
    existsAndEq, onlyIf_eq_ok, decide_eq_true_eq] at h
  rcases h with ⟨hf, h⟩ | ⟨hf, rfl⟩
  · obtain ⟨-, -, hσ, hs⟩ := createPdaAccount_ok h
    exact ⟨by rw [Ledger.openShard, if_pos hf, hσ], hs⟩
  · exact ⟨by rw [Ledger.openShard, if_neg hf], .refl _ _⟩

theorem assertFeeShardAccounts_ok {t a s : AccountInfo}
    (h : assertFeeShardAccounts t a s σ = .ok (u, σ')) : σ' = σ := by
  simp only [assertFeeShardAccounts, bind_eq_ok, assertWritable_eq_ok, assertSystemProgram_eq_ok,
    and_assoc, true_and, existsAndEq, exists_and_left, exists_const] at h
  exact h.2.2.2

/-- The two shard addresses of a fee-charging instruction. -/
structure FeeShards (R : Runtime) (thread treasury author : Pubkey) (ti : UInt16) (ai : UInt8) :
    Prop where
  treasury_lt : ti < nTreasuryShards
  treasury_addr : R.HasAddress (.treasuryShard ti) treasury
  author_lt : ai < nAuthorFeeShards
  author_addr : R.HasAddress (.authorFee thread ai) author

theorem validateFeeShards_ok {ts as : AccountInfo} {t : Pubkey} {ti : UInt16} {ai : UInt8}
    {bs : UInt8 × UInt8} (h : validateFeeShards R ts as t ti ai σ = .ok (bs, σ')) :
    FeeShards R t ts.key as.key ti ai ∧ σ' = σ := by
  obtain ⟨_, _, h1, h2⟩ := bind_eq_ok.mp h
  obtain ⟨hti, hta, rfl⟩ := validateTreasuryShard_ok h1
  obtain ⟨_, _, h3, h4⟩ := bind_eq_ok.mp h2
  obtain ⟨hai, haa, rfl⟩ := validateAuthorFeeShard_ok h3
  obtain ⟨-, rfl⟩ := pure_eq_ok.mp h4
  exact ⟨⟨hti, hta, hai, haa⟩, rfl⟩

/-- Both shards, the treasury shard first. -/
def Ledger.openShards (σ : Ledger) (R : Runtime) (rentMin : Nat) (payer treasury author : Pubkey) :
    Ledger :=
  (σ.openShard R rentMin payer treasury).openShard R rentMin payer author

theorem ensureFeeShardsInitialized_ok {payer ts as sys : AccountInfo} {t : Pubkey} {ti : UInt16}
    {ai b c : UInt8}
    (h : ensureFeeShardsInitialized R sv payer ts as sys t ti ai b c σ = .ok (u, σ')) :
    σ' = σ.openShards R (sv.rent 0) payer.key ts.key as.key ∧ σ.Spends payer.key σ' := by
  obtain ⟨_, _, h1, h2⟩ := bind_eq_ok.mp h
  obtain ⟨rfl, hs1⟩ := ensureShardInitialized_ok h1
  obtain ⟨rfl, hs2⟩ := ensureShardInitialized_ok h2
  exact ⟨rfl, hs1.trans hs2⟩

theorem prepareFeeShards_ok {payer ts as sys : AccountInfo} {t : Pubkey} {ti : UInt16} {ai : UInt8}
    (h : prepareFeeShards R sv payer ts as sys t ti ai σ = .ok (u, σ')) :
    FeeShards R t ts.key as.key ti ai ∧
      σ' = σ.openShards R (sv.rent 0) payer.key ts.key as.key ∧ σ.Spends payer.key σ' := by
  obtain ⟨⟨b, c⟩, _, h1, h2⟩ := bind_eq_ok.mp h
  obtain ⟨hsh, rfl⟩ := validateFeeShards_ok h1
  exact ⟨hsh, ensureFeeShardsInitialized_ok h2⟩

/-- A sweep is a payment from the shard, also when the recipient is the shard itself. -/
theorem sweepShardExcess_ok {shard recipient : AccountInfo} {r : Nat}
    (h : sweepShardExcess shard recipient r σ = .ok (u, σ')) :
    σ' = σ.pay shard.key recipient.key (σ.lamports shard.key - r) := by
  simp only [sweepShardExcess, bind_eq_ok, lamportsOf_eq_ok, onlyIf_eq_ok, modify_eq_ok,
    orFail_eq_ok, checkedAdd64_eq_some, and_assoc, true_and, existsAndEq, exists_and_left,
    exists_const] at h
  rcases h with ⟨hpos, -, rfl⟩ | ⟨h0, hσ⟩
  · have hr : σ.lamports shard.key - (σ.lamports shard.key - r) = r := by omega
    ext1 <;> simp [Ledger.pay, hr]
  · obtain he : σ.lamports shard.key - r = 0 := by omega
    rw [he, Ledger.pay_zero]
    exact hσ

end Txtcel
