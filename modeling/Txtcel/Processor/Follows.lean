import Txtcel.State.Loaders

/-!
# Handlers: following a channel

`subscribe` and `unsubscribe`: the follower's own registry and one shard of the channel's counter.
-/

namespace Txtcel

open Lib Exec Borsh

/-! ## 1. `subscribe.rs` -/

/-- The follower's registry, created empty on the first follow. -/
def openRegistry (R : Runtime) (sv : Sysvars) (user followRegistry systemProgramAccount : AccountInfo)
    (registryBump : UInt8) : Handler FollowRegistry := do
  let fresh ← isUninitialized followRegistry
  if fresh = true then do
    createPdaAccount R sv user followRegistry systemProgramAccount (FollowRegistry.size 0)
      [followsSeed, user.key.bytes, [registryBump]]
    let registry : FollowRegistry := { tag := tagFollowRegistry, owner := user.key, channels := [] }
    serializeInto followRegistry registry
    pure registry
  else do
    assertOwnedBy followRegistry R.programId
    let registry ← loadFollowRegistry followRegistry
    failIf (registry.owner ≠ user.key) ProtocolError.unauthorized
    pure registry

/-- `u64::checked_add(1)` -/
def checkedSucc64 (n : UInt64) : Option UInt64 :=
  if n.toNat + 1 < 2 ^ 64 then some (n + 1) else none

/-- The counter shard, created with its first follower. -/
def bumpFollowers (R : Runtime) (sv : Sysvars) (user followerShard systemProgramAccount : AccountInfo)
    (threadKey : Pubkey) (shardIdx shardBump : UInt8) : Handler Unit := do
  let fresh ← isUninitialized followerShard
  if fresh = true then do
    createPdaAccount R sv user followerShard systemProgramAccount FollowerShard.size
      [followerCountSeed, threadKey.bytes, [shardIdx], [shardBump]]
    let shard : FollowerShard :=
      { tag := tagFollowerShard, thread := threadKey, shard := shardIdx, count := 1 }
    serializeInto followerShard shard
  else do
    let shard ← loadBoundFollowerShard R followerShard threadKey shardIdx
    let count ← orFail (checkedSucc64 shard.count) ProtocolError.invalidAccountData
    serializeInto followerShard { shard with count := count }

def processSubscribe (R : Runtime) (sv : Sysvars) (accounts : List AccountInfo) : Handler Unit := do
  let (user, accounts) ← nextAccountInfo accounts
  let (followRegistry, accounts) ← nextAccountInfo accounts
  let (followerShard, accounts) ← nextAccountInfo accounts
  let (threadAccount, accounts) ← nextAccountInfo accounts
  let (systemProgramAccount, _) ← nextAccountInfo accounts
  assertSigner user
  assertWritable user
  assertWritable followRegistry
  assertWritable followerShard
  assertSystemProgram systemProgramAccount
  let _thread ← loadThread R threadAccount
  let threadKey := threadAccount.key
  let (expectedRegistry, registryBump) ← orFail (deriveFollowRegistryPda R user.key) .panicked
  assertPda followRegistry expectedRegistry
  let shardIdx := followerShardIndex user.key
  let (expectedShard, shardBump) ← orFail (deriveFollowerShardPda R threadKey shardIdx) .panicked
  assertPda followerShard expectedShard
  let registry ← openRegistry R sv user followRegistry systemProgramAccount registryBump
  failIf (threadKey ∈ registry.channels) ProtocolError.alreadyFollowing
  failIf (maxFollows ≤ registry.channels.length) ProtocolError.followListFull
  let grown : FollowRegistry := { registry with channels := registry.channels ++ [threadKey] }
  let newSize := FollowRegistry.size grown.channels.length
  resize followRegistry newSize
  ensureRentExempt sv user followRegistry newSize
  serializeInto followRegistry grown
  bumpFollowers R sv user followerShard systemProgramAccount threadKey shardIdx shardBump

/-! ## 2. `unsubscribe.rs` -/

/-- `Vec::swap_remove`: the last element takes the place of the removed one. -/
def swapRemove {α : Type} (xs : List α) (pos : Nat) : List α :=
  match xs.getLast? with
  | some last => (xs.set pos last).dropLast
  | none => xs

/-- `channels.iter().position(|c| c == key)` -/
def position (xs : List Pubkey) (key : Pubkey) : Option Nat := xs.idxOf? key

/-- What the registry holds above its rent minimum goes back to its owner. -/
def refundExcess (followRegistry user : AccountInfo) (required : Nat) : Handler Unit := do
  let current ← lamportsOf followRegistry
  onlyIf (required < current) (do
    let refund := current - required
    modify (·.setLamports followRegistry.key required)
    let received ← lamportsOf user
    let sum ← orFail (checkedAdd64 received refund) ProtocolError.invalidAccountData
    modify (·.setLamports user.key sum))

def processUnsubscribe (R : Runtime) (sv : Sysvars) (accounts : List AccountInfo) :
    Handler Unit := do
  let (user, accounts) ← nextAccountInfo accounts
  let (followRegistry, accounts) ← nextAccountInfo accounts
  let (followerShard, accounts) ← nextAccountInfo accounts
  let (threadAccount, accounts) ← nextAccountInfo accounts
  let (systemProgramAccount, _) ← nextAccountInfo accounts
  assertSigner user
  assertWritable user
  assertWritable followRegistry
  assertWritable followerShard
  assertSystemProgram systemProgramAccount
  assertOwnedBy followRegistry R.programId
  let _thread ← loadThread R threadAccount
  let threadKey := threadAccount.key
  let (expectedRegistry, _) ← orFail (deriveFollowRegistryPda R user.key) .panicked
  assertPda followRegistry expectedRegistry
  let shardIdx := followerShardIndex user.key
  let (expectedShard, _) ← orFail (deriveFollowerShardPda R threadKey shardIdx) .panicked
  assertPda followerShard expectedShard
  let registry ← loadFollowRegistry followRegistry
  failIf (registry.owner ≠ user.key) ProtocolError.unauthorized
  let pos ← orFail (position registry.channels threadKey) ProtocolError.notFollowing
  let shrunk : FollowRegistry := { registry with channels := swapRemove registry.channels pos }
  let newSize := FollowRegistry.size shrunk.channels.length
  resize followRegistry newSize
  serializeInto followRegistry shrunk
  let required := sv.rent newSize
  refundExcess followRegistry user required
  let fresh ← isUninitialized followerShard
  failIf (fresh = true) ProtocolError.notFollowing
  let shard ← loadBoundFollowerShard R followerShard threadKey shardIdx
  serializeInto followerShard { shard with count := shard.count - min 1 shard.count }

end Txtcel
