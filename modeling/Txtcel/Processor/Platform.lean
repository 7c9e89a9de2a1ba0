import Txtcel.State.Loaders

/-!
# Handlers: settings and sweeps

`init_settings`, the six settings mutations, and the two sweeps of `processor/`. The parameters of a
handler are the ones of its instruction; `sv` are the sysvars it reads.
-/

namespace Txtcel

open Lib Exec Borsh

/-! ## 1. `init_settings.rs` -/

def processInitSettings (R : Runtime) (sv : Sysvars) (accounts : List AccountInfo)
    (treasury : Pubkey) : Handler Unit := do
  let (authority, accounts) ← nextAccountInfo accounts
  let (settingsAccount, accounts) ← nextAccountInfo accounts
  let (programdataAccount, accounts) ← nextAccountInfo accounts
  let (systemProgramAccount, _) ← nextAccountInfo accounts
  assertSigner authority
  assertWritable settingsAccount
  assertUpgradeAuthority R programdataAccount authority
  assertSystemProgram systemProgramAccount
  let (expectedSettings, settingsBump) ← orFail (deriveSettingsPda R) .panicked
  assertPda settingsAccount expectedSettings
  assertUninitialized settingsAccount
  createPdaAccount R sv authority settingsAccount systemProgramAccount ProgramSettings.size
    [settingsSeed, [settingsBump]]
  let settings : ProgramSettings :=
    { tag := tagSettings, admin := authority.key, treasury := treasury, baseFeeBps := 1000
      authorFeeCutBps := 1000, entryCutBps := 1000, likeCutBps := 1000 }
  serializeInto settingsAccount settings

/-! ## 2. The settings mutations -/

/-- Load for the admin, change, store: the shape of every settings mutation. -/
def updateSettings (R : Runtime) (accounts : List AccountInfo)
    (update : ProgramSettings → ProgramSettings) : Handler Unit := do
  let (authority, accounts) ← nextAccountInfo accounts
  let (settingsAccount, _) ← nextAccountInfo accounts
  let settings ← loadAdminSettings R authority settingsAccount
  serializeInto settingsAccount (update settings)

/-- `set_platform_fees.rs`: the rate is bounded first. -/
def updatePlatformSetting (R : Runtime) (accounts : List AccountInfo) (feeBps : UInt32)
    (update : ProgramSettings → ProgramSettings) : Handler Unit := do
  failIf (maxFeeCutBps < feeBps) ProtocolError.invalidFeeBps
  updateSettings R accounts update

def processSetBaseFee (R : Runtime) (accounts : List AccountInfo) (feeBps : UInt32) :
    Handler Unit :=
  updatePlatformSetting R accounts feeBps fun s => { s with baseFeeBps := feeBps }

def processSetAuthorFeeCut (R : Runtime) (accounts : List AccountInfo) (feeBps : UInt32) :
    Handler Unit :=
  updatePlatformSetting R accounts feeBps fun s => { s with authorFeeCutBps := feeBps }

def processSetEntryCut (R : Runtime) (accounts : List AccountInfo) (feeBps : UInt32) :
    Handler Unit :=
  updatePlatformSetting R accounts feeBps fun s => { s with entryCutBps := feeBps }

def processSetLikeCut (R : Runtime) (accounts : List AccountInfo) (feeBps : UInt32) :
    Handler Unit :=
  updatePlatformSetting R accounts feeBps fun s => { s with likeCutBps := feeBps }

def processSetAdmin (R : Runtime) (accounts : List AccountInfo) (newAdmin : Pubkey) :
    Handler Unit :=
  updateSettings R accounts fun s => { s with admin := newAdmin }

def processSetTreasury (R : Runtime) (accounts : List AccountInfo) (treasury : Pubkey) :
    Handler Unit :=
  updateSettings R accounts fun s => { s with treasury := treasury }

/-! ## 3. The sweeps -/

/-- The loop over the shards: an uninitialized one is skipped, any other has to be a writable
    account of the program that passes `validate`. -/
def sweepShards {I : Type} (R : Runtime) (recipient : AccountInfo) (shardRentMin : Nat)
    (validate : AccountInfo → I → Handler UInt8) : List (AccountInfo × I) → Handler Unit
  | [] => pure ()
  | (shardAccount, shardIdx) :: rest => do
    let fresh ← isUninitialized shardAccount
    if fresh = true then
      sweepShards R recipient shardRentMin validate rest
    else do
      assertWritable shardAccount
      assertOwnedBy shardAccount R.programId
      let _ ← validate shardAccount shardIdx
      sweepShardExcess shardAccount recipient shardRentMin
      sweepShards R recipient shardRentMin validate rest

/-- `sweep_treasury.rs`: anybody may call it, the recipient is the treasury wallet. -/
def processSweepTreasury (R : Runtime) (sv : Sysvars) (accounts : List AccountInfo)
    (shardIndices : List UInt16) : Handler Unit := do
  let (settingsAccount, accounts) ← nextAccountInfo accounts
  let (treasuryWallet, remaining) ← nextAccountInfo accounts
  let settings ← loadSettings R settingsAccount
  failIf (treasuryWallet.key ≠ settings.treasury) ProtocolError.invalidTreasury
  assertWritable treasuryWallet
  failIf (remaining = []) ProtocolError.nothingToSweep
  failIf (remaining.length ≠ shardIndices.length) ProtocolError.invalidShard
  sweepShards R treasuryWallet (sv.rent 0) (validateTreasuryShard R) (remaining.zip shardIndices)

/-- `sweep_author_fees.rs`: the author signs and receives. -/
def processSweepAuthorFees (R : Runtime) (sv : Sysvars) (accounts : List AccountInfo)
    (shardIndices : List UInt8) : Handler Unit := do
  let (threadAccount, accounts) ← nextAccountInfo accounts
  let (authorWallet, remaining) ← nextAccountInfo accounts
  let thread ← loadThread R threadAccount
  failIf (authorWallet.key ≠ thread.author) ProtocolError.invalidAuthor
  assertSigner authorWallet
  assertWritable authorWallet
  let threadKey := threadAccount.key
  failIf (remaining = []) ProtocolError.nothingToSweep
  failIf (remaining.length ≠ shardIndices.length) ProtocolError.invalidShard
  sweepShards R authorWallet (sv.rent 0) (validateAuthorFeeShard R threadKey)
    (remaining.zip shardIndices)

end Txtcel
