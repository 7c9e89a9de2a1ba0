import Txtcel.State.Loaders

/-!
# Handlers: access control

`init_thread_access`, the two setters of an access account, the six membership handlers and
`request_access`.
-/

namespace Txtcel

open Lib Exec Borsh

/-! ## 1. The access account -/

def processInitThreadAccess (R : Runtime) (sv : Sysvars) (accounts : List AccountInfo)
    (enabled : Bool) (treasuryShardIdx : UInt16) : Handler Unit := do
  let (authority, accounts) ← nextAccountInfo accounts
  let (threadAccount, accounts) ← nextAccountInfo accounts
  let (accessAccount, accounts) ← nextAccountInfo accounts
  let (treasuryShard, accounts) ← nextAccountInfo accounts
  let (systemProgramAccount, _) ← nextAccountInfo accounts
  assertSigner authority
  assertWritable accessAccount
  assertWritable treasuryShard
  assertSystemProgram systemProgramAccount
  let thread ← loadThread R threadAccount
  let threadKey := threadAccount.key
  failIf (thread.author ≠ authority.key) ProtocolError.unauthorized
  let (expectedAccess, accessBump) ← orFail (deriveAccessPda R threadKey) .panicked
  assertPda accessAccount expectedAccess
  assertUninitialized accessAccount
  let treasuryShardBump ← validateTreasuryShard R treasuryShard treasuryShardIdx
  ensureShardInitialized R sv authority treasuryShard systemProgramAccount
    [treasuryShardSeed, serialize treasuryShardIdx] treasuryShardBump
  let lamports := sv.rent ThreadAccess.size
  collectFeeToShard sv lamports authority treasuryShard
  createPdaAccount R sv authority accessAccount systemProgramAccount ThreadAccess.size
    [accessSeed, threadKey.bytes, [accessBump]]
  let access : ThreadAccess :=
    { tag := tagAccess, thread := threadKey, enabled := enabled, admin := authority.key
      entryFee := 0, whitelistCount := 0 }
  serializeInto accessAccount access

/-- Load for the access admin, change, store. -/
def updateAccess (R : Runtime) (accounts : List AccountInfo)
    (update : ThreadAccess → ThreadAccess) : Handler Unit := do
  let (authority, accounts) ← nextAccountInfo accounts
  let (accessAccount, _) ← nextAccountInfo accounts
  let access ← loadAdminAccess R authority accessAccount
  serializeInto accessAccount (update access)

def processSetThreadAccess (R : Runtime) (accounts : List AccountInfo) (enabled : Bool) :
    Handler Unit :=
  updateAccess R accounts fun a => { a with enabled := enabled }

def processSetEntryFee (R : Runtime) (accounts : List AccountInfo) (fee : UInt64) : Handler Unit :=
  updateAccess R accounts fun a => { a with entryFee := fee }

/-! ## 2. The membership handlers -/

/-- The shape of the three `add_to_*` handlers. -/
def addToList (R : Runtime) (sv : Sysvars) (accounts : List AccountInfo) (wallet : Pubkey)
    (status : UInt8) : Handler Unit := do
  let (authority, accounts) ← nextAccountInfo accounts
  let (accessAccount, accounts) ← nextAccountInfo accounts
  let (entryAccount, accounts) ← nextAccountInfo accounts
  let (systemProgramAccount, _) ← nextAccountInfo accounts
  applyAccessEntryStatus R sv authority accessAccount entryAccount systemProgramAccount wallet
    status

/-- The shape of the three `remove_from_*` handlers. -/
def removeFromList (R : Runtime) (accounts : List AccountInfo) (wallet : Pubkey)
    (expectedStatus : UInt8) : Handler Unit := do
  let (authority, accounts) ← nextAccountInfo accounts
  let (accessAccount, accounts) ← nextAccountInfo accounts
  let (entryAccount, accounts) ← nextAccountInfo accounts
  let (_, _) ← nextAccountInfo accounts
  removeAccessEntry R authority accessAccount entryAccount wallet expectedStatus

def processAddToWhitelist (R : Runtime) (sv : Sysvars) (accounts : List AccountInfo)
    (wallet : Pubkey) : Handler Unit :=
  addToList R sv accounts wallet accessAllowed

def processAddToBlacklist (R : Runtime) (sv : Sysvars) (accounts : List AccountInfo)
    (wallet : Pubkey) : Handler Unit :=
  addToList R sv accounts wallet accessDenied

def processAddToFeeWhitelist (R : Runtime) (sv : Sysvars) (accounts : List AccountInfo)
    (wallet : Pubkey) : Handler Unit :=
  addToList R sv accounts wallet accessFeeExempt

def processRemoveFromWhitelist (R : Runtime) (accounts : List AccountInfo) (wallet : Pubkey) :
    Handler Unit :=
  removeFromList R accounts wallet accessAllowed

def processRemoveFromBlacklist (R : Runtime) (accounts : List AccountInfo) (wallet : Pubkey) :
    Handler Unit :=
  removeFromList R accounts wallet accessDenied

def processRemoveFromFeeWhitelist (R : Runtime) (accounts : List AccountInfo) (wallet : Pubkey) :
    Handler Unit :=
  removeFromList R accounts wallet accessFeeExempt

/-! ## 3. `request_access.rs` -/

def processRequestAccess (R : Runtime) (sv : Sysvars) (accounts : List AccountInfo)
    (treasuryShardIdx : UInt16) (authorFeeShardIdx : UInt8) : Handler Unit := do
  let (payer, accounts) ← nextAccountInfo accounts
  let (accessAccount, accounts) ← nextAccountInfo accounts
  let (entryAccount, accounts) ← nextAccountInfo accounts
  let (threadAccount, accounts) ← nextAccountInfo accounts
  let (settingsAccount, accounts) ← nextAccountInfo accounts
  let (treasuryShard, accounts) ← nextAccountInfo accounts
  let (authorFeeShard, accounts) ← nextAccountInfo accounts
  let (systemProgramAccount, _) ← nextAccountInfo accounts
  assertSigner payer
  assertWritable payer
  assertWritable accessAccount
  assertWritable entryAccount
  assertFeeShardAccounts treasuryShard authorFeeShard systemProgramAccount
  assertOwnedBy accessAccount R.programId
  let threadKey := threadAccount.key
  let (expectedAccess, _) ← orFail (deriveAccessPda R threadKey) .panicked
  assertPda accessAccount expectedAccess
  let access ← loadThreadAccess accessAccount
  failIf (access.thread ≠ threadKey) ProtocolError.threadMismatch
  failIf (access.entryFee = 0) ProtocolError.zeroEntryFee
  let _thread ← loadThread R threadAccount
  let (expectedEntry, _) ← orFail (deriveAccessEntryPda R threadKey payer.key) .panicked
  assertPda entryAccount expectedEntry
  let fresh ← isUninitialized entryAccount
  onlyIf (fresh = false) (do
    let entry ← loadBoundAccessEntry R entryAccount threadKey payer.key
    failIf (entry.status = accessDenied) ProtocolError.accessDenied
    throw ProtocolError.accessListDuplicate.toProgramError)
  let settings ← loadSettings R settingsAccount
  prepareFeeShards R sv payer treasuryShard authorFeeShard systemProgramAccount threadKey
    treasuryShardIdx authorFeeShardIdx
  transferFeeSplit sv access.entryFee.toNat settings.entryCutBps.toNat payer authorFeeShard
    treasuryShard
  let _ ← setAccessEntryStatus R sv payer entryAccount systemProgramAccount threadKey payer.key
    accessAllowed
  adjustWhitelistCount accessAccount 1

end Txtcel
