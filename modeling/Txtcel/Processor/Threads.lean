import Txtcel.State.Loaders

/-!
# Handlers: threads and their page chain

`create_root_alloc`, `prepare_alloc`, and the two fee setters of a thread.
-/

namespace Txtcel

open Lib Exec Borsh

/-! ## 1. `create_root_alloc.rs` -/

def processCreateRootAlloc (R : Runtime) (sv : Sysvars) (accounts : List AccountInfo)
    (messageFee : UInt64) (treasuryShardIdx : UInt16) (title : Bytes) : Handler Unit := do
  failIf (maxTitleLen < title.length) ProtocolError.textTooLong
  let (payer, accounts) ← nextAccountInfo accounts
  let (threadAccount, accounts) ← nextAccountInfo accounts
  let (allocAccount, accounts) ← nextAccountInfo accounts
  let (settingsAccount, accounts) ← nextAccountInfo accounts
  let (treasuryShard, accounts) ← nextAccountInfo accounts
  let (systemProgramAccount, _) ← nextAccountInfo accounts
  assertSigner payer
  assertSigner threadAccount
  assertWritable threadAccount
  assertWritable allocAccount
  assertWritable treasuryShard
  assertSystemProgram systemProgramAccount
  let threadKey := threadAccount.key
  let settings ← loadSettings R settingsAccount
  let (expectedAlloc, allocBump) ← orFail (deriveAllocPda R threadKey 0) .panicked
  assertPda allocAccount expectedAlloc
  let treasuryBump ← validateTreasuryShard R treasuryShard treasuryShardIdx
  assertUninitialized threadAccount
  assertUninitialized allocAccount
  ensureShardInitialized R sv payer treasuryShard systemProgramAccount
    [treasuryShardSeed, serialize treasuryShardIdx] treasuryBump
  let threadSize := ThreadNode.size title.length
  let threadLamports := sv.rent threadSize
  invokeCreateAccount R payer threadAccount threadLamports threadSize R.programId []
  let allocLamports := sv.rent AllocNode.size
  let combinedRent ← orFail (checkedAdd64 threadLamports allocLamports)
    ProtocolError.invalidAccountData
  collectBaseFee sv combinedRent settings.baseFeeBps.toNat payer treasuryShard
  createPdaAccount R sv payer allocAccount systemProgramAccount AllocNode.size
    [allocSeed, threadKey.bytes, serialize (0 : UInt32), [allocBump]]
  let thread : ThreadNode :=
    { tag := tagThread, allocCount := 1, lastAllocSeq := 0, author := payer.key
      messageFee := messageFee, likeFee := 0, title := title }
  serializeInto threadAccount thread
  let alloc : AllocNode := { tag := tagAlloc, thread := threadKey, allocSeq := 0 }
  serializeInto allocAccount alloc

/-! ## 2. `prepare_alloc.rs` -/

/-- `u32::checked_add(1)` -/
def checkedSucc32 (n : UInt32) : Option UInt32 :=
  if n.toNat + 1 < 2 ^ 32 then some (n + 1) else none

theorem checkedSucc32_eq_some {n m : UInt32} (h : checkedSucc32 n = some m) :
    m.toNat = n.toNat + 1 ∧ m = n + 1 := by
  unfold checkedSucc32 at h
  split at h
  · rename_i hlt
    cases h
    exact ⟨by rw [UInt32.toNat_add, UInt32.toNat_one, Nat.mod_eq_of_lt hlt], rfl⟩
  · cases h

def processPrepareAlloc (R : Runtime) (sv : Sysvars) (accounts : List AccountInfo)
    (allocSeq : UInt32) : Handler Unit := do
  let (payer, accounts) ← nextAccountInfo accounts
  let (currentAllocAccount, accounts) ← nextAccountInfo accounts
  let (newAllocAccount, accounts) ← nextAccountInfo accounts
  let (threadAccount, accounts) ← nextAccountInfo accounts
  let (systemProgramAccount, _) ← nextAccountInfo accounts
  assertSigner payer
  assertWritable currentAllocAccount
  assertWritable newAllocAccount
  assertWritable threadAccount
  assertSystemProgram systemProgramAccount
  let threadKey := threadAccount.key
  let currentAlloc ← loadAlloc R currentAllocAccount
  failIf (currentAlloc.thread ≠ threadKey) ProtocolError.threadMismatch
  failIf (currentAlloc.allocSeq ≠ allocSeq) ProtocolError.invalidAllocSeq
  let thread ← loadThread R threadAccount
  failIf (currentAlloc.allocSeq ≠ thread.lastAllocSeq) ProtocolError.invalidAllocSeq
  let newSeq ← orFail (checkedSucc32 allocSeq) ProtocolError.invalidAccountData
  let (expectedNew, newBump) ← orFail (deriveAllocPda R threadKey newSeq) .panicked
  assertPda newAllocAccount expectedNew
  assertUninitialized newAllocAccount
  createPdaAccount R sv payer newAllocAccount systemProgramAccount AllocNode.size
    [allocSeed, threadKey.bytes, serialize newSeq, [newBump]]
  let newAlloc : AllocNode := { tag := tagAlloc, thread := threadKey, allocSeq := newSeq }
  serializeInto newAllocAccount newAlloc
  let allocCount ← orFail (checkedSucc32 thread.allocCount) ProtocolError.invalidAccountData
  serializeInto threadAccount { thread with allocCount := allocCount, lastAllocSeq := newSeq }

/-! ## 3. The fee setters -/

/-- Load for the author, change, store. -/
def updateThread (R : Runtime) (accounts : List AccountInfo) (update : ThreadNode → ThreadNode) :
    Handler Unit := do
  let (authority, accounts) ← nextAccountInfo accounts
  let (threadAccount, _) ← nextAccountInfo accounts
  let thread ← loadAuthorThread R authority threadAccount
  serializeInto threadAccount (update thread)

def processSetMessageFee (R : Runtime) (accounts : List AccountInfo) (fee : UInt64) :
    Handler Unit :=
  updateThread R accounts fun t => { t with messageFee := fee }

def processSetLikeFee (R : Runtime) (accounts : List AccountInfo) (fee : UInt64) : Handler Unit :=
  updateThread R accounts fun t => { t with likeFee := fee }

end Txtcel
