import Txtcel.State.Accounts
import Txtcel.State.Fees

/-!
# Loaders and access-control mutations

`state/loaders.rs` and the loader of `content/mod.rs`. A loader decodes an account and checks its
tag; most also check the owner, and where the address is a PDA, that the account lives at the
address of its own fields.

Two loaders read leniently (`load_thread_access`, `load_access_entry`: bytes after the value are
allowed). `Strict` says that no byte is left over at an address; with it they read exactly the
account, as the strict ones always do.
-/

namespace Txtcel

open Lib Exec Borsh Function

variable {R : Runtime} {sv : Sysvars} {σ σ' : Ledger} {u : Unit}

/-! ## 1. Accounts without a binding to an address -/

def loadThreadAccess (account : AccountInfo) : Handler ThreadAccess := do
  let data ← dataOf account
  let (access, _) ← orFail (deserialize data : Option (ThreadAccess × Bytes))
    ProtocolError.invalidAccountData
  failIf (access.tag ≠ tagAccess) ProtocolError.invalidTag
  pure access

def loadAccessEntry (account : AccountInfo) : Handler AccessEntry := do
  let data ← dataOf account
  let (entry, _) ← orFail (deserialize data : Option (AccessEntry × Bytes))
    ProtocolError.invalidAccountData
  failIf (entry.tag ≠ tagAccessEntry) ProtocolError.invalidTag
  pure entry

def loadBoundAccessEntry (R : Runtime) (entryAccount : AccountInfo) (thread wallet : Pubkey) :
    Handler AccessEntry := do
  assertOwnedBy entryAccount R.programId
  let entry ← loadAccessEntry entryAccount
  failIf (entry.thread ≠ thread ∨ entry.wallet ≠ wallet) ProtocolError.threadMismatch
  pure entry

def loadAllocLikes (account : AccountInfo) : Handler AllocLikes := do
  let data ← dataOf account
  let likes ← orFail (tryFromSlice AllocLikes data) ProtocolError.invalidAccountData
  failIf (likes.tag ≠ tagLikes) ProtocolError.invalidTag
  pure likes

def loadFollowRegistry (account : AccountInfo) : Handler FollowRegistry := do
  let data ← dataOf account
  let registry ← orFail (tryFromSlice FollowRegistry data) ProtocolError.invalidAccountData
  failIf (registry.tag ≠ tagFollowRegistry) ProtocolError.invalidTag
  pure registry

def loadFollowerShard (account : AccountInfo) : Handler FollowerShard := do
  let data ← dataOf account
  let shard ← orFail (tryFromSlice FollowerShard data) ProtocolError.invalidAccountData
  failIf (shard.tag ≠ tagFollowerShard) ProtocolError.invalidTag
  pure shard

def loadBoundFollowerShard (R : Runtime) (shardAccount : AccountInfo) (thread : Pubkey)
    (shardIdx : UInt8) : Handler FollowerShard := do
  assertOwnedBy shardAccount R.programId
  let shard ← loadFollowerShard shardAccount
  failIf (shard.thread ≠ thread ∨ shard.shard ≠ shardIdx) ProtocolError.threadMismatch
  pure shard

/-- A thread is a plain account: owner and tag are all there is to check. -/
def loadThread (R : Runtime) (account : AccountInfo) : Handler ThreadNode := do
  assertOwnedBy account R.programId
  let data ← dataOf account
  let thread ← orFail (tryFromSlice ThreadNode data) ProtocolError.invalidAccountData
  failIf (thread.tag ≠ tagThread) ProtocolError.invalidTag
  pure thread

def loadAuthorThread (R : Runtime) (authority threadAccount : AccountInfo) :
    Handler ThreadNode := do
  assertSigner authority
  assertWritable threadAccount
  let thread ← loadThread R threadAccount
  failIf (authority.key ≠ thread.author) ProtocolError.unauthorized
  pure thread

/-! ## 2. Accounts at their own address -/

def loadAlloc (R : Runtime) (account : AccountInfo) : Handler AllocNode := do
  assertOwnedBy account R.programId
  let data ← dataOf account
  let alloc ← orFail (tryFromSlice AllocNode data) ProtocolError.invalidAccountData
  failIf (alloc.tag ≠ tagAlloc) ProtocolError.invalidTag
  let (expected, _) ← orFail (deriveAllocPda R alloc.thread alloc.allocSeq) .panicked
  assertPda account expected
  pure alloc

def loadContent (R : Runtime) (account : AccountInfo) : Handler ContentNode := do
  assertOwnedBy account R.programId
  let data ← dataOf account
  let content ← orFail (tryFromSlice ContentNode data) ProtocolError.invalidAccountData
  failIf (content.header.tag ≠ tagContent) ProtocolError.invalidTag
  let (expected, _) ← orFail
    (deriveContentPda R content.header.thread content.header.allocSeq content.header.slot) .panicked
  assertPda account expected
  pure content

def loadAdminAccess (R : Runtime) (authority accessAccount : AccountInfo) :
    Handler ThreadAccess := do
  assertSigner authority
  assertWritable accessAccount
  assertOwnedBy accessAccount R.programId
  let access ← loadThreadAccess accessAccount
  failIf (access.admin ≠ authority.key) ProtocolError.unauthorized
  let (expected, _) ← orFail (deriveAccessPda R access.thread) .panicked
  assertPda accessAccount expected
  pure access

def loadSettings (R : Runtime) (settingsAccount : AccountInfo) : Handler ProgramSettings := do
  let (expected, _) ← orFail (deriveSettingsPda R) .panicked
  assertPda settingsAccount expected
  let owner ← ownerOf settingsAccount
  failIf (owner ≠ R.programId) ProtocolError.accountOwnerMismatch
  let data ← dataOf settingsAccount
  let settings ← orFail (tryFromSlice ProgramSettings data) ProtocolError.invalidAccountData
  failIf (settings.tag ≠ tagSettings) ProtocolError.invalidTag
  pure settings

def loadAdminSettings (R : Runtime) (authority settingsAccount : AccountInfo) :
    Handler ProgramSettings := do
  assertSigner authority
  assertWritable settingsAccount
  let settings ← loadSettings R settingsAccount
  failIf (settings.admin ≠ authority.key) ProtocolError.unauthorized
  pure settings

/-! ## 3. Membership entries -/

/-- Creates the wallet's entry, or flips its status; returns the status it had. -/
def setAccessEntryStatus (R : Runtime) (sv : Sysvars)
    (payer entryAccount systemProgramAccount : AccountInfo) (thread wallet : Pubkey)
    (status : UInt8) : Handler (Option UInt8) := do
  let (expectedEntry, entryBump) ← orFail (deriveAccessEntryPda R thread wallet) .panicked
  assertPda entryAccount expectedEntry
  let fresh ← isUninitialized entryAccount
  if fresh = true then do
    createPdaAccount R sv payer entryAccount systemProgramAccount AccessEntry.size
      [aclSeed, thread.bytes, wallet.bytes, [entryBump]]
    let entry : AccessEntry := ⟨tagAccessEntry, thread, wallet, status⟩
    serializeInto entryAccount entry
    pure none
  else do
    let entry ← loadBoundAccessEntry R entryAccount thread wallet
    serializeInto entryAccount { entry with status := status }
    pure (some entry.status)

/-- `i64::saturating_add` -/
def saturatingAddI64 (a b : Int) : Int := max (-2 ^ 63) (min (2 ^ 63 - 1) (a + b))

/-- The counter after a signed change: computed in `i64`, clamped at zero, cast to `u32`. -/
def shiftedCount (count : UInt32) (delta : Int) : UInt32 :=
  UInt32.ofNat (max 0 (saturatingAddI64 count.toNat delta)).toNat

def adjustWhitelistCount (accessAccount : AccountInfo) (delta : Int) : Handler Unit := do
  let access ← loadThreadAccess accessAccount
  serializeInto accessAccount
    { access with whitelistCount := shiftedCount access.whitelistCount delta }

def closeAccessEntry (R : Runtime) (recipient entryAccount : AccountInfo) (thread wallet : Pubkey)
    (expectedStatus : UInt8) : Handler Unit := do
  let (expectedEntry, _) ← orFail (deriveAccessEntryPda R thread wallet) .panicked
  assertPda entryAccount expectedEntry
  let fresh ← isUninitialized entryAccount
  failIf (fresh = true) ProtocolError.accessListMissing
  let entry ← loadBoundAccessEntry R entryAccount thread wallet
  failIf (entry.status ≠ expectedStatus) ProtocolError.accessListMissing
  closeProgramAccount entryAccount recipient

/-- `1` for a member of the allow set, `0` otherwise. -/
def allowedBit (b : Bool) : Int := if b then 1 else 0

def applyAccessEntryStatus (R : Runtime) (sv : Sysvars)
    (authority accessAccount entryAccount systemProgramAccount : AccountInfo) (wallet : Pubkey)
    (status : UInt8) : Handler Unit := do
  assertSystemProgram systemProgramAccount
  assertWritable authority
  assertWritable entryAccount
  let access ← loadAdminAccess R authority accessAccount
  let thread := access.thread
  let prev ← setAccessEntryStatus R sv authority entryAccount systemProgramAccount thread wallet
    status
  let wasAllowed : Bool := prev = some accessAllowed
  let nowAllowed : Bool := status = accessAllowed
  let delta := allowedBit nowAllowed - allowedBit wasAllowed
  onlyIf (delta ≠ 0) (adjustWhitelistCount accessAccount delta)

def removeAccessEntry (R : Runtime) (authority accessAccount entryAccount : AccountInfo)
    (wallet : Pubkey) (expectedStatus : UInt8) : Handler Unit := do
  assertWritable authority
  assertWritable entryAccount
  let access ← loadAdminAccess R authority accessAccount
  let thread := access.thread
  closeAccessEntry R authority entryAccount thread wallet expectedStatus
  onlyIf (expectedStatus = accessAllowed) (adjustWhitelistCount accessAccount (-1))

/-! ## 4. What a loader found -/

/-- No byte is left over where a lenient loader reads. -/
structure Ledger.Strict (σ : Ledger) (R : Runtime) (k : Pubkey) : Prop where
  access : ∀ (x : ThreadAccess) rest, σ.owner k = R.programId → x.tag = tagAccess →
    deserialize (σ.data k) = some (x, rest) → rest = []
  entry : ∀ (x : AccessEntry) rest, σ.owner k = R.programId → x.tag = tagAccessEntry →
    deserialize (σ.data k) = some (x, rest) → rest = []

section Found

variable {a b : AccountInfo}

theorem loadThreadAccess_ok {x : ThreadAccess} (hst : σ.Strict R a.key)
    (ho : σ.owner a.key = R.programId) (h : loadThreadAccess a σ = .ok (x, σ')) :
    σ.Holds R a.key x ∧ x.tag = tagAccess ∧ σ' = σ := by
  simp only [loadThreadAccess, bind_eq_ok, dataOf_eq_ok, orFail_eq_ok, failIf_eq_ok, pure_eq_ok,
    and_assoc, true_and, existsAndEq, exists_and_left, exists_const, Prod.exists, ne_eq,
    not_not] at h
  obtain ⟨rest, hd, ht, hσ⟩ := h
  have hr := hst.access x rest ho ht hd
  subst hr
  obtain ⟨hf, hdata⟩ := deserialize_eq_some.mp hd
  exact ⟨⟨ho, hf, by rw [hdata, List.append_nil]⟩, ht, hσ⟩

theorem loadBoundAccessEntry_ok {x : AccessEntry} {t w : Pubkey} (hst : σ.Strict R a.key)
    (h : loadBoundAccessEntry R a t w σ = .ok (x, σ')) :
    σ.Holds R a.key x ∧ x.tag = tagAccessEntry ∧ x.thread = t ∧ x.wallet = w ∧ σ' = σ := by
  simp only [loadBoundAccessEntry, loadAccessEntry, bind_eq_ok, assertOwnedBy_eq_ok, dataOf_eq_ok,
    orFail_eq_ok, failIf_eq_ok, pure_eq_ok, and_assoc, true_and, existsAndEq, exists_and_left,
    exists_const, Prod.exists, ne_eq, not_not, not_or] at h
  obtain ⟨ho, rest, hd, htag, ht, hw, hσ⟩ := h
  have hr := hst.entry x rest ho htag hd
  subst hr
  obtain ⟨hf, hdata⟩ := deserialize_eq_some.mp hd
  exact ⟨⟨ho, hf, by rw [hdata, List.append_nil]⟩, htag, ht, hw, hσ⟩

theorem loadAllocLikes_ok {x : AllocLikes} (ho : σ.owner a.key = R.programId)
    (h : loadAllocLikes a σ = .ok (x, σ')) : σ.Holds R a.key x ∧ x.tag = tagLikes ∧ σ' = σ := by
  simp only [loadAllocLikes, bind_eq_ok, dataOf_eq_ok, orFail_eq_ok, failIf_eq_ok, pure_eq_ok,
    tryFromSlice_eq_some, and_assoc, true_and, existsAndEq, exists_and_left, exists_const, ne_eq,
    not_not] at h
  obtain ⟨hf, hd, ht, hσ⟩ := h
  exact ⟨⟨ho, hf, hd⟩, ht, hσ⟩

theorem loadFollowRegistry_ok {x : FollowRegistry} (ho : σ.owner a.key = R.programId)
    (h : loadFollowRegistry a σ = .ok (x, σ')) :
    σ.Holds R a.key x ∧ x.tag = tagFollowRegistry ∧ σ' = σ := by
  simp only [loadFollowRegistry, bind_eq_ok, dataOf_eq_ok, orFail_eq_ok, failIf_eq_ok, pure_eq_ok,
    tryFromSlice_eq_some, and_assoc, true_and, existsAndEq, exists_and_left, exists_const, ne_eq,
    not_not] at h
  obtain ⟨hf, hd, ht, hσ⟩ := h
  exact ⟨⟨ho, hf, hd⟩, ht, hσ⟩

theorem loadBoundFollowerShard_ok {x : FollowerShard} {t : Pubkey} {i : UInt8}
    (h : loadBoundFollowerShard R a t i σ = .ok (x, σ')) :
    σ.Holds R a.key x ∧ x.tag = tagFollowerShard ∧ x.thread = t ∧ x.shard = i ∧ σ' = σ := by
  simp only [loadBoundFollowerShard, loadFollowerShard, bind_eq_ok, assertOwnedBy_eq_ok,
    dataOf_eq_ok, orFail_eq_ok, failIf_eq_ok, pure_eq_ok, tryFromSlice_eq_some, and_assoc,
    true_and, existsAndEq, exists_and_left, exists_const, ne_eq, not_not, not_or] at h
  obtain ⟨ho, hf, hd, htag, ht, hi, hσ⟩ := h
  exact ⟨⟨ho, hf, hd⟩, htag, ht, hi, hσ⟩

theorem loadThread_ok {x : ThreadNode} (h : loadThread R a σ = .ok (x, σ')) :
    σ.Holds R a.key x ∧ x.tag = tagThread ∧ σ' = σ := by
  simp only [loadThread, bind_eq_ok, assertOwnedBy_eq_ok, dataOf_eq_ok, orFail_eq_ok, failIf_eq_ok,
    pure_eq_ok, tryFromSlice_eq_some, and_assoc, true_and, existsAndEq, exists_and_left,
    exists_const, ne_eq, not_not] at h
  obtain ⟨ho, hf, hd, htag, hσ⟩ := h
  exact ⟨⟨ho, hf, hd⟩, htag, hσ⟩

theorem loadAuthorThread_ok {x : ThreadNode} (h : loadAuthorThread R b a σ = .ok (x, σ')) :
    σ.Holds R a.key x ∧ x.tag = tagThread ∧ b.isSigner = true ∧ x.author = b.key ∧ σ' = σ := by
  simp only [loadAuthorThread, bind_eq_ok, assertSigner_eq_ok, assertWritable_eq_ok, failIf_eq_ok,
    pure_eq_ok, and_assoc, true_and, and_true, existsAndEq, exists_and_left, exists_const, ne_eq,
    not_not] at h
  obtain ⟨hs, -, hl, ha⟩ := h
  obtain ⟨hx, htag, rfl⟩ := loadThread_ok hl
  exact ⟨hx, htag, hs, ha.symm, rfl⟩

theorem loadAlloc_ok {x : AllocNode} (h : loadAlloc R a σ = .ok (x, σ')) :
    σ.Holds R a.key x ∧ x.tag = tagAlloc ∧ R.HasAddress (.alloc x.thread x.allocSeq) a.key ∧
      σ' = σ := by
  simp only [loadAlloc, bind_eq_ok, assertOwnedBy_eq_ok, dataOf_eq_ok, orFail_eq_ok, failIf_eq_ok,
    assertPda_eq_ok, pure_eq_ok, tryFromSlice_eq_some, and_assoc, true_and, existsAndEq,
    exists_and_left, exists_const, Prod.exists, ne_eq, not_not] at h
  obtain ⟨ho, hf, hd, htag, b, hb, hσ⟩ := h
  exact ⟨⟨ho, hf, hd⟩, htag, ⟨b, hb⟩, hσ⟩

theorem loadContent_ok {x : ContentNode} (h : loadContent R a σ = .ok (x, σ')) :
    σ.Holds R a.key x ∧ x.header.tag = tagContent ∧
      R.HasAddress (.content x.header.thread x.header.allocSeq x.header.slot) a.key ∧ σ' = σ := by
  simp only [loadContent, bind_eq_ok, assertOwnedBy_eq_ok, dataOf_eq_ok, orFail_eq_ok, failIf_eq_ok,
    assertPda_eq_ok, pure_eq_ok, tryFromSlice_eq_some, and_assoc, true_and, existsAndEq,
    exists_and_left, exists_const, Prod.exists, ne_eq, not_not] at h
  obtain ⟨ho, hf, hd, htag, b, hb, hσ⟩ := h
  exact ⟨⟨ho, hf, hd⟩, htag, ⟨b, hb⟩, hσ⟩

theorem loadAdminAccess_ok {x : ThreadAccess} (hst : σ.Strict R a.key)
    (h : loadAdminAccess R b a σ = .ok (x, σ')) :
    σ.Holds R a.key x ∧ x.tag = tagAccess ∧ R.HasAddress (.access x.thread) a.key ∧
      b.isSigner = true ∧ x.admin = b.key ∧ σ' = σ := by
  simp only [loadAdminAccess, bind_eq_ok, assertSigner_eq_ok, assertWritable_eq_ok,
    assertOwnedBy_eq_ok, orFail_eq_ok, failIf_eq_ok, assertPda_eq_ok, pure_eq_ok, and_assoc,
    true_and, and_true, existsAndEq, exists_and_left, exists_const, Prod.exists, ne_eq, not_not] at h
  obtain ⟨hs, -, ho, hl, ha, bump, hb⟩ := h
  obtain ⟨hx, htag, rfl⟩ := loadThreadAccess_ok hst ho hl
  exact ⟨hx, htag, ⟨bump, hb⟩, hs, ha, rfl⟩

theorem loadSettings_ok {x : ProgramSettings} (h : loadSettings R a σ = .ok (x, σ')) :
    σ.Holds R a.key x ∧ x.tag = tagSettings ∧ R.HasAddress .settings a.key ∧ σ' = σ := by
  simp only [loadSettings, bind_eq_ok, ownerOf_eq_ok, dataOf_eq_ok, orFail_eq_ok, failIf_eq_ok,
    assertPda_eq_ok, pure_eq_ok, tryFromSlice_eq_some, and_assoc, true_and, existsAndEq,
    exists_and_left, exists_const, Prod.exists, ne_eq, not_not] at h
  obtain ⟨b, hb, ho, hf, hd, htag, hσ⟩ := h
  exact ⟨⟨ho, hf, hd⟩, htag, ⟨b, hb⟩, hσ⟩

theorem loadAdminSettings_ok {x : ProgramSettings} (h : loadAdminSettings R b a σ = .ok (x, σ')) :
    σ.Holds R a.key x ∧ x.tag = tagSettings ∧ R.HasAddress .settings a.key ∧ b.isSigner = true ∧
      x.admin = b.key ∧ σ' = σ := by
  simp only [loadAdminSettings, bind_eq_ok, assertSigner_eq_ok, assertWritable_eq_ok, failIf_eq_ok,
    pure_eq_ok, and_assoc, true_and, and_true, existsAndEq, exists_and_left, exists_const, ne_eq,
    not_not] at h
  obtain ⟨hs, -, hl, ha⟩ := h
  obtain ⟨hx, htag, haddr, rfl⟩ := loadSettings_ok hl
  exact ⟨hx, htag, haddr, hs, ha, rfl⟩

end Found

end Txtcel
