import Txtcel.Solana

/-!
# Constants and error codes

`state/constants.rs`, the constants of `content/mod.rs`, and `error.rs`: the account tags, the ACL
status codes, the bounds, the seeds, and the code every protocol error is reported under.
-/

namespace Txtcel

open Lib

/-! ## 1. Account tags -/

def tagContent : UInt8 := 1
def tagAlloc : UInt8 := 2
def tagThread : UInt8 := 3
def tagSettings : UInt8 := 5
def tagAccess : UInt8 := 6
def tagLikes : UInt8 := 7
def tagAccessEntry : UInt8 := 9
def tagFollowRegistry : UInt8 := 10
def tagFollowerShard : UInt8 := 11

/-! ## 2. Access entry status -/

def accessAllowed : UInt8 := 0
def accessDenied : UInt8 := 1
/-- Allowed, and exempt from the per-message author fee. -/
def accessFeeExempt : UInt8 := 2

/-! ## 3. Bounds -/

def maxTitleLen : Nat := 64
def nTreasuryShards : UInt16 := 512
def nAuthorFeeShards : UInt8 := 4
def nFollowerShards : UInt8 := 8
def maxFollows : Nat := 1000
def maxFeeCutBps : UInt32 := 5000

/-- Content slots per alloc page. -/
def contentSlots : Nat := 32

def maxBodyLen : Nat := 8192

/-- `AppendContent` is open for this long after the creation (`APPEND_WINDOW_SECS`). -/
def appendWindowSecs : Int := 120

/-! ## 4. PDA seeds -/

/-- `b"settings"` -/
def settingsSeed : Bytes := [115, 101, 116, 116, 105, 110, 103, 115]
/-- `b"alloc"` -/
def allocSeed : Bytes := [97, 108, 108, 111, 99]
/-- `b"access"` -/
def accessSeed : Bytes := [97, 99, 99, 101, 115, 115]
/-- `b"acl"` -/
def aclSeed : Bytes := [97, 99, 108]
/-- `b"likes"` -/
def likesSeed : Bytes := [108, 105, 107, 101, 115]
/-- `b"treasury_shard"` -/
def treasuryShardSeed : Bytes :=
  [116, 114, 101, 97, 115, 117, 114, 121, 95, 115, 104, 97, 114, 100]
/-- `b"author_fee"` -/
def authorFeeSeed : Bytes := [97, 117, 116, 104, 111, 114, 95, 102, 101, 101]
/-- `b"follows"` -/
def followsSeed : Bytes := [102, 111, 108, 108, 111, 119, 115]
/-- `b"follower_count"` -/
def followerCountSeed : Bytes :=
  [102, 111, 108, 108, 111, 119, 101, 114, 95, 99, 111, 117, 110, 116]
/-- `b"content"` -/
def contentSeed : Bytes := [99, 111, 110, 116, 101, 110, 116]

/-! ## 5. Protocol errors -/

inductive ProtocolError where
  | missingSigner
  | notWritable
  | invalidTag
  | textTooLong
  /-- Retired, kept for the code. -/
  | allocAlreadyLinked
  | slotAlreadyUsed
  | invalidCandidateCount
  | accountOwnerMismatch
  | accountAlreadyInitialized
  | invalidAccountData
  | noFreeSlot
  | invalidShard
  | threadMismatch
  | invalidPda
  | unauthorized
  | invalidTreasury
  | invalidProgramAccount
  | accessDenied
  | accessListFull
  | accessListDuplicate
  | accessListMissing
  | missingAccessAccount
  | invalidFeeBps
  | invalidAuthor
  | zeroEntryFee
  | invalidSlot
  | accessListConflict
  | invalidAllocSeq
  | nothingToSweep
  | appendWindowExpired
  | feeExceedsMax
  | alreadyFollowing
  | notFollowing
  | followListFull
  deriving DecidableEq, Repr

namespace ProtocolError

/-- The `#[repr(u32)]` discriminant; `24` is not used. -/
def code : ProtocolError → Nat
  | missingSigner => 0
  | notWritable => 1
  | invalidTag => 2
  | textTooLong => 3
  | allocAlreadyLinked => 4
  | slotAlreadyUsed => 5
  | invalidCandidateCount => 6
  | accountOwnerMismatch => 7
  | accountAlreadyInitialized => 8
  | invalidAccountData => 9
  | noFreeSlot => 10
  | invalidShard => 11
  | threadMismatch => 12
  | invalidPda => 13
  | unauthorized => 14
  | invalidTreasury => 15
  | invalidProgramAccount => 16
  | accessDenied => 17
  | accessListFull => 18
  | accessListDuplicate => 19
  | accessListMissing => 20
  | missingAccessAccount => 21
  | invalidFeeBps => 22
  | invalidAuthor => 23
  | zeroEntryFee => 25
  | invalidSlot => 26
  | accessListConflict => 27
  | invalidAllocSeq => 28
  | nothingToSweep => 29
  | appendWindowExpired => 30
  | feeExceedsMax => 31
  | alreadyFollowing => 32
  | notFollowing => 33
  | followListFull => 34

/-- `impl From<ProtocolError> for ProgramError` -/
def toProgramError (e : ProtocolError) : ProgramError := .custom e.code

instance : Coe ProtocolError ProgramError := ⟨toProgramError⟩

end ProtocolError

end Txtcel
