import Txtcel.State.Constants

/-!
# The account structures

`state/accounts.rs` and the structures of `content/mod.rs`. A structure is stored as the tuple of
its fields in order (`#[derive(BorshSerialize, BorshDeserialize)]`), and its `size` function gives
the number of bytes: for each kind that is a lemma here (`*_length`), used wherever an account is
created, rewritten in place or resized.
-/

namespace Txtcel

open Lib Borsh

/-! ## 1. `AllocNode` -/

/-- One page of 32 content slots in a thread's dense sequence. -/
structure AllocNode where
  tag : UInt8
  thread : Pubkey
  allocSeq : UInt32

namespace AllocNode

def equiv : AllocNode ≃ UInt8 × Pubkey × UInt32 where
  toFun x := (x.tag, x.thread, x.allocSeq)
  invFun p := ⟨p.1, p.2.1, p.2.2⟩
  left_inv _ := rfl
  right_inv _ := rfl

instance : Borsh AllocNode := ofEquiv equiv

def size : Nat := 1 + 32 + 4

theorem fits (x : AllocNode) : Fits x := ⟨trivial, trivial, trivial⟩

theorem length (x : AllocNode) : (serialize x).length = size := by
  show (serialize (equiv x)).length = size
  simp [equiv, size]

end AllocNode

/-! ## 2. `ThreadNode` -/

/-- A channel; its address is its identity. -/
structure ThreadNode where
  tag : UInt8
  allocCount : UInt32
  lastAllocSeq : UInt32
  author : Pubkey
  messageFee : UInt64
  likeFee : UInt64
  title : Bytes

namespace ThreadNode

def equiv : ThreadNode ≃ UInt8 × UInt32 × UInt32 × Pubkey × UInt64 × UInt64 × Bytes where
  toFun x := (x.tag, x.allocCount, x.lastAllocSeq, x.author, x.messageFee, x.likeFee, x.title)
  invFun p := ⟨p.1, p.2.1, p.2.2.1, p.2.2.2.1, p.2.2.2.2.1, p.2.2.2.2.2.1, p.2.2.2.2.2.2⟩
  left_inv _ := rfl
  right_inv _ := rfl

instance : Borsh ThreadNode := ofEquiv equiv

def size (titleLen : Nat) : Nat := 1 + 4 + 4 + 32 + 8 + 8 + 4 + titleLen

theorem fits_iff (x : ThreadNode) : Fits x ↔ x.title.length < 2 ^ 32 :=
  ⟨fun h => h.2.2.2.2.2.2.1,
    fun h => ⟨trivial, trivial, trivial, trivial, trivial, trivial, fits_bytes h⟩⟩

theorem length (x : ThreadNode) : (serialize x).length = size x.title.length := by
  show (serialize (equiv x)).length = _
  simp only [equiv, Equiv.coe_fn_mk, serialize_prod_length, serialize_u8_length,
    serialize_u32_length, Pubkey.serialize_length, serialize_u64_length,
    serialize_list_length serialize_u8_length, size]
  omega

end ThreadNode

/-! ## 3. `ProgramSettings` -/

/-- The singleton global configuration. -/
structure ProgramSettings where
  tag : UInt8
  admin : Pubkey
  treasury : Pubkey
  baseFeeBps : UInt32
  authorFeeCutBps : UInt32
  entryCutBps : UInt32
  likeCutBps : UInt32

namespace ProgramSettings

def equiv : ProgramSettings ≃ UInt8 × Pubkey × Pubkey × UInt32 × UInt32 × UInt32 × UInt32 where
  toFun x := (x.tag, x.admin, x.treasury, x.baseFeeBps, x.authorFeeCutBps, x.entryCutBps,
    x.likeCutBps)
  invFun p := ⟨p.1, p.2.1, p.2.2.1, p.2.2.2.1, p.2.2.2.2.1, p.2.2.2.2.2.1, p.2.2.2.2.2.2⟩
  left_inv _ := rfl
  right_inv _ := rfl

instance : Borsh ProgramSettings := ofEquiv equiv

def size : Nat := 1 + 32 + 32 + 4 * 4

theorem fits (x : ProgramSettings) : Fits x :=
  ⟨trivial, trivial, trivial, trivial, trivial, trivial, trivial⟩

theorem length (x : ProgramSettings) : (serialize x).length = size := by
  show (serialize (equiv x)).length = size
  simp [equiv, size]

end ProgramSettings

/-! ## 4. `ThreadAccess` and `AccessEntry` -/

/-- The gating configuration of a thread, with the cached number of allow entries. -/
structure ThreadAccess where
  tag : UInt8
  thread : Pubkey
  enabled : Bool
  admin : Pubkey
  entryFee : UInt64
  whitelistCount : UInt32

namespace ThreadAccess

def equiv : ThreadAccess ≃ UInt8 × Pubkey × Bool × Pubkey × UInt64 × UInt32 where
  toFun x := (x.tag, x.thread, x.enabled, x.admin, x.entryFee, x.whitelistCount)
  invFun p := ⟨p.1, p.2.1, p.2.2.1, p.2.2.2.1, p.2.2.2.2.1, p.2.2.2.2.2⟩
  left_inv _ := rfl
  right_inv _ := rfl

instance : Borsh ThreadAccess := ofEquiv equiv

def size : Nat := 1 + 32 + 1 + 32 + 8 + 4

theorem fits (x : ThreadAccess) : Fits x :=
  ⟨trivial, trivial, trivial, trivial, trivial, trivial⟩

theorem length (x : ThreadAccess) : (serialize x).length = size := by
  show (serialize (equiv x)).length = size
  simp [equiv, size]

end ThreadAccess

/-- The membership record of one wallet in one thread. -/
structure AccessEntry where
  tag : UInt8
  thread : Pubkey
  wallet : Pubkey
  status : UInt8

namespace AccessEntry

def equiv : AccessEntry ≃ UInt8 × Pubkey × Pubkey × UInt8 where
  toFun x := (x.tag, x.thread, x.wallet, x.status)
  invFun p := ⟨p.1, p.2.1, p.2.2.1, p.2.2.2⟩
  left_inv _ := rfl
  right_inv _ := rfl

instance : Borsh AccessEntry := ofEquiv equiv

def size : Nat := 1 + 32 + 32 + 1

theorem fits (x : AccessEntry) : Fits x := ⟨trivial, trivial, trivial, trivial⟩

theorem length (x : AccessEntry) : (serialize x).length = size := by
  show (serialize (equiv x)).length = size
  simp [equiv, size]

end AccessEntry

/-! ## 5. `AllocLikes` -/

/-- The like counters of one alloc page. -/
structure AllocLikes where
  tag : UInt8
  allocSeq : UInt32
  counts : Vector UInt32 contentSlots

namespace AllocLikes

def equiv : AllocLikes ≃ UInt8 × UInt32 × Vector UInt32 contentSlots where
  toFun x := (x.tag, x.allocSeq, x.counts)
  invFun p := ⟨p.1, p.2.1, p.2.2⟩
  left_inv _ := rfl
  right_inv _ := rfl

instance : Borsh AllocLikes := ofEquiv equiv

def size : Nat := 1 + 4 + 4 * contentSlots

theorem fits (x : AllocLikes) : Fits x := ⟨trivial, trivial, fun _ _ => trivial⟩

theorem length (x : AllocLikes) : (serialize x).length = size := by
  show (serialize (equiv x)).length = size
  simp only [equiv, Equiv.coe_fn_mk, serialize_prod_length, serialize_u8_length,
    serialize_u32_length, serialize_vector_length serialize_u32_length, size]
  omega

end AllocLikes

/-! ## 6. `FollowRegistry` and `FollowerShard` -/

/-- The channels a wallet follows. -/
structure FollowRegistry where
  tag : UInt8
  owner : Pubkey
  channels : List Pubkey

namespace FollowRegistry

def equiv : FollowRegistry ≃ UInt8 × Pubkey × List Pubkey where
  toFun x := (x.tag, x.owner, x.channels)
  invFun p := ⟨p.1, p.2.1, p.2.2⟩
  left_inv _ := rfl
  right_inv _ := rfl

instance : Borsh FollowRegistry := ofEquiv equiv

def size (channelCount : Nat) : Nat := 1 + 32 + 4 + channelCount * 32

theorem fits_iff (x : FollowRegistry) : Fits x ↔ x.channels.length < 2 ^ 32 :=
  ⟨fun h => h.2.2.1, fun h => ⟨trivial, trivial, h, fun _ _ => trivial⟩⟩

theorem length (x : FollowRegistry) : (serialize x).length = size x.channels.length := by
  show (serialize (equiv x)).length = _
  simp only [equiv, Equiv.coe_fn_mk, serialize_prod_length, serialize_u8_length,
    Pubkey.serialize_length, serialize_list_length Pubkey.serialize_length, size]
  omega

end FollowRegistry

/-- One shard of a channel's follower count. -/
structure FollowerShard where
  tag : UInt8
  thread : Pubkey
  shard : UInt8
  count : UInt64

namespace FollowerShard

def equiv : FollowerShard ≃ UInt8 × Pubkey × UInt8 × UInt64 where
  toFun x := (x.tag, x.thread, x.shard, x.count)
  invFun p := ⟨p.1, p.2.1, p.2.2.1, p.2.2.2⟩
  left_inv _ := rfl
  right_inv _ := rfl

instance : Borsh FollowerShard := ofEquiv equiv

def size : Nat := 1 + 32 + 1 + 8

theorem fits (x : FollowerShard) : Fits x := ⟨trivial, trivial, trivial, trivial⟩

theorem length (x : FollowerShard) : (serialize x).length = size := by
  show (serialize (equiv x)).length = size
  simp [equiv, size]

end FollowerShard

/-! ## 7. `ContentNode` -/

/-- What every message carries. -/
structure ContentHeader where
  tag : UInt8
  allocSeq : UInt32
  slot : UInt8
  thread : Pubkey
  author : Pubkey
  createdAt : Int64
  replyAllocSeq : UInt32
  replySlot : UInt8

namespace ContentHeader

def equiv : ContentHeader ≃ UInt8 × UInt32 × UInt8 × Pubkey × Pubkey × Int64 × UInt32 × UInt8 where
  toFun x := (x.tag, x.allocSeq, x.slot, x.thread, x.author, x.createdAt, x.replyAllocSeq,
    x.replySlot)
  invFun p := ⟨p.1, p.2.1, p.2.2.1, p.2.2.2.1, p.2.2.2.2.1, p.2.2.2.2.2.1, p.2.2.2.2.2.2.1,
    p.2.2.2.2.2.2.2⟩
  left_inv _ := rfl
  right_inv _ := rfl

instance : Borsh ContentHeader := ofEquiv equiv

def size : Nat := 1 + 4 + 1 + 32 + 32 + 8 + 4 + 1

theorem fits (x : ContentHeader) : Fits x :=
  ⟨trivial, trivial, trivial, trivial, trivial, trivial, trivial, trivial⟩

theorem length (x : ContentHeader) : (serialize x).length = size := by
  show (serialize (equiv x)).length = size
  simp [equiv, size]

end ContentHeader

/-- A message: its header, a discriminator and an opaque body. -/
structure ContentNode where
  header : ContentHeader
  kind : UInt16
  body : Bytes

namespace ContentNode

def equiv : ContentNode ≃ ContentHeader × UInt16 × Bytes where
  toFun x := (x.header, x.kind, x.body)
  invFun p := ⟨p.1, p.2.1, p.2.2⟩
  left_inv _ := rfl
  right_inv _ := rfl

instance : Borsh ContentNode := ofEquiv equiv

def size (bodyLen : Nat) : Nat := ContentHeader.size + 2 + 4 + bodyLen

theorem fits_iff (x : ContentNode) : Fits x ↔ x.body.length < 2 ^ 32 :=
  ⟨fun h => h.2.2.1, fun h => ⟨x.header.fits, trivial, fits_bytes h⟩⟩

theorem length (x : ContentNode) : (serialize x).length = size x.body.length := by
  show (serialize (equiv x)).length = _
  simp only [equiv, Equiv.coe_fn_mk, serialize_prod_length, ContentHeader.length,
    serialize_u16_length, serialize_list_length serialize_u8_length, size]
  omega

end ContentNode

/-! ## 8. Candidate slots -/

/-- A `(alloc_seq, slot)` target named in instruction data. -/
structure CandidateSlot where
  allocSeq : UInt32
  slot : UInt8

end Txtcel
