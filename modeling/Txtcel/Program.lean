import Txtcel.Processor.Platform
import Txtcel.Processor.Threads
import Txtcel.Processor.Access
import Txtcel.Processor.Content
import Txtcel.Processor.Follows

/-!
# The program: `ProgramInstruction` and its dispatch

`instruction.rs` and `process_instruction` of `lib.rs`, from the decoded instruction on. The order
of the constructors is the wire selector.
-/

namespace Txtcel

open Lib

/-- `enum ProgramInstruction` -/
inductive ProgramInstruction where
  | createRootAlloc (messageFee : UInt64) (treasuryShardIdx : UInt16) (title : Bytes)
  | fillSlot (kind : UInt16) (body : Bytes) (candidates : List CandidateSlot)
      (treasuryShardIdx : UInt16) (authorFeeShardIdx : UInt8) (replyAllocSeq : UInt32)
      (replySlot : UInt8) (maxFee : UInt64)
  | prepareAlloc (allocSeq : UInt32)
  | sweepTreasury (shardIndices : List UInt16)
  | sweepAuthorFees (shardIndices : List UInt8)
  | closeAccount
  | initSettings (treasury : Pubkey)
  | setTreasury (treasury : Pubkey)
  | initThreadAccess (enabled : Bool) (treasuryShardIdx : UInt16)
  | setThreadAccess (enabled : Bool)
  | addToWhitelist (wallet : Pubkey)
  | removeFromWhitelist (wallet : Pubkey)
  | setMessageFee (fee : UInt64)
  | setBaseFee (feeBps : UInt32)
  | setAuthorFeeCut (feeBps : UInt32)
  | setEntryCut (feeBps : UInt32)
  | setLikeCut (feeBps : UInt32)
  | setLikeFee (fee : UInt64)
  | setEntryFee (fee : UInt64)
  | requestAccess (treasuryShardIdx : UInt16) (authorFeeShardIdx : UInt8)
  | likeContent (allocSeq : UInt32) (slot : UInt8) (treasuryShardIdx : UInt16)
      (authorFeeShardIdx : UInt8) (maxFee : UInt64)
  | addToBlacklist (wallet : Pubkey)
  | removeFromBlacklist (wallet : Pubkey)
  | appendContent (chunk : Bytes) (treasuryShardIdx : UInt16) (authorFeeShardIdx : UInt8)
  | setAdmin (newAdmin : Pubkey)
  | addToFeeWhitelist (wallet : Pubkey)
  | removeFromFeeWhitelist (wallet : Pubkey)
  | subscribe
  | unsubscribe

/-- Every instruction is routed from one arm. -/
def processInstruction (R : Runtime) (sv : Sysvars) (accounts : List AccountInfo) :
    ProgramInstruction → Handler Unit
  | .createRootAlloc messageFee treasuryShardIdx title =>
    processCreateRootAlloc R sv accounts messageFee treasuryShardIdx title
  | .fillSlot kind body candidates treasuryShardIdx authorFeeShardIdx replyAllocSeq replySlot
      maxFee =>
    processFillSlot R sv accounts { kind, body, replyAllocSeq, replySlot, maxFee } candidates
      treasuryShardIdx authorFeeShardIdx
  | .prepareAlloc allocSeq => processPrepareAlloc R sv accounts allocSeq
  | .sweepTreasury shardIndices => processSweepTreasury R sv accounts shardIndices
  | .sweepAuthorFees shardIndices => processSweepAuthorFees R sv accounts shardIndices
  | .closeAccount => processCloseAccount R accounts
  | .initSettings treasury => processInitSettings R sv accounts treasury
  | .setTreasury treasury => processSetTreasury R accounts treasury
  | .initThreadAccess enabled treasuryShardIdx =>
    processInitThreadAccess R sv accounts enabled treasuryShardIdx
  | .setThreadAccess enabled => processSetThreadAccess R accounts enabled
  | .addToWhitelist wallet => processAddToWhitelist R sv accounts wallet
  | .removeFromWhitelist wallet => processRemoveFromWhitelist R accounts wallet
  | .setMessageFee fee => processSetMessageFee R accounts fee
  | .setBaseFee feeBps => processSetBaseFee R accounts feeBps
  | .setAuthorFeeCut feeBps => processSetAuthorFeeCut R accounts feeBps
  | .setEntryCut feeBps => processSetEntryCut R accounts feeBps
  | .setLikeCut feeBps => processSetLikeCut R accounts feeBps
  | .setLikeFee fee => processSetLikeFee R accounts fee
  | .setEntryFee fee => processSetEntryFee R accounts fee
  | .requestAccess treasuryShardIdx authorFeeShardIdx =>
    processRequestAccess R sv accounts treasuryShardIdx authorFeeShardIdx
  | .likeContent allocSeq slot treasuryShardIdx authorFeeShardIdx maxFee =>
    processLikeContent R sv accounts allocSeq slot treasuryShardIdx authorFeeShardIdx maxFee
  | .addToBlacklist wallet => processAddToBlacklist R sv accounts wallet
  | .removeFromBlacklist wallet => processRemoveFromBlacklist R accounts wallet
  | .appendContent chunk treasuryShardIdx authorFeeShardIdx =>
    processAppendContent R sv accounts chunk treasuryShardIdx authorFeeShardIdx
  | .setAdmin newAdmin => processSetAdmin R accounts newAdmin
  | .addToFeeWhitelist wallet => processAddToFeeWhitelist R sv accounts wallet
  | .removeFromFeeWhitelist wallet => processRemoveFromFeeWhitelist R accounts wallet
  | .subscribe => processSubscribe R sv accounts
  | .unsubscribe => processUnsubscribe R sv accounts

end Txtcel
