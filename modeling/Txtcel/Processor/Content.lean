import Txtcel.State.Loaders

/-!
# Handlers: messages

`fill_slot`, `append_content`, `like_content`, `close_account`, and what they use of
`content/body.rs`.
-/

namespace Txtcel

open Lib Exec Borsh

/-! ## 1. `content/body.rs` -/

/-- The message kinds this build knows, and the raw value of any other. -/
inductive ContentKind where
  | text
  | unknown (value : UInt16)
  deriving DecidableEq

def ContentKind.fromU16 (value : UInt16) : ContentKind :=
  if value = 0 then .text else .unknown value

/-- `TextBody::validate` -/
def validateText (text : Bytes) : Handler Unit :=
  failIf (maxBodyLen < text.length) ProtocolError.textTooLong

/-! ## 2. `fill_slot.rs` -/

/-- The access configuration gates the thread: it is enabled, and there is something to gate
    against. -/
def gatingOf (R : Runtime) (accessAccount : AccountInfo) (threadKey : Pubkey) : Handler Bool := do
  let fresh ← isUninitialized accessAccount
  if fresh = true then
    pure false
  else do
    assertOwnedBy accessAccount R.programId
    let access ← loadThreadAccess accessAccount
    failIf (access.thread ≠ threadKey) ProtocolError.threadMismatch
    pure (access.enabled && (0 < access.whitelistCount || 0 < access.entryFee))

/-- Whether the payer may post in a gated thread, and whether it posts for free. -/
def standingOf (R : Runtime) (payer entryAccount : AccountInfo) (threadKey author : Pubkey) :
    Handler (Bool × Bool) := do
  let isAuthor : Bool := payer.key = author
  let fresh ← isUninitialized entryAccount
  if fresh = true then
    pure (isAuthor, isAuthor)
  else do
    let entry ← loadBoundAccessEntry R entryAccount threadKey payer.key
    failIf (entry.status = accessDenied) ProtocolError.accessDenied
    let allowed := isAuthor || entry.status = accessAllowed || entry.status = accessFeeExempt
    let feeExempt := isAuthor || entry.status = accessFeeExempt
    pure (allowed, feeExempt)

/-- The access stage; returns whether the payer is exempt from the author fee. -/
def accessStage (R : Runtime) (payer accessAccount entryAccount : AccountInfo)
    (threadKey author : Pubkey) : Handler Bool := do
  let (expectedAccess, _) ← orFail (deriveAccessPda R threadKey) .panicked
  assertPda accessAccount expectedAccess
  let (expectedEntry, _) ← orFail (deriveAccessEntryPda R threadKey payer.key) .panicked
  assertPda entryAccount expectedEntry
  let gatingEnabled ← gatingOf R accessAccount threadKey
  let (allowed, feeExempt) ← standingOf R payer entryAccount threadKey author
  failIf (gatingEnabled = true ∧ allowed = false) ProtocolError.accessDenied
  pure feeExempt

/-- What a post consists of, apart from its place. -/
structure Post where
  kind : UInt16
  body : Bytes
  replyAllocSeq : UInt32
  replySlot : UInt8
  maxFee : UInt64

/-- The accounts and values the slot loop uses. -/
structure FillEnv where
  payer : AccountInfo
  treasuryShard : AccountInfo
  authorFeeShard : AccountInfo
  systemProgramAccount : AccountInfo
  threadKey : Pubkey
  thread : ThreadNode
  settings : ProgramSettings
  feeExempt : Bool

/-- `u128::checked_mul` -/
def checkedMul128 (a b : Nat) : Option Nat := if a * b < 2 ^ 128 then some (a * b) else none

/-- The free slot is created and written, then the fees are checked and collected. -/
def fillFreeSlot (R : Runtime) (sv : Sysvars) (e : FillEnv) (post : Post)
    (candidate : CandidateSlot) (contentAccount : AccountInfo) (contentBump : UInt8) :
    Handler Unit := do
  assertWritable contentAccount
  let contentSize := ContentNode.size post.body.length
  let contentLamports := sv.rent contentSize
  createPdaAccount R sv e.payer contentAccount e.systemProgramAccount contentSize
    [contentSeed, e.threadKey.bytes, serialize candidate.allocSeq, [candidate.slot], [contentBump]]
  let content : ContentNode :=
    { header :=
        { tag := tagContent, allocSeq := candidate.allocSeq, slot := candidate.slot
          thread := e.threadKey, author := e.payer.key, createdAt := sv.unixTimestamp
          replyAllocSeq := post.replyAllocSeq, replySlot := post.replySlot }
      kind := post.kind, body := post.body }
  serializeInto contentAccount content
  let product ← orFail (checkedMul128 contentLamports e.settings.baseFeeBps.toNat)
    ProtocolError.invalidAccountData
  let baseFee := product / 10000 % 2 ^ 64
  let totalAuthorFee := if e.feeExempt then 0 else e.thread.messageFee.toNat
  let totalFee ← orFail (checkedAdd64 baseFee totalAuthorFee) ProtocolError.invalidAccountData
  failIf (post.maxFee.toNat < totalFee) ProtocolError.feeExceedsMax
  collectBaseFee sv contentLamports e.settings.baseFeeBps.toNat e.payer e.treasuryShard
  onlyIf (0 < totalAuthorFee)
    (transferFeeSplit sv totalAuthorFee e.settings.authorFeeCutBps.toNat e.payer e.authorFeeShard
      e.treasuryShard)

/-- The loop over the candidates: each is checked in turn, occupied ones are passed over, the first
    free one is filled. -/
def fillCandidates (R : Runtime) (sv : Sysvars) (e : FillEnv) (post : Post) :
    List (CandidateSlot × AccountInfo) → Handler Unit
  | [] => throw ProtocolError.noFreeSlot.toProgramError
  | (candidate, contentAccount) :: rest => do
    failIf (e.thread.lastAllocSeq < candidate.allocSeq) ProtocolError.invalidAllocSeq
    failIf (contentSlots ≤ candidate.slot.toNat) ProtocolError.invalidSlot
    let (expectedContent, contentBump) ←
      orFail (deriveContentPda R e.threadKey candidate.allocSeq candidate.slot) .panicked
    assertPda contentAccount expectedContent
    let fresh ← isUninitialized contentAccount
    if fresh = true then
      fillFreeSlot R sv e post candidate contentAccount contentBump
    else
      fillCandidates R sv e post rest

def processFillSlot (R : Runtime) (sv : Sysvars) (accounts : List AccountInfo) (post : Post)
    (candidates : List CandidateSlot) (treasuryShardIdx : UInt16) (authorFeeShardIdx : UInt8) :
    Handler Unit := do
  failIf (maxBodyLen < post.body.length) ProtocolError.textTooLong
  onlyIf (ContentKind.fromU16 post.kind = .text) (validateText post.body)
  failIf (candidates = []) ProtocolError.invalidCandidateCount
  let (payer, accounts) ← nextAccountInfo accounts
  let (threadAccount, accounts) ← nextAccountInfo accounts
  let (settingsAccount, accounts) ← nextAccountInfo accounts
  let (treasuryShard, accounts) ← nextAccountInfo accounts
  let (authorFeeShard, accounts) ← nextAccountInfo accounts
  let (systemProgramAccount, remaining) ← nextAccountInfo accounts
  assertSigner payer
  assertFeeShardAccounts treasuryShard authorFeeShard systemProgramAccount
  let thread ← loadThread R threadAccount
  let threadKey := threadAccount.key
  let settings ← loadSettings R settingsAccount
  let (treasuryShardBump, authorFeeShardBump) ← validateFeeShards R treasuryShard authorFeeShard
    threadKey treasuryShardIdx authorFeeShardIdx
  let nCandidates := candidates.length
  failIf (remaining.length < nCandidates + 2) ProtocolError.invalidCandidateCount
  let accessAccount ← orFail remaining[nCandidates]? .panicked
  let entryAccount ← orFail remaining[nCandidates + 1]? .panicked
  let feeExempt ← accessStage R payer accessAccount entryAccount threadKey thread.author
  ensureFeeShardsInitialized R sv payer treasuryShard authorFeeShard systemProgramAccount threadKey
    treasuryShardIdx authorFeeShardIdx treasuryShardBump authorFeeShardBump
  fillCandidates R sv
    { payer, treasuryShard, authorFeeShard, systemProgramAccount, threadKey, thread, settings,
      feeExempt }
    post (candidates.zip (remaining.take nCandidates))

/-! ## 3. `append_content.rs` -/

/-- `now - created_at` in `i64`; the build checks for overflow. -/
def elapsed (now createdAt : Int64) : Option Int :=
  let d := now.toInt - createdAt.toInt
  if -2 ^ 63 ≤ d ∧ d < 2 ^ 63 then some d else none

def processAppendContent (R : Runtime) (sv : Sysvars) (accounts : List AccountInfo)
    (chunk : Bytes) (treasuryShardIdx : UInt16) (authorFeeShardIdx : UInt8) : Handler Unit := do
  let (payer, accounts) ← nextAccountInfo accounts
  let (contentAccount, accounts) ← nextAccountInfo accounts
  let (threadAccount, accounts) ← nextAccountInfo accounts
  let (settingsAccount, accounts) ← nextAccountInfo accounts
  let (treasuryShard, accounts) ← nextAccountInfo accounts
  let (authorFeeShard, accounts) ← nextAccountInfo accounts
  let (systemProgramAccount, _) ← nextAccountInfo accounts
  assertSigner payer
  assertWritable contentAccount
  assertOwnedBy contentAccount R.programId
  assertFeeShardAccounts treasuryShard authorFeeShard systemProgramAccount
  let _thread ← loadThread R threadAccount
  let settings ← loadSettings R settingsAccount
  let threadKey := threadAccount.key
  let (treasuryShardBump, _) ← validateFeeShards R treasuryShard authorFeeShard threadKey
    treasuryShardIdx authorFeeShardIdx
  let content ← loadContent R contentAccount
  failIf (content.header.thread ≠ threadKey) ProtocolError.threadMismatch
  failIf (content.header.author ≠ payer.key) ProtocolError.unauthorized
  let age ← orFail (elapsed sv.unixTimestamp content.header.createdAt) .panicked
  failIf (appendWindowSecs < age) ProtocolError.appendWindowExpired
  let newBodyLen := content.body.length + chunk.length
  failIf (maxBodyLen < newBodyLen) ProtocolError.textTooLong
  let oldSize := ContentNode.size content.body.length
  let grown : ContentNode := { content with body := content.body ++ chunk }
  let newSize := ContentNode.size grown.body.length
  resize contentAccount newSize
  let required := sv.rent newSize
  let current ← lamportsOf contentAccount
  onlyIf (current < required) (invokeTransfer payer contentAccount (required - current))
  let rentDelta := sv.rent newSize - sv.rent oldSize
  onlyIf (0 < rentDelta) (do
    ensureShardInitialized R sv payer treasuryShard systemProgramAccount
      [treasuryShardSeed, serialize treasuryShardIdx] treasuryShardBump
    collectBaseFee sv rentDelta settings.baseFeeBps.toNat payer treasuryShard)
  serializeInto contentAccount grown

/-! ## 4. `like_content.rs` -/

/-- `u32::saturating_add(1)` -/
def saturatingSucc32 (n : UInt32) : UInt32 := UInt32.ofNat (min (n.toNat + 1) (2 ^ 32 - 1))

/-- One like more in a slot. -/
def AllocLikes.bump (likes : AllocLikes) (slot : Fin contentSlots) : AllocLikes :=
  { likes with counts := likes.counts.set slot (saturatingSucc32 likes.counts[slot]) }

/-- No likes in a slot. -/
def AllocLikes.reset (likes : AllocLikes) (slot : Fin contentSlots) : AllocLikes :=
  { likes with counts := likes.counts.set slot 0 }

/-- An index into the counters; out of range panics. -/
def slotIndex (slot : UInt8) : Option (Fin contentSlots) :=
  if h : slot.toNat < contentSlots then some ⟨slot.toNat, h⟩ else none

def processLikeContent (R : Runtime) (sv : Sysvars) (accounts : List AccountInfo)
    (allocSeq : UInt32) (slot : UInt8) (treasuryShardIdx : UInt16) (authorFeeShardIdx : UInt8)
    (maxFee : UInt64) : Handler Unit := do
  failIf (contentSlots ≤ slot.toNat) ProtocolError.invalidSlot
  let (payer, accounts) ← nextAccountInfo accounts
  let (likesAccount, accounts) ← nextAccountInfo accounts
  let (contentAccount, accounts) ← nextAccountInfo accounts
  let (threadAccount, accounts) ← nextAccountInfo accounts
  let (settingsAccount, accounts) ← nextAccountInfo accounts
  let (treasuryShard, accounts) ← nextAccountInfo accounts
  let (authorFeeShard, accounts) ← nextAccountInfo accounts
  let (systemProgramAccount, _) ← nextAccountInfo accounts
  assertSigner payer
  assertWritable likesAccount
  assertFeeShardAccounts treasuryShard authorFeeShard systemProgramAccount
  let threadKey := threadAccount.key
  let content ← loadContent R contentAccount
  let (expectedContent, _) ← orFail (deriveContentPda R threadKey allocSeq slot) .panicked
  assertPda contentAccount expectedContent
  let thread ← loadThread R threadAccount
  let settings ← loadSettings R settingsAccount
  prepareFeeShards R sv payer treasuryShard authorFeeShard systemProgramAccount threadKey
    treasuryShardIdx authorFeeShardIdx
  let (expectedLikes, likesBump) ← orFail (deriveLikesPda R threadKey allocSeq) .panicked
  assertPda likesAccount expectedLikes
  let fresh ← isUninitialized likesAccount
  onlyIf (fresh = true) (do
    createPdaAccount R sv payer likesAccount systemProgramAccount AllocLikes.size
      [likesSeed, threadKey.bytes, serialize allocSeq, [likesBump]]
    let likes : AllocLikes :=
      { tag := tagLikes, allocSeq := allocSeq, counts := Vector.replicate contentSlots 0 }
    serializeInto likesAccount likes)
  assertOwnedBy likesAccount R.programId
  let likes ← loadAllocLikes likesAccount
  let i ← orFail (slotIndex slot) .panicked
  serializeInto likesAccount (likes.bump i)
  onlyIf (0 < thread.likeFee ∧ payer.key ≠ content.header.author) (do
    failIf (maxFee < thread.likeFee) ProtocolError.feeExceedsMax
    transferFeeSplit sv thread.likeFee.toNat settings.likeCutBps.toNat payer authorFeeShard
      treasuryShard)

/-! ## 5. `close_account.rs` -/

/-- The slot's counter is reset when the caller passed the likes account. -/
def resetLikes (R : Runtime) (header : ContentHeader) (likesAccount : AccountInfo) :
    Handler Unit := do
  let (expectedLikes, _) ← orFail (deriveLikesPda R header.thread header.allocSeq) .panicked
  assertPda likesAccount expectedLikes
  let fresh ← isUninitialized likesAccount
  onlyIf (fresh = false) (do
    assertWritable likesAccount
    assertOwnedBy likesAccount R.programId
    let likes ← loadAllocLikes likesAccount
    failIf (likes.allocSeq ≠ header.allocSeq) ProtocolError.invalidAllocSeq
    let i ← orFail (slotIndex header.slot) .panicked
    serializeInto likesAccount (likes.reset i))

def processCloseAccount (R : Runtime) (accounts : List AccountInfo) : Handler Unit := do
  let (payer, accounts) ← nextAccountInfo accounts
  let (targetAccount, accounts) ← nextAccountInfo accounts
  let likesAccount := accounts.head?
  assertSigner payer
  assertWritable targetAccount
  assertOwnedBy targetAccount R.programId
  let tag ← readTag targetAccount
  -- content is the only kind that can be closed
  require (tag = tagContent) ProtocolError.invalidTag
  let content ← loadContent R targetAccount
  failIf (content.header.author ≠ payer.key) ProtocolError.unauthorized
  match likesAccount with
  | some likesAccount => resetLikes R content.header likesAccount
  | none => pure ()
  closeProgramAccount targetAccount payer

end Txtcel
