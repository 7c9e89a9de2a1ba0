import Txtcel.Processor.Content
import Txtcel.Spec.Access

/-!
# What a successful message instruction did

`fill_slot`, with its access stage, and `append_content`.
-/

namespace Txtcel

open Lib Exec Borsh Function

variable {R : Runtime} {sv : Sysvars} {σ σ' : Ledger} {u : Unit} {accounts : List AccountInfo}

/-! ## 1. The access stage of `fill_slot` -/

/-- The access account, as the stage finds it: free, or the thread's own. -/
def AccessSeen (σ : Ledger) (R : Runtime) (k thread : Pubkey) : Option ThreadAccess → Prop
  | none => σ.Free k
  | some a => σ.Holds R k a ∧ a.tag = tagAccess ∧ a.thread = thread

/-- The wallet's entry, as the stage finds it: free, or with some status. -/
def EntrySeen (σ : Ledger) (R : Runtime) (k thread wallet : Pubkey) : Option UInt8 → Prop
  | none => σ.Free k
  | some s => σ.Holds R k (entryNode thread wallet s)

/-- The thread is gated. -/
def gate : Option ThreadAccess → Bool
  | none => false
  | some a => a.enabled && (0 < a.whitelistCount || 0 < a.entryFee)

/-- The wallet may post in a gated thread. -/
def mayPost (isAuthor : Bool) (s : Option UInt8) : Bool :=
  isAuthor || s = some accessAllowed || s = some accessFeeExempt

/-- The wallet posts for free. -/
def postsFree (isAuthor : Bool) (s : Option UInt8) : Bool := isAuthor || s = some accessFeeExempt

theorem gatingOf_ok {ac : AccountInfo} {t : Pubkey} {g : Bool} (hst : σ.Strict R ac.key)
    (h : gatingOf R ac t σ = .ok (g, σ')) :
    ∃ a, AccessSeen σ R ac.key t a ∧ g = gate a ∧ σ' = σ := by
  simp only [gatingOf, bind_eq_ok (x := isUninitialized _), isUninitialized_eq_ok, and_assoc,
    true_and, existsAndEq, decide_eq_true_eq] at h
  rcases ite_eq_ok.mp h with ⟨hf, h⟩ | ⟨-, h⟩
  · obtain ⟨rfl, rfl⟩ := pure_eq_ok.mp h
    exact ⟨none, hf, rfl, rfl⟩
  · simp only [bind_eq_ok, assertOwnedBy_eq_ok, failIf_eq_ok, pure_eq_ok, and_assoc, true_and,
      and_true, existsAndEq, exists_and_left, exists_const, ne_eq, not_not] at h
    obtain ⟨ho, a, hla, hth, rfl⟩ := h
    obtain ⟨ha, htag, rfl⟩ := loadThreadAccess_ok hst ho hla
    exact ⟨some a, ⟨ha, htag, hth⟩, rfl, rfl⟩

theorem standingOf_ok {p en : AccountInfo} {t au : Pubkey} {r : Bool × Bool}
    (hst : σ.Strict R en.key) (h : standingOf R p en t au σ = .ok (r, σ')) :
    ∃ s, EntrySeen σ R en.key t p.key s ∧ s ≠ some accessDenied ∧
      r = (mayPost (p.key = au) s, postsFree (p.key = au) s) ∧ σ' = σ := by
  simp only [standingOf, bind_eq_ok (x := isUninitialized _), isUninitialized_eq_ok, and_assoc,
    true_and, existsAndEq, decide_eq_true_eq] at h
  rcases ite_eq_ok.mp h with ⟨hf, h⟩ | ⟨-, h⟩
  · obtain ⟨rfl, rfl⟩ := pure_eq_ok.mp h
    exact ⟨none, hf, nofun, by simp [mayPost, postsFree], rfl⟩
  · simp only [bind_eq_ok, failIf_eq_ok, pure_eq_ok, and_assoc, true_and, existsAndEq,
      exists_and_left, exists_const] at h
    obtain ⟨x, hload, hden, rfl, -⟩ := h
    obtain ⟨hx, htag, ht, hw, rfl⟩ := loadBoundAccessEntry_ok hst hload
    obtain ⟨tag, thread, wallet, s⟩ := x
    obtain rfl : tag = tagAccessEntry := htag
    obtain rfl : thread = t := ht
    obtain rfl : wallet = p.key := hw
    refine ⟨some s, hx, fun hs => hden (Option.some.inj hs), ?_, rfl⟩
    simp [mayPost, postsFree]

/-- What the access stage found and allowed. -/
structure AccessPassed (R : Runtime) (σ : Ledger) (thread payer author access entry : Pubkey)
    (seen : Option ThreadAccess) (standing : Option UInt8) : Prop where
  access_addr : R.HasAddress (.access thread) access
  entry_addr : R.HasAddress (.entry thread payer) entry
  access_seen : AccessSeen σ R access thread seen
  entry_seen : EntrySeen σ R entry thread payer standing
  not_denied : standing ≠ some accessDenied
  allowed : gate seen = true → mayPost (payer = author) standing = true

theorem accessStage_ok {p ac en : AccountInfo} {t au : Pubkey} {e : Bool} (hT : σ.Tidy R)
    (h : accessStage R p ac en t au σ = .ok (e, σ')) :
    ∃ seen standing, AccessPassed R σ t p.key au ac.key en.key seen standing ∧
      e = postsFree (p.key = au) standing ∧ σ' = σ := by
  simp only [accessStage, bind_eq_ok, orFail_eq_ok, assertPda_eq_ok, failIf_eq_ok, pure_eq_ok,
    Prod.exists, and_assoc, true_and, and_true, existsAndEq, exists_and_left, exists_const] at h
  obtain ⟨b, hb, c, hc, g, _, hg, al, hs, hpass⟩ := h
  obtain ⟨seen, hseen, rfl, rfl⟩ := gatingOf_ok (strict_of_cell (hT _)) hg
  obtain ⟨st, hst, hden, hr, rfl⟩ := standingOf_ok (strict_of_cell (hT _)) hs
  obtain ⟨rfl, rfl⟩ := Prod.mk.inj hr
  refine ⟨seen, st, ⟨⟨b, hb⟩, ⟨c, hc⟩, hseen, hst, hden, fun hgate => ?_⟩, rfl, rfl⟩
  exact Bool.not_eq_false _ ▸ fun hf => hpass ⟨hgate, hf⟩

/-! ## 2. `fill_slot` -/

structure FillSlot where
  payer : Pubkey
  thread : Pubkey
  settings : Pubkey
  treasury : Pubkey
  author : Pubkey
  access : Pubkey
  entry : Pubkey
  content : Pubkey
  node : ThreadNode
  current : ProgramSettings
  treasuryIdx : UInt16
  authorIdx : UInt8
  seen : Option ThreadAccess
  standing : Option UInt8
  candidate : CandidateSlot
  post : Post

namespace FillSlot

/-- The message that is stored. -/
def message (d : FillSlot) (sv : Sysvars) : ContentNode :=
  { header :=
      { tag := tagContent, allocSeq := d.candidate.allocSeq, slot := d.candidate.slot
        thread := d.thread, author := d.payer, createdAt := sv.unixTimestamp
        replyAllocSeq := d.post.replyAllocSeq, replySlot := d.post.replySlot }
    kind := d.post.kind, body := d.post.body }

def rent (d : FillSlot) (sv : Sysvars) : Nat := sv.rent (ContentNode.size d.post.body.length)

def baseFee (d : FillSlot) (sv : Sysvars) : Nat :=
  baseFeeOf (d.rent sv) d.current.baseFeeBps.toNat

/-- The author fee: nothing for the author and the exempt. -/
def authorFee (d : FillSlot) : Nat :=
  if postsFree (d.payer = d.node.author) d.standing then 0 else d.node.messageFee.toNat

/-- The ledger with the message stored, before the fees. -/
def stored (d : FillSlot) (R : Runtime) (sv : Sysvars) (σ : Ledger) : Ledger :=
  ((σ.openShards R (sv.rent 0) d.payer d.treasury d.author).create d.payer d.content R.programId
    (d.rent sv) (ContentNode.size d.post.body.length)).put d.content (d.message sv)

structure Ok (R : Runtime) (sv : Sysvars) (accounts : List AccountInfo) (d : FillSlot)
    (σ σ' : Ledger) : Prop where
  keys : (keysOf accounts).take 5 = [d.payer, d.thread, d.settings, d.treasury, d.author]
  signer : d.payer ∈ signers accounts
  thread_holds : σ.Holds R d.thread d.node
  thread_tag : d.node.tag = tagThread
  settings_addr : R.HasAddress .settings d.settings
  settings_holds : σ.Holds R d.settings d.current
  settings_tag : d.current.tag = tagSettings
  shards : FeeShards R d.thread d.treasury d.author d.treasuryIdx d.authorIdx
  access : AccessPassed R σ d.thread d.payer d.node.author d.access d.entry d.seen d.standing
  body_le : d.post.body.length ≤ maxBodyLen
  seq_le : d.candidate.allocSeq ≤ d.node.lastAllocSeq
  slot_lt : d.candidate.slot.toNat < contentSlots
  content_addr : R.HasAddress (.content d.thread d.candidate.allocSeq d.candidate.slot) d.content
  content_free : σ.Free d.content
  content_ne_treasury : d.content ≠ d.treasury
  content_ne_author : d.content ≠ d.author
  fee_le : d.baseFee sv + d.authorFee ≤ d.post.maxFee.toNat
  post_eq : σ' = ((d.stored R sv σ).collect (sv.rent 0) (d.baseFee sv) d.payer d.treasury).split
    (sv.rent 0) d.authorFee d.current.authorFeeCutBps.toNat d.payer d.author d.treasury
  spends : σ.Spends d.payer σ'

end FillSlot

/-- The split of nothing moves nothing. -/
@[simp] theorem Ledger.split_zero {r c : Nat} {p a t : Pubkey} : σ.split r 0 c p a t = σ := by
  simp [Ledger.split, computeFeeSplit, saturatingMul128]

/-- A fee that is skipped when it is zero is a split of zero. -/
theorem onlyIf_split_ok {n cut : Nat} {payer author treasury : AccountInfo}
    (h : onlyIf (0 < n) (transferFeeSplit sv n cut payer author treasury) σ = .ok (u, σ')) :
    σ' = σ.split (sv.rent 0) n cut payer.key author.key treasury.key ∧ σ.Spends payer.key σ' := by
  rcases onlyIf_eq_ok.mp h with ⟨-, h⟩ | ⟨h0, rfl⟩
  · exact transferFeeSplit_ok h
  · obtain rfl : n = 0 := by omega
    exact ⟨by simp, .refl _ _⟩

/-- The product is checked in one place and saturates in another; where the check passes they
    agree. -/
theorem checkedMul128_baseFee {a b c : Nat} (h : checkedMul128 a b = some c) :
    c / 10000 % 2 ^ 64 = baseFeeOf a b := by
  unfold checkedMul128 at h
  split at h
  · rename_i hlt
    cases h
    have hsat : saturatingMul128 a b = a * b := by
      unfold saturatingMul128
      omega
    rw [baseFeeOf, hsat]
  · cases h

/-- The loop stops at a candidate that passed every check and was free. -/
theorem fillCandidates_ok {e : FillEnv} {post : Post} {cs : List (CandidateSlot × AccountInfo)}
    {u : Unit} (h : fillCandidates R sv e post cs σ = .ok (u, σ')) :
    ∃ c a b, (c, a) ∈ cs ∧ c.allocSeq ≤ e.thread.lastAllocSeq ∧ c.slot.toNat < contentSlots ∧
      R.HasAddress (.content e.threadKey c.allocSeq c.slot) a.key ∧ σ.Free a.key ∧
        fillFreeSlot R sv e post c a b σ = .ok (u, σ') := by
  induction cs with
  | nil => exact (throw_eq_ok.mp h).elim
  | cons x cs ih =>
    obtain ⟨c, a⟩ := x
    simp only [fillCandidates, bind_eq_ok, failIf_eq_ok, orFail_eq_ok, assertPda_eq_ok,
      isUninitialized_eq_ok, Prod.exists, and_assoc, true_and, existsAndEq, exists_and_left,
      exists_const, UInt32.not_lt, not_le, decide_eq_true_eq] at h
    obtain ⟨hseq, hslot, b, hb, h⟩ := h
    rcases ite_eq_ok.mp h with ⟨hf, h⟩ | ⟨-, h⟩
    · exact ⟨c, a, b, List.mem_cons_self, hseq, hslot, ⟨b, hb⟩, hf, h⟩
    · obtain ⟨c', a', b', hmem, hrest⟩ := ih h
      exact ⟨c', a', b', List.mem_cons_of_mem _ hmem, hrest⟩

/-- Checking the text changes nothing. -/
theorem onlyIf_validateText_ok {c : Prop} [Decidable c] {text : Bytes}
    (h : onlyIf c (validateText text) σ = .ok (u, σ')) : σ' = σ := by
  rcases onlyIf_eq_ok.mp h with ⟨-, h⟩ | ⟨-, h⟩
  · exact (failIf_eq_ok.mp h).2
  · exact h

theorem processFillSlot_ok {post : Post} {candidates : List CandidateSlot} {ti : UInt16}
    {ai : UInt8} (hT : σ.Tidy R)
    (h : processFillSlot R sv accounts post candidates ti ai σ = .ok (u, σ')) :
    ∃ d : FillSlot, d.Ok R sv accounts σ σ' ∧ d.post = post ∧ d.treasuryIdx = ti ∧
      d.authorIdx = ai ∧ d.candidate ∈ candidates := by
  simp only [processFillSlot, bind_eq_ok, failIf_eq_ok, Prod.exists, nextAccountInfo_eq_ok,
    assertSigner_eq_ok, orFail_eq_ok, and_assoc, true_and, existsAndEq, exists_and_left,
    exists_const, not_lt] at h
  obtain ⟨hlen, _, _, hval, -, p, t, s, ts, as, sys, rest, hacc, hsig, _, _, hfs, x, _, hlt, st, _,
    hls, b, c, _, hsh, -, ac, hac, en, hen, e, τ, hstage, _, σ₁, hens, hfill⟩ := h
  obtain rfl := onlyIf_validateText_ok hval
  obtain rfl := assertFeeShardAccounts_ok hfs
  obtain ⟨hx, hxtag, rfl⟩ := loadThread_ok hlt
  obtain ⟨hst, hstag, hsaddr, rfl⟩ := loadSettings_ok hls
  obtain ⟨hshards, rfl⟩ := validateFeeShards_ok hsh
  obtain ⟨seen, standing, hpassed, rfl, rfl⟩ := accessStage_ok hT hstage
  obtain ⟨rfl, hs1⟩ := ensureFeeShardsInitialized_ok hens
  obtain ⟨cand, ca, bump, hmem, hseq, hslot, haddr, hfree1, hfree⟩ := fillCandidates_ok hfill
  simp only [fillFreeSlot, bind_eq_ok, assertWritable_eq_ok, orFail_eq_ok, failIf_eq_ok,
    checkedAdd64_eq_some, and_assoc, true_and, existsAndEq, exists_and_left, exists_const,
    not_lt] at hfree
  obtain ⟨-, _, σ₂, hcr, _, σ₃, hput, prod, hprod, -, hmax, _, σ₄, hbase, hauth⟩ := hfree
  obtain ⟨-, -, rfl, hs2⟩ := createPdaAccount_ok hcr
  have hput' := serializeInto_create hput (ContentNode.length _)
  subst hput'
  obtain ⟨rfl, hs3⟩ := collectBaseFee_ok hbase
  obtain ⟨hpost, hs4⟩ := onlyIf_split_ok hauth
  obtain ⟨hnt, hna, hf⟩ := free_openShards hfree1
  let d : FillSlot := ⟨p.key, t.key, s.key, ts.key, as.key, ac.key, en.key, ca.key, x, st, ti, ai,
    seen, standing, cand, post⟩
  refine ⟨d,
    { keys := by simp [keysOf, hacc, d]
      signer := ⟨p, by simp [hacc], hsig, rfl⟩
      thread_holds := hx
      thread_tag := hxtag
      settings_addr := hsaddr
      settings_holds := hst
      settings_tag := hstag
      shards := hshards
      access := hpassed
      body_le := hlen
      seq_le := hseq
      slot_lt := hslot
      content_addr := haddr
      content_free := hf
      content_ne_treasury := hnt
      content_ne_author := hna
      fee_le := ?_
      post_eq := hpost
      spends := ((((hs1.trans hs2).trans (.put _ _)).trans hs3).trans hs4) }, rfl, rfl, rfl,
    (List.of_mem_zip hmem).1⟩
  rw [checkedMul128_baseFee hprod] at hmax
  exact hmax

/-! ## 3. `append_content` -/

structure AppendContent where
  payer : Pubkey
  content : Pubkey
  thread : Pubkey
  settings : Pubkey
  treasury : Pubkey
  author : Pubkey
  old : ContentNode
  node : ThreadNode
  current : ProgramSettings
  treasuryIdx : UInt16
  authorIdx : UInt8
  chunk : Bytes

namespace AppendContent

/-- The message with the chunk behind its body. -/
def new (d : AppendContent) : ContentNode := { d.old with body := d.old.body ++ d.chunk }

def newRent (d : AppendContent) (sv : Sysvars) : Nat := sv.rent (ContentNode.size d.new.body.length)

/-- What the rent minimum grew by. -/
def rentDelta (d : AppendContent) (sv : Sysvars) : Nat :=
  d.newRent sv - sv.rent (ContentNode.size d.old.body.length)

def baseFee (d : AppendContent) (sv : Sysvars) : Nat :=
  baseFeeOf (d.rentDelta sv) d.current.baseFeeBps.toNat

/-- The rent top-up, then the base fee when the rent minimum grew. -/
def charged (d : AppendContent) (R : Runtime) (sv : Sysvars) (σ : Ledger) : Ledger :=
  let σ₁ := σ.pay d.payer d.content (d.newRent sv - σ.lamports d.content)
  if 0 < d.rentDelta sv then
    (σ₁.openShard R (sv.rent 0) d.payer d.treasury).collect (sv.rent 0) (d.baseFee sv) d.payer
      d.treasury
  else σ₁

structure Ok (R : Runtime) (sv : Sysvars) (accounts : List AccountInfo) (d : AppendContent)
    (σ σ' : Ledger) : Prop where
  keys : (keysOf accounts).take 6 =
    [d.payer, d.content, d.thread, d.settings, d.treasury, d.author]
  signer : d.payer ∈ signers accounts
  thread_holds : σ.Holds R d.thread d.node
  thread_tag : d.node.tag = tagThread
  settings_addr : R.HasAddress .settings d.settings
  settings_holds : σ.Holds R d.settings d.current
  settings_tag : d.current.tag = tagSettings
  shards : FeeShards R d.thread d.treasury d.author d.treasuryIdx d.authorIdx
  content_holds : σ.Holds R d.content d.old
  content_tag : d.old.header.tag = tagContent
  content_addr : R.HasAddress
    (.content d.old.header.thread d.old.header.allocSeq d.old.header.slot) d.content
  content_thread : d.old.header.thread = d.thread
  content_author : d.old.header.author = d.payer
  in_window : sv.unixTimestamp.toInt - d.old.header.createdAt.toInt ≤ appendWindowSecs
  body_le : d.new.body.length ≤ maxBodyLen
  post : σ' = (d.charged R sv σ).put d.content d.new
  spends : σ.Spends d.payer σ'

end AppendContent

/-- Opening a shard and rewriting an account of the program do not get in each other's way. -/
theorem openShard_setData {r : Nat} {p s k : Pubkey} {bs : Bytes}
    (ho : σ.owner k = R.programId) :
    (σ.setData k bs).openShard R r p s = (σ.openShard R r p s).setData k bs := by
  have hfree : (σ.setData k bs).Free s ↔ σ.Free s := by
    by_cases hs : s = k
    · subst hs
      exact ⟨fun h => absurd (ho.symm.trans h.1) R.programId_ne,
        fun h => absurd (ho.symm.trans h.1) R.programId_ne⟩
    · simp [Ledger.Free, hs]
  unfold Ledger.openShard
  by_cases hf : σ.Free s
  · have hs : s ≠ k := by
      rintro rfl
      exact R.programId_ne (ho.symm.trans hf.1)
    rw [if_pos hf, if_pos (hfree.mpr hf)]
    ext1
    · rfl
    · simp [update_comm hs]
    · rfl
  · rw [if_neg hf, if_neg (mt hfree.mp hf)]

theorem collect_setData {r n : Nat} {p s k : Pubkey} {bs : Bytes} :
    (σ.setData k bs).collect r n p s = (σ.collect r n p s).setData k bs := by
  unfold Ledger.collect
  split <;> rfl

theorem processAppendContent_ok {chunk : Bytes} {ti : UInt16} {ai : UInt8}
    (h : processAppendContent R sv accounts chunk ti ai σ = .ok (u, σ')) :
    ∃ d : AppendContent, d.Ok R sv accounts σ σ' ∧ d.chunk = chunk ∧ d.treasuryIdx = ti := by
  simp only [processAppendContent, bind_eq_ok, failIf_eq_ok, Prod.exists, nextAccountInfo_eq_ok,
    assertSigner_eq_ok, assertWritable_eq_ok, assertOwnedBy_eq_ok, orFail_eq_ok, lamportsOf_eq_ok,
    resize_eq_ok, and_assoc, true_and, existsAndEq, exists_and_left, exists_const, ne_eq, not_not,
    not_lt] at h
  obtain ⟨p, co, t, s, ts, as, sys, rest, hacc, hsig, -, -, _, _, hfs, x, _, hlt, st, _, hls, b, c,
    _, hsh, y, τ, hlc, hth, hau, age, hage, hwin, hlen, _, σ₂, htop, _, σ₃, hfee, hput⟩ := h
  obtain rfl := assertFeeShardAccounts_ok hfs
  obtain ⟨hx, hxtag, rfl⟩ := loadThread_ok hlt
  obtain ⟨hst, hstag, hsaddr, rfl⟩ := loadSettings_ok hls
  obtain ⟨hshards, rfl⟩ := validateFeeShards_ok hsh
  obtain ⟨hy, hytag, hyaddr, rfl⟩ := loadContent_ok hlc
  let d : AppendContent := ⟨p.key, co.key, t.key, s.key, ts.key, as.key, y, x, st, ti, ai, chunk⟩
  let bs : Bytes := (τ.data co.key).take (ContentNode.size d.new.body.length) ++
    List.replicate (ContentNode.size d.new.body.length - (τ.data co.key).length) 0
  have hbs : bs.length = ContentNode.size d.new.body.length := by
    simp only [bs, List.length_append, List.length_take, List.length_replicate]
    omega
  -- the top-up, with the resized data pulled out in front
  have htop' : σ₂ = (τ.pay p.key co.key (d.newRent sv - τ.lamports co.key)).setData co.key bs ∧
      τ.Spends p.key σ₂ := by
    rcases onlyIf_eq_ok.mp htop with ⟨-, h⟩ | ⟨hge, rfl⟩
    · obtain ⟨rfl, hs⟩ := invokeTransfer_ok h
      exact ⟨rfl, (Ledger.Spends.setData _ _).trans hs⟩
    · have hz : d.newRent sv - τ.lamports co.key = 0 := Nat.sub_eq_zero_of_le (Nat.le_of_not_lt hge)
      rw [hz, Ledger.pay_zero]
      exact ⟨rfl, .setData _ _⟩
  obtain ⟨rfl, hs1⟩ := htop'
  have hfee' : σ₃ = (d.charged R sv τ).setData co.key bs ∧ τ.Spends p.key σ₃ := by
    unfold AppendContent.charged
    rcases onlyIf_eq_ok.mp hfee with ⟨hpos, h⟩ | ⟨hle, rfl⟩
    · rw [if_pos (show 0 < d.rentDelta sv from hpos)]
      obtain ⟨_, σ₄, hopen, hcol⟩ := bind_eq_ok.mp h
      obtain ⟨rfl, hs2⟩ := ensureShardInitialized_ok hopen
      obtain ⟨rfl, hs3⟩ := collectBaseFee_ok hcol
      rw [openShard_setData (by simpa using hy.owner), collect_setData]
      refine ⟨rfl, ?_⟩
      have := (hs1.trans hs2).trans hs3
      rwa [openShard_setData (by simpa using hy.owner), collect_setData] at this
    · rw [if_neg (show ¬ 0 < d.rentDelta sv from hle)]
      exact ⟨rfl, hs1⟩
  obtain ⟨rfl, hs2⟩ := hfee'
  have hput' := serializeInto_ok hput (by simp [hbs, ContentNode.length, d, AppendContent.new])
  have hage' : age = sv.unixTimestamp.toInt - y.header.createdAt.toInt := by
    simp only [elapsed] at hage
    split at hage
    · exact (Option.some.inj hage).symm
    · cases hage
  refine ⟨d,
    { keys := by simp [keysOf, hacc, d]
      signer := ⟨p, by simp [hacc], hsig, rfl⟩
      thread_holds := hx
      thread_tag := hxtag
      settings_addr := hsaddr
      settings_holds := hst
      settings_tag := hstag
      shards := hshards
      content_holds := hy
      content_tag := hytag
      content_addr := hyaddr
      content_thread := hth
      content_author := hau
      in_window := hage' ▸ hwin
      body_le := by simpa [d, AppendContent.new] using hlen
      post := by rw [hput', Ledger.setData_setData]; rfl
      spends := by rw [hput']; exact hs2.trans (.setData _ _) }, rfl, rfl⟩

end Txtcel
