import Txtcel.Spec.Content
import Txtcel.Spec.Wallet

/-!
# The slot loop of `fill_slot`, candidate by candidate

The inversion in `Spec/Content` says what a successful post did. Here the loop is followed from the
front, so that it is also known when it succeeds, at which candidate, and with which error it stops.

* `FillCall` names the accounts by their role; `checks` is the instruction up to its access stage,
  and what is left is to open the fee shards and to run the loop (`processFillSlot_eq`);
* `Valid`: what the loop asks of a candidate before it looks whether the account is free;
* `fillCandidates_skip`, `_first`, `_invalid`, `_none`: valid occupied candidates are passed over,
  the first free one is filled, an invalid one stops the loop, and so does its end.
-/

namespace Txtcel

open Lib Exec Borsh Function

variable {R : Runtime} {sv : Sysvars} {σ σ' : Ledger}

/-! ## 1. The call -/

/-- A `fill_slot` call, the candidates paired with their accounts. -/
structure FillCall where
  payer : AccountInfo
  thread : AccountInfo
  settings : AccountInfo
  treasuryShard : AccountInfo
  authorFeeShard : AccountInfo
  system : AccountInfo
  slots : List (CandidateSlot × AccountInfo)
  access : AccountInfo
  entry : AccountInfo
  extra : List AccountInfo
  post : Post
  treasuryIdx : UInt16
  authorIdx : UInt8

namespace FillCall

def accounts (f : FillCall) : List AccountInfo :=
  f.payer :: f.thread :: f.settings :: f.treasuryShard :: f.authorFeeShard :: f.system ::
    (f.slots.map (·.2) ++ f.access :: f.entry :: f.extra)

def candidates (f : FillCall) : List CandidateSlot := f.slots.map (·.1)

/-- Other candidates in the same call. -/
def withSlots (f : FillCall) (slots : List (CandidateSlot × AccountInfo)) : FillCall :=
  { f with slots := slots }

/-- The instruction up to the access stage: the values the loop works with, and the bumps of the two
    fee shards. -/
def checks (R : Runtime) (f : FillCall) : Handler (FillEnv × UInt8 × UInt8) := do
  failIf (maxBodyLen < f.post.body.length) ProtocolError.textTooLong
  onlyIf (ContentKind.fromU16 f.post.kind = .text) (validateText f.post.body)
  failIf (f.candidates = []) ProtocolError.invalidCandidateCount
  assertSigner f.payer
  assertFeeShardAccounts f.treasuryShard f.authorFeeShard f.system
  let thread ← loadThread R f.thread
  let settings ← loadSettings R f.settings
  let (treasuryShardBump, authorFeeShardBump) ← validateFeeShards R f.treasuryShard
    f.authorFeeShard f.thread.key f.treasuryIdx f.authorIdx
  let feeExempt ← accessStage R f.payer f.access f.entry f.thread.key thread.author
  pure ({ payer := f.payer, treasuryShard := f.treasuryShard, authorFeeShard := f.authorFeeShard
          systemProgramAccount := f.system, threadKey := f.thread.key, thread, settings,
          feeExempt }, treasuryShardBump, authorFeeShardBump)

/-- Every call with enough accounts for its candidates is of this shape. -/
theorem exists_layout {accounts : List AccountInfo} {candidates : List CandidateSlot} (post : Post)
    (ti : UInt16) (ai : UInt8) (h : candidates.length + 8 ≤ accounts.length) :
    ∃ f : FillCall, f.accounts = accounts ∧ f.candidates = candidates ∧ f.post = post ∧
      f.treasuryIdx = ti ∧ f.authorIdx = ai := by
  have hpos : ∀ n (l : List AccountInfo), candidates.length + (n + 1) ≤ l.length →
      ∃ x r, l = x :: r ∧ candidates.length + n ≤ r.length := by
    intro n l hl
    obtain ⟨x, r, rfl⟩ := List.exists_cons_of_length_pos (show 0 < l.length by omega)
    exact ⟨x, r, rfl, by rwa [List.length_cons, ← Nat.add_assoc, Nat.add_le_add_iff_right] at hl⟩
  obtain ⟨p, l₁, rfl, h1⟩ := hpos 7 _ h
  obtain ⟨t, l₂, rfl, h2⟩ := hpos 6 _ h1
  obtain ⟨s, l₃, rfl, h3⟩ := hpos 5 _ h2
  obtain ⟨ts, l₄, rfl, h4⟩ := hpos 4 _ h3
  obtain ⟨au, l₅, rfl, h5⟩ := hpos 3 _ h4
  obtain ⟨sys, remaining, rfl, h6⟩ := hpos 2 _ h5
  -- the candidates' accounts, and the two behind them
  have htake : (remaining.take candidates.length).length = candidates.length := by
    rw [List.length_take]
    omega
  have hdrop : 2 ≤ (remaining.drop candidates.length).length := by
    rw [List.length_drop]
    omega
  obtain ⟨ac, tail, htail⟩ :=
    List.exists_cons_of_length_pos (show 0 < (remaining.drop candidates.length).length by omega)
  rw [htail, List.length_cons] at hdrop
  obtain ⟨en, extra, rfl⟩ := List.exists_cons_of_length_pos (show 0 < tail.length by omega)
  refine ⟨⟨p, t, s, ts, au, sys, candidates.zip (remaining.take candidates.length), ac, en, extra,
    post, ti, ai⟩, ?_, List.map_fst_zip htake.ge, rfl, rfl, rfl⟩
  show p :: t :: s :: ts :: au :: sys :: (List.map _ _ ++ ac :: en :: extra) = _
  rw [List.map_snd_zip htake.le, ← htail, List.take_append_drop]

end FillCall

/-- **What is left after the access stage**: the shards are opened, then the loop runs. -/
theorem processFillSlot_eq (f : FillCall) :
    processFillSlot R sv f.accounts f.post f.candidates f.treasuryIdx f.authorIdx =
      (do
        let (e, b, c) ← f.checks R
        ensureFeeShardsInitialized R sv f.payer f.treasuryShard f.authorFeeShard f.system
          f.thread.key f.treasuryIdx f.authorIdx b c
        fillCandidates R sv e f.post f.slots) := by
  have hlen : f.candidates.length = (f.slots.map (·.2)).length := by simp [FillCall.candidates]
  have hzip : f.candidates.zip (f.slots.map (·.2)) = f.slots :=
    (List.zip_of_prod rfl rfl).symm
  have hcount : ∀ e, (failIf ((f.slots.map (·.2) ++ f.access :: f.entry :: f.extra).length <
      f.candidates.length + 2) e : Handler Unit) = pure () := by
    intro e
    refine if_neg ?_
    simp only [hlen, List.length_append, List.length_cons]
    omega
  have htake : (f.slots.map (·.2) ++ f.access :: f.entry :: f.extra).take f.candidates.length =
      f.slots.map (·.2) := by
    rw [hlen, List.take_left]
  have hac : (f.slots.map (·.2) ++ f.access :: f.entry :: f.extra)[f.candidates.length]? =
      some f.access := by
    simp [hlen]
  have hen : (f.slots.map (·.2) ++ f.access :: f.entry :: f.extra)[f.candidates.length + 1]? =
      some f.entry := by
    simp [hlen]
  unfold processFillSlot FillCall.checks FillCall.accounts
  simp only [nextAccountInfo, pure_bind, bind_assoc, hcount, htake, hac, hen, orFail, hzip]

/-- What the checks established. -/
structure FillCall.Checked (f : FillCall) (R : Runtime) (σ : Ledger) (e : FillEnv) (b c : UInt8) :
    Prop where
  payer : e.payer = f.payer
  treasuryShard : e.treasuryShard = f.treasuryShard
  authorFeeShard : e.authorFeeShard = f.authorFeeShard
  system : e.systemProgramAccount = f.system
  threadKey : e.threadKey = f.thread.key
  thread_holds : σ.Holds R f.thread.key e.thread
  thread_tag : e.thread.tag = tagThread
  body_le : f.post.body.length ≤ maxBodyLen
  signer : f.payer.isSigner = true
  system_key : f.system.key = systemProgram
  treasury_writable : f.treasuryShard.isWritable = true
  author_writable : f.authorFeeShard.isWritable = true
  treasury_derive : (Pda.treasuryShard f.treasuryIdx).derive R = some (f.treasuryShard.key, b)
  author_derive :
    (Pda.authorFee f.thread.key f.authorIdx).derive R = some (f.authorFeeShard.key, c)

theorem FillCall.Checked.treasury_addr {f : FillCall} {e : FillEnv} {b c : UInt8}
    (h : f.Checked R σ e b c) : R.HasAddress (.treasuryShard f.treasuryIdx) f.treasuryShard.key :=
  ⟨b, h.treasury_derive⟩

theorem FillCall.Checked.author_addr {f : FillCall} {e : FillEnv} {b c : UInt8}
    (h : f.Checked R σ e b c) :
    R.HasAddress (.authorFee f.thread.key f.authorIdx) f.authorFeeShard.key :=
  ⟨c, h.author_derive⟩

theorem FillCall.checks_ok {f : FillCall} {e : FillEnv} {b c : UInt8} (hT : σ.Tidy R)
    (h : f.checks R σ = .ok ((e, b, c), σ')) : f.Checked R σ e b c ∧ σ' = σ := by
  simp only [FillCall.checks, assertFeeShardAccounts, validateFeeShards, validateTreasuryShard,
    validateAuthorFeeShard, bind_eq_ok, failIf_eq_ok, Prod.exists, assertSigner_eq_ok,
    assertWritable_eq_ok, assertSystemProgram_eq_ok, assertPda_eq_ok, orFail_eq_ok, pure_eq_ok,
    Prod.mk.injEq, and_assoc, true_and, existsAndEq, exists_and_left, exists_const] at h
  obtain ⟨hlen, _, _, hval, -, hsig, hwt, hwa, hsys, t, _, hlt, s, _, hls, -, hb, -, hc, x, hac,
    rfl, -⟩ := h
  obtain rfl := onlyIf_validateText_ok hval
  obtain ⟨hthread, htag, rfl⟩ := loadThread_ok hlt
  obtain ⟨-, -, -, rfl⟩ := loadSettings_ok hls
  obtain ⟨-, -, -, -, rfl⟩ := accessStage_ok hT hac
  exact ⟨⟨rfl, rfl, rfl, rfl, rfl, hthread, htag, Nat.le_of_not_lt hlen, hsig, hsys, hwt, hwa, hb,
    hc⟩, rfl⟩

/-! ## 2. The loop -/

/-- What the loop asks of a candidate before it looks at the account. -/
structure FillEnv.Valid (R : Runtime) (e : FillEnv) (x : CandidateSlot × AccountInfo) : Prop where
  seq_le : x.1.allocSeq ≤ e.thread.lastAllocSeq
  slot_lt : x.1.slot.toNat < contentSlots
  addr : R.HasAddress (.content e.threadKey x.1.allocSeq x.1.slot) x.2.key

variable {e : FillEnv} {post : Post} {x : CandidateSlot × AccountInfo}
  {pre rest : List (CandidateSlot × AccountInfo)}

/-- A valid candidate: filled if it is free, passed over if not. -/
theorem fillCandidates_valid (sv : Sysvars) (σ : Ledger) (post : Post)
    (rest : List (CandidateSlot × AccountInfo)) (h : e.Valid R x) :
    ∃ b, (Pda.content e.threadKey x.1.allocSeq x.1.slot).derive R = some (x.2.key, b) ∧
      fillCandidates R sv e post (x :: rest) σ =
        if σ.Free x.2.key then fillFreeSlot R sv e post x.1 x.2 b σ
        else fillCandidates R sv e post rest σ := by
  obtain ⟨candidate, account⟩ := x
  obtain ⟨b, hb⟩ := h.addr
  refine ⟨b, hb, ?_⟩
  have hseq : ¬ e.thread.lastAllocSeq < candidate.allocSeq := UInt32.not_lt.mpr h.seq_le
  have hslot : ¬ contentSlots ≤ candidate.slot.toNat := Nat.not_le.mpr h.slot_lt
  have hder : deriveContentPda R e.threadKey candidate.allocSeq candidate.slot =
    some (account.key, b) := hb
  have hpda : assertPda account account.key = pure () := if_neg (not_not.mpr rfl)
  simp only [fillCandidates, failIf, if_neg hseq, if_neg hslot, hder, orFail, pure_bind, hpda]
  rw [bind_of_ok (isUninitialized_eq_ok.mpr ⟨rfl, rfl⟩)]
  by_cases hf : σ.Free account.key
  · rw [if_pos (decide_eq_true hf), if_pos hf]
  · rw [if_neg (by simpa using hf), if_neg hf]

/-- An invalid candidate stops the loop, whatever its account holds. -/
theorem fillCandidates_cons_invalid (h : ¬ e.Valid R x) (r : Unit × Ledger) :
    fillCandidates R sv e post (x :: rest) σ ≠ .ok r := by
  obtain ⟨candidate, account⟩ := x
  intro hok
  simp only [fillCandidates, bind_eq_ok (x := failIf _ _), failIf_eq_ok, bind_eq_ok (x := orFail _ _),
    orFail_eq_ok, bind_eq_ok (x := assertPda _ _), assertPda_eq_ok, Prod.exists, and_assoc, true_and,
    existsAndEq, exists_and_left, exists_const, UInt32.not_lt, not_le] at hok
  obtain ⟨hseq, hslot, b, hb, -⟩ := hok
  exact h ⟨hseq, hslot, b, hb⟩

/-- Valid occupied candidates are passed over. -/
theorem fillCandidates_skip (hpre : ∀ y ∈ pre, e.Valid R y ∧ ¬ σ.Free y.2.key) :
    fillCandidates R sv e post (pre ++ rest) σ = fillCandidates R sv e post rest σ := by
  induction pre with
  | nil => rfl
  | cons y pre ih =>
    obtain ⟨hval, hocc⟩ := hpre y List.mem_cons_self
    obtain ⟨b, -, hstep⟩ := fillCandidates_valid sv σ post (pre ++ rest) hval
    rw [List.cons_append, hstep, if_neg hocc]
    exact ih fun z hz => hpre z (List.mem_cons_of_mem y hz)

/-- **The first free candidate is filled**, and nothing behind it is looked at. -/
theorem fillCandidates_first (sv : Sysvars) (post : Post)
    (hpre : ∀ y ∈ pre, e.Valid R y ∧ ¬ σ.Free y.2.key)
    (hx : e.Valid R x) (hf : σ.Free x.2.key) :
    ∃ b, (Pda.content e.threadKey x.1.allocSeq x.1.slot).derive R = some (x.2.key, b) ∧
      ∀ rest, fillCandidates R sv e post (pre ++ x :: rest) σ =
        fillFreeSlot R sv e post x.1 x.2 b σ := by
  obtain ⟨b, hb⟩ := hx.addr
  refine ⟨b, hb, fun rest => ?_⟩
  obtain ⟨c, hc, hstep⟩ := fillCandidates_valid sv σ post rest hx
  obtain rfl : c = b := by
    rw [hb] at hc
    cases hc
    rfl
  rw [fillCandidates_skip hpre, hstep, if_pos hf]

/-- **An invalid candidate before the first free one**, or in its place, is an error. -/
theorem fillCandidates_invalid (hpre : ∀ y ∈ pre, ¬ σ.Free y.2.key) (hx : ¬ e.Valid R x)
    (r : Unit × Ledger) : fillCandidates R sv e post (pre ++ x :: rest) σ ≠ .ok r := by
  induction pre with
  | nil => exact fillCandidates_cons_invalid hx r
  | cons y pre ih =>
    by_cases hval : e.Valid R y
    · obtain ⟨b, -, hstep⟩ := fillCandidates_valid sv σ post (pre ++ x :: rest) hval
      rw [List.cons_append, hstep, if_neg (hpre y List.mem_cons_self)]
      exact ih fun z hz => hpre z (List.mem_cons_of_mem y hz)
    · exact fillCandidates_cons_invalid hval r

/-- **No free candidate**: the end of the list is an error of its own. -/
theorem fillCandidates_none (hpre : ∀ y ∈ pre, e.Valid R y ∧ ¬ σ.Free y.2.key) :
    fillCandidates R sv e post pre σ = .error ProtocolError.noFreeSlot.toProgramError := by
  have hskip : fillCandidates R sv e post (pre ++ []) σ = _ := fillCandidates_skip hpre
  rw [List.append_nil] at hskip
  exact hskip

/-- **Where a loop that succeeded stopped**: at the first free candidate, and all before it were
    valid. -/
theorem fillCandidates_split {slots : List (CandidateSlot × AccountInfo)} {r : Unit × Ledger}
    (h : fillCandidates R sv e post slots σ = .ok r) :
    ∃ pre x rest b, slots = pre ++ x :: rest ∧ (∀ y ∈ pre, e.Valid R y ∧ ¬ σ.Free y.2.key) ∧
      e.Valid R x ∧ σ.Free x.2.key ∧
      (Pda.content e.threadKey x.1.allocSeq x.1.slot).derive R = some (x.2.key, b) ∧
      fillFreeSlot R sv e post x.1 x.2 b σ = .ok r := by
  induction slots with
  | nil => exact (throw_eq_ok.mp h).elim
  | cons y slots ih =>
    by_cases hval : e.Valid R y
    · obtain ⟨b, hb, hstep⟩ := fillCandidates_valid sv σ post slots hval
      rw [hstep] at h
      by_cases hf : σ.Free y.2.key
      · rw [if_pos hf] at h
        exact ⟨[], y, slots, b, rfl, fun z hz => absurd hz List.not_mem_nil, hval, hf, hb, h⟩
      · rw [if_neg hf] at h
        obtain ⟨pre, x, rest, c, rfl, hpre, hx, hfx⟩ := ih h
        refine ⟨y :: pre, x, rest, c, rfl, fun z hz => ?_, hx, hfx⟩
        rcases List.mem_cons.mp hz with rfl | hz
        · exact ⟨hval, hf⟩
        · exact hpre z hz
    · exact absurd h (fillCandidates_cons_invalid hval r)

/-- Without a free candidate the loop does not succeed. -/
theorem fillCandidates_occupied (hpre : ∀ y ∈ pre, ¬ σ.Free y.2.key) (r : Unit × Ledger) :
    fillCandidates R sv e post pre σ ≠ .ok r := by
  intro hok
  obtain ⟨p, x, rest, b, rfl, -, -, hf, -, -⟩ := fillCandidates_split hok
  exact hpre x (List.mem_append_right _ List.mem_cons_self) hf

/-! ## 3. Filling -/

namespace FillEnv

/-- The message that is stored. -/
def message (e : FillEnv) (sv : Sysvars) (post : Post) (c : CandidateSlot) : ContentNode :=
  { header :=
      { tag := tagContent, allocSeq := c.allocSeq, slot := c.slot, thread := e.threadKey
        author := e.payer.key, createdAt := sv.unixTimestamp
        replyAllocSeq := post.replyAllocSeq, replySlot := post.replySlot }
    kind := post.kind, body := post.body }

def rent (_ : FillEnv) (sv : Sysvars) (post : Post) : Nat :=
  sv.rent (ContentNode.size post.body.length)

def baseFee (e : FillEnv) (sv : Sysvars) (post : Post) : Nat :=
  baseFeeOf (e.rent sv post) e.settings.baseFeeBps.toNat

def authorFee (e : FillEnv) : Nat := if e.feeExempt then 0 else e.thread.messageFee.toNat

/-- The slot's account is created and written. -/
def stored (e : FillEnv) (R : Runtime) (sv : Sysvars) (post : Post) (c : CandidateSlot) (k : Pubkey)
    (σ : Ledger) : Ledger :=
  (σ.create e.payer.key k R.programId (e.rent sv post) (ContentNode.size post.body.length)).put k
    (e.message sv post c)

/-- ... and the fees are collected. -/
def filled (e : FillEnv) (R : Runtime) (sv : Sysvars) (post : Post) (c : CandidateSlot) (k : Pubkey)
    (σ : Ledger) : Ledger :=
  ((e.stored R sv post c k σ).collect (sv.rent 0) (e.baseFee sv post) e.payer.key
    e.treasuryShard.key).split (sv.rent 0) e.authorFee e.settings.authorFeeCutBps.toNat e.payer.key
      e.authorFeeShard.key e.treasuryShard.key

/-- What the slot and the fees cost. -/
def fillPrice (e : FillEnv) (R : Runtime) (sv : Sysvars) (post : Post) (c : CandidateSlot)
    (k : Pubkey) (σ : Ledger) : Nat :=
  (e.rent sv post - σ.lamports k) +
    ((e.stored R sv post c k σ).collectPrice (sv.rent 0) (e.baseFee sv post) e.treasuryShard.key +
      ((e.stored R sv post c k σ).collect (sv.rent 0) (e.baseFee sv post) e.payer.key
        e.treasuryShard.key).splitPrice (sv.rent 0) e.authorFee e.settings.authorFeeCutBps.toNat
          e.payer.key e.authorFeeShard.key e.treasuryShard.key)

end FillEnv

/-- What filling a slot did. -/
theorem fillFreeSlot_ok {c : CandidateSlot} {a : AccountInfo} {b : UInt8} {u : Unit}
    (h : fillFreeSlot R sv e post c a b σ = .ok (u, σ')) :
    σ' = e.filled R sv post c a.key σ := by
  simp only [fillFreeSlot, bind_eq_ok, assertWritable_eq_ok, orFail_eq_ok, failIf_eq_ok,
    checkedAdd64_eq_some, and_assoc, true_and, existsAndEq, exists_and_left, exists_const] at h
  obtain ⟨-, _, σ₁, hcr, _, σ₂, hput, prod, hprod, -, -, _, σ₃, hbase, hauth⟩ := h
  obtain ⟨-, -, rfl, -⟩ := createPdaAccount_ok hcr
  obtain rfl := serializeInto_create hput (ContentNode.length _)
  obtain ⟨rfl, -⟩ := collectBaseFee_ok hbase
  exact (onlyIf_split_ok hauth).1

/-- A rent and a rate do not reach `u128`. -/
theorem checkedMul128_rent (sv : Sysvars) (n : Nat) (bps : UInt32) :
    checkedMul128 (sv.rent n) bps.toNat = some (sv.rent n * bps.toNat) := by
  have h : sv.rent n * bps.toNat ≤ 2 ^ 64 * 2 ^ 32 :=
    Nat.mul_le_mul (Nat.le_of_lt (sv.rent_lt n)) (Nat.le_of_lt bps.toNat_lt)
  exact if_pos (by omega)

theorem Wallet.create {p : AccountInfo} {k : Pubkey} {r size n : Nat}
    (h : Wallet σ p (r - σ.lamports k + n)) (hne : k ≠ p.key) :
    Wallet (σ.create p.key k R.programId r size) p n := (h.pay hne).allot hne

/-- **A free slot is filled**, if the fees are within the payer's limit and the payer can pay. -/
theorem fillFreeSlot_eq {c : CandidateSlot} {a : AccountInfo} {b : UInt8} {n : Nat}
    (ha : (Pda.content e.threadKey c.allocSeq c.slot).derive R = some (a.key, b))
    (hne : a.key ≠ e.payer.key) (hts : e.treasuryShard.key ≠ e.payer.key)
    (hsys : e.systemProgramAccount.key = systemProgram) (hf : σ.Free a.key)
    (hw : a.isWritable = true) (hwt : e.treasuryShard.isWritable = true)
    (hwa : e.authorFeeShard.isWritable = true)
    (hfee : e.baseFee sv post + e.authorFee ≤ post.maxFee.toNat)
    (hp : Wallet σ e.payer (e.fillPrice R sv post c a.key σ + n)) :
    fillFreeSlot R sv e post c a b σ = .ok ((), e.filled R sv post c a.key σ) := by
  unfold FillEnv.fillPrice at hp
  simp only [Nat.add_assoc] at hp
  -- the account
  have hcreate : createPdaAccount R sv e.payer a e.systemProgramAccount
      (ContentNode.size post.body.length)
      ((Pda.content e.threadKey c.allocSeq c.slot).seeds ++ [[b]]) σ = _ :=
    createPdaAccount_eq hne ha hsys hf hw hp
  have hp1 : Wallet (e.stored R sv post c a.key σ) e.payer _ := Wallet.put (hp.create hne) hne
  have hser : serializeInto a (e.message sv post c) (σ.create e.payer.key a.key R.programId
      (sv.rent (ContentNode.size post.body.length)) (ContentNode.size post.body.length)) =
        .ok ((), e.stored R sv post c a.key σ) := by
    refine serializeInto_eq ?_
    rw [ContentNode.length, Ledger.create_data, update_self, List.length_replicate]
    rfl
  -- the fees
  have hprod := checkedMul128_rent sv (ContentNode.size post.body.length) e.settings.baseFeeBps
  have hbase : sv.rent (ContentNode.size post.body.length) * e.settings.baseFeeBps.toNat / 10000 %
      2 ^ 64 = e.baseFee sv post := checkedMul128_baseFee hprod
  have hsum : checkedAdd64 (e.baseFee sv post) e.authorFee =
      some (e.baseFee sv post + e.authorFee) := by
    have := post.maxFee.toNat_lt
    exact if_pos (by omega)
  have hcollect : collectFeeToShard sv (e.baseFee sv post) e.payer e.treasuryShard _ = _ :=
    collectFeeToShard_eq hwt hp1
  have hp2 := hp1.collect hts
  have hsplit : transferFeeSplit sv e.authorFee e.settings.authorFeeCutBps.toNat e.payer
      e.authorFeeShard e.treasuryShard _ = _ := transferFeeSplit_eq hts hwa hwt hp2
  unfold fillFreeSlot
  rw [assertWritable, require, if_pos hw, pure_bind]
  show (createPdaAccount R sv e.payer a e.systemProgramAccount
    (ContentNode.size post.body.length)
    ((Pda.content e.threadKey c.allocSeq c.slot).seeds ++ [[b]]) >>= _) σ = _
  rw [bind_of_ok hcreate]
  show (serializeInto a (e.message sv post c) >>= _) _ = _
  rw [bind_of_ok hser, hprod, orFail, pure_bind, hbase]
  show (orFail (checkedAdd64 (e.baseFee sv post) e.authorFee) _ >>= _) _ = _
  rw [hsum, orFail, pure_bind, failIf, if_neg (Nat.not_lt.mpr hfee), pure_bind]
  show (collectFeeToShard sv (e.baseFee sv post) e.payer e.treasuryShard >>= _) _ = _
  rw [bind_of_ok hcollect]
  show onlyIf (0 < e.authorFee) (transferFeeSplit sv e.authorFee
    e.settings.authorFeeCutBps.toNat e.payer e.authorFeeShard e.treasuryShard) _ = _
  rw [onlyIf_transferFeeSplit]
  exact hsplit

/-! ## 4. The shards, then the slot -/

namespace FillCall

/-- The ledger the loop starts from. -/
def opened (f : FillCall) (R : Runtime) (sv : Sysvars) (σ : Ledger) : Ledger :=
  σ.openShards R (sv.rent 0) f.payer.key f.treasuryShard.key f.authorFeeShard.key

/-- What opening the shards costs. -/
def shardsPrice (f : FillCall) (R : Runtime) (sv : Sysvars) (σ : Ledger) : Nat :=
  σ.shortfall (sv.rent 0) f.treasuryShard.key +
    (σ.openShard R (sv.rent 0) f.payer.key f.treasuryShard.key).shortfall (sv.rent 0)
      f.authorFeeShard.key

/-- What the whole post costs, in the slot `c` at `k`. -/
def price (f : FillCall) (R : Runtime) (sv : Sysvars) (e : FillEnv) (c : CandidateSlot)
    (k : Pubkey) (σ : Ledger) : Nat :=
  f.shardsPrice R sv σ + e.fillPrice R sv f.post c k (f.opened R sv σ)

variable {f : FillCall} {b c : UInt8} {k : Pubkey} {n : Nat}

theorem ensure_eq (hc : f.Checked R σ e b c) (hts : f.treasuryShard.key ≠ f.payer.key)
    (hau : f.authorFeeShard.key ≠ f.payer.key) (hp : Wallet σ f.payer (f.shardsPrice R sv σ + n)) :
    ensureFeeShardsInitialized R sv f.payer f.treasuryShard f.authorFeeShard f.system f.thread.key
        f.treasuryIdx f.authorIdx b c σ = .ok ((), f.opened R sv σ) ∧
      Wallet (f.opened R sv σ) f.payer n := by
  unfold shardsPrice at hp
  rw [Nat.add_assoc] at hp
  have hp1 := hp.openShard (R := R) hts
  refine ⟨?_, hp1.openShard hau⟩
  unfold ensureFeeShardsInitialized
  have h1 := ensureShardInitialized_eq hts hc.treasury_derive hc.system_key hc.treasury_writable hp
  have h2 := ensureShardInitialized_eq hau hc.author_derive hc.system_key hc.author_writable hp1
  exact (bind_of_ok h1).trans h2

theorem free_opened : (f.opened R sv σ).Free k ↔
    σ.Free k ∧ k ≠ f.treasuryShard.key ∧ k ≠ f.authorFeeShard.key := by
  rw [opened, Ledger.openShards, Ledger.openShard_free, Ledger.openShard_free, and_assoc]

theorem not_free_opened (h : ¬ σ.Free k) : ¬ (f.opened R sv σ).Free k := fun hf =>
  h (free_opened.mp hf).1

end FillCall

end Txtcel
