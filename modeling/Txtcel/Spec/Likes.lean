import Txtcel.Spec.Content

/-!
# What a successful like or close did

`like_content` and `close_account`: the two instructions that write the like counters of a page.
-/

namespace Txtcel

open Lib Exec Borsh Function

variable {R : Runtime} {sv : Sysvars} {σ σ' : Ledger} {u : Unit} {accounts : List AccountInfo}

/-! ## 1. `like_content` -/

structure LikeContent where
  payer : Pubkey
  likes : Pubkey
  content : Pubkey
  thread : Pubkey
  settings : Pubkey
  treasury : Pubkey
  author : Pubkey
  message : ContentNode
  node : ThreadNode
  current : ProgramSettings
  treasuryIdx : UInt16
  authorIdx : UInt8
  allocSeq : UInt32
  slot : UInt8
  index : Fin contentSlots
  prev : Option AllocLikes

/-- The counters of a page nobody has liked yet. -/
def freshLikes (allocSeq : UInt32) : AllocLikes :=
  { tag := tagLikes, allocSeq := allocSeq, counts := Vector.replicate contentSlots 0 }

namespace LikeContent

/-- The like fee: nothing for the author of the message. -/
def fee (d : LikeContent) : Nat :=
  if 0 < d.node.likeFee ∧ d.payer ≠ d.message.header.author then d.node.likeFee.toNat else 0

/-- The counters with one like more. -/
def new (d : LikeContent) : AllocLikes := (d.prev.getD (freshLikes d.allocSeq)).bump d.index

/-- The ledger with the like counted, before the fee. -/
def counted (d : LikeContent) (R : Runtime) (sv : Sysvars) (σ : Ledger) : Ledger :=
  let σ₁ := σ.openShards R (sv.rent 0) d.payer d.treasury d.author
  match d.prev with
  | none => (σ₁.create d.payer d.likes R.programId (sv.rent AllocLikes.size) AllocLikes.size).put
      d.likes d.new
  | some _ => σ₁.put d.likes d.new

/-- What the likes account was. -/
def Before (d : LikeContent) (R : Runtime) (σ : Ledger) : Prop :=
  match d.prev with
  | none => σ.Free d.likes ∧ d.likes ≠ d.treasury ∧ d.likes ≠ d.author
  | some l => σ.Holds R d.likes l ∧ l.tag = tagLikes

structure Ok (R : Runtime) (sv : Sysvars) (accounts : List AccountInfo) (d : LikeContent)
    (σ σ' : Ledger) : Prop where
  keys : (keysOf accounts).take 7 =
    [d.payer, d.likes, d.content, d.thread, d.settings, d.treasury, d.author]
  signer : d.payer ∈ signers accounts
  content_holds : σ.Holds R d.content d.message
  content_tag : d.message.header.tag = tagContent
  content_addr : R.HasAddress (.content d.thread d.allocSeq d.slot) d.content
  thread_holds : σ.Holds R d.thread d.node
  thread_tag : d.node.tag = tagThread
  settings_addr : R.HasAddress .settings d.settings
  settings_holds : σ.Holds R d.settings d.current
  settings_tag : d.current.tag = tagSettings
  shards : FeeShards R d.thread d.treasury d.author d.treasuryIdx d.authorIdx
  likes_addr : R.HasAddress (.likes d.thread d.allocSeq) d.likes
  before : d.Before R σ
  index_eq : d.index.val = d.slot.toNat
  post : σ' = (d.counted R sv σ).split (sv.rent 0) d.fee d.current.likeCutBps.toNat d.payer
    d.author d.treasury
  spends : σ.Spends d.payer σ'

end LikeContent

/-- What holds data after the shards were opened held it before. -/
theorem Ledger.Holds.of_openShards {α : Type} [Borsh α] {x : α} {r : Nat} {p s a k : Pubkey}
    (hne : serialize x ≠ []) (h : (σ.openShards R r p s a).Holds R k x) : σ.Holds R k x := by
  have hd : σ.data k = serialize x := by
    rw [← h.data, openShards_data]
  refine ⟨?_, h.fits, hd⟩
  have howner : ∀ (τ : Ledger) j, τ.data k ≠ [] → (τ.openShard R r p j).owner k = τ.owner k := by
    intro τ j hτ
    unfold openShard
    split
    · rename_i hf
      have hk : k ≠ j := by
        rintro rfl
        exact hτ hf.2
      rw [create_owner, update_of_ne hk]
    · rfl
  rw [← h.owner, Ledger.openShards, howner _ _ (by rwa [openShard_data, hd]), howner _ _ (hd ▸ hne)]

theorem AllocLikes.serialize_ne_nil (l : AllocLikes) : serialize l ≠ [] := fun h =>
  absurd (congrArg List.length h) (by rw [AllocLikes.length]; decide)

theorem slotIndex_eq_some {slot : UInt8} {i : Fin contentSlots} :
    slotIndex slot = some i ↔ i.val = slot.toNat := by
  unfold slotIndex
  split
  · rename_i h
    rw [Option.some_inj, Fin.ext_iff, eq_comm]
  · rename_i h
    refine ⟨nofun, fun hi => absurd (hi ▸ i.isLt) h⟩

theorem processLikeContent_ok {seq : UInt32} {slot : UInt8} {ti : UInt16} {ai : UInt8}
    {maxFee : UInt64}
    (h : processLikeContent R sv accounts seq slot ti ai maxFee σ = .ok (u, σ')) :
    ∃ d : LikeContent, d.Ok R sv accounts σ σ' ∧ d.allocSeq = seq ∧ d.slot = slot ∧
      d.treasuryIdx = ti ∧ d.authorIdx = ai := by
  simp only [processLikeContent, bind_eq_ok, failIf_eq_ok, Prod.exists, nextAccountInfo_eq_ok,
    assertSigner_eq_ok, assertWritable_eq_ok, assertOwnedBy_eq_ok, orFail_eq_ok, assertPda_eq_ok,
    isUninitialized_eq_ok, and_assoc, true_and, existsAndEq, exists_and_left, exists_const, ne_eq,
    not_le, decide_eq_true_eq] at h
  obtain ⟨-, p, l, co, t, s, ts, as, sys, rest, hacc, hsig, -, _, _, hfs, m, _, hlc, b, hb, x, _,
    hlt, st, τ, hls, _, σ₁, hprep, c, hc, _, _, hmake, hown, y, σ₂, hll, i, hi, _, σ₃, hput,
    hfee⟩ := h
  obtain rfl := assertFeeShardAccounts_ok hfs
  obtain ⟨hm, hmtag, -, rfl⟩ := loadContent_ok hlc
  obtain ⟨hx, hxtag, rfl⟩ := loadThread_ok hlt
  obtain ⟨hst, hstag, hsaddr, rfl⟩ := loadSettings_ok hls
  obtain ⟨hsh, rfl, hs1⟩ := prepareFeeShards_ok hprep
  obtain ⟨hy, hytag, rfl⟩ := loadAllocLikes_ok hown hll
  have hput' := serializeInto_ok hput (by rw [hy.data, AllocLikes.length, AllocLikes.length])
  have hfee' : ∀ n : Nat, n = (if 0 < x.likeFee ∧ p.key ≠ m.header.author then x.likeFee.toNat
      else 0) → σ' = σ₃.split (sv.rent 0) n st.likeCutBps.toNat p.key as.key ts.key ∧
        σ₃.Spends p.key σ' := by
    rintro n rfl
    rcases onlyIf_eq_ok.mp hfee with ⟨hc, h⟩ | ⟨hc, rfl⟩
    · simp only [bind_eq_ok, failIf_eq_ok, and_assoc, true_and, existsAndEq, exists_and_left,
        exists_const] at h
      rw [if_pos hc]
      exact transferFeeSplit_ok h.2
    · rw [if_neg hc]
      exact ⟨Ledger.split_zero.symm, .refl _ _⟩
  -- the account was made just now, or was there before
  have hprev : ∃ prev : Option AllocLikes,
      (match prev with
        | none => τ.Free l.key ∧ l.key ≠ ts.key ∧ l.key ≠ as.key
        | some z => τ.Holds R l.key z ∧ z.tag = tagLikes) ∧
      σ₂ = (match prev with
        | none => ((τ.openShards R (sv.rent 0) p.key ts.key as.key).create p.key l.key R.programId
            (sv.rent AllocLikes.size) AllocLikes.size).put l.key (freshLikes seq)
        | some _ => τ.openShards R (sv.rent 0) p.key ts.key as.key) ∧
      y = prev.getD (freshLikes seq) ∧ τ.Spends p.key σ₂ := by
    rcases onlyIf_eq_ok.mp hmake with ⟨hf, h⟩ | ⟨-, rfl⟩
    · obtain ⟨_, σ₄, hcr, hw⟩ := bind_eq_ok.mp h
      obtain ⟨-, -, rfl, hs2⟩ := createPdaAccount_ok hcr
      have hw' := serializeInto_create hw (AllocLikes.length _)
      obtain ⟨hts, has, hfree⟩ := free_openShards hf
      refine ⟨none, ⟨hfree, hts, has⟩, hw', ?_, ?_⟩
      · refine hy.unique ⟨hy.owner, AllocLikes.fits _, ?_⟩
        rw [hw', Ledger.put_data, update_self]
        rfl
      · rw [hw']
        exact (hs1.trans hs2).trans (.put _ _)
    · exact ⟨some y, ⟨hy.of_openShards (AllocLikes.serialize_ne_nil y), hytag⟩, rfl, rfl, hs1⟩
  obtain ⟨prev, hbefore, hσ₂, hyprev, hs2⟩ := hprev
  let d : LikeContent := ⟨p.key, l.key, co.key, t.key, s.key, ts.key, as.key, m, x, st, ti, ai, seq,
    slot, i, prev⟩
  have hcounted : σ₃ = d.counted R sv τ := by
    rw [hput', hσ₂, hyprev]
    cases prev with
    | none => exact Ledger.setData_setData _ _ _ _
    | some z => rfl
  obtain ⟨hpost, hs3⟩ := hfee' _ rfl
  refine ⟨d,
    { keys := by simp [keysOf, hacc, d]
      signer := ⟨p, by simp [hacc], hsig, rfl⟩
      content_holds := hm
      content_tag := hmtag
      content_addr := ⟨b, hb⟩
      thread_holds := hx
      thread_tag := hxtag
      settings_addr := hsaddr
      settings_holds := hst
      settings_tag := hstag
      shards := hsh
      likes_addr := ⟨c, hc⟩
      before := by cases prev <;> exact hbefore
      index_eq := slotIndex_eq_some.mp hi
      post := by rw [← hcounted]; exact hpost
      spends := ?_ }, rfl, rfl, rfl, rfl⟩
  rw [hput'] at hs3
  exact (hs2.trans (.setData _ _)).trans hs3

/-! ## 2. `close_account` -/

/-- A counter that is set back. -/
structure LikesReset where
  likes : Pubkey
  old : AllocLikes
  index : Fin contentSlots

def LikesReset.new (r : LikesReset) : AllocLikes := r.old.reset r.index

structure CloseContent where
  payer : Pubkey
  content : Pubkey
  old : ContentNode
  reset : Option LikesReset

namespace CloseContent

/-- The ledger with the counter set back. -/
def cleared (d : CloseContent) (σ : Ledger) : Ledger :=
  match d.reset with
  | none => σ
  | some r => σ.put r.likes r.new

structure ResetOk (R : Runtime) (header : ContentHeader) (content : Pubkey) (σ : Ledger)
    (r : LikesReset) : Prop where
  addr : R.HasAddress (.likes header.thread header.allocSeq) r.likes
  holds : σ.Holds R r.likes r.old
  tag : r.old.tag = tagLikes
  seq : r.old.allocSeq = header.allocSeq
  index_eq : r.index.val = header.slot.toNat
  ne : content ≠ r.likes

structure Ok (R : Runtime) (accounts : List AccountInfo) (d : CloseContent) (σ σ' : Ledger) :
    Prop where
  keys : (keysOf accounts).take 2 = [d.payer, d.content]
  signer : d.payer ∈ signers accounts
  holds : σ.Holds R d.content d.old
  tag : d.old.header.tag = tagContent
  addr : R.HasAddress (.content d.old.header.thread d.old.header.allocSeq d.old.header.slot)
    d.content
  author : d.old.header.author = d.payer
  payer_ne : d.payer ≠ d.content
  /-- The third account, when there is one, is the page's likes account, free or reset. -/
  third : ∀ k, (keysOf accounts)[2]? = some k →
    R.HasAddress (.likes d.old.header.thread d.old.header.allocSeq) k ∧
      (σ.Free k ∨ ∃ r, d.reset = some r ∧ r.likes = k)
  unasked : (keysOf accounts)[2]? = none → d.reset = none
  reset : ∀ r, d.reset = some r → ResetOk R d.old.header d.content σ r
  post : σ' = ((d.cleared σ).pay d.content d.payer (σ.lamports d.content)).allot d.content 0
    systemProgram

end CloseContent

theorem resetLikes_ok {header : ContentHeader} {likes : AccountInfo} {content : Pubkey}
    {m : ContentNode} (hm : σ.Holds R content m) (hmtag : m.header.tag = tagContent)
    (h : resetLikes R header likes σ = .ok (u, σ')) :
    R.HasAddress (.likes header.thread header.allocSeq) likes.key ∧
      ((σ.Free likes.key ∧ σ' = σ) ∨
        ∃ r : LikesReset, CloseContent.ResetOk R header content σ r ∧ r.likes = likes.key ∧
          σ' = σ.put r.likes r.new) := by
  simp only [resetLikes, bind_eq_ok, orFail_eq_ok, assertPda_eq_ok, isUninitialized_eq_ok,
    Prod.exists, and_assoc, true_and, existsAndEq, exists_and_left, exists_const] at h
  obtain ⟨b, hb, h⟩ := h
  refine ⟨⟨b, hb⟩, ?_⟩
  rcases onlyIf_eq_ok.mp h with ⟨-, h⟩ | ⟨hf, rfl⟩
  · simp only [bind_eq_ok, assertWritable_eq_ok, assertOwnedBy_eq_ok, failIf_eq_ok, orFail_eq_ok,
      and_assoc, true_and, existsAndEq, exists_and_left, exists_const, ne_eq, not_not] at h
    obtain ⟨-, ho, y, _, hl, hseq, i, hi, hput⟩ := h
    obtain ⟨hy, hytag, rfl⟩ := loadAllocLikes_ok ho hl
    refine .inr ⟨⟨likes.key, y, i⟩, ⟨⟨b, hb⟩, hy, hytag, hseq, slotIndex_eq_some.mp hi, ?_⟩, rfl,
      serializeInto_ok hput (by rw [hy.data, AllocLikes.length, AllocLikes.length])⟩
    rintro rfl
    have h1 := hm.cell hmtag
    have h2 := hy.cell hytag
    rw [h1] at h2
    cases h2
  · exact .inl ⟨of_decide_eq_true (by simpa using hf), rfl⟩

theorem processCloseAccount_ok (hS : ∀ k ∈ signers accounts, ¬ R.IsPda k)
    (h : processCloseAccount R accounts σ = .ok (u, σ')) :
    ∃ d : CloseContent, d.Ok R accounts σ σ' := by
  simp only [processCloseAccount, bind_eq_ok, Prod.exists, nextAccountInfo_eq_ok,
    assertSigner_eq_ok, assertWritable_eq_ok, assertOwnedBy_eq_ok, readTag_eq_ok, require_eq_ok,
    failIf_eq_ok, and_assoc, true_and, existsAndEq, exists_and_left, exists_const, ne_eq,
    not_not] at h
  obtain ⟨p, co, rest, hacc, hsig, -, -, -, m, τ, hlc, hau, hrun⟩ := h
  obtain ⟨hm, hmtag, haddr, rfl⟩ := loadContent_ok hlc
  have hsigner : p.key ∈ signers accounts := ⟨p, by simp [hacc], hsig, rfl⟩
  have hne : p.key ≠ co.key := fun heq => hS _ hsigner (heq ▸ haddr.isPda)
  -- the third account is looked at when there is one
  have hcleared : ∃ (reset : Option LikesReset) (σ₁ : Ledger) (w : Unit),
      (∀ k, (keysOf accounts)[2]? = some k →
        R.HasAddress (.likes m.header.thread m.header.allocSeq) k ∧
          (τ.Free k ∨ ∃ r, reset = some r ∧ r.likes = k)) ∧
      ((keysOf accounts)[2]? = none → reset = none) ∧
      (∀ r, reset = some r → CloseContent.ResetOk R m.header co.key τ r) ∧
      σ₁ = (⟨p.key, co.key, m, reset⟩ : CloseContent).cleared τ ∧
      closeProgramAccount co p σ₁ = .ok (w, σ') := by
    cases rest with
    | nil => exact ⟨none, τ, u, by simp [keysOf, hacc], fun _ => rfl,
      fun _ hr => absurd hr.symm (Option.some_ne_none _), rfl, hrun⟩
    | cons l rest =>
      obtain ⟨_, σ₁, hreset, hclose⟩ := bind_eq_ok.mp hrun
      obtain ⟨hladdr, hcases⟩ := resetLikes_ok hm hmtag hreset
      have hthird : ∀ k, (keysOf accounts)[2]? = some k → k = l.key := by
        intro k hk
        simpa [keysOf, hacc, eq_comm] using hk
      rcases hcases with ⟨hf, rfl⟩ | ⟨r, hr, hrk, rfl⟩
      · exact ⟨none, _, u, fun k hk => by rw [hthird k hk]; exact ⟨hladdr, .inl hf⟩, fun _ => rfl,
          fun _ hr => absurd hr.symm (Option.some_ne_none _), rfl, hclose⟩
      · refine ⟨some r, _, u, fun k hk => ?_, fun hno => ?_, fun r' hr' => Option.some.inj hr' ▸ hr, rfl, hclose⟩
        · rw [hthird k hk]
          exact ⟨hladdr, .inr ⟨r, rfl, hrk⟩⟩
        · simp [keysOf, hacc] at hno
  obtain ⟨reset, _, _, hthird, hnone, hres, rfl, hclose⟩ := hcleared
  have hclosed := closeProgramAccount_ok hne hclose
  refine ⟨⟨p.key, co.key, m, reset⟩,
    { keys := by simp [keysOf, hacc]
      signer := hsigner
      holds := hm
      tag := hmtag
      addr := haddr
      author := hau
      payer_ne := hne
      third := hthird
      unasked := hnone
      reset := hres
      post := ?_ }⟩
  rw [hclosed]
  unfold CloseContent.cleared
  cases reset <;> rfl

end Txtcel
