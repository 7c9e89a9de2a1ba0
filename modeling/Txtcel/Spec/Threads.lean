import Txtcel.Processor.Threads
import Txtcel.Spec.Platform

/-!
# What a successful thread instruction did

`create_root_alloc`, `prepare_alloc` and the fee setters of a thread.
-/

namespace Txtcel

open Lib Exec Borsh Function

variable {R : Runtime} {sv : Sysvars} {σ σ' : Ledger} {u : Unit} {accounts : List AccountInfo}

/-! ## 1. `create_root_alloc` -/

structure RootAlloc where
  payer : Pubkey
  thread : Pubkey
  alloc : Pubkey
  settings : Pubkey
  treasury : Pubkey
  current : ProgramSettings
  shard : UInt16
  messageFee : UInt64
  title : Bytes

namespace RootAlloc

/-- The thread as it is created. -/
def node (d : RootAlloc) : ThreadNode :=
  { tag := tagThread, allocCount := 1, lastAllocSeq := 0, author := d.payer
    messageFee := d.messageFee, likeFee := 0, title := d.title }

/-- Its first page. -/
def page (d : RootAlloc) : AllocNode := { tag := tagAlloc, thread := d.thread, allocSeq := 0 }

def threadRent (d : RootAlloc) (sv : Sysvars) : Nat := sv.rent (ThreadNode.size d.title.length)

/-- The base fee, on the rent of both accounts. -/
def baseFee (d : RootAlloc) (sv : Sysvars) : Nat :=
  baseFeeOf (d.threadRent sv + sv.rent AllocNode.size) d.current.baseFeeBps.toNat

/-- Everything up to the two writes. -/
def funded (d : RootAlloc) (R : Runtime) (sv : Sysvars) (σ : Ledger) : Ledger :=
  (((σ.openShard R (sv.rent 0) d.payer d.treasury).create d.payer d.thread R.programId
    (d.threadRent sv) (ThreadNode.size d.title.length)).collect (sv.rent 0) (d.baseFee sv) d.payer
      d.treasury).create d.payer d.alloc R.programId (sv.rent AllocNode.size) AllocNode.size

structure Ok (R : Runtime) (sv : Sysvars) (accounts : List AccountInfo) (d : RootAlloc)
    (σ σ' : Ledger) : Prop where
  keys : (keysOf accounts).take 5 = [d.payer, d.thread, d.alloc, d.settings, d.treasury]
  payer_signed : d.payer ∈ signers accounts
  thread_signed : d.thread ∈ signers accounts
  settings_addr : R.HasAddress .settings d.settings
  settings_holds : σ.Holds R d.settings d.current
  settings_tag : d.current.tag = tagSettings
  shard_lt : d.shard < nTreasuryShards
  shard_addr : R.HasAddress (.treasuryShard d.shard) d.treasury
  alloc_addr : R.HasAddress (.alloc d.thread 0) d.alloc
  thread_free : σ.Free d.thread
  alloc_free : σ.Free d.alloc
  title_le : d.title.length ≤ maxTitleLen
  /-- The new accounts are not the shard, and they are two. -/
  thread_ne : d.thread ≠ d.treasury
  alloc_ne : d.alloc ≠ d.thread
  alloc_ne_treasury : d.alloc ≠ d.treasury
  thread_ne_payer : d.thread ≠ d.payer
  unfunded : σ.lamports d.thread = 0
  rent_lt : d.threadRent sv + sv.rent AllocNode.size < 2 ^ 64
  post : σ' = ((d.funded R sv σ).put d.thread d.node).put d.alloc d.page
  spends : σ.Spends d.payer σ'

end RootAlloc

/-- What is free is not an opened shard. -/
theorem free_openShard {r : Nat} {p s k : Pubkey} (h : (σ.openShard R r p s).Free k) :
    k ≠ s ∧ σ.Free k := by
  have hc : Cells.open (σ.cell R) s k = .free := by
    rw [← cells_openShard (p := p) (r := r)]
    exact cell_eq_free.mpr h
  refine ⟨?_, cell_eq_free.mp (Cells.free_of_open hc)⟩
  rintro rfl
  rcases (σ.cell R).open_apply k k with hk | ⟨-, -, hk⟩
  · have hf := hk.symm.trans hc
    unfold Cells.open at hc
    rw [if_pos (Cell.isFree_iff.mpr hf), update_self] at hc
    cases hc
  · rw [hk] at hc
    cases hc

/-- What is free is not a created account. -/
theorem free_create {r n : Nat} {p s k : Pubkey} (h : (σ.create p s R.programId r n).Free k) :
    k ≠ s ∧ σ.Free k := by
  have hk : k ≠ s := by
    rintro rfl
    have := h.1
    rw [Ledger.create_owner, update_self] at this
    exact R.programId_ne this
  refine ⟨hk, ?_⟩
  have h1 := h.1
  have h2 := h.2
  rw [Ledger.create_owner, update_of_ne hk] at h1
  rw [Ledger.create_data, update_of_ne hk] at h2
  exact ⟨h1, h2⟩

theorem processCreateRootAlloc_ok {fee : UInt64} {ti : UInt16} {title : Bytes}
    (h : processCreateRootAlloc R sv accounts fee ti title σ = .ok (u, σ')) :
    ∃ d : RootAlloc, d.Ok R sv accounts σ σ' ∧ d.messageFee = fee ∧ d.shard = ti ∧
      d.title = title := by
  simp only [processCreateRootAlloc, bind_eq_ok, failIf_eq_ok, Prod.exists, nextAccountInfo_eq_ok,
    assertSigner_eq_ok, assertWritable_eq_ok, assertSystemProgram_eq_ok, orFail_eq_ok,
    assertPda_eq_ok, assertUninitialized_eq_ok, checkedAdd64_eq_some, and_assoc, true_and,
    existsAndEq, exists_and_left, exists_const, not_lt] at h
  obtain ⟨htitle, p, t, al, s, ts, sys, rest, hacc, hps, hts, -, -, -, -, x, _, hload, b, hb, c, τ,
    hval, hft, hfa, _, σ₁, hopen, _, σ₂, hcreate, hrent, _, σ₃, hbase, _, σ₄, hpage, _, σ₅, hput1,
    hput2⟩ := h
  obtain ⟨hx, htag, haddr, rfl⟩ := loadSettings_ok hload
  obtain ⟨hti, hta, rfl⟩ := validateTreasuryShard_ok hval
  obtain ⟨rfl, hs1⟩ := ensureShardInitialized_ok hopen
  obtain ⟨-, h0, hfree2, hne, rfl, hs2⟩ := invokeCreateAccount_ok R.programId_ne hcreate
  obtain ⟨rfl, hs3⟩ := collectBaseFee_ok hbase
  obtain ⟨-, hfree4, rfl, hs4⟩ := createPdaAccount_ok hpage
  obtain ⟨hnt, -⟩ := free_openShard hfree2
  have hfree4' : ((τ.openShard R (sv.rent 0) p.key ts.key).create p.key t.key R.programId
      (sv.rent (ThreadNode.size title.length)) (ThreadNode.size title.length)).Free al.key :=
    ⟨by simpa using hfree4.1, by simpa using hfree4.2⟩
  obtain ⟨hat, hfree4''⟩ := free_create hfree4'
  obtain ⟨hats, -⟩ := free_openShard hfree4''
  have hput1' := serializeInto_ok hput1 (by
    rw [Ledger.create_data, update_of_ne (Ne.symm hat)]
    simp [ThreadNode.length])
  subst hput1'
  have hput2' := serializeInto_ok hput2 (by
    rw [Ledger.setData_data, update_of_ne hat]
    simp [AllocNode.length])
  subst hput2'
  have hntp : t.key ≠ p.key := hne (by simp [ThreadNode.size])
  have hunf : τ.lamports t.key = 0 := by
    unfold Ledger.openShard at h0
    split at h0
    · rwa [Ledger.create_lamports, Ledger.pay_other _ _ _ _ _ hntp hnt] at h0
    · exact h0
  refine ⟨⟨p.key, t.key, al.key, s.key, ts.key, x, ti, fee, title⟩,
    { keys := by simp [keysOf, hacc]
      payer_signed := ⟨p, by simp [hacc], hps, rfl⟩
      thread_signed := ⟨t, by simp [hacc], hts, rfl⟩
      settings_addr := haddr
      settings_holds := hx
      settings_tag := htag
      shard_lt := hti
      shard_addr := hta
      alloc_addr := ⟨b, hb⟩
      thread_free := hft
      alloc_free := hfa
      title_le := htitle
      thread_ne := hnt
      alloc_ne := hat
      alloc_ne_treasury := hats
      thread_ne_payer := hntp
      unfunded := hunf
      rent_lt := hrent
      post := rfl
      spends := ?_ }, rfl, rfl, rfl⟩
  exact ((((hs1.trans hs2).trans hs3).trans hs4).trans (.put _ _)).trans (.put _ _)

/-! ## 2. `prepare_alloc` -/

structure NextAlloc where
  payer : Pubkey
  current : Pubkey
  page : Pubkey
  thread : Pubkey
  old : ThreadNode
  newSeq : UInt32
  newCount : UInt32

namespace NextAlloc

def node (d : NextAlloc) : AllocNode :=
  { tag := tagAlloc, thread := d.thread, allocSeq := d.newSeq }

def new (d : NextAlloc) : ThreadNode :=
  { d.old with allocCount := d.newCount, lastAllocSeq := d.newSeq }

structure Ok (R : Runtime) (sv : Sysvars) (accounts : List AccountInfo) (d : NextAlloc)
    (σ σ' : Ledger) : Prop where
  keys : (keysOf accounts).take 4 = [d.payer, d.current, d.page, d.thread]
  payer_signed : d.payer ∈ signers accounts
  /-- The current page is the tail. -/
  current_addr : R.HasAddress (.alloc d.thread d.old.lastAllocSeq) d.current
  current_holds : σ.Holds R d.current
    { tag := tagAlloc, thread := d.thread, allocSeq := d.old.lastAllocSeq : AllocNode }
  thread_holds : σ.Holds R d.thread d.old
  thread_tag : d.old.tag = tagThread
  seq_eq : d.newSeq.toNat = d.old.lastAllocSeq.toNat + 1
  count_eq : d.newCount.toNat = d.old.allocCount.toNat + 1
  page_addr : R.HasAddress (.alloc d.thread d.newSeq) d.page
  page_free : σ.Free d.page
  page_ne : d.thread ≠ d.page
  post : σ' = ((σ.create d.payer d.page R.programId (sv.rent AllocNode.size) AllocNode.size).put
    d.page d.node).put d.thread d.new
  spends : σ.Spends d.payer σ'

end NextAlloc

/-- An account of the program is not a free one. -/
theorem Ledger.Holds.ne_of_free {α : Type} [Borsh α] {x : α} {j k : Pubkey} (h : σ.Holds R j x)
    (hf : σ.Free k) : j ≠ k := by
  rintro rfl
  exact R.programId_ne (h.owner.symm.trans hf.1)

theorem processPrepareAlloc_ok {seq : UInt32}
    (h : processPrepareAlloc R sv accounts seq σ = .ok (u, σ')) :
    ∃ d : NextAlloc, d.Ok R sv accounts σ σ' ∧ d.old.lastAllocSeq = seq := by
  simp only [processPrepareAlloc, bind_eq_ok, failIf_eq_ok, Prod.exists, nextAccountInfo_eq_ok,
    assertSigner_eq_ok, assertWritable_eq_ok, assertSystemProgram_eq_ok, orFail_eq_ok,
    assertPda_eq_ok, assertUninitialized_eq_ok, and_assoc, true_and, existsAndEq, exists_and_left,
    exists_const, ne_eq, not_not] at h
  obtain ⟨p, cur, pg, t, sys, rest, hacc, hps, -, -, -, -, a, _, hla, hth, hseq, x, _, hlt, hlast,
    m, hm, b, hb, hfree, _, σ₁, hcr, _, σ₂, hput1, c, hc, hput2⟩ := h
  obtain ⟨ha, hatag, haaddr, rfl⟩ := loadAlloc_ok hla
  obtain ⟨hx, hxtag, rfl⟩ := loadThread_ok hlt
  obtain ⟨-, -, rfl, hs1⟩ := createPdaAccount_ok hcr
  have hne : t.key ≠ pg.key := hx.ne_of_free hfree
  have hput1' := serializeInto_create hput1 (AllocNode.length _)
  subst hput1'
  have hput2' := serializeInto_ok hput2 (by
    rw [Ledger.put_data, update_of_ne hne, Ledger.create_data, update_of_ne hne, hx.data,
      ThreadNode.length, ThreadNode.length])
  subst hput2'
  have hnode : a = { tag := tagAlloc, thread := t.key, allocSeq := x.lastAllocSeq } := by
    cases a
    simp_all
  refine ⟨⟨p.key, cur.key, pg.key, t.key, x, m, c⟩,
    { keys := by simp [keysOf, hacc]
      payer_signed := ⟨p, by simp [hacc], hps, rfl⟩
      current_addr := by rwa [hth, hlast] at haaddr
      current_holds := hnode ▸ ha
      thread_holds := hx
      thread_tag := hxtag
      seq_eq := by rw [← hlast, hseq]; exact (checkedSucc32_eq_some hm).1
      count_eq := (checkedSucc32_eq_some hc).1
      page_addr := ⟨b, hb⟩
      page_free := hfree
      page_ne := hne
      post := rfl
      spends := (hs1.trans (.put _ _)).trans (.put _ _) }, by rw [← hlast, hseq]⟩

/-! ## 3. The fee setters -/

/-- The one field a fee setter replaces. -/
inductive ThreadChange (t : ThreadNode) : ThreadNode → Prop where
  | messageFee (fee : UInt64) : ThreadChange t { t with messageFee := fee }
  | likeFee (fee : UInt64) : ThreadChange t { t with likeFee := fee }

theorem ThreadChange.title_eq {t t' : ThreadNode} (h : ThreadChange t t') :
    t'.title = t.title := by
  cases h <;> rfl

theorem ThreadChange.tag_eq {t t' : ThreadNode} (h : ThreadChange t t') : t'.tag = t.tag := by
  cases h <;> rfl

structure ThreadEdit where
  authority : Pubkey
  thread : Pubkey
  old : ThreadNode
  new : ThreadNode

structure ThreadEdit.Ok (R : Runtime) (accounts : List AccountInfo) (d : ThreadEdit)
    (σ σ' : Ledger) : Prop where
  keys : (keysOf accounts).take 2 = [d.authority, d.thread]
  signer : d.authority ∈ signers accounts
  holds : σ.Holds R d.thread d.old
  tag : d.old.tag = tagThread
  author : d.old.author = d.authority
  change : ThreadChange d.old d.new
  post : σ' = σ.put d.thread d.new

theorem updateThread_edit {update : ThreadNode → ThreadNode} (hu : ∀ t, ThreadChange t (update t))
    (h : updateThread R accounts update σ = .ok (u, σ')) :
    ∃ d : ThreadEdit, d.Ok R accounts σ σ' ∧ d.new = update d.old := by
  simp only [updateThread, bind_eq_ok, Prod.exists, nextAccountInfo_eq_ok, and_assoc, true_and,
    existsAndEq, exists_and_left] at h
  obtain ⟨a, t, rest, hacc, x, _, hload, hser⟩ := h
  obtain ⟨hx, htag, hsig, hauth, rfl⟩ := loadAuthorThread_ok hload
  refine ⟨⟨a.key, t.key, x, update x⟩, ⟨by simp [keysOf, hacc], ⟨a, by simp [hacc], hsig, rfl⟩, hx,
    htag, hauth, hu x, serializeInto_ok hser ?_⟩, rfl⟩
  rw [hx.data, ThreadNode.length, ThreadNode.length, (hu x).title_eq]

theorem updateThread_ok {update : ThreadNode → ThreadNode} (hu : ∀ t, ThreadChange t (update t))
    (h : updateThread R accounts update σ = .ok (u, σ')) :
    ∃ d : ThreadEdit, d.Ok R accounts σ σ' := by
  obtain ⟨d, hd, -⟩ := updateThread_edit hu h
  exact ⟨d, hd⟩

end Txtcel
