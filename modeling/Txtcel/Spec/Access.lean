import Txtcel.Processor.Access
import Txtcel.Spec.Threads

/-!
# What a successful access instruction did

The four access-control steps: creating the access account, editing it, and setting, removing or
buying a membership entry. Setting an entry has one effect whatever the wallet's status was
(`SetEntry`): the entry holds the new status, and the counter moves by the difference of the two
allow bits -- also when that difference is zero, where the source leaves the account alone.
-/

namespace Txtcel

open Lib Exec Borsh Function

variable {R : Runtime} {sv : Sysvars} {σ σ' : Ledger} {u : Unit} {accounts : List AccountInfo}

/-! ## 1. The access account -/

structure InitAccess where
  authority : Pubkey
  thread : Pubkey
  access : Pubkey
  treasury : Pubkey
  node : ThreadNode
  shard : UInt16
  enabled : Bool

namespace InitAccess

/-- The access account as it is created. -/
def new (d : InitAccess) : ThreadAccess :=
  { tag := tagAccess, thread := d.thread, enabled := d.enabled, admin := d.authority
    entryFee := 0, whitelistCount := 0 }

structure Ok (R : Runtime) (sv : Sysvars) (accounts : List AccountInfo) (d : InitAccess)
    (σ σ' : Ledger) : Prop where
  keys : (keysOf accounts).take 4 = [d.authority, d.thread, d.access, d.treasury]
  signer : d.authority ∈ signers accounts
  thread_holds : σ.Holds R d.thread d.node
  thread_tag : d.node.tag = tagThread
  author : d.node.author = d.authority
  access_addr : R.HasAddress (.access d.thread) d.access
  access_free : σ.Free d.access
  access_ne : d.access ≠ d.treasury
  shard_lt : d.shard < nTreasuryShards
  shard_addr : R.HasAddress (.treasuryShard d.shard) d.treasury
  post : σ' = (((σ.openShard R (sv.rent 0) d.authority d.treasury).collect (sv.rent 0)
    (sv.rent ThreadAccess.size) d.authority d.treasury).create d.authority d.access R.programId
      (sv.rent ThreadAccess.size) ThreadAccess.size).put d.access d.new
  spends : σ.Spends d.authority σ'

end InitAccess

theorem processInitThreadAccess_ok {enabled : Bool} {ti : UInt16}
    (h : processInitThreadAccess R sv accounts enabled ti σ = .ok (u, σ')) :
    ∃ d : InitAccess, d.Ok R sv accounts σ σ' ∧ d.shard = ti ∧ d.enabled = enabled := by
  simp only [processInitThreadAccess, bind_eq_ok, failIf_eq_ok, Prod.exists, nextAccountInfo_eq_ok,
    assertSigner_eq_ok, assertWritable_eq_ok, assertSystemProgram_eq_ok, orFail_eq_ok,
    assertPda_eq_ok, assertUninitialized_eq_ok, and_assoc, true_and, existsAndEq, exists_and_left,
    exists_const, ne_eq, not_not] at h
  obtain ⟨a, t, ac, ts, sys, rest, hacc, hsig, -, -, -, x, _, hload, hau, b, hb, hfree, c, τ, hval,
    _, σ₁, hopen, _, σ₂, hfee, _, σ₃, hcr, hput⟩ := h
  obtain ⟨hx, htag, rfl⟩ := loadThread_ok hload
  obtain ⟨hti, hta, rfl⟩ := validateTreasuryShard_ok hval
  obtain ⟨rfl, hs1⟩ := ensureShardInitialized_ok hopen
  obtain ⟨rfl, hs2⟩ := collectFeeToShard_ok hfee
  obtain ⟨-, hfree3, rfl, hs3⟩ := createPdaAccount_ok hcr
  have hput' := serializeInto_create hput (ThreadAccess.length _)
  subst hput'
  have hfree1 : (τ.openShard R (sv.rent 0) a.key ts.key).Free ac.key :=
    ⟨by simpa using hfree3.1, by simpa using hfree3.2⟩
  refine ⟨⟨a.key, t.key, ac.key, ts.key, x, ti, enabled⟩,
    { keys := by simp [keysOf, hacc]
      signer := ⟨a, by simp [hacc], hsig, rfl⟩
      thread_holds := hx
      thread_tag := htag
      author := hau
      access_addr := ⟨b, hb⟩
      access_free := hfree
      access_ne := (free_openShard hfree1).1
      shard_lt := hti
      shard_addr := hta
      post := rfl
      spends := ((hs1.trans hs2).trans hs3).trans (.put _ _) }, rfl, rfl⟩

/-- The one field a setter replaces. -/
inductive AccessChange (a : ThreadAccess) : ThreadAccess → Prop where
  | enabled (b : Bool) : AccessChange a { a with enabled := b }
  | entryFee (fee : UInt64) : AccessChange a { a with entryFee := fee }

theorem AccessChange.tag_eq {a a' : ThreadAccess} (h : AccessChange a a') : a'.tag = a.tag := by
  cases h <;> rfl

structure AccessEdit where
  authority : Pubkey
  access : Pubkey
  old : ThreadAccess
  new : ThreadAccess

structure AccessEdit.Ok (R : Runtime) (accounts : List AccountInfo) (d : AccessEdit)
    (σ σ' : Ledger) : Prop where
  keys : (keysOf accounts).take 2 = [d.authority, d.access]
  signer : d.authority ∈ signers accounts
  addr : R.HasAddress (.access d.old.thread) d.access
  holds : σ.Holds R d.access d.old
  tag : d.old.tag = tagAccess
  admin : d.old.admin = d.authority
  change : AccessChange d.old d.new
  post : σ' = σ.put d.access d.new

theorem updateAccess_edit {update : ThreadAccess → ThreadAccess}
    (hu : ∀ a, AccessChange a (update a)) (hT : σ.Tidy R)
    (h : updateAccess R accounts update σ = .ok (u, σ')) :
    ∃ d : AccessEdit, d.Ok R accounts σ σ' ∧ d.new = update d.old := by
  simp only [updateAccess, bind_eq_ok, Prod.exists, nextAccountInfo_eq_ok, and_assoc, true_and,
    existsAndEq, exists_and_left] at h
  obtain ⟨a, ac, rest, hacc, x, _, hload, hser⟩ := h
  obtain ⟨hx, htag, haddr, hsig, hadm, rfl⟩ := loadAdminAccess_ok (strict_of_cell (hT _)) hload
  refine ⟨⟨a.key, ac.key, x, update x⟩, ⟨by simp [keysOf, hacc], ⟨a, by simp [hacc], hsig, rfl⟩,
    haddr, hx, htag, hadm, hu x, serializeInto_ok hser ?_⟩, rfl⟩
  rw [hx.data, ThreadAccess.length, ThreadAccess.length]

theorem updateAccess_ok {update : ThreadAccess → ThreadAccess}
    (hu : ∀ a, AccessChange a (update a)) (hT : σ.Tidy R)
    (h : updateAccess R accounts update σ = .ok (u, σ')) :
    ∃ d : AccessEdit, d.Ok R accounts σ σ' := by
  obtain ⟨d, hd, -⟩ := updateAccess_edit hu hT h
  exact ⟨d, hd⟩

/-! ## 2. One entry, and the counter -/

/-- The entry of a wallet. -/
def entryNode (thread wallet : Pubkey) (status : UInt8) : AccessEntry :=
  { tag := tagAccessEntry, thread := thread, wallet := wallet, status := status }

/-- The access account with its counter moved. -/
def ThreadAccess.shift (a : ThreadAccess) (delta : Int) : ThreadAccess :=
  { a with whitelistCount := shiftedCount a.whitelistCount delta }

/-- Whether a status counts. -/
def countedBit (prev : Option UInt8) : Int := allowedBit (prev = some accessAllowed)

theorem shiftedCount_zero (c : UInt32) : shiftedCount c 0 = c := by
  have hc : c.toNat < 2 ^ 32 := c.toNat_lt
  have : (max 0 (saturatingAddI64 (c.toNat : Int) 0)).toNat = c.toNat := by
    unfold saturatingAddI64
    omega
  rw [shiftedCount, this, UInt32.ofNat_toNat]

/-- An account of the program holds one value of a type. -/
theorem Ledger.Holds.unique {α : Type} [Borsh α] {k : Pubkey} {x y : α} (h : σ.Holds R k x)
    (h' : σ.Holds R k y) : x = y :=
  serialize_inj h.fits h'.fits (h.data.symm.trans h'.data)

/-- Writing back what is there changes nothing. -/
theorem Ledger.Holds.put_self {α : Type} [Borsh α] {k : Pubkey} {x : α} (h : σ.Holds R k x) :
    σ.put k x = σ := by
  ext1
  · rfl
  · rw [put_data, ← h.data, update_eq_self]
  · rfl

/-- A value survives what changes neither owner nor data of its account. -/
theorem Ledger.Holds.congr {α : Type} [Borsh α] {τ : Ledger} {k : Pubkey} {x : α}
    (h : σ.Holds R k x) (ho : τ.owner k = σ.owner k) (hd : τ.data k = σ.data k) : τ.Holds R k x :=
  ⟨ho.trans h.owner, h.fits, hd.trans h.data⟩

theorem Ledger.Strict.congr {τ : Ledger} {k : Pubkey} (h : σ.Strict R k)
    (ho : τ.owner k = σ.owner k) (hd : τ.data k = σ.data k) : τ.Strict R k := by
  constructor
  · intro x rest h1 h2 h3
    exact h.access x rest (ho ▸ h1) h2 (hd ▸ h3)
  · intro x rest h1 h2 h3
    exact h.entry x rest (ho ▸ h1) h2 (hd ▸ h3)

/-- What `set_access_entry_status` did to the entry: it was free, or held some status. -/
theorem setAccessEntryStatus_ok {payer entry sys : AccountInfo} {t w : Pubkey} {status : UInt8}
    {prev : Option UInt8} (hst : σ.Strict R entry.key)
    (h : setAccessEntryStatus R sv payer entry sys t w status σ = .ok (prev, σ')) :
    R.HasAddress (.entry t w) entry.key ∧ σ.Spends payer.key σ' ∧
      ((prev = none ∧ σ.Free entry.key ∧
          σ' = (σ.create payer.key entry.key R.programId (sv.rent AccessEntry.size)
            AccessEntry.size).put entry.key (entryNode t w status)) ∨
        ∃ s, prev = some s ∧ σ.Holds R entry.key (entryNode t w s) ∧
          σ' = σ.put entry.key (entryNode t w status)) := by
  simp only [setAccessEntryStatus, bind_eq_ok (x := orFail _ _), bind_eq_ok (x := assertPda _ _),
    bind_eq_ok (x := isUninitialized _), orFail_eq_ok, assertPda_eq_ok, isUninitialized_eq_ok,
    Prod.exists, and_assoc, true_and, existsAndEq, exists_and_left, exists_const,
    decide_eq_true_eq] at h
  obtain ⟨b, hb, h⟩ := h
  rcases ite_eq_ok.mp h with ⟨hf, h⟩ | ⟨hf, h⟩
  · simp only [bind_eq_ok, pure_eq_ok, and_true, existsAndEq] at h
    obtain ⟨_, σ₁, hcr, _, hput, rfl⟩ := h
    obtain ⟨-, -, rfl, hs⟩ := createPdaAccount_ok hcr
    have hput' := serializeInto_create hput (AccessEntry.length _)
    subst hput'
    exact ⟨⟨b, hb⟩, hs.trans (.put _ _), .inl ⟨rfl, hf, rfl⟩⟩
  · simp only [bind_eq_ok, pure_eq_ok, and_true, existsAndEq] at h
    obtain ⟨x, _, hload, _, hput, rfl⟩ := h
    obtain ⟨hx, htag, ht, hw, rfl⟩ := loadBoundAccessEntry_ok hst hload
    have hput' := serializeInto_ok hput (by rw [hx.data, AccessEntry.length, AccessEntry.length])
    subst hput'
    obtain ⟨tag, thread, wallet, s⟩ := x
    obtain rfl : tag = tagAccessEntry := htag
    obtain rfl : thread = t := ht
    obtain rfl : wallet = w := hw
    exact ⟨⟨b, hb⟩, .put _ _, .inr ⟨s, rfl, hx, rfl⟩⟩

theorem adjustWhitelistCount_ok {access : AccountInfo} {delta : Int} {old : ThreadAccess}
    (hst : σ.Strict R access.key) (hold : σ.Holds R access.key old)
    (h : adjustWhitelistCount access delta σ = .ok (u, σ')) :
    σ' = σ.put access.key (old.shift delta) := by
  obtain ⟨x, _, hload, hput⟩ := bind_eq_ok.mp h
  obtain ⟨hx, -, rfl⟩ := loadThreadAccess_ok hst hold.owner hload
  obtain rfl := hold.unique hx
  exact serializeInto_ok hput (by rw [hx.data, ThreadAccess.length, ThreadAccess.length])

/-! ## 3. `add_to_*` -/

structure SetEntry where
  authority : Pubkey
  access : Pubkey
  entry : Pubkey
  wallet : Pubkey
  status : UInt8
  old : ThreadAccess
  prev : Option UInt8

namespace SetEntry

/-- The counter moves by what the entry gained. -/
def delta (d : SetEntry) : Int := countedBit (some d.status) - countedBit d.prev

/-- The ledger with the entry written. -/
def written (d : SetEntry) (R : Runtime) (sv : Sysvars) (σ : Ledger) : Ledger :=
  match d.prev with
  | none => (σ.create d.authority d.entry R.programId (sv.rent AccessEntry.size)
      AccessEntry.size).put d.entry (entryNode d.old.thread d.wallet d.status)
  | some _ => σ.put d.entry (entryNode d.old.thread d.wallet d.status)

/-- What the entry was. -/
def Before (d : SetEntry) (R : Runtime) (σ : Ledger) : Prop :=
  match d.prev with
  | none => σ.Free d.entry
  | some s => σ.Holds R d.entry (entryNode d.old.thread d.wallet s)

structure Ok (R : Runtime) (sv : Sysvars) (accounts : List AccountInfo) (d : SetEntry)
    (σ σ' : Ledger) : Prop where
  keys : (keysOf accounts).take 3 = [d.authority, d.access, d.entry]
  signer : d.authority ∈ signers accounts
  access_addr : R.HasAddress (.access d.old.thread) d.access
  access_holds : σ.Holds R d.access d.old
  access_tag : d.old.tag = tagAccess
  admin : d.old.admin = d.authority
  entry_addr : R.HasAddress (.entry d.old.thread d.wallet) d.entry
  before : d.Before R σ
  access_ne : d.access ≠ d.entry
  post : σ' = (d.written R sv σ).put d.access (d.old.shift d.delta)
  spends : σ.Spends d.authority σ'

end SetEntry

/-- An access account is not a membership entry. -/
theorem access_ne_entry {k j : Pubkey} {a : ThreadAccess} {e : AccessEntry} (ha : σ.Holds R k a)
    (hatag : a.tag = tagAccess) (he : σ.Holds R j e) (hetag : e.tag = tagAccessEntry) : k ≠ j := by
  rintro rfl
  have h1 := ha.cell hatag
  have h2 := he.cell hetag
  rw [h1] at h2
  cases h2

theorem addToList_ok {wallet : Pubkey} {status : UInt8} (hT : σ.Tidy R)
    (h : addToList R sv accounts wallet status σ = .ok (u, σ')) :
    ∃ d : SetEntry, d.Ok R sv accounts σ σ' ∧ d.wallet = wallet ∧ d.status = status := by
  simp only [addToList, applyAccessEntryStatus, bind_eq_ok, Prod.exists, nextAccountInfo_eq_ok,
    assertWritable_eq_ok, assertSystemProgram_eq_ok, and_assoc, true_and, existsAndEq,
    exists_and_left, exists_const] at h
  obtain ⟨a, ac, en, sys, rest, hacc, -, -, -, x, τ, hload, prev, σ₁, hset, hadj⟩ := h
  obtain ⟨hx, htag, haddr, hsig, hadm, rfl⟩ := loadAdminAccess_ok (strict_of_cell (hT _)) hload
  obtain ⟨headdr, hs1, hcases⟩ := setAccessEntryStatus_ok (strict_of_cell (hT _)) hset
  -- the access account is another one, and the write of the entry leaves it alone
  have hne : ac.key ≠ en.key := by
    rcases hcases with ⟨-, hf, -⟩ | ⟨s, -, he, -⟩
    · exact hx.ne_of_free hf
    · exact access_ne_entry hx htag he rfl
  have ho1 : σ₁.owner ac.key = τ.owner ac.key := by
    rcases hcases with ⟨-, -, rfl⟩ | ⟨s, -, -, rfl⟩ <;> simp [hne]
  have hd1 : σ₁.data ac.key = τ.data ac.key := by
    rcases hcases with ⟨-, -, rfl⟩ | ⟨s, -, -, rfl⟩ <;> simp [hne]
  have hx1 : σ₁.Holds R ac.key x := hx.congr ho1 hd1
  let d : SetEntry := ⟨a.key, ac.key, en.key, wallet, status, x, prev⟩
  have hdelta : allowedBit (status = accessAllowed) - allowedBit (prev = some accessAllowed) =
      d.delta := by
    simp [d, SetEntry.delta, countedBit]
  have hwritten : σ₁ = d.written R sv τ := by
    rcases hcases with ⟨rfl, -, rfl⟩ | ⟨s, rfl, -, rfl⟩ <;> rfl
  have hpost : σ' = σ₁.put ac.key (x.shift d.delta) := by
    rcases onlyIf_eq_ok.mp hadj with ⟨-, h⟩ | ⟨h0, rfl⟩
    · rw [← hdelta]
      exact adjustWhitelistCount_ok ((strict_of_cell (hT _)).congr ho1 hd1) hx1 h
    · have h0' : d.delta = 0 := by
        rw [← hdelta]
        exact not_not.mp h0
      rw [h0', ThreadAccess.shift, shiftedCount_zero]
      exact (hx1.put_self).symm
  refine ⟨d,
    { keys := by simp [keysOf, hacc, d]
      signer := ⟨a, by simp [hacc], hsig, rfl⟩
      access_addr := haddr
      access_holds := hx
      access_tag := htag
      admin := hadm
      entry_addr := headdr
      before := ?_
      access_ne := hne
      post := by rw [hpost, hwritten]
      spends := by rw [hpost]; exact hs1.trans (.put _ _) }, rfl, rfl⟩
  rcases hcases with ⟨rfl, hf, -⟩ | ⟨s, rfl, he, -⟩
  · exact hf
  · exact he

/-! ## 4. `remove_from_*` -/

structure RemoveEntry where
  authority : Pubkey
  access : Pubkey
  entry : Pubkey
  wallet : Pubkey
  status : UInt8
  old : ThreadAccess

namespace RemoveEntry

def delta (d : RemoveEntry) : Int := - countedBit (some d.status)

structure Ok (R : Runtime) (accounts : List AccountInfo) (d : RemoveEntry) (σ σ' : Ledger) :
    Prop where
  keys : (keysOf accounts).take 3 = [d.authority, d.access, d.entry]
  signer : d.authority ∈ signers accounts
  access_addr : R.HasAddress (.access d.old.thread) d.access
  access_holds : σ.Holds R d.access d.old
  access_tag : d.old.tag = tagAccess
  admin : d.old.admin = d.authority
  entry_addr : R.HasAddress (.entry d.old.thread d.wallet) d.entry
  entry_holds : σ.Holds R d.entry (entryNode d.old.thread d.wallet d.status)
  access_ne : d.access ≠ d.entry
  authority_ne : d.authority ≠ d.entry
  post : σ' = ((σ.pay d.entry d.authority (σ.lamports d.entry)).allot d.entry 0
    systemProgram).put d.access (d.old.shift d.delta)

end RemoveEntry

theorem removeFromList_ok {wallet : Pubkey} {status : UInt8} (hT : σ.Tidy R)
    (hS : ∀ k ∈ signers accounts, ¬ R.IsPda k)
    (h : removeFromList R accounts wallet status σ = .ok (u, σ')) :
    ∃ d : RemoveEntry, d.Ok R accounts σ σ' ∧ d.wallet = wallet ∧ d.status = status := by
  simp only [removeFromList, removeAccessEntry, closeAccessEntry, bind_eq_ok, failIf_eq_ok,
    Prod.exists, nextAccountInfo_eq_ok, assertWritable_eq_ok, orFail_eq_ok, assertPda_eq_ok,
    isUninitialized_eq_ok, and_assoc, true_and, existsAndEq, exists_and_left, exists_const, ne_eq,
    not_not] at h
  obtain ⟨a, ac, en, sys, rest, hacc, -, -, x, _, hload, _, σ₁, ⟨b, hb, -, e, τ, hle, hstat, hclose⟩,
    hadj⟩ := h
  obtain ⟨hx, htag, haddr, hsig, hadm, rfl⟩ := loadAdminAccess_ok (strict_of_cell (hT _)) hload
  obtain ⟨he, hetag, het, hew, rfl⟩ := loadBoundAccessEntry_ok (strict_of_cell (hT _)) hle
  have hsigner : a.key ∈ signers accounts := ⟨a, by simp [hacc], hsig, rfl⟩
  have headdr : R.HasAddress (.entry x.thread wallet) en.key := ⟨b, hb⟩
  have hane : a.key ≠ en.key := fun heq => hS _ hsigner (heq ▸ headdr.isPda)
  have hne : ac.key ≠ en.key := access_ne_entry hx htag he hetag
  have hclosed := closeProgramAccount_ok hane hclose
  have hx1 : σ₁.Holds R ac.key x := hx.congr (by simp [hclosed, hne]) (by simp [hclosed, hne])
  have hstrict : σ₁.Strict R ac.key :=
    (strict_of_cell (hT _)).congr (by simp [hclosed, hne]) (by simp [hclosed, hne])
  let d : RemoveEntry := ⟨a.key, ac.key, en.key, wallet, status, x⟩
  have hpost : σ' = σ₁.put ac.key (x.shift d.delta) := by
    rcases onlyIf_eq_ok.mp hadj with ⟨hs, h⟩ | ⟨hs, rfl⟩
    · have hd : d.delta = -1 := by simp [d, RemoveEntry.delta, countedBit, allowedBit, hs]
      rw [hd]
      exact adjustWhitelistCount_ok hstrict hx1 h
    · have hd : d.delta = 0 := by simp [d, RemoveEntry.delta, countedBit, allowedBit, hs]
      rw [hd, ThreadAccess.shift, shiftedCount_zero]
      exact (hx1.put_self).symm
  have hnode : e = entryNode x.thread wallet status := by
    cases e
    simp_all [entryNode]
  refine ⟨d,
    { keys := by simp [keysOf, hacc, d]
      signer := hsigner
      access_addr := haddr
      access_holds := hx
      access_tag := htag
      admin := hadm
      entry_addr := headdr
      entry_holds := hnode ▸ he
      access_ne := hne
      authority_ne := hane
      post := by rw [hpost, hclosed] }, rfl, rfl⟩

/-! ## 5. `request_access` -/

structure RequestAccess where
  payer : Pubkey
  access : Pubkey
  entry : Pubkey
  thread : Pubkey
  settings : Pubkey
  treasury : Pubkey
  author : Pubkey
  old : ThreadAccess
  node : ThreadNode
  current : ProgramSettings
  treasuryIdx : UInt16
  authorIdx : UInt8

namespace RequestAccess

/-- Everything up to the entry: shards, and the fee. -/
def paid (d : RequestAccess) (R : Runtime) (sv : Sysvars) (σ : Ledger) : Ledger :=
  (σ.openShards R (sv.rent 0) d.payer d.treasury d.author).split (sv.rent 0) d.old.entryFee.toNat
    d.current.entryCutBps.toNat d.payer d.author d.treasury

structure Ok (R : Runtime) (sv : Sysvars) (accounts : List AccountInfo) (d : RequestAccess)
    (σ σ' : Ledger) : Prop where
  keys : (keysOf accounts).take 7 =
    [d.payer, d.access, d.entry, d.thread, d.settings, d.treasury, d.author]
  signer : d.payer ∈ signers accounts
  access_addr : R.HasAddress (.access d.thread) d.access
  access_holds : σ.Holds R d.access d.old
  access_tag : d.old.tag = tagAccess
  access_thread : d.old.thread = d.thread
  fee_ne : d.old.entryFee ≠ 0
  thread_holds : σ.Holds R d.thread d.node
  thread_tag : d.node.tag = tagThread
  settings_addr : R.HasAddress .settings d.settings
  settings_holds : σ.Holds R d.settings d.current
  settings_tag : d.current.tag = tagSettings
  shards : FeeShards R d.thread d.treasury d.author d.treasuryIdx d.authorIdx
  entry_addr : R.HasAddress (.entry d.thread d.payer) d.entry
  entry_free : σ.Free d.entry
  access_ne : d.access ≠ d.entry
  entry_ne_treasury : d.entry ≠ d.treasury
  entry_ne_author : d.entry ≠ d.author
  post : σ' = (((d.paid R sv σ).create d.payer d.entry R.programId (sv.rent AccessEntry.size)
    AccessEntry.size).put d.entry (entryNode d.thread d.payer accessAllowed)).put d.access
      (d.old.shift 1)
  spends : σ.Spends d.payer σ'

end RequestAccess

/-- What is free is none of the opened shards. -/
theorem free_openShards {r : Nat} {p s a k : Pubkey} (h : (σ.openShards R r p s a).Free k) :
    k ≠ s ∧ k ≠ a ∧ σ.Free k := by
  obtain ⟨ha, h1⟩ := free_openShard h
  obtain ⟨hs, h2⟩ := free_openShard h1
  exact ⟨hs, ha, h2⟩

/-- Opening shards keeps what the program already holds. -/
theorem Ledger.Holds.openShards {α : Type} [Borsh α] {x : α} {r : Nat} {p s a k : Pubkey}
    (h : σ.Holds R k x) : (σ.openShards R r p s a).Holds R k x := by
  refine ⟨?_, h.fits, by rw [openShards_data]; exact h.data⟩
  have howner : ∀ (τ : Ledger) j, τ.owner k = R.programId →
      (τ.openShard R r p j).owner k = R.programId := by
    intro τ j ho
    unfold openShard
    split
    · rw [create_owner]
      by_cases hk : k = j
      · subst hk
        exact update_self _ _ _
      · rwa [update_of_ne hk]
    · exact ho
  exact howner _ _ (howner _ _ h.owner)

theorem Ledger.Tidy.openShard {r : Nat} {p s : Pubkey} (hT : σ.Tidy R) :
    (σ.openShard R r p s).Tidy R := by
  intro k hk
  rw [cells_openShard] at hk
  rcases (σ.cell R).open_apply s k with h | ⟨-, -, h⟩
  · exact hT k (h.symm.trans hk)
  · exact nomatch h.symm.trans hk

namespace RequestAccess

variable {d : RequestAccess}

@[simp] theorem paid_data : (d.paid R sv σ).data = σ.data := by
  simp [paid]

@[simp] theorem paid_owner : (d.paid R sv σ).owner =
    (σ.openShards R (sv.rent 0) d.payer d.treasury d.author).owner := by
  simp [paid]

theorem paid_tidy (hT : σ.Tidy R) : (d.paid R sv σ).Tidy R := by
  intro k hk
  rw [paid, cells_split] at hk
  exact hT.openShard.openShard k hk

end RequestAccess

theorem processRequestAccess_ok {ti : UInt16} {ai : UInt8} (hT : σ.Tidy R)
    (h : processRequestAccess R sv accounts ti ai σ = .ok (u, σ')) :
    ∃ d : RequestAccess, d.Ok R sv accounts σ σ' := by
  simp only [processRequestAccess, bind_eq_ok, failIf_eq_ok, Prod.exists, nextAccountInfo_eq_ok,
    assertSigner_eq_ok, assertWritable_eq_ok, assertOwnedBy_eq_ok, orFail_eq_ok, assertPda_eq_ok,
    isUninitialized_eq_ok, onlyIf_eq_ok, throw_eq_ok, exists_false, and_false, false_or,
    and_assoc, true_and, existsAndEq, exists_and_left, exists_const, ne_eq, not_not,
    Bool.not_eq_false, decide_eq_true_eq] at h
  obtain ⟨p, ac, en, t, s, ts, as, sys, rest, hacc, hsig, -, -, -, _, _, hfs, hown, b, hb, x, _,
    hla, hth, hfee, n, _, hlt, c, hc, hfree, st, τ, hls, _, σ₁, hprep, _, σ₂, hsplit, prev, σ₃,
    hset, hadj⟩ := h
  obtain rfl := assertFeeShardAccounts_ok hfs
  obtain ⟨hx, htag, rfl⟩ := loadThreadAccess_ok (strict_of_cell (hT _)) hown hla
  obtain ⟨hn, hntag, rfl⟩ := loadThread_ok hlt
  obtain ⟨hst, hstag, hsaddr, rfl⟩ := loadSettings_ok hls
  obtain ⟨hsh, rfl, hs1⟩ := prepareFeeShards_ok hprep
  obtain ⟨rfl, hs2⟩ := transferFeeSplit_ok hsplit
  let d : RequestAccess :=
    ⟨p.key, ac.key, en.key, t.key, s.key, ts.key, as.key, x, n, st, ti, ai⟩
  have hne : ac.key ≠ en.key := hx.ne_of_free hfree
  have hpx : (d.paid R sv τ).Holds R ac.key x :=
    (hx.openShards).congr (by rw [RequestAccess.paid_owner]) (by simp)
  have hpT : (d.paid R sv τ).Tidy R := RequestAccess.paid_tidy hT
  obtain ⟨-, hs3, hcases⟩ := setAccessEntryStatus_ok (strict_of_cell (hpT _)) hset
  -- the entry is still free: an opened shard holds no entry
  have hcreated : (d.paid R sv τ).Free en.key ∧ σ₃ = ((d.paid R sv τ).create p.key en.key
      R.programId (sv.rent AccessEntry.size) AccessEntry.size).put en.key
        (entryNode t.key p.key accessAllowed) := by
    rcases hcases with ⟨-, hf, hσ⟩ | ⟨s, -, he, -⟩
    · exact ⟨hf, hσ⟩
    · have hd := he.data
      rw [RequestAccess.paid_data, hfree.2] at hd
      exact absurd (congrArg List.length hd) (by rw [AccessEntry.length]; decide)
  obtain ⟨hfree', rfl⟩ := hcreated
  obtain ⟨hents, henas, -⟩ := free_openShards (σ := τ) (R := R) (r := sv.rent 0) (p := p.key)
    (s := ts.key) (a := as.key) (k := en.key)
    ⟨by rw [← hfree'.1, RequestAccess.paid_owner], by simpa using hfree'.2⟩
  have hx3 := hpx.congr (τ := ((d.paid R sv τ).create p.key en.key R.programId
    (sv.rent AccessEntry.size) AccessEntry.size).put en.key (entryNode t.key p.key accessAllowed))
    (by simp [hne]) (by simp [hne])
  have hpost := adjustWhitelistCount_ok
    ((strict_of_cell (hpT ac.key)).congr (by simp [hne]) (by simp [hne])) hx3 hadj
  refine ⟨d,
    { keys := by simp [keysOf, hacc, d]
      signer := ⟨p, by simp [hacc], hsig, rfl⟩
      access_addr := ⟨b, hb⟩
      access_holds := hx
      access_tag := htag
      access_thread := hth
      fee_ne := hfee
      thread_holds := hn
      thread_tag := hntag
      settings_addr := hsaddr
      settings_holds := hst
      settings_tag := hstag
      shards := hsh
      entry_addr := ⟨c, hc⟩
      entry_free := hfree
      access_ne := hne
      entry_ne_treasury := hents
      entry_ne_author := henas
      post := hpost
      spends := by
        rw [hpost]
        exact ((hs1.trans hs2).trans hs3).trans (.put _ _) }⟩

end Txtcel
