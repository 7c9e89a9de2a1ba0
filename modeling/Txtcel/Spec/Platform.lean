import Txtcel.Processor.Platform
import Txtcel.Spec.Cells

/-!
# What a successful settings instruction or sweep did

From here on a handler is described by a structure: the addresses and values it worked with, what
it had checked of the ledger (`Ok`, one named field for each fact), and the ledger it left behind
(`post`). The theorem `process*_ok` is the refinement: a successful run of the handler is such a
step. Nothing later unfolds a handler to learn what it did.
-/

namespace Txtcel

open Lib Exec Borsh Function

/-- The addresses that signed. -/
def signers (accounts : List AccountInfo) : Set Pubkey :=
  {k | ∃ a ∈ accounts, a.isSigner = true ∧ a.key = k}

/-- The addresses, in the order they were passed. -/
def keysOf (accounts : List AccountInfo) : List Pubkey := accounts.map (·.key)

/-- No account of the program holds bytes that are none of its structures. -/
def Ledger.Tidy (σ : Ledger) (R : Runtime) : Prop := ∀ k, σ.cell R k ≠ .junk

variable {R : Runtime} {sv : Sysvars} {σ σ' : Ledger} {u : Unit} {accounts : List AccountInfo}

/-! ## 1. `init_settings` -/

/-- The settings a program starts with. -/
def initialSettings (admin treasury : Pubkey) : ProgramSettings :=
  { tag := tagSettings, admin := admin, treasury := treasury, baseFeeBps := 1000
    authorFeeCutBps := 1000, entryCutBps := 1000, likeCutBps := 1000 }

structure InitSettings where
  authority : Pubkey
  settings : Pubkey
  programdata : Pubkey
  treasury : Pubkey

structure InitSettings.Ok (R : Runtime) (sv : Sysvars) (accounts : List AccountInfo)
    (d : InitSettings) (σ σ' : Ledger) : Prop where
  keys : (keysOf accounts).take 3 = [d.authority, d.settings, d.programdata]
  signer : d.authority ∈ signers accounts
  upgrade : IsUpgradeAuthority R σ d.programdata d.authority
  addr : R.HasAddress .settings d.settings
  free : σ.Free d.settings
  post : σ' = (σ.create d.authority d.settings R.programId (sv.rent ProgramSettings.size)
    ProgramSettings.size).put d.settings (initialSettings d.authority d.treasury)
  spends : σ.Spends d.authority σ'

/-- A structure written right after the account was created for it. -/
theorem serializeInto_create {α : Type} [Borsh α] {a : AccountInfo} {x : α} {p : Pubkey} {r n : Nat}
    (h : serializeInto a x (σ.create p a.key R.programId r n) = .ok (u, σ'))
    (hlen : (serialize x).length = n) : σ' = (σ.create p a.key R.programId r n).put a.key x :=
  serializeInto_ok h (by simp [hlen])

theorem processInitSettings_ok {treasury : Pubkey}
    (h : processInitSettings R sv accounts treasury σ = .ok (u, σ')) :
    ∃ d : InitSettings, d.Ok R sv accounts σ σ' ∧ d.treasury = treasury := by
  simp only [processInitSettings, bind_eq_ok, Prod.exists, nextAccountInfo_eq_ok,
    assertSigner_eq_ok, assertWritable_eq_ok, assertSystemProgram_eq_ok, orFail_eq_ok,
    assertPda_eq_ok, assertUninitialized_eq_ok, and_assoc, true_and, existsAndEq, exists_and_left,
    exists_const] at h
  obtain ⟨a, s, pd, sys, rest, hacc, hsig, -, _, _, hup, -, b, hb, hfree, _, σ₁, hcr, hser⟩ := h
  obtain ⟨hup, rfl⟩ := assertUpgradeAuthority_ok hup
  obtain ⟨-, -, rfl, hsp⟩ := createPdaAccount_ok hcr
  have hpost := serializeInto_create hser (initialSettings a.key treasury).length
  refine ⟨⟨a.key, s.key, pd.key, treasury⟩, ⟨?_, ⟨a, by simp [hacc], hsig, rfl⟩, hup, ⟨b, hb⟩,
    hfree, hpost, ?_⟩, rfl⟩
  · simp [keysOf, hacc]
  · rw [hpost]
    exact hsp.trans (.put _ _)

/-! ## 2. The settings mutations -/

/-- The one field a settings mutation replaces; a rate is bounded. -/
inductive SettingsChange (s : ProgramSettings) : ProgramSettings → Prop where
  | admin (k : Pubkey) : SettingsChange s { s with admin := k }
  | treasury (k : Pubkey) : SettingsChange s { s with treasury := k }
  | baseFee {b : UInt32} (hb : b ≤ maxFeeCutBps) : SettingsChange s { s with baseFeeBps := b }
  | authorFeeCut {b : UInt32} (hb : b ≤ maxFeeCutBps) :
      SettingsChange s { s with authorFeeCutBps := b }
  | entryCut {b : UInt32} (hb : b ≤ maxFeeCutBps) : SettingsChange s { s with entryCutBps := b }
  | likeCut {b : UInt32} (hb : b ≤ maxFeeCutBps) : SettingsChange s { s with likeCutBps := b }

theorem SettingsChange.tag_eq {s s' : ProgramSettings} (h : SettingsChange s s') :
    s'.tag = s.tag := by
  cases h <;> rfl

structure SettingsEdit where
  authority : Pubkey
  settings : Pubkey
  old : ProgramSettings
  new : ProgramSettings

structure SettingsEdit.Ok (R : Runtime) (accounts : List AccountInfo) (d : SettingsEdit)
    (σ σ' : Ledger) : Prop where
  signer : d.authority ∈ signers accounts
  addr : R.HasAddress .settings d.settings
  holds : σ.Holds R d.settings d.old
  tag : d.old.tag = tagSettings
  admin : d.old.admin = d.authority
  change : SettingsChange d.old d.new
  post : σ' = σ.put d.settings d.new

theorem updateSettings_edit {update : ProgramSettings → ProgramSettings}
    (hu : ∀ s, SettingsChange s (update s))
    (h : updateSettings R accounts update σ = .ok (u, σ')) :
    ∃ d : SettingsEdit, d.Ok R accounts σ σ' ∧ d.new = update d.old := by
  simp only [updateSettings, bind_eq_ok, Prod.exists, nextAccountInfo_eq_ok, and_assoc, true_and,
    existsAndEq, exists_and_left] at h
  obtain ⟨a, s, rest, hacc, x, _, hload, hser⟩ := h
  obtain ⟨hx, htag, haddr, hsig, hadm, rfl⟩ := loadAdminSettings_ok hload
  refine ⟨⟨a.key, s.key, x, update x⟩, ⟨⟨a, by simp [hacc], hsig, rfl⟩, haddr, hx, htag, hadm, hu x,
    serializeInto_ok hser ?_⟩, rfl⟩
  rw [hx.data, ProgramSettings.length, ProgramSettings.length]

theorem updateSettings_ok {update : ProgramSettings → ProgramSettings}
    (hu : ∀ s, SettingsChange s (update s))
    (h : updateSettings R accounts update σ = .ok (u, σ')) :
    ∃ d : SettingsEdit, d.Ok R accounts σ σ' := by
  obtain ⟨d, hd, -⟩ := updateSettings_edit hu h
  exact ⟨d, hd⟩

theorem updatePlatformSetting_edit {fee : UInt32} {update : ProgramSettings → ProgramSettings}
    (hu : ∀ s, fee ≤ maxFeeCutBps → SettingsChange s (update s))
    (h : updatePlatformSetting R accounts fee update σ = .ok (u, σ')) :
    fee ≤ maxFeeCutBps ∧ ∃ d : SettingsEdit, d.Ok R accounts σ σ' ∧ d.new = update d.old := by
  simp only [updatePlatformSetting, bind_eq_ok, failIf_eq_ok, and_assoc, true_and, existsAndEq,
    exists_and_left, exists_const, UInt32.not_lt] at h
  obtain ⟨hfee, h⟩ := h
  exact ⟨hfee, updateSettings_edit (fun s => hu s hfee) h⟩

theorem updatePlatformSetting_ok {fee : UInt32} {update : ProgramSettings → ProgramSettings}
    (hu : ∀ s, fee ≤ maxFeeCutBps → SettingsChange s (update s))
    (h : updatePlatformSetting R accounts fee update σ = .ok (u, σ')) :
    ∃ d : SettingsEdit, d.Ok R accounts σ σ' := by
  obtain ⟨-, d, hd, -⟩ := updatePlatformSetting_edit hu h
  exact ⟨d, hd⟩

/-! ## 3. The sweeps -/

/-- The payments of a sweep, shard by shard; a free address has nothing to sweep. -/
def Ledger.sweep (σ : Ledger) (rentMin : Nat) (recipient : Pubkey) : List Pubkey → Ledger
  | [] => σ
  | k :: ks =>
    if σ.Free k then σ.sweep rentMin recipient ks
    else (σ.pay k recipient (σ.lamports k - rentMin)).sweep rentMin recipient ks

@[simp] theorem Ledger.sweep_data (σ : Ledger) (r : Nat) (q : Pubkey) (ks : List Pubkey) :
    (σ.sweep r q ks).data = σ.data := by
  induction ks generalizing σ with
  | nil => rfl
  | cons k ks ih =>
    unfold sweep
    split
    · exact ih σ
    · exact ih _

@[simp] theorem Ledger.sweep_owner (σ : Ledger) (r : Nat) (q : Pubkey) (ks : List Pubkey) :
    (σ.sweep r q ks).owner = σ.owner := by
  induction ks generalizing σ with
  | nil => rfl
  | cons k ks ih =>
    unfold sweep
    split
    · exact ih σ
    · exact ih _

@[simp] theorem cells_sweep {r : Nat} {q : Pubkey} {ks : List Pubkey} :
    (σ.sweep r q ks).cell R = σ.cell R := by
  funext k
  exact cell_congr (by simp) (by simp)

/-- Every listed account that is not free belongs to the program and passed the validation. -/
theorem sweepShards_ok {I : Type} {recipient : AccountInfo} {r : Nat}
    {validate : AccountInfo → I → Handler UInt8} {P : Pubkey → I → Prop}
    (hv : ∀ a i b τ τ', validate a i τ = .ok (b, τ') → P a.key i ∧ τ' = τ)
    {shards : List (AccountInfo × I)} {u : Unit}
    (h : sweepShards R recipient r validate shards σ = .ok (u, σ')) :
    σ' = σ.sweep r recipient.key (shards.map (·.1.key)) ∧
      ∀ x ∈ shards, ¬ σ.Free x.1.key → σ.owner x.1.key = R.programId ∧ P x.1.key x.2 := by
  induction shards generalizing σ with
  | nil =>
    obtain ⟨-, rfl⟩ := pure_eq_ok.mp h
    exact ⟨rfl, by simp⟩
  | cons x shards ih =>
    obtain ⟨a, i⟩ := x
    simp only [sweepShards, bind_eq_ok (x := isUninitialized _), isUninitialized_eq_ok, and_assoc,
      true_and, existsAndEq, decide_eq_true_eq] at h
    rcases ite_eq_ok.mp h with ⟨hf, h⟩ | ⟨hf, h⟩
    · obtain ⟨hpost, hall⟩ := ih h
      refine ⟨?_, ?_⟩
      · rw [hpost, List.map_cons, Ledger.sweep, if_pos hf]
      · rintro x hx hx'
        rcases List.mem_cons.mp hx with rfl | hx
        · exact absurd hf hx'
        · exact hall x hx hx'
    · simp only [bind_eq_ok, assertWritable_eq_ok, assertOwnedBy_eq_ok, and_assoc, true_and,
        existsAndEq, exists_and_left, exists_const] at h
      obtain ⟨-, ho, _, _, hval, _, _, hsw, hrest⟩ := h
      obtain ⟨hP, rfl⟩ := hv _ _ _ _ _ hval
      have hpay := sweepShardExcess_ok hsw
      subst hpay
      obtain ⟨hpost, hall⟩ := ih hrest
      refine ⟨?_, ?_⟩
      · rw [hpost, List.map_cons, Ledger.sweep, if_neg hf]
      · rintro x hx hx'
        rcases List.mem_cons.mp hx with rfl | hx
        · exact ⟨ho, hP⟩
        · exact hall x hx hx'

/-- A sweep of treasury shards. -/
structure TreasurySweep where
  settings : Pubkey
  current : ProgramSettings
  recipient : Pubkey
  shards : List Pubkey

structure TreasurySweep.Ok (R : Runtime) (sv : Sysvars) (accounts : List AccountInfo)
    (d : TreasurySweep) (σ σ' : Ledger) : Prop where
  keys : keysOf accounts = d.settings :: d.recipient :: d.shards
  addr : R.HasAddress .settings d.settings
  holds : σ.Holds R d.settings d.current
  tag : d.current.tag = tagSettings
  recipient : d.recipient = d.current.treasury
  shards : ∀ k ∈ d.shards, ¬ σ.Free k → σ.owner k = R.programId ∧
    ∃ i, i < nTreasuryShards ∧ R.HasAddress (.treasuryShard i) k
  post : σ' = σ.sweep (sv.rent 0) d.recipient d.shards

/-- A sweep of a thread's author shards. -/
structure AuthorSweep where
  thread : Pubkey
  node : ThreadNode
  recipient : Pubkey
  shards : List Pubkey

structure AuthorSweep.Ok (R : Runtime) (sv : Sysvars) (accounts : List AccountInfo)
    (d : AuthorSweep) (σ σ' : Ledger) : Prop where
  keys : keysOf accounts = d.thread :: d.recipient :: d.shards
  holds : σ.Holds R d.thread d.node
  tag : d.node.tag = tagThread
  recipient : d.recipient = d.node.author
  signer : d.recipient ∈ signers accounts
  shards : ∀ k ∈ d.shards, ¬ σ.Free k → σ.owner k = R.programId ∧
    ∃ i, i < nAuthorFeeShards ∧ R.HasAddress (.authorFee d.thread i) k
  post : σ' = σ.sweep (sv.rent 0) d.recipient d.shards

/-- Pairing the accounts with as many indices loses none of them. -/
theorem map_key_zip {I : Type} {as : List AccountInfo} {is : List I} (h : as.length = is.length) :
    (as.zip is).map (·.1.key) = keysOf as := by
  have hfst : (as.zip is).map Prod.fst = as := List.map_fst_zip (Nat.le_of_eq h)
  rw [keysOf, ← congrArg (List.map (·.key)) hfst, List.map_map]
  rfl

theorem processSweepTreasury_ok {is : List UInt16}
    (h : processSweepTreasury R sv accounts is σ = .ok (u, σ')) :
    ∃ d : TreasurySweep, d.Ok R sv accounts σ σ' := by
  simp only [processSweepTreasury, bind_eq_ok, Prod.exists, nextAccountInfo_eq_ok, failIf_eq_ok,
    assertWritable_eq_ok, and_assoc, true_and, existsAndEq, exists_and_left, exists_const, ne_eq,
    not_not] at h
  obtain ⟨s, w, rest, hacc, x, _, hload, htr, -, -, hlen, hsw⟩ := h
  obtain ⟨hx, htag, haddr, rfl⟩ := loadSettings_ok hload
  obtain ⟨hpost, hall⟩ := sweepShards_ok
    (P := fun k i => i < nTreasuryShards ∧ R.HasAddress (.treasuryShard i) k)
    (fun a i b τ τ' hv => by
      obtain ⟨hi, ha, hτ⟩ := validateTreasuryShard_ok hv
      exact ⟨⟨hi, ha⟩, hτ⟩) hsw
  rw [map_key_zip hlen] at hpost
  refine ⟨⟨s.key, x, w.key, keysOf rest⟩, ⟨by simp [keysOf, hacc], haddr, hx, htag, htr,
    fun k hk hf => ?_, hpost⟩⟩
  rw [← map_key_zip hlen] at hk
  obtain ⟨y, hy, rfl⟩ := List.mem_map.mp hk
  obtain ⟨ho, hP⟩ := hall y hy hf
  exact ⟨ho, y.2, hP⟩

theorem processSweepAuthorFees_ok {is : List UInt8}
    (h : processSweepAuthorFees R sv accounts is σ = .ok (u, σ')) :
    ∃ d : AuthorSweep, d.Ok R sv accounts σ σ' := by
  simp only [processSweepAuthorFees, bind_eq_ok, Prod.exists, nextAccountInfo_eq_ok, failIf_eq_ok,
    assertSigner_eq_ok, assertWritable_eq_ok, and_assoc, true_and, existsAndEq, exists_and_left,
    exists_const, ne_eq, not_not] at h
  obtain ⟨t, w, rest, hacc, x, _, hload, hau, hsig, -, -, hlen, hsw⟩ := h
  obtain ⟨hx, htag, rfl⟩ := loadThread_ok hload
  obtain ⟨hpost, hall⟩ := sweepShards_ok
    (P := fun k i => i < nAuthorFeeShards ∧ R.HasAddress (.authorFee t.key i) k)
    (fun a i b τ τ' hv => by
      obtain ⟨hi, ha, hτ⟩ := validateAuthorFeeShard_ok hv
      exact ⟨⟨hi, ha⟩, hτ⟩) hsw
  rw [map_key_zip hlen] at hpost
  refine ⟨⟨t.key, x, w.key, keysOf rest⟩, ⟨by simp [keysOf, hacc], hx, htag, hau,
    ⟨w, by simp [hacc], hsig, rfl⟩, fun k hk hf => ?_, hpost⟩⟩
  rw [← map_key_zip hlen] at hk
  obtain ⟨y, hy, rfl⟩ := List.mem_map.mp hk
  obtain ⟨ho, hP⟩ := hall y hy hf
  exact ⟨ho, y.2, hP⟩

end Txtcel
