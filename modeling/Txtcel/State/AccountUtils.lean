import Txtcel.Effects
import Txtcel.State.Pda

/-!
# Checks, rent, creation and closing

`state/asserts.rs` and `state/account_utils.rs`. Below each function stands what a successful call
of it did; no later proof unfolds one of them.

`create_pda_account` has three routes (empty address, underfunded address, funded address). They
have one effect, `Ledger.create`, and one condition, that the account is free
(`createPdaAccount_ok`): sending lamports to an address ahead of time changes neither.
-/

namespace Txtcel

open Lib Exec Borsh Function

variable {R : Runtime} {sv : Sysvars} {σ σ' : Ledger} {u : Unit}

/-! ## 1. `asserts.rs` -/

def assertSigner (account : AccountInfo) : Handler Unit :=
  require (account.isSigner = true) ProtocolError.missingSigner

def assertWritable (account : AccountInfo) : Handler Unit :=
  require (account.isWritable = true) ProtocolError.notWritable

/-- System-owned and empty. -/
def isUninitialized (account : AccountInfo) : Handler Bool := do
  let owner ← ownerOf account
  let data ← dataOf account
  pure (owner = systemProgram && data.length = 0)

def assertUninitialized (account : AccountInfo) : Handler Unit := do
  let fresh ← isUninitialized account
  require (fresh = true) ProtocolError.accountAlreadyInitialized

def assertSystemProgram (account : AccountInfo) : Handler Unit :=
  require (account.key = systemProgram) .incorrectProgramId

def assertOwnedBy (account : AccountInfo) (owner : Pubkey) : Handler Unit := do
  let o ← ownerOf account
  require (o = owner) ProtocolError.accountOwnerMismatch

def assertPda (account : AccountInfo) (expected : Pubkey) : Handler Unit :=
  failIf (account.key ≠ expected) ProtocolError.invalidPda

/-- The first byte. -/
def readTag (account : AccountInfo) : Handler UInt8 := do
  let data ← dataOf account
  orFail data.head? ProtocolError.invalidAccountData

/-- The loader's own PDA holds the upgrade authority of the program in bytes 13 to 44. -/
def assertUpgradeAuthority (R : Runtime) (programdata authority : AccountInfo) : Handler Unit := do
  let (expected, _) ← orFail
    (R.findProgramAddress [R.programId.bytes] bpfLoaderUpgradeableId) .panicked
  assertPda programdata expected
  assertOwnedBy programdata bpfLoaderUpgradeableId
  let data ← dataOf programdata
  failIf (data.length < 45 ∨ data[12]? ≠ some 1) ProtocolError.unauthorized
  failIf (authority.key.bytes ≠ (data.drop 13).take 32) ProtocolError.unauthorized

@[simp] theorem assertSigner_eq_ok {a : AccountInfo} :
    assertSigner a σ = .ok (u, σ') ↔ a.isSigner = true ∧ σ' = σ := require_eq_ok

@[simp] theorem assertWritable_eq_ok {a : AccountInfo} :
    assertWritable a σ = .ok (u, σ') ↔ a.isWritable = true ∧ σ' = σ := require_eq_ok

@[simp] theorem assertSystemProgram_eq_ok {a : AccountInfo} :
    assertSystemProgram a σ = .ok (u, σ') ↔ a.key = systemProgram ∧ σ' = σ := require_eq_ok

@[simp] theorem assertPda_eq_ok {a : AccountInfo} {k : Pubkey} :
    assertPda a k σ = .ok (u, σ') ↔ a.key = k ∧ σ' = σ := by
  simp [assertPda]

@[simp] theorem assertOwnedBy_eq_ok {a : AccountInfo} {o : Pubkey} :
    assertOwnedBy a o σ = .ok (u, σ') ↔ σ.owner a.key = o ∧ σ' = σ := by
  simp only [assertOwnedBy, bind_eq_ok, ownerOf_eq_ok, require_eq_ok, and_assoc, true_and, existsAndEq]

@[simp] theorem isUninitialized_eq_ok {a : AccountInfo} {b : Bool} :
    isUninitialized a σ = .ok (b, σ') ↔ b = decide (σ.Free a.key) ∧ σ' = σ := by
  simp only [isUninitialized, Ledger.Free, bind_eq_ok, ownerOf_eq_ok, dataOf_eq_ok, pure_eq_ok,
    and_assoc, true_and, existsAndEq, List.length_eq_zero_iff]
  rw [← Bool.decide_and]
  exact Iff.rfl

@[simp] theorem assertUninitialized_eq_ok {a : AccountInfo} :
    assertUninitialized a σ = .ok (u, σ') ↔ σ.Free a.key ∧ σ' = σ := by
  simp [assertUninitialized]

@[simp] theorem readTag_eq_ok {a : AccountInfo} {t : UInt8} :
    readTag a σ = .ok (t, σ') ↔ (σ.data a.key).head? = some t ∧ σ' = σ := by
  simp only [readTag, bind_eq_ok, dataOf_eq_ok, orFail_eq_ok, and_assoc, true_and, existsAndEq]

/-- `authority` is the upgrade authority that the loader's account for the program records. -/
def IsUpgradeAuthority (R : Runtime) (σ : Ledger) (programdata authority : Pubkey) : Prop :=
  (∃ b, R.findProgramAddress [R.programId.bytes] bpfLoaderUpgradeableId = some (programdata, b)) ∧
    σ.owner programdata = bpfLoaderUpgradeableId ∧ 45 ≤ (σ.data programdata).length ∧
    (σ.data programdata)[12]? = some 1 ∧
    authority.bytes = ((σ.data programdata).drop 13).take 32

theorem assertUpgradeAuthority_ok {p a : AccountInfo}
    (h : assertUpgradeAuthority R p a σ = .ok (u, σ')) :
    IsUpgradeAuthority R σ p.key a.key ∧ σ' = σ := by
  simp only [assertUpgradeAuthority, bind_eq_ok, orFail_eq_ok, assertPda_eq_ok,
    assertOwnedBy_eq_ok, dataOf_eq_ok, failIf_eq_ok, not_or, not_lt, ne_eq, not_not, and_assoc,
    true_and, existsAndEq, exists_and_left, exists_const, Prod.exists] at h
  obtain ⟨b, hfind, hown, hlen, h12, hauth, hσ⟩ := h
  exact ⟨⟨⟨b, hfind⟩, hown, hlen, h12, hauth⟩, hσ⟩

/-! ## 2. Payments -/

/-- What a transfer through the System Program did. -/
theorem invokeTransfer_ok {src dst : AccountInfo} {n : Nat}
    (h : invokeTransfer src dst n σ = .ok (u, σ')) :
    σ' = σ.pay src.key dst.key n ∧ σ.Spends src.key σ' := by
  simp only [invokeTransfer, SystemProgram.transfer, bind_eq_ok, require_eq_ok, get_eq_ok,
    modify_eq_ok, and_assoc, true_and, existsAndEq, exists_and_left, exists_const] at h
  obtain ⟨-, -, -, -, hn, ho, -, rfl⟩ := h
  exact ⟨rfl, .pay _ (ho.imp id fun ho => ⟨ho, hn⟩)⟩

/-! ## 3. `account_utils.rs` -/

/-- Tops the account up to the rent-exempt minimum for `dataLen` bytes. -/
def ensureRentExempt (sv : Sysvars) (payer target : AccountInfo) (dataLen : Nat) :
    Handler Unit := do
  let minimum := sv.rent dataLen
  let current ← lamportsOf target
  if minimum ≤ current then
    pure ()
  else
    let topUp := minimum - current
    onlyIf (0 < topUp) (invokeTransfer payer target topUp)

/-- Everything goes to the recipient, which is credited first; then the account is emptied and
    handed to the System Program. -/
def closeProgramAccount (account recipient : AccountInfo) : Handler Unit := do
  let lamports ← lamportsOf account
  let received ← lamportsOf recipient
  let sum ← orFail (checkedAdd64 received lamports) ProtocolError.invalidAccountData
  modify (·.setLamports recipient.key sum)
  modify (·.setLamports account.key 0)
  let data ← dataOf account
  modify (·.setData account.key (List.replicate data.length 0))
  resize account 0
  modify (·.setOwner account.key systemProgram)

/-- Creates a program-owned account at an address that may already hold lamports. -/
def createPdaAccount (R : Runtime) (sv : Sysvars) (payer target systemProgramAccount : AccountInfo)
    (space : Nat) (signerSeeds : List Bytes) : Handler Unit := do
  assertSystemProgram systemProgramAccount
  let required := sv.rent space
  let current ← lamportsOf target
  if current = 0 then
    invokeCreateAccount R payer target required space R.programId [signerSeeds]
  else do
    onlyIf (current < required) (invokeTransfer payer target (required - current))
    invokeAllocate R target space [signerSeeds]
    invokeAssign R target R.programId [signerSeeds]

/-- What a creation through the System Program did. -/
theorem invokeCreateAccount_ok {src dst : AccountInfo} {n space : Nat} {o : Pubkey}
    {seeds : List (List Bytes)} (ho : o ≠ systemProgram)
    (h : invokeCreateAccount R src dst n space o seeds σ = .ok (u, σ')) :
    src.isSigner = true ∧ σ.lamports dst.key = 0 ∧ σ.Free dst.key ∧
      (0 < space → dst.key ≠ src.key) ∧
      σ' = σ.create src.key dst.key o n space ∧ σ.Spends src.key σ' := by
  simp only [invokeCreateAccount, SystemProgram.createAccount, SystemProgram.allocate,
    SystemProgram.assign, SystemProgram.transfer, bind_eq_ok, require_eq_ok, get_eq_ok,
    modify_eq_ok, and_assoc, true_and, existsAndEq, exists_and_left, exists_const] at h
  obtain ⟨hsig, -, -, -, h0, hdata, hown, -, hsrc, hn, hpay, -, rfl⟩ := h
  have hne : 0 < space → dst.key ≠ src.key := by
    intro hs heq
    simp only [Ledger.setOwner_data, Ledger.setData_data, heq, update_self,
      List.replicate_eq_nil_iff] at hsrc
    omega
  have hpaid : n = 0 ∨ σ.owner src.key = systemProgram ∧ n ≤ σ.lamports src.key := by
    by_cases heq : dst.key = src.key
    · left
      simp only [Ledger.setOwner_lamports, Ledger.setData_lamports, ← heq, h0] at hn
      omega
    · refine hpay.imp id fun hp => ⟨?_, hn⟩
      rwa [Ledger.setOwner_owner, update_of_ne (Ne.symm heq), Ledger.setData_owner] at hp
  refine ⟨hsig, h0, ⟨hown, hdata⟩, hne, ?_, ?_⟩
  · ext1 <;> simp [Ledger.create, h0, Ledger.pay]
  · exact (Ledger.Spends.pay _ hpaid).trans (.allot _ ho)

theorem ensureRentExempt_ok {payer target : AccountInfo} {n : Nat}
    (h : ensureRentExempt sv payer target n σ = .ok (u, σ')) :
    σ' = σ.pay payer.key target.key (sv.rent n - σ.lamports target.key) ∧
      σ.Spends payer.key σ' := by
  simp only [ensureRentExempt, bind_eq_ok, lamportsOf_eq_ok, and_assoc, true_and, existsAndEq] at h
  rcases ite_eq_ok.mp h with ⟨hle, h⟩ | ⟨hlt, h⟩
  · obtain ⟨-, rfl⟩ := pure_eq_ok.mp h
    rw [Nat.sub_eq_zero_of_le hle, Ledger.pay_zero]
    exact ⟨rfl, .refl _ _⟩
  · rcases onlyIf_eq_ok.mp h with ⟨-, h⟩ | ⟨h0, -⟩
    · exact invokeTransfer_ok h
    · omega

/-- **Closing moves the whole balance** to a recipient other than the account itself, and leaves a
    free account. -/
theorem closeProgramAccount_ok {account recipient : AccountInfo} (hne : recipient.key ≠ account.key)
    (h : closeProgramAccount account recipient σ = .ok (u, σ')) :
    σ' = (σ.pay account.key recipient.key (σ.lamports account.key)).allot
      account.key 0 systemProgram := by
  simp only [closeProgramAccount, bind_eq_ok, lamportsOf_eq_ok, orFail_eq_ok, modify_eq_ok,
    dataOf_eq_ok, resize_eq_ok, checkedAdd64_eq_some, and_assoc, true_and, existsAndEq,
    exists_and_left, exists_const] at h
  obtain ⟨-, rfl⟩ := h
  ext1
  · simp [Ledger.pay, hne, update_comm hne]
  · simp [Ledger.allot]
  · simp [Ledger.allot]

/-- **The three routes have one effect.** -/
theorem createPdaAccount_ok {payer target sys : AccountInfo} {space : Nat} {seeds : List Bytes}
    (h : createPdaAccount R sv payer target sys space seeds σ = .ok (u, σ')) :
    sys.key = systemProgram ∧ σ.Free target.key ∧
      σ' = σ.create payer.key target.key R.programId (sv.rent space) space ∧
      σ.Spends payer.key σ' := by
  simp only [createPdaAccount, bind_eq_ok (x := assertSystemProgram _), bind_eq_ok (x := lamportsOf _),
    assertSystemProgram_eq_ok, lamportsOf_eq_ok, and_assoc, true_and, existsAndEq,
    exists_and_left, exists_const] at h
  obtain ⟨hsys, h⟩ := h
  rcases ite_eq_ok.mp h with ⟨h0, h⟩ | ⟨h0, h⟩
  · obtain ⟨-, -, hfree, -, hσ, hsp⟩ := invokeCreateAccount_ok R.programId_ne h
    exact ⟨hsys, hfree, hσ, hsp⟩
  · simp only [bind_eq_ok, invokeAllocate, invokeAssign, SystemProgram.allocate,
      SystemProgram.assign, require_eq_ok, get_eq_ok, modify_eq_ok, and_assoc, true_and, existsAndEq,
      exists_and_left, exists_const] at h
    obtain ⟨_, σ₁, hpay, -, -, hdata, hown, -, -, -, rfl⟩ := h
    have htop : σ₁ = σ.pay payer.key target.key (sv.rent space - σ.lamports target.key) ∧
        σ.Spends payer.key σ₁ := by
      rcases onlyIf_eq_ok.mp hpay with ⟨_, hp⟩ | ⟨hge, rfl⟩
      · exact invokeTransfer_ok hp
      · rw [Nat.sub_eq_zero_of_le (Nat.le_of_not_lt hge), Ledger.pay_zero]
        exact ⟨rfl, .refl _ _⟩
    obtain ⟨rfl, hsp⟩ := htop
    have hsp' := hsp.trans (.allot (k := target.key) space R.programId_ne)
    exact ⟨hsys, ⟨hown, hdata⟩, rfl, hsp'⟩

end Txtcel
