import Mathlib.Data.FinEnum
import Mathlib.Data.Fintype.Vector
import Mathlib.Logic.Function.Basic
import Txtcel.Lib.Exec
import Txtcel.Lib.Borsh

/-!
# The platform: addresses, accounts, the System Program

What the program relies on and does not contain. An account is three things that change
independently -- lamports, data, owner -- and the ledger is read by address: every address has an
account, and one nobody has touched is owned by the System Program and holds no data. Handing one
account to an instruction twice therefore gives two handles on the same cells (`AccountInfo`).

* Program-derived addresses (`Runtime`): `findProgramAddress` hashes the seeds, a bump byte, the
  program id and a marker, and takes the first bump from 255 down to 1 whose hash is not a point
  of the curve. The hash and the curve test are parameters.
* The System Program: `transfer`, `create_account`, `allocate`, `assign`, with its own checks and
  the runtime's rule that only the owner debits an account.
* `invoke`/`invoke_signed`: the privilege check of the account metas. A program signs for an
  address it can derive from the seeds it passes.

The runtime checks a transaction again after its instructions: balances add up, read-only accounts
and foreign data are untouched, every account is rent exempt or empty. The steps here do not have
these checks and so allow every step of the runtime, and more: a `CloseAccount` whose payer is
read-only goes through. That an instruction keeps the sum of the balances is proved of the handlers.
The largest account, a full follow registry, has 32037 bytes, and no instruction grows an account by
more than the 10240 bytes the runtime allows.
-/

namespace Txtcel

open Lib Function

/-! ## 1. Addresses -/

/-- A 32-byte address. -/
structure Pubkey where
  bytes : Bytes
  size_eq : bytes.length = 32

namespace Pubkey

theorem bytes_inj {a b : Pubkey} (h : a.bytes = b.bytes) : a = b := by
  cases a
  cases b
  cases h
  rfl

instance : DecidableEq Pubkey := fun a b =>
  decidable_of_iff (a.bytes = b.bytes) ⟨bytes_inj, fun h => h ▸ rfl⟩

def toVector (k : Pubkey) : List.Vector UInt8 32 := ⟨k.bytes, k.size_eq⟩

/-- There are finitely many addresses. -/
instance : Finite Pubkey :=
  Finite.of_injective toVector fun _ _ h => bytes_inj (congrArg List.Vector.toList h)

/-- An address is stored as its 32 bytes. -/
instance : Borsh Pubkey where
  serialize k := k.bytes
  deserialize bs :=
    if h : 32 ≤ bs.length then
      some (⟨bs.take 32, by simpa using h⟩, bs.drop 32)
    else none
  Fits _ := True
  deserialize_serialize k rest _ := by
    have hlen : 32 ≤ (k.bytes ++ rest).length := by simp [k.size_eq]
    have htake : (k.bytes ++ rest).take 32 = k.bytes := List.take_left' k.size_eq
    have hdrop : (k.bytes ++ rest).drop 32 = rest := List.drop_left' k.size_eq
    simp only [hlen, dif_pos, htake, hdrop]
  of_deserialize := by
    intro bs k rest h
    split at h
    · cases h
      exact ⟨trivial, (List.take_append_drop 32 bs).symm⟩
    · cases h

@[simp] theorem serialize_length (k : Pubkey) : (Borsh.serialize k).length = 32 := k.size_eq

end Pubkey

/-- The System Program's id: 32 zero bytes. -/
def systemProgram : Pubkey := ⟨List.replicate 32 0, rfl⟩

/-- `BPFLoaderUpgradeab1e11111111111111111111111`. -/
def bpfLoaderUpgradeableId : Pubkey :=
  ⟨[2, 168, 246, 145, 78, 136, 161, 176, 226, 16, 21, 62, 247, 99, 174, 43,
    0, 194, 185, 61, 22, 193, 36, 210, 192, 83, 122, 16, 4, 128, 0, 0], rfl⟩

/-! ## 2. Program-derived addresses -/

/-- What a deployment of the program runs on: its own id, the hash and the curve test. -/
structure Runtime where
  programId : Pubkey
  programId_ne : programId ≠ systemProgram
  hash : Bytes → Pubkey
  onCurve : Pubkey → Bool

/-- `b"ProgramDerivedAddress"` -/
def pdaMarker : Bytes :=
  [80, 114, 111, 103, 114, 97, 109, 68, 101, 114, 105, 118, 101, 100, 65, 100, 100, 114, 101,
    115, 115]

namespace Runtime

variable (R : Runtime)

/-- The hash of the plain concatenation of the seeds, the program id and the marker; no address
    when it is a point of the curve. -/
def createProgramAddress (seeds : List Bytes) (programId : Pubkey) : Option Pubkey :=
  let k := R.hash (seeds.flatten ++ programId.bytes ++ pdaMarker)
  if R.onCurve k then none else some k

theorem hash_of_create {seeds : List Bytes} {programId k : Pubkey}
    (h : R.createProgramAddress seeds programId = some k) :
    R.hash (seeds.flatten ++ programId.bytes ++ pdaMarker) = k := by
  simp only [createProgramAddress] at h
  split at h
  · cases h
  · exact Option.some.inj h

theorem not_onCurve_of_create {seeds : List Bytes} {programId k : Pubkey}
    (h : R.createProgramAddress seeds programId = some k) : R.onCurve k = false := by
  simp only [createProgramAddress] at h
  split at h
  · cases h
  · rename_i hcurve
    obtain rfl := Option.some.inj h
    exact Bool.eq_false_iff.mpr hcurve

/-- The bumps in the order they are tried: 255 down to 1. -/
def bumps : List UInt8 := (List.range 255).map fun i => UInt8.ofNat (255 - i)

/-- The first bump that gives an address. The real function panics when there is none. -/
def findProgramAddress (seeds : List Bytes) (programId : Pubkey) : Option (Pubkey × UInt8) :=
  bumps.findSome? fun b => (R.createProgramAddress (seeds ++ [[b]]) programId).map (·, b)

/-- What was found is the address of the seeds with that bump. -/
theorem findProgramAddress_spec {seeds : List Bytes} {programId k : Pubkey} {b : UInt8}
    (h : R.findProgramAddress seeds programId = some (k, b)) :
    R.createProgramAddress (seeds ++ [[b]]) programId = some k := by
  obtain ⟨b', -, hb⟩ := List.exists_of_findSome?_eq_some h
  obtain ⟨k', hk, e⟩ := Option.map_eq_some_iff.mp hb
  cases e
  exact hk

end Runtime

/-! ## 3. Errors -/

/-- How an instruction can stop: `solana_program::ProgramError`, the runtime's own refusals, and a
    panic of the program. -/
inductive ProgramError where
  | custom (code : Nat)
  | incorrectProgramId
  | notEnoughAccountKeys
  | borshIoError
  | invalidArgument
  | arithmeticOverflow
  | privilegeEscalation
  | externalAccountLamportSpend
  | panicked
  deriving DecidableEq, Repr

/-- `SystemError::AccountAlreadyInUse` -/
def accountAlreadyInUse : ProgramError := .custom 0

/-- `SystemError::ResultWithNegativeLamports` -/
def resultWithNegativeLamports : ProgramError := .custom 1

/-! ## 4. The ledger -/

/-- Every account, by address. -/
structure Ledger where
  lamports : Pubkey → Nat
  data : Pubkey → Bytes
  owner : Pubkey → Pubkey

/-- A handle on an account, with the rights the transaction gives it. -/
structure AccountInfo where
  key : Pubkey
  isSigner : Bool
  isWritable : Bool

/-- The sysvars an instruction reads: `Rent::get()?.minimum_balance` and
    `Clock::get()?.unix_timestamp`. -/
structure Sysvars where
  minimumBalance : Nat → UInt64
  unixTimestamp : Int64

/-- The rent-exempt minimum for `n` bytes of data. -/
def Sysvars.rent (sv : Sysvars) (n : Nat) : Nat := (sv.minimumBalance n).toNat

theorem Sysvars.rent_lt (sv : Sysvars) (n : Nat) : sv.rent n < 2 ^ 64 :=
  (sv.minimumBalance n).toNat_lt

namespace Ledger

variable (σ : Ledger)

def setLamports (k : Pubkey) (n : Nat) : Ledger := { σ with lamports := update σ.lamports k n }

def setData (k : Pubkey) (bs : Bytes) : Ledger := { σ with data := update σ.data k bs }

def setOwner (k : Pubkey) (o : Pubkey) : Ledger := { σ with owner := update σ.owner k o }

/-- `n` lamports leave `src` and arrive at `dst`. -/
def pay (src dst : Pubkey) (n : Nat) : Ledger :=
  let lam := update σ.lamports src (σ.lamports src - n)
  { σ with lamports := update lam dst (lam dst + n) }

/-- `size` zero bytes and a new owner. -/
def allot (k : Pubkey) (size : Nat) (o : Pubkey) : Ledger :=
  { σ with data := update σ.data k (List.replicate size 0), owner := update σ.owner k o }

variable (k a b o : Pubkey) (n : Nat) (bs : Bytes)

@[simp] theorem setLamports_lamports : (σ.setLamports k n).lamports = update σ.lamports k n := rfl
@[simp] theorem setLamports_data : (σ.setLamports k n).data = σ.data := rfl
@[simp] theorem setLamports_owner : (σ.setLamports k n).owner = σ.owner := rfl
@[simp] theorem setData_lamports : (σ.setData k bs).lamports = σ.lamports := rfl
@[simp] theorem setData_data : (σ.setData k bs).data = update σ.data k bs := rfl
@[simp] theorem setData_owner : (σ.setData k bs).owner = σ.owner := rfl
@[simp] theorem setOwner_lamports : (σ.setOwner k o).lamports = σ.lamports := rfl
@[simp] theorem setOwner_data : (σ.setOwner k o).data = σ.data := rfl
@[simp] theorem setOwner_owner : (σ.setOwner k o).owner = update σ.owner k o := rfl
@[simp] theorem pay_data : (σ.pay a b n).data = σ.data := rfl
@[simp] theorem pay_owner : (σ.pay a b n).owner = σ.owner := rfl
@[simp] theorem allot_lamports : (σ.allot k n o).lamports = σ.lamports := rfl
@[simp] theorem allot_data :
    (σ.allot k n o).data = update σ.data k (List.replicate n 0) := rfl
@[simp] theorem allot_owner : (σ.allot k n o).owner = update σ.owner k o := rfl

/-- The receiver of a payment, when it is not the payer. -/
theorem pay_dst (h : b ≠ a) : (σ.pay a b n).lamports b = σ.lamports b + n := by
  simp [pay, h]

/-- The payer of a payment to somebody else. -/
theorem pay_src (h : b ≠ a) : (σ.pay a b n).lamports a = σ.lamports a - n := by
  simp [pay, h.symm]

theorem pay_other (ha : k ≠ a) (hb : k ≠ b) : (σ.pay a b n).lamports k = σ.lamports k := by
  simp [pay, ha, hb]

@[simp] theorem pay_zero : σ.pay a b 0 = σ := by
  simp [pay]

end Ledger

/-- A computation of the program. -/
abbrev Handler (α : Type) := Exec ProgramError Ledger α

open Exec

/-! ## 5. The System Program -/

namespace SystemProgram

/-- `transfer`: the source carries no data and is debited by its owner. -/
def transfer (src dst : Pubkey) (amount : Nat) : Handler Unit := do
  let σ ← get
  require (σ.data src = []) .invalidArgument
  require (amount ≤ σ.lamports src) resultWithNegativeLamports
  require (amount = 0 ∨ σ.owner src = systemProgram) .externalAccountLamportSpend
  require ((σ.pay src dst amount).lamports dst < 2 ^ 64) .arithmeticOverflow
  modify (·.pay src dst amount)

/-- `allocate`: only a System-owned account without data can be given some. -/
def allocate (k : Pubkey) (space : Nat) : Handler Unit := do
  let σ ← get
  require (σ.data k = [] ∧ σ.owner k = systemProgram) accountAlreadyInUse
  modify (·.setData k (List.replicate space 0))

/-- `assign`: the System Program hands over an account it owns. -/
def assign (k owner : Pubkey) : Handler Unit := do
  let σ ← get
  require (σ.owner k = systemProgram ∨ σ.owner k = owner) .externalAccountLamportSpend
  modify (·.setOwner k owner)

/-- `create_account`: refuses a funded address, then allocates, assigns and transfers. -/
def createAccount (src dst : Pubkey) (lamports space : Nat) (owner : Pubkey) : Handler Unit := do
  let σ ← get
  require (σ.lamports dst = 0) accountAlreadyInUse
  allocate dst space
  assign dst owner
  transfer src dst lamports

end SystemProgram

/-! ## 6. Calls into the System Program -/

/-- The account signs the call: it signed the transaction, or the program derives its address from
    one of the seed lists it passes. -/
def signs (R : Runtime) (signerSeeds : List (List Bytes)) (a : AccountInfo) : Bool :=
  a.isSigner || signerSeeds.any fun s => R.createProgramAddress s R.programId == some a.key

/-- `invoke(&system_instruction::transfer(..), ..)` -/
def invokeTransfer (src dst : AccountInfo) (amount : Nat) : Handler Unit := do
  require (src.isSigner ∧ src.isWritable ∧ dst.isWritable) .privilegeEscalation
  SystemProgram.transfer src.key dst.key amount

/-- `invoke_signed(&system_instruction::create_account(..), .., signer_seeds)` -/
def invokeCreateAccount (R : Runtime) (src dst : AccountInfo) (lamports space : Nat)
    (owner : Pubkey) (signerSeeds : List (List Bytes)) : Handler Unit := do
  require (src.isSigner ∧ src.isWritable ∧ signs R signerSeeds dst ∧ dst.isWritable)
    .privilegeEscalation
  SystemProgram.createAccount src.key dst.key lamports space owner

/-- `invoke_signed(&system_instruction::allocate(..), .., signer_seeds)` -/
def invokeAllocate (R : Runtime) (target : AccountInfo) (space : Nat)
    (signerSeeds : List (List Bytes)) : Handler Unit := do
  require (signs R signerSeeds target ∧ target.isWritable) .privilegeEscalation
  SystemProgram.allocate target.key space

/-- `invoke_signed(&system_instruction::assign(..), .., signer_seeds)` -/
def invokeAssign (R : Runtime) (target : AccountInfo) (owner : Pubkey)
    (signerSeeds : List (List Bytes)) : Handler Unit := do
  require (signs R signerSeeds target ∧ target.isWritable) .privilegeEscalation
  SystemProgram.assign target.key owner

/-! ## 7. Reading and writing an account through its handle -/

def lamportsOf (a : AccountInfo) : Handler Nat := do
  let σ ← get
  pure (σ.lamports a.key)

def dataOf (a : AccountInfo) : Handler Bytes := do
  let σ ← get
  pure (σ.data a.key)

def ownerOf (a : AccountInfo) : Handler Pubkey := do
  let σ ← get
  pure (σ.owner a.key)

/-- `x.serialize(&mut &mut account.data.borrow_mut()[..])?` -/
def serializeInto {α : Type} [Borsh α] (a : AccountInfo) (x : α) : Handler Unit := do
  let buf ← dataOf a
  let out ← orFail (Borsh.overwrite buf (Borsh.serialize x)) .borshIoError
  modify (·.setData a.key out)

/-- `account.resize(n)`: cut, or padded with zeros. -/
def resize (a : AccountInfo) (n : Nat) : Handler Unit := do
  let buf ← dataOf a
  modify (·.setData a.key (buf.take n ++ List.replicate (n - buf.length) 0))

section Handle

variable {a : AccountInfo} {σ σ' : Ledger}

@[simp] theorem lamportsOf_eq_ok {n : Nat} :
    lamportsOf a σ = .ok (n, σ') ↔ n = σ.lamports a.key ∧ σ' = σ :=
  pure_eq_ok

@[simp] theorem dataOf_eq_ok {bs : Bytes} :
    dataOf a σ = .ok (bs, σ') ↔ bs = σ.data a.key ∧ σ' = σ :=
  pure_eq_ok

@[simp] theorem ownerOf_eq_ok {o : Pubkey} :
    ownerOf a σ = .ok (o, σ') ↔ o = σ.owner a.key ∧ σ' = σ :=
  pure_eq_ok

@[simp] theorem resize_eq_ok {n : Nat} {u : Unit} :
    resize a n σ = .ok (u, σ') ↔ σ' = σ.setData a.key
      ((σ.data a.key).take n ++ List.replicate (n - (σ.data a.key).length) 0) := by
  simp [resize]

/-- A buffer of the value's own length is replaced by its bytes. -/
theorem serializeInto_ok {α : Type} [Borsh α] {x : α} {u : Unit}
    (h : serializeInto a x σ = .ok (u, σ'))
    (hlen : (Borsh.serialize x).length = (σ.data a.key).length) :
    σ' = σ.setData a.key (Borsh.serialize x) := by
  simp only [serializeInto, bind_eq_ok, dataOf_eq_ok, orFail_eq_ok, modify_eq_ok] at h
  obtain ⟨_, _, ⟨rfl, rfl⟩, out, _, ⟨hout, rfl⟩, rfl⟩ := h
  rw [Borsh.overwrite_of_length_eq hlen] at hout
  cases hout
  rfl

/-- ... and that succeeds. -/
theorem serializeInto_eq {α : Type} [Borsh α] {x : α}
    (hlen : (Borsh.serialize x).length = (σ.data a.key).length) :
    serializeInto a x σ = .ok ((), σ.setData a.key (Borsh.serialize x)) := by
  simp only [serializeInto, bind_eq_ok, dataOf_eq_ok, orFail_eq_ok, modify_eq_ok]
  exact ⟨_, _, ⟨rfl, rfl⟩, _, _, ⟨Borsh.overwrite_of_length_eq hlen, rfl⟩, rfl⟩

end Handle

/-- `next_account_info` -/
def nextAccountInfo (accounts : List AccountInfo) : Handler (AccountInfo × List AccountInfo) :=
  match accounts with
  | a :: rest => pure (a, rest)
  | [] => throw .notEnoughAccountKeys

@[simp] theorem nextAccountInfo_eq_ok {accounts rest : List AccountInfo} {a : AccountInfo}
    {σ σ' : Ledger} :
    nextAccountInfo accounts σ = .ok ((a, rest), σ') ↔ accounts = a :: rest ∧ σ' = σ := by
  cases accounts with
  | nil => simp [nextAccountInfo]
  | cons b bs =>
    simp only [nextAccountInfo, pure_eq_ok, Prod.mk.injEq, List.cons.injEq]
    rw [eq_comm (a := a), eq_comm (a := rest)]

/-- `u64::checked_add` -/
def checkedAdd64 (a b : Nat) : Option Nat := if a + b < 2 ^ 64 then some (a + b) else none

@[simp] theorem checkedAdd64_eq_some {a b c : Nat} :
    checkedAdd64 a b = some c ↔ a + b < 2 ^ 64 ∧ c = a + b := by
  unfold checkedAdd64
  split
  · rename_i h
    simp only [Option.some.injEq]
    exact ⟨fun e => ⟨h, e.symm⟩, fun e => e.2.symm⟩
  · rename_i h
    exact ⟨(fun e => nomatch e), fun e => absurd e.1 h⟩

end Txtcel
