import Txtcel.Lib.BorshEnum
import Txtcel.Lib.Simulation
import Txtcel.System.Machine

/-!
# The entrypoint: from instruction data to a handler

`process_instruction` of `lib.rs` and the derived encoding of `ProgramInstruction`. A variant is
stored as its position in the enumeration and the tuple of its fields in order.

* `wire_format`: the data are accepted exactly when they are the bytes of an instruction, one
  instruction then, and the handler of that instruction decides the rest;
* `deployed_runs`: the machine that is called with bytes and the machine that is called with
  instructions (`program`) have the same runs, in lockstep. So what holds of every run of `program`
  holds of the program as its callers reach it.
-/

namespace Txtcel

open Lib Exec Borsh

/-! ## 1. `CandidateSlot` -/

namespace CandidateSlot

def equiv : CandidateSlot ≃ UInt32 × UInt8 where
  toFun x := (x.allocSeq, x.slot)
  invFun p := ⟨p.1, p.2⟩
  left_inv _ := rfl
  right_inv _ := rfl

instance : Borsh CandidateSlot := ofEquiv equiv

theorem fits (x : CandidateSlot) : Fits x := ⟨trivial, trivial⟩

end CandidateSlot

/-! ## 2. `ProgramInstruction` -/

namespace ProgramInstruction

/-- The variants, without their fields. -/
inductive Variant where
  | createRootAlloc
  | fillSlot
  | prepareAlloc
  | sweepTreasury
  | sweepAuthorFees
  | closeAccount
  | initSettings
  | setTreasury
  | initThreadAccess
  | setThreadAccess
  | addToWhitelist
  | removeFromWhitelist
  | setMessageFee
  | setBaseFee
  | setAuthorFeeCut
  | setEntryCut
  | setLikeCut
  | setLikeFee
  | setEntryFee
  | requestAccess
  | likeContent
  | addToBlacklist
  | removeFromBlacklist
  | appendContent
  | setAdmin
  | addToFeeWhitelist
  | removeFromFeeWhitelist
  | subscribe
  | unsubscribe
  deriving DecidableEq

namespace Variant

/-- In the order of the enumeration: variants are only ever appended. -/
def all : List Variant :=
  [createRootAlloc, fillSlot, prepareAlloc, sweepTreasury, sweepAuthorFees, closeAccount,
    initSettings, setTreasury, initThreadAccess, setThreadAccess, addToWhitelist,
    removeFromWhitelist, setMessageFee, setBaseFee, setAuthorFeeCut, setEntryCut, setLikeCut,
    setLikeFee, setEntryFee, requestAccess, likeContent, addToBlacklist, removeFromBlacklist,
    appendContent, setAdmin, addToFeeWhitelist, removeFromFeeWhitelist, subscribe, unsubscribe]

instance : Coded Variant :=
  codedOfList all (fun v => by cases v <;> decide) (by decide) (by decide)

/-- The fields of the variant. -/
def Payload : Variant → Type
  | createRootAlloc => UInt64 × UInt16 × Bytes
  | fillSlot => UInt16 × Bytes × List CandidateSlot × UInt16 × UInt8 × UInt32 × UInt8 × UInt64
  | prepareAlloc => UInt32
  | sweepTreasury => List UInt16
  | sweepAuthorFees => List UInt8
  | initThreadAccess => Bool × UInt16
  | setThreadAccess => Bool
  | setMessageFee | setLikeFee | setEntryFee => UInt64
  | setBaseFee | setAuthorFeeCut | setEntryCut | setLikeCut => UInt32
  | requestAccess => UInt16 × UInt8
  | likeContent => UInt32 × UInt8 × UInt16 × UInt8 × UInt64
  | appendContent => Bytes × UInt16 × UInt8
  | initSettings | setTreasury | addToWhitelist | removeFromWhitelist | addToBlacklist
  | removeFromBlacklist | setAdmin | addToFeeWhitelist | removeFromFeeWhitelist => Pubkey
  | closeAccount | subscribe | unsubscribe => Unit

instance : (v : Variant) → Borsh v.Payload
  | createRootAlloc => inferInstanceAs (Borsh (UInt64 × UInt16 × Bytes))
  | fillSlot => inferInstanceAs (Borsh
      (UInt16 × Bytes × List CandidateSlot × UInt16 × UInt8 × UInt32 × UInt8 × UInt64))
  | prepareAlloc => inferInstanceAs (Borsh UInt32)
  | sweepTreasury => inferInstanceAs (Borsh (List UInt16))
  | sweepAuthorFees => inferInstanceAs (Borsh (List UInt8))
  | initThreadAccess => inferInstanceAs (Borsh (Bool × UInt16))
  | setThreadAccess => inferInstanceAs (Borsh Bool)
  | setMessageFee | setLikeFee | setEntryFee => inferInstanceAs (Borsh UInt64)
  | setBaseFee | setAuthorFeeCut | setEntryCut | setLikeCut => inferInstanceAs (Borsh UInt32)
  | requestAccess => inferInstanceAs (Borsh (UInt16 × UInt8))
  | likeContent => inferInstanceAs (Borsh (UInt32 × UInt8 × UInt16 × UInt8 × UInt64))
  | appendContent => inferInstanceAs (Borsh (Bytes × UInt16 × UInt8))
  | initSettings | setTreasury | addToWhitelist | removeFromWhitelist | addToBlacklist
  | removeFromBlacklist | setAdmin | addToFeeWhitelist | removeFromFeeWhitelist =>
    inferInstanceAs (Borsh Pubkey)
  | closeAccount | subscribe | unsubscribe => inferInstanceAs (Borsh Unit)

end Variant

def equiv : ProgramInstruction ≃ Σ v : Variant, v.Payload where
  toFun
    | createRootAlloc messageFee treasuryShardIdx title =>
      ⟨.createRootAlloc, messageFee, treasuryShardIdx, title⟩
    | fillSlot kind body candidates treasuryShardIdx authorFeeShardIdx replyAllocSeq replySlot
        maxFee =>
      ⟨.fillSlot, kind, body, candidates, treasuryShardIdx, authorFeeShardIdx, replyAllocSeq,
        replySlot, maxFee⟩
    | prepareAlloc allocSeq => ⟨.prepareAlloc, allocSeq⟩
    | sweepTreasury shardIndices => ⟨.sweepTreasury, shardIndices⟩
    | sweepAuthorFees shardIndices => ⟨.sweepAuthorFees, shardIndices⟩
    | closeAccount => ⟨.closeAccount, ()⟩
    | initSettings treasury => ⟨.initSettings, treasury⟩
    | setTreasury treasury => ⟨.setTreasury, treasury⟩
    | initThreadAccess enabled treasuryShardIdx => ⟨.initThreadAccess, enabled, treasuryShardIdx⟩
    | setThreadAccess enabled => ⟨.setThreadAccess, enabled⟩
    | addToWhitelist wallet => ⟨.addToWhitelist, wallet⟩
    | removeFromWhitelist wallet => ⟨.removeFromWhitelist, wallet⟩
    | setMessageFee fee => ⟨.setMessageFee, fee⟩
    | setBaseFee feeBps => ⟨.setBaseFee, feeBps⟩
    | setAuthorFeeCut feeBps => ⟨.setAuthorFeeCut, feeBps⟩
    | setEntryCut feeBps => ⟨.setEntryCut, feeBps⟩
    | setLikeCut feeBps => ⟨.setLikeCut, feeBps⟩
    | setLikeFee fee => ⟨.setLikeFee, fee⟩
    | setEntryFee fee => ⟨.setEntryFee, fee⟩
    | requestAccess treasuryShardIdx authorFeeShardIdx =>
      ⟨.requestAccess, treasuryShardIdx, authorFeeShardIdx⟩
    | likeContent allocSeq slot treasuryShardIdx authorFeeShardIdx maxFee =>
      ⟨.likeContent, allocSeq, slot, treasuryShardIdx, authorFeeShardIdx, maxFee⟩
    | addToBlacklist wallet => ⟨.addToBlacklist, wallet⟩
    | removeFromBlacklist wallet => ⟨.removeFromBlacklist, wallet⟩
    | appendContent chunk treasuryShardIdx authorFeeShardIdx =>
      ⟨.appendContent, chunk, treasuryShardIdx, authorFeeShardIdx⟩
    | setAdmin newAdmin => ⟨.setAdmin, newAdmin⟩
    | addToFeeWhitelist wallet => ⟨.addToFeeWhitelist, wallet⟩
    | removeFromFeeWhitelist wallet => ⟨.removeFromFeeWhitelist, wallet⟩
    | subscribe => ⟨.subscribe, ()⟩
    | unsubscribe => ⟨.unsubscribe, ()⟩
  invFun
    | ⟨.createRootAlloc, fee, idx, title⟩ => createRootAlloc fee idx title
    | ⟨.fillSlot, kind, body, candidates, ti, ai, rs, rp, maxFee⟩ =>
      fillSlot kind body candidates ti ai rs rp maxFee
    | ⟨.prepareAlloc, seq⟩ => prepareAlloc seq
    | ⟨.sweepTreasury, is⟩ => sweepTreasury is
    | ⟨.sweepAuthorFees, is⟩ => sweepAuthorFees is
    | ⟨.closeAccount, ()⟩ => closeAccount
    | ⟨.initSettings, k⟩ => initSettings k
    | ⟨.setTreasury, k⟩ => setTreasury k
    | ⟨.initThreadAccess, enabled, idx⟩ => initThreadAccess enabled idx
    | ⟨.setThreadAccess, enabled⟩ => setThreadAccess enabled
    | ⟨.addToWhitelist, w⟩ => addToWhitelist w
    | ⟨.removeFromWhitelist, w⟩ => removeFromWhitelist w
    | ⟨.setMessageFee, fee⟩ => setMessageFee fee
    | ⟨.setBaseFee, bps⟩ => setBaseFee bps
    | ⟨.setAuthorFeeCut, bps⟩ => setAuthorFeeCut bps
    | ⟨.setEntryCut, bps⟩ => setEntryCut bps
    | ⟨.setLikeCut, bps⟩ => setLikeCut bps
    | ⟨.setLikeFee, fee⟩ => setLikeFee fee
    | ⟨.setEntryFee, fee⟩ => setEntryFee fee
    | ⟨.requestAccess, ti, ai⟩ => requestAccess ti ai
    | ⟨.likeContent, seq, slot, ti, ai, maxFee⟩ => likeContent seq slot ti ai maxFee
    | ⟨.addToBlacklist, w⟩ => addToBlacklist w
    | ⟨.removeFromBlacklist, w⟩ => removeFromBlacklist w
    | ⟨.appendContent, chunk, ti, ai⟩ => appendContent chunk ti ai
    | ⟨.setAdmin, k⟩ => setAdmin k
    | ⟨.addToFeeWhitelist, w⟩ => addToFeeWhitelist w
    | ⟨.removeFromFeeWhitelist, w⟩ => removeFromFeeWhitelist w
    | ⟨.subscribe, ()⟩ => subscribe
    | ⟨.unsubscribe, ()⟩ => unsubscribe
  left_inv ix := by cases ix <;> rfl
  right_inv x := by
    obtain ⟨v, p⟩ := x
    cases v <;> rfl

instance : Borsh ProgramInstruction := ofEquiv equiv

/-- The variant of the instruction. -/
def variant (ix : ProgramInstruction) : Variant := (equiv ix).1

/-- The vectors of the instruction are short enough to be written. -/
def Short : ProgramInstruction → Prop
  | createRootAlloc _ _ title => title.length < 2 ^ 32
  | fillSlot _ body candidates _ _ _ _ _ => body.length < 2 ^ 32 ∧ candidates.length < 2 ^ 32
  | sweepTreasury shardIndices => shardIndices.length < 2 ^ 32
  | sweepAuthorFees shardIndices => shardIndices.length < 2 ^ 32
  | appendContent chunk _ _ => chunk.length < 2 ^ 32
  | _ => True

theorem fits_iff (ix : ProgramInstruction) : Fits ix ↔ ix.Short := by
  have hb : ∀ bs : Bytes, Fits bs ↔ bs.length < 2 ^ 32 := fun bs => fits_list fun _ => trivial
  have hc : ∀ cs : List CandidateSlot, Fits cs ↔ cs.length < 2 ^ 32 :=
    fun cs => fits_list CandidateSlot.fits
  cases ix with
  | createRootAlloc fee idx title =>
    refine Iff.trans ?_ (hb title)
    exact ⟨fun h => h.2.2, fun h => ⟨trivial, trivial, h⟩⟩
  | fillSlot kind body candidates ti ai rs rp maxFee =>
    refine Iff.trans ?_ (and_congr (hb body) (hc candidates))
    exact ⟨fun h => ⟨h.2.1, h.2.2.1⟩,
      fun h => ⟨trivial, h.1, h.2, trivial, trivial, trivial, trivial, trivial⟩⟩
  | sweepTreasury is => exact fits_list fun _ => trivial
  | sweepAuthorFees is => exact fits_list fun _ => trivial
  | appendContent chunk ti ai =>
    refine Iff.trans ?_ (hb chunk)
    exact ⟨fun h => h.1, fun h => ⟨h, trivial, trivial⟩⟩
  | initThreadAccess enabled idx => exact iff_of_true ⟨trivial, trivial⟩ trivial
  | requestAccess ti ai => exact iff_of_true ⟨trivial, trivial⟩ trivial
  | likeContent seq slot ti ai maxFee =>
    exact iff_of_true ⟨trivial, trivial, trivial, trivial, trivial⟩ trivial
  | _ => exact iff_of_true trivial trivial

end ProgramInstruction

namespace ProgramInstruction

theorem serialize_head (ix : ProgramInstruction) :
    (serialize ix).head? = some (Coded.code ix.variant) := serialize_sigma_head (equiv ix)

/-- The first byte is the position of the variant in the enumeration. -/
theorem serialize_head_eq (ix : ProgramInstruction) :
    (serialize ix).head? = some (UInt8.ofNat (Variant.all.idxOf ix.variant)) := ix.serialize_head

/-- There are twenty-nine selectors. -/
theorem code_lt (v : Variant) : Coded.code v < 29 := by
  cases v <;> decide

end ProgramInstruction

/-! ## 3. `process_instruction` -/

/-- The errors of `process_instruction`. -/
inductive EntryError where
  /-- `ProgramError::InvalidInstructionData` -/
  | invalidInstructionData
  /-- Whatever error the handler returns. -/
  | handler (e : ProgramError)

/-- `process_instruction`, from the raw bytes. -/
def processInstructionData (R : Runtime) (sv : Sysvars) (accounts : List AccountInfo)
    (instructionData : Bytes) : Exec EntryError Ledger Unit := fun σ =>
  match tryFromSlice ProgramInstruction instructionData with
  | none => .error .invalidInstructionData
  | some ix => (processInstruction R sv accounts ix σ).mapError .handler

section Entry

variable {R : Runtime} {sv : Sysvars} {accounts : List AccountInfo} {σ σ' : Ledger}
  {ix : ProgramInstruction} {data : Bytes}

theorem tryFromSlice_serialize (h : ix.Short) :
    tryFromSlice ProgramInstruction (serialize ix) = some ix :=
  tryFromSlice_eq_some.mpr ⟨ix.fits_iff.mpr h, rfl⟩

theorem processInstructionData_none (h : tryFromSlice ProgramInstruction data = none) :
    processInstructionData R sv accounts data σ = .error .invalidInstructionData := by
  rw [processInstructionData, h]

theorem processInstructionData_some (h : tryFromSlice ProgramInstruction data = some ix) :
    processInstructionData R sv accounts data σ =
      (processInstruction R sv accounts ix σ).mapError .handler := by
  rw [processInstructionData, h]

/-- The bytes were an instruction, and its handler succeeded. -/
theorem processInstructionData_ok {u : Unit} :
    processInstructionData R sv accounts data σ = .ok (u, σ') ↔
      ∃ ix : ProgramInstruction, ix.Short ∧ data = serialize ix ∧
        processInstruction R sv accounts ix σ = .ok (u, σ') := by
  constructor
  · intro h
    cases hix : tryFromSlice ProgramInstruction data with
    | none =>
      rw [processInstructionData_none hix] at h
      cases h
    | some ix =>
      rw [processInstructionData_some hix] at h
      obtain ⟨hf, hd⟩ := tryFromSlice_eq_some.mp hix
      refine ⟨ix, ix.fits_iff.mp hf, hd, ?_⟩
      cases hrun : processInstruction R sv accounts ix σ with
      | error e =>
        rw [hrun] at h
        cases h
      | ok r =>
        rw [hrun] at h
        cases h
        rfl
  · intro ⟨ix, hs, hd, hrun⟩
    subst hd
    rw [processInstructionData_some (tryFromSlice_serialize hs), hrun]
    rfl

end Entry

/-- **The wire format.** The bytes of an instruction go to its handler, and different instructions
    have different bytes, the first of which is the position of the variant; whatever is not the
    bytes of an instruction is `InvalidInstructionData`: no bytes, a first byte that is no position,
    and the bytes of an instruction with some missing at the end or with more behind them. -/
theorem wire_format (R : Runtime) (sv : Sysvars) (accounts : List AccountInfo) (σ : Ledger) :
    (∀ ix : ProgramInstruction, ix.Short →
      processInstructionData R sv accounts (serialize ix) σ =
        (processInstruction R sv accounts ix σ).mapError .handler) ∧
    (∀ data, (∀ ix : ProgramInstruction, ix.Short → data ≠ serialize ix) →
      processInstructionData R sv accounts data σ = .error .invalidInstructionData) ∧
    (∀ ix ix' : ProgramInstruction, ix.Short → ix'.Short → serialize ix = serialize ix' →
      ix = ix') ∧
    (∀ ix : ProgramInstruction,
      (serialize ix).head? = some (UInt8.ofNat (ProgramInstruction.Variant.all.idxOf ix.variant))) ∧
    (∀ ix ix' : ProgramInstruction, (serialize ix).head? = (serialize ix').head? →
      ix.variant = ix'.variant) ∧
    (∀ data : Bytes, (∀ b ∈ data.head?, 29 ≤ b) →
      processInstructionData R sv accounts data σ = .error .invalidInstructionData) ∧
    ∀ (ix : ProgramInstruction) (data rest : Bytes), ix.Short → rest ≠ [] →
      serialize ix = data ++ rest ∨ data = serialize ix ++ rest →
        processInstructionData R sv accounts data σ = .error .invalidInstructionData := by
  have hreject : ∀ data, (∀ ix : ProgramInstruction, ix.Short → data ≠ serialize ix) →
      processInstructionData R sv accounts data σ = .error .invalidInstructionData := by
    intro data h
    refine processInstructionData_none (Option.eq_none_iff_forall_ne_some.mpr fun ix hix => ?_)
    obtain ⟨hf, hd⟩ := tryFromSlice_eq_some.mp hix
    exact h ix (ix.fits_iff.mp hf) hd
  refine ⟨?_, hreject, ?_, ProgramInstruction.serialize_head_eq, ?_, ?_, ?_⟩
  · intro ix h
    exact processInstructionData_some (tryFromSlice_serialize h)
  · intro ix ix' h h' he
    exact serialize_inj (ix.fits_iff.mpr h) (ix'.fits_iff.mpr h') he
  · intro ix ix' he
    rw [ix.serialize_head, ix'.serialize_head] at he
    exact code_injective (Option.some.inj he)
  · intro data hb
    refine hreject data fun ix _ hd => ?_
    have hhead := ix.serialize_head
    rw [← hd] at hhead
    exact absurd (ProgramInstruction.code_lt ix.variant) (UInt8.not_lt.mpr (hb _ hhead))
  · intro ix data rest h hne hcut
    have hf := ix.fits_iff.mpr h
    refine processInstructionData_none ?_
    rcases hcut with hcut | hcut
    · refine tryFromSlice_of_prefix hf ⟨rest, hcut.symm⟩ fun he => hne ?_
      rw [he] at hcut
      simpa using hcut
    · rw [hcut]
      exact tryFromSlice_append hf hne

/-! ## 4. The machine that is called with bytes -/

/-- What moves the ledger, before decoding. -/
inductive RawEvent where
  | call (sv : Sysvars) (accounts : List AccountInfo) (instructionData : Bytes)
  | outside

/-- The deployed program, called with bytes. -/
def deployed (R : Runtime) : Lts Ledger RawEvent where
  init := Fresh R
  step σ e σ' :=
    match e with
    | .call sv accounts data =>
      OwnKeys R accounts ∧ processInstructionData R sv accounts data σ = .ok ((), σ')
    | .outside => Outside R σ σ'

/-- The bytes of the one are the instruction of the other. -/
inductive Decodes : RawEvent → Event → Prop where
  | call (sv : Sysvars) (accounts : List AccountInfo) (ix : ProgramInstruction) (h : ix.Short) :
      Decodes (.call sv accounts (serialize ix)) (.call sv accounts ix)
  | outside : Decodes .outside .outside

/-- The instruction can be written. -/
def Written (_ : Ledger) (e : Event) (_ : Ledger) : Prop :=
  ∀ sv accounts ix, e = .call sv accounts ix → ix.Short

section Deployed

variable {R : Runtime} {σ τ : Ledger}

theorem deployed_simulates :
    Lts.Simulates (deployed R) (program R) (fun _ _ _ => True) Written id Decodes
      (fun _ => False) where
  init _ h := h
  step := by
    intro σ e τ _ hs _
    cases e with
    | call sv accounts data =>
      obtain ⟨hown, hrun⟩ := hs
      obtain ⟨ix, hshort, rfl, hix⟩ := processInstructionData_ok.mp hrun
      refine .inl ⟨.call sv accounts ix, .call sv accounts ix hshort, ⟨hown, hix⟩, ?_⟩
      intro sv' accounts' ix' he
      cases he
      exact hshort
    | outside => exact .inl ⟨.outside, .outside, hs, nofun⟩

theorem program_simulates :
    Lts.Simulates (program R) (deployed R) Written (fun _ _ _ => True) id (fun e r => Decodes r e)
      (fun _ => False) where
  init _ h := h
  step := by
    intro σ e τ _ hs hok
    cases e with
    | call sv accounts ix =>
      have hshort := hok sv accounts ix rfl
      refine .inl ⟨.call sv accounts (serialize ix), .call sv accounts ix hshort, ⟨hs.1, ?_⟩,
        trivial⟩
      exact processInstructionData_ok.mpr ⟨ix, hshort, rfl, hs.2⟩
    | outside => exact .inl ⟨.outside, .outside, hs, trivial⟩

end Deployed

/-- **The machine that is called with bytes runs as `program` does**: the same states are reached,
    and each run of the one is a run of the other in lockstep, call by call, with the bytes of each
    call decoding to its instruction. -/
theorem deployed_runs (R : Runtime) :
    (∀ σ, (deployed R).Reach (fun _ _ _ => True) σ ↔ (program R).Reach Written σ) ∧
    (∀ σ tr τ, (deployed R).Reach (fun _ _ _ => True) σ →
      (deployed R).Path (fun _ _ _ => True) σ tr τ →
        ∃ tr', List.Forall₂ (Lts.SeenAs id Decodes) tr tr' ∧ (program R).Path Written σ tr' τ) ∧
    ∀ σ tr τ, (program R).Reach Written σ → (program R).Path Written σ tr τ →
      ∃ tr', List.Forall₂ (Lts.SeenAs id fun e r => Decodes r e) tr tr' ∧
        (deployed R).Path (fun _ _ _ => True) σ tr' τ := by
  refine ⟨fun σ => ⟨deployed_simulates.reach, program_simulates.reach⟩, ?_, ?_⟩
  · intro σ tr τ hr hp
    obtain ⟨tr', hseen, hpath⟩ := deployed_simulates.path hr hp
    exact ⟨tr', hseen.forall₂ fun _ => id, hpath⟩
  · intro σ tr τ hr hp
    obtain ⟨tr', hseen, hpath⟩ := program_simulates.path hr hp
    exact ⟨tr', hseen.forall₂ fun _ => id, hpath⟩

end Txtcel
