import Txtcel.Program
import Txtcel.Spec.Likes
import Txtcel.Spec.Follows

/-!
# What a successful instruction did

`Act` is the table of the eighteen things an instruction can do, one constructor for each kind of
step, with the instruction that does it. `processInstruction_ok` is the refinement: whatever the
dispatch runs successfully is an act.
-/

namespace Txtcel

open Lib Exec Borsh

/-! ## 1. Instructions of one kind -/

namespace ProgramInstruction

/-- The instructions that replace one field of the settings. -/
def EditsSettings : ProgramInstruction → Prop
  | setTreasury _ | setBaseFee _ | setAuthorFeeCut _ | setEntryCut _ | setLikeCut _ | setAdmin _ =>
    True
  | _ => False

/-- The instructions that replace a fee of a thread. -/
def EditsThread : ProgramInstruction → Prop
  | setMessageFee _ | setLikeFee _ => True
  | _ => False

/-- The instructions that replace one field of an access account. -/
def EditsAccess : ProgramInstruction → Prop
  | setThreadAccess _ | setEntryFee _ => True
  | _ => False

/-- The wallet and the status of an `AddTo*` instruction. -/
def addsTo : ProgramInstruction → Option (Pubkey × UInt8)
  | addToWhitelist w => some (w, accessAllowed)
  | addToBlacklist w => some (w, accessDenied)
  | addToFeeWhitelist w => some (w, accessFeeExempt)
  | _ => none

/-- The wallet and the status of a `RemoveFrom*` instruction. -/
def removesFrom : ProgramInstruction → Option (Pubkey × UInt8)
  | removeFromWhitelist w => some (w, accessAllowed)
  | removeFromBlacklist w => some (w, accessDenied)
  | removeFromFeeWhitelist w => some (w, accessFeeExempt)
  | _ => none

end ProgramInstruction

/-- A list that is known to start with these has each of them in its place. -/
theorem getElem?_of_take {xs ys : List Pubkey} {n i : Nat} (h : xs.take n = ys) (hi : i < n) :
    xs[i]? = ys[i]? := by
  rw [← h, List.getElem?_take_of_lt hi]

/-! ## 2. The acts -/

/-- What a successful instruction did. -/
inductive Act (R : Runtime) (sv : Sysvars) (accounts : List AccountInfo) (σ σ' : Ledger) :
    ProgramInstruction → Prop where
  | initSettings (d : InitSettings) (h : d.Ok R sv accounts σ σ') :
      Act R sv accounts σ σ' (.initSettings d.treasury)
  | settingsEdit {ix : ProgramInstruction} (d : SettingsEdit) (h : d.Ok R accounts σ σ')
      (hix : ix.EditsSettings) : Act R sv accounts σ σ' ix
  | treasurySweep {is : List UInt16} (d : TreasurySweep) (h : d.Ok R sv accounts σ σ') :
      Act R sv accounts σ σ' (.sweepTreasury is)
  | authorSweep {is : List UInt8} (d : AuthorSweep) (h : d.Ok R sv accounts σ σ') :
      Act R sv accounts σ σ' (.sweepAuthorFees is)
  | rootAlloc (d : RootAlloc) (h : d.Ok R sv accounts σ σ') :
      Act R sv accounts σ σ' (.createRootAlloc d.messageFee d.shard d.title)
  | nextAlloc (d : NextAlloc) (h : d.Ok R sv accounts σ σ') :
      Act R sv accounts σ σ' (.prepareAlloc d.old.lastAllocSeq)
  | threadEdit {ix : ProgramInstruction} (d : ThreadEdit) (h : d.Ok R accounts σ σ')
      (hix : ix.EditsThread) : Act R sv accounts σ σ' ix
  | initAccess {enabled : Bool} (d : InitAccess) (h : d.Ok R sv accounts σ σ') :
      Act R sv accounts σ σ' (.initThreadAccess enabled d.shard)
  | accessEdit {ix : ProgramInstruction} (d : AccessEdit) (h : d.Ok R accounts σ σ')
      (hix : ix.EditsAccess) : Act R sv accounts σ σ' ix
  | setEntry {ix : ProgramInstruction} (d : SetEntry) (h : d.Ok R sv accounts σ σ')
      (hix : ix.addsTo = some (d.wallet, d.status)) : Act R sv accounts σ σ' ix
  | removeEntry {ix : ProgramInstruction} (d : RemoveEntry) (h : d.Ok R accounts σ σ')
      (hix : ix.removesFrom = some (d.wallet, d.status)) : Act R sv accounts σ σ' ix
  | requestAccess {ti : UInt16} {ai : UInt8} (d : RequestAccess) (h : d.Ok R sv accounts σ σ') :
      Act R sv accounts σ σ' (.requestAccess ti ai)
  | fillSlot {candidates : List CandidateSlot} (d : FillSlot) (h : d.Ok R sv accounts σ σ')
      (hc : d.candidate ∈ candidates) :
      Act R sv accounts σ σ' (.fillSlot d.post.kind d.post.body candidates d.treasuryIdx d.authorIdx
        d.post.replyAllocSeq d.post.replySlot d.post.maxFee)
  | appendContent {ai : UInt8} (d : AppendContent) (h : d.Ok R sv accounts σ σ') :
      Act R sv accounts σ σ' (.appendContent d.chunk d.treasuryIdx ai)
  | likeContent {maxFee : UInt64} (d : LikeContent) (h : d.Ok R sv accounts σ σ') :
      Act R sv accounts σ σ' (.likeContent d.allocSeq d.slot d.treasuryIdx d.authorIdx maxFee)
  | closeContent (d : CloseContent) (h : d.Ok R accounts σ σ') :
      Act R sv accounts σ σ' .closeAccount
  | subscribe (d : Subscribe) (h : d.Ok R sv accounts σ σ') : Act R sv accounts σ σ' .subscribe
  | unsubscribe (d : Unsubscribe) (h : d.Ok R sv accounts σ σ') :
      Act R sv accounts σ σ' .unsubscribe

/-! ## 3. The refinement -/

/-- **A successful instruction is an act.** -/
theorem processInstruction_ok {R : Runtime} {sv : Sysvars} {accounts : List AccountInfo}
    {ix : ProgramInstruction} {σ σ' : Ledger} {u : Unit} (hT : σ.Tidy R)
    (hS : ∀ k ∈ signers accounts, ¬ R.IsPda k)
    (h : processInstruction R sv accounts ix σ = .ok (u, σ')) : Act R sv accounts σ σ' ix := by
  cases ix with
  | createRootAlloc fee i title =>
    obtain ⟨d, hd, rfl, rfl, rfl⟩ := processCreateRootAlloc_ok h
    exact .rootAlloc d hd
  | fillSlot kind body candidates ti ai rs rp maxFee =>
    obtain ⟨d, hd, hpost, rfl, rfl, hc⟩ := processFillSlot_ok hT h
    obtain ⟨_, _, _, _, _, _, _, _, _, _, _, _, _, _, _, post⟩ := d
    obtain rfl : post = _ := hpost
    exact .fillSlot _ hd hc
  | prepareAlloc seq =>
    obtain ⟨d, hd, rfl⟩ := processPrepareAlloc_ok h
    exact .nextAlloc d hd
  | sweepTreasury is =>
    obtain ⟨d, hd⟩ := processSweepTreasury_ok h
    exact .treasurySweep d hd
  | sweepAuthorFees is =>
    obtain ⟨d, hd⟩ := processSweepAuthorFees_ok h
    exact .authorSweep d hd
  | closeAccount =>
    obtain ⟨d, hd⟩ := processCloseAccount_ok hS h
    exact .closeContent d hd
  | initSettings treasury =>
    obtain ⟨d, hd, rfl⟩ := processInitSettings_ok h
    exact .initSettings d hd
  | setTreasury k =>
    obtain ⟨d, hd⟩ := updateSettings_ok (fun _ => .treasury k) h
    exact .settingsEdit d hd trivial
  | setAdmin k =>
    obtain ⟨d, hd⟩ := updateSettings_ok (fun _ => .admin k) h
    exact .settingsEdit d hd trivial
  | setBaseFee b =>
    obtain ⟨d, hd⟩ := updatePlatformSetting_ok (fun _ => .baseFee) h
    exact .settingsEdit d hd trivial
  | setAuthorFeeCut b =>
    obtain ⟨d, hd⟩ := updatePlatformSetting_ok (fun _ => .authorFeeCut) h
    exact .settingsEdit d hd trivial
  | setEntryCut b =>
    obtain ⟨d, hd⟩ := updatePlatformSetting_ok (fun _ => .entryCut) h
    exact .settingsEdit d hd trivial
  | setLikeCut b =>
    obtain ⟨d, hd⟩ := updatePlatformSetting_ok (fun _ => .likeCut) h
    exact .settingsEdit d hd trivial
  | initThreadAccess enabled i =>
    obtain ⟨d, hd, rfl, -⟩ := processInitThreadAccess_ok h
    exact .initAccess d hd
  | setThreadAccess b =>
    obtain ⟨d, hd⟩ := updateAccess_ok (fun _ => .enabled b) hT h
    exact .accessEdit d hd trivial
  | setEntryFee fee =>
    obtain ⟨d, hd⟩ := updateAccess_ok (fun _ => .entryFee fee) hT h
    exact .accessEdit d hd trivial
  | setMessageFee fee =>
    obtain ⟨d, hd⟩ := updateThread_ok (fun _ => .messageFee fee) h
    exact .threadEdit d hd trivial
  | setLikeFee fee =>
    obtain ⟨d, hd⟩ := updateThread_ok (fun _ => .likeFee fee) h
    exact .threadEdit d hd trivial
  | addToWhitelist w | addToBlacklist w | addToFeeWhitelist w =>
    obtain ⟨d, hd, rfl, hs⟩ := addToList_ok hT h
    exact .setEntry d hd (by rw [hs]; rfl)
  | removeFromWhitelist w | removeFromBlacklist w | removeFromFeeWhitelist w =>
    obtain ⟨d, hd, rfl, hs⟩ := removeFromList_ok hT hS h
    exact .removeEntry d hd (by rw [hs]; rfl)
  | requestAccess ti ai =>
    obtain ⟨d, hd⟩ := processRequestAccess_ok hT h
    exact .requestAccess d hd
  | likeContent seq slot ti ai maxFee =>
    obtain ⟨d, hd, rfl, rfl, rfl, rfl⟩ := processLikeContent_ok h
    exact .likeContent d hd
  | appendContent chunk ti ai =>
    obtain ⟨d, hd, rfl, rfl⟩ := processAppendContent_ok h
    exact .appendContent d hd
  | subscribe =>
    obtain ⟨d, hd⟩ := processSubscribe_ok h
    exact .subscribe d hd
  | unsubscribe =>
    obtain ⟨d, hd⟩ := processUnsubscribe_ok h
    exact .unsubscribe d hd

end Txtcel
