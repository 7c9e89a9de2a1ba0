import Txtcel.Forum.Steps
import Txtcel.Lib.Simulation

/-!
# The program refines the message board

* `Issues`: the command that an instruction is, given the keys of its accounts;
* `*.Ok.allowed`: what an act checked is what the board asks of the command;
* `Performs`: the board before and after an instruction, with the command between them;
* `board_refines`: every run of the program is a run of the board -- the sweeps and what happens
  outside the program are not seen on it.

The runs are over keys whose addresses do not collide, while the counters of members have room
(`Roomy`).
-/

namespace Txtcel

open Lib Function Forum

variable {R : Runtime} {sv : Sysvars} {accounts : List AccountInfo} {σ σ' : Ledger}
  {ix : ProgramInstruction} {K : Set Pubkey} {c c' : Cells} {k t w : Pubkey} {r : Role}

/-! ## 1. The command of an instruction -/

/-- **The command that an instruction is**, given the keys of its accounts. -/
inductive Issues (R : Runtime) (sv : Sysvars) (ks : List Pubkey) :
    ProgramInstruction → Command Pubkey → Prop where
  | initSettings {admin treasury : Pubkey} (h : ks[0]? = some admin) :
      Issues R sv ks (.initSettings treasury) (.launch admin treasury)
  | setAdmin (k : Pubkey) : Issues R sv ks (.setAdmin k) (.configure (.admin k))
  | setTreasury (k : Pubkey) : Issues R sv ks (.setTreasury k) (.configure (.treasury k))
  | setBaseFee (b : UInt32) : Issues R sv ks (.setBaseFee b) (.configure (.baseFee b.toNat))
  | setAuthorFeeCut (b : UInt32) :
      Issues R sv ks (.setAuthorFeeCut b) (.configure (.authorFeeCut b.toNat))
  | setEntryCut (b : UInt32) : Issues R sv ks (.setEntryCut b) (.configure (.entryCut b.toNat))
  | setLikeCut (b : UInt32) : Issues R sv ks (.setLikeCut b) (.configure (.likeCut b.toNat))
  | createRootAlloc {payer t : Pubkey} {fee : UInt64} {shard : UInt16} {title : List UInt8}
      (hp : ks[0]? = some payer) (ht : ks[1]? = some t) :
      Issues R sv ks (.createRootAlloc fee shard title) (.openChannel t payer title fee.toNat)
  | prepareAlloc {seq : UInt32} {t : Pubkey} (ht : ks[3]? = some t) :
      Issues R sv ks (.prepareAlloc seq) (.addPage t (seq.toNat + 1))
  | setMessageFee {fee : UInt64} {t : Pubkey} (ht : ks[1]? = some t) :
      Issues R sv ks (.setMessageFee fee) (.setPrice t (.message fee.toNat))
  | setLikeFee {fee : UInt64} {t : Pubkey} (ht : ks[1]? = some t) :
      Issues R sv ks (.setLikeFee fee) (.setPrice t (.like fee.toNat))
  | initThreadAccess {enabled : Bool} {shard : UInt16} {t : Pubkey} (ht : ks[1]? = some t) :
      Issues R sv ks (.initThreadAccess enabled shard) (.installGate t enabled)
  | setThreadAccess {b : Bool} {t k : Pubkey} (hk : ks[1]? = some k)
      (ha : R.HasAddress (.access t) k) :
      Issues R sv ks (.setThreadAccess b) (.setGate t (.enabled b))
  | setEntryFee {fee : UInt64} {t k : Pubkey} (hk : ks[1]? = some k)
      (ha : R.HasAddress (.access t) k) :
      Issues R sv ks (.setEntryFee fee) (.setGate t (.entryFee fee.toNat))
  | addTo {ix : ProgramInstruction} {t w k : Pubkey} {r : Role}
      (hix : ix.addsTo = some (w, r.status)) (hk : ks[1]? = some k)
      (ha : R.HasAddress (.access t) k) : Issues R sv ks ix (.assign t w r)
  | removeFrom {ix : ProgramInstruction} {t w k : Pubkey} {r : Role}
      (hix : ix.removesFrom = some (w, r.status)) (hk : ks[1]? = some k)
      (ha : R.HasAddress (.access t) k) : Issues R sv ks ix (.dismiss t w r)
  | requestAccess {ti : UInt16} {ai : UInt8} {w t : Pubkey} (hw : ks[0]? = some w)
      (ht : ks[3]? = some t) : Issues R sv ks (.requestAccess ti ai) (.join t w)
  | fillSlot {kind : UInt16} {body : List UInt8} {candidates : List CandidateSlot} {ti : UInt16}
      {ai : UInt8} {rs : UInt32} {rp : UInt8} {maxFee : UInt64} {s : CandidateSlot} {w t : Pubkey}
      (hs : s ∈ candidates) (hw : ks[0]? = some w) (ht : ks[1]? = some t) :
      Issues R sv ks (.fillSlot kind body candidates ti ai rs rp maxFee)
        (.post ⟨t, s.allocSeq, s.slot⟩ ⟨w, kind, body, sv.unixTimestamp.toInt, (rs, rp)⟩)
  | appendContent {chunk : List UInt8} {ti : UInt16} {ai : UInt8} {p : Place Pubkey} {k : Pubkey}
      (hk : ks[1]? = some k) (ha : R.HasAddress (.content p.channel p.page p.slot) k) :
      Issues R sv ks (.appendContent chunk ti ai) (.append p chunk sv.unixTimestamp.toInt)
  | closeAccount {p : Place Pubkey} {k : Pubkey} (hk : ks[1]? = some k)
      (ha : R.HasAddress (.content p.channel p.page p.slot) k) :
      Issues R sv ks .closeAccount (.delete p (ks[2]?).isSome)
  | likeContent {seq : UInt32} {slot : UInt8} {ti : UInt16} {ai : UInt8} {maxFee : UInt64}
      {w t : Pubkey} (hw : ks[0]? = some w) (ht : ks[3]? = some t) :
      Issues R sv ks (.likeContent seq slot ti ai maxFee) (.like ⟨t, seq, slot⟩ w)
  | subscribe {w t : Pubkey} (hw : ks[0]? = some w) (ht : ks[3]? = some t) :
      Issues R sv ks .subscribe (.follow w t)
  | unsubscribe {w t : Pubkey} (hw : ks[0]? = some w) (ht : ks[3]? = some t) :
      Issues R sv ks .unsubscribe (.unfollow w t)

/-- The instructions that move lamports only. -/
def ProgramInstruction.Sweeps : ProgramInstruction → Prop
  | sweepTreasury _ | sweepAuthorFees _ => True
  | _ => False

/-! ## 2. What the board asks, on the ledger -/

section Reading

theorem platform_of_free (ha : R.HasAddress .settings k) (hf : c k = .free) :
    (board R K c).platform = none := by
  rw [platform_of_address ha, hf]
  rfl

theorem platform_of_cell {s : ProgramSettings} (ha : R.HasAddress .settings k)
    (hc : c k = .holds (.settings s)) : (board R K c).platform = some (platformOf s) := by
  rw [platform_of_address ha, hc]
  rfl

theorem channel_of_free (hf : c t = .free) : (board R K c).channels t = none := by
  show (c t).channel? = none
  rw [hf]
  rfl

theorem message_of_free {p : Place Pubkey}
    (ha : R.HasAddress (.content p.channel p.page p.slot) k) (hf : c k = .free) :
    (board R K c).messages p = none := by
  rw [messages_of_address ha, hf]
  rfl

theorem runBy_of_cell {S : Set Pubkey} {x : ThreadNode} (hc : c t = .holds (.thread x))
    (hs : x.author ∈ S) : (board R K c).RunBy t S := ⟨_, channel_of_cell hc, hs⟩

theorem role_eq_some : (board R K c).roles t w = some r ↔ c.standing R t w = some r.status := by
  show (c.standing R t w).bind Role.ofStatus = some r ↔ _
  rw [Option.bind_eq_some_iff]
  constructor
  · intro ⟨s, hs, hr⟩
    rw [hs, Role.ofStatus_eq_some.mp hr]
  · exact fun h => ⟨_, h, Role.ofStatus_eq_some.mpr rfl⟩

/-- **A channel is gated on the board when it is on the ledger.** -/
theorem gated_of_board (h : (board R K (σ.cell R)).Gated t) : Gated R σ t := by
  obtain ⟨g, hg, hon, hwho⟩ := h
  obtain ⟨a, ha, rfl⟩ := Option.map_eq_some_iff.mp hg
  refine ⟨a, ha, hon, hwho.imp ?_ UInt64.lt_iff_toNat_lt.mpr⟩
  intro ⟨w, hw⟩
  exact ⟨w, role_eq_some.mp hw⟩

/-- **Who is admitted on the ledger is admitted on the board.** -/
theorem admits_of_ledger {x : ThreadNode} (hc : σ.cell R t = .holds (.thread x))
    (h : Admits R σ t x.author w) : (board R K (σ.cell R)).Admits t w := by
  refine ⟨fun hr => h.not_denied (role_eq_some.mp hr), fun hg => ?_⟩
  rcases h.member (gated_of_board hg) with rfl | hw | hw
  · exact .inl (runBy_of_cell hc rfl)
  · exact .inr (.inl (role_eq_some.mpr hw))
  · exact .inr (.inr (role_eq_some.mpr hw))

end Reading

/-! ## 3. What an act checked -/

/-- **The side condition of a run**: its keys are in `K`, and the counters of members have room: no
    channel has 2 ^ 32 members. -/
def Roomy (R : Runtime) (K : Set Pubkey) (σ : Ledger) (e : Event) (σ' : Ledger) : Prop :=
  Within K σ e σ' ∧ ∀ t, fewAllowed R t σ e σ'

section Allowed

theorem InitSettings.Ok.allowed {d : InitSettings} (h : d.Ok R sv accounts σ σ') :
    Command.Allowed limits (board R K (σ.cell R)) (signers accounts)
      (.launch d.authority d.treasury) :=
  ⟨platform_of_free h.addr (cell_eq_free.mpr h.free), h.signer⟩

theorem SettingsEdit.Ok.allowed {d : SettingsEdit} {e : PlatformEdit Pubkey}
    (h : d.Ok R accounts σ σ') (hrate : e.rate ≤ limits.rate) :
    Command.Allowed limits (board R K (σ.cell R)) (signers accounts) (.configure e) :=
  ⟨platformOf d.old, platform_of_cell h.addr (h.holds.cell h.tag),
    show d.old.admin ∈ _ from h.admin ▸ h.signer, hrate⟩

theorem RootAlloc.Ok.allowed {d : RootAlloc} (h : d.Ok R sv accounts σ σ') :
    Command.Allowed limits (board R K (σ.cell R)) (signers accounts)
      (.openChannel d.thread d.payer d.title d.messageFee.toNat) := by
  refine ⟨?_, channel_of_free (cell_eq_free.mpr h.thread_free), h.thread_signed, h.payer_signed,
    h.title_le⟩
  rw [platform_of_cell h.settings_addr (h.settings_holds.cell h.settings_tag)]
  rfl

theorem NextAlloc.Ok.allowed {d : NextAlloc} (h : d.Ok R sv accounts σ σ') :
    Command.Allowed limits (board R K (σ.cell R)) (signers accounts)
      (.addPage d.thread d.newSeq.toNat) :=
  ⟨⟨_, channel_of_cell (h.thread_holds.cell h.thread_tag), h.seq_eq.symm⟩, d.newSeq.toNat_lt⟩

theorem ThreadEdit.Ok.allowed {d : ThreadEdit} {e : Price} (h : d.Ok R accounts σ σ') :
    Command.Allowed limits (board R K (σ.cell R)) (signers accounts) (.setPrice d.thread e) :=
  runBy_of_cell (h.holds.cell h.tag) (h.author ▸ h.signer)

theorem InitAccess.Ok.allowed {d : InitAccess} (h : d.Ok R sv accounts σ σ') :
    Command.Allowed limits (board R K (σ.cell R)) (signers accounts)
      (.installGate d.thread d.enabled) := by
  refine ⟨?_, runBy_of_cell (h.thread_holds.cell h.thread_tag) (h.author ▸ h.signer)⟩
  show ((σ.cell R).accessOf R d.thread).map gateOf = none
  rw [accessOf_of_address h.access_addr, cell_eq_free.mpr h.access_free]
  rfl

section Reached

variable (hr : (program R).Reach (Roomy R K) σ)
include hr

/-- The admin of an access account is the author of its thread. -/
theorem runBy_admin {a : ThreadAccess} (hk : σ.cell R k = .holds (.access a))
    (ha : a.admin ∈ signers accounts) :
    (board R K (σ.cell R)).RunBy a.thread (signers accounts) := by
  obtain ⟨x, hx, hau⟩ := reach_admin hr hk
  exact runBy_of_cell hx (hau ▸ ha)

theorem AccessEdit.Ok.allowed {d : AccessEdit} {e : GateEdit} (h : d.Ok R accounts σ σ') :
    Command.Allowed limits (board R K (σ.cell R)) (signers accounts)
      (.setGate d.old.thread e) := by
  have hc := h.holds.cell h.tag
  have hacc : (σ.cell R).accessOf R d.old.thread = some d.old :=
    accessOf_eq_some.mpr ⟨_, h.addr, hc, rfl⟩
  exact ⟨⟨_, gate_of_accessOf hacc⟩, runBy_admin hr hc (h.admin ▸ h.signer)⟩

theorem SetEntry.Ok.allowed {d : SetEntry} (h : d.Ok R sv accounts σ σ') :
    Command.Allowed limits (board R K (σ.cell R)) (signers accounts)
      (.assign d.old.thread d.wallet r) :=
  ⟨⟨_, gate_of_accessOf h.accessOf.1⟩,
    runBy_admin hr (h.access_holds.cell h.access_tag) (h.admin ▸ h.signer)⟩

theorem RemoveEntry.Ok.allowed {d : RemoveEntry} (h : d.Ok R accounts σ σ')
    (hs : d.status = r.status) :
    Command.Allowed limits (board R K (σ.cell R)) (signers accounts)
      (.dismiss d.old.thread d.wallet r) :=
  ⟨⟨_, gate_of_accessOf h.accessOf.1⟩,
    runBy_admin hr (h.access_holds.cell h.access_tag) (h.admin ▸ h.signer),
    role_eq_some.mpr (hs ▸ h.standing.1)⟩

theorem FillSlot.Ok.allowed {d : FillSlot} (h : d.Ok R sv accounts σ σ') :
    Command.Allowed limits (board R K (σ.cell R)) (signers accounts)
      (.post (placeOf (d.message sv)) (messageOf (d.message sv))) := by
  have hc := h.thread_holds.cell h.thread_tag
  have hseq : d.candidate.allocSeq.toNat ≤ d.node.lastAllocSeq.toNat :=
    UInt32.le_iff_toNat_le.mp h.seq_le
  have hagrees : AclAgrees R σ d.thread := reach_aclAgrees (hr.mono fun _ _ _ hok => hok.2 _)
  exact ⟨⟨⟨_, channel_of_cell hc, Nat.lt_succ_of_le hseq⟩, h.slot_lt⟩,
    message_of_free (p := placeOf (d.message sv)) h.content_addr (cell_eq_free.mpr h.content_free),
    h.signer, h.body_le, admits_of_ledger hc (h.access.admits hagrees)⟩

end Reached

theorem Subscribe.Ok.allowed {d : Subscribe} (h : d.Ok R sv accounts σ σ') :
    Command.Allowed limits (board R K (σ.cell R)) (signers accounts) (.follow d.user d.thread) := by
  obtain ⟨hold, -⟩ := h.following
  have hfollows : (board R K (σ.cell R)).follows d.user = d.old.channels.toFinset :=
    congrArg List.toFinset hold
  refine ⟨⟨_, channel_of_cell (h.thread_holds.cell h.thread_tag)⟩, h.signer, ?_, ?_⟩
  · rw [hfollows, List.mem_toFinset]
    exact h.not_following
  · rw [hfollows]
    exact (List.toFinset_card_le _).trans_lt h.not_full

theorem Unsubscribe.Ok.allowed {d : Unsubscribe} (h : d.Ok R sv accounts σ σ') :
    Command.Allowed limits (board R K (σ.cell R)) (signers accounts)
      (.unfollow d.user d.thread) := by
  obtain ⟨hold, -⟩ := h.following
  refine ⟨h.signer, ?_⟩
  show d.thread ∈ ((σ.cell R).channels R d.user).toFinset
  rw [List.mem_toFinset, Cells.channels, hold]
  exact mem_of_position h.pos_eq

theorem RequestAccess.Ok.allowed {d : RequestAccess} (h : d.Ok R sv accounts σ σ') :
    Command.Allowed limits (board R K (σ.cell R)) (signers accounts) (.join d.thread d.payer) := by
  refine ⟨⟨_, gate_of_accessOf h.accessOf.1, ?_⟩, h.signer, ?_⟩
  · exact Nat.pos_of_ne_zero fun h0 => h.fee_ne (UInt64.toNat_inj.mp h0)
  · show ((σ.cell R).standing R d.thread d.payer).bind Role.ofStatus = none
    rw [h.standing.1]
    rfl

theorem AppendContent.Ok.allowed {d : AppendContent} (h : d.Ok R sv accounts σ σ') :
    Command.Allowed limits (board R K (σ.cell R)) (signers accounts)
      (.append (placeOf d.old) d.chunk sv.unixTimestamp.toInt) := by
  refine ⟨messageOf d.old, message_of_cell h.content_addr (h.content_holds.cell h.content_tag),
    show d.old.header.author ∈ _ from h.content_author ▸ h.signer, h.body_le, ?_⟩
  have hwindow := h.in_window
  show sv.unixTimestamp.toInt ≤ d.old.header.createdAt.toInt + appendWindowSecs
  omega

theorem CloseContent.Ok.allowed {d : CloseContent} {b : Bool} (h : d.Ok R accounts σ σ') :
    Command.Allowed limits (board R K (σ.cell R)) (signers accounts)
      (.delete (placeOf d.old) b) :=
  ⟨messageOf d.old, message_of_cell h.addr (h.holds.cell h.tag),
    show d.old.header.author ∈ _ from h.author ▸ h.signer⟩

theorem LikeContent.Ok.allowed {d : LikeContent} (hK : R.CollisionFree K)
    (hlive : ∀ t, (σ.cell R).Live t → t ∈ K) (hw : WellFormed R (σ.cell R))
    (h : d.Ok R sv accounts σ σ') :
    Command.Allowed limits (board R K (σ.cell R)) (signers accounts)
      (.like ⟨d.thread, d.allocSeq, d.slot⟩ d.payer) := by
  have hc := h.content_holds.cell h.content_tag
  obtain ⟨haddr, hlm⟩ := hw.placed _ _ hc
  have ht : d.thread ∈ K := hlive _ ⟨_, h.thread_holds.cell h.thread_tag⟩
  have hsame := address_inj hK (by simpa [Pda.keys] using ht)
    (by simpa [Pda.keys] using hlive _ hlm) h.content_addr haddr
  simp only [Pda.content.injEq] at hsame
  have hplace : placeOf d.message = ⟨d.thread, d.allocSeq, d.slot⟩ := by
    rw [placeOf, hsame.1, hsame.2.1, hsame.2.2]
  refine ⟨⟨messageOf d.message, ?_⟩, h.signer⟩
  rw [← hplace]
  exact message_of_cell haddr hc

end Allowed

/-! ## 4. The refinement -/

/-- **The instruction performs the command** on the board. -/
structure Performs (R : Runtime) (K : Set Pubkey) (sv : Sysvars) (accounts : List AccountInfo)
    (σ σ' : Ledger) (ix : ProgramInstruction) (cmd : Command Pubkey) : Prop where
  issues : Issues R sv (keysOf accounts) ix cmd
  allowed : cmd.Allowed limits (board R K (σ.cell R)) (signers accounts)
  applies : board R K (σ'.cell R) = (board R K (σ.cell R)).apply limits cmd

section Performs

variable {u : Unit}

theorem updateSettings_performs {update : ProgramSettings → ProgramSettings}
    {e : PlatformEdit Pubkey} (hu : ∀ s, SettingsChange s (update s))
    (he : ∀ s, platformOf (update s) = e.apply (platformOf s)) (hrate : e.rate ≤ limits.rate)
    (hix : Issues R sv (keysOf accounts) ix (.configure e))
    (h : updateSettings R accounts update σ = .ok (u, σ')) :
    ∃ cmd, Performs R K sv accounts σ σ' ix cmd := by
  obtain ⟨d, hd, hnew⟩ := updateSettings_edit hu h
  exact ⟨_, hix, hd.allowed hrate, hd.applies (hnew ▸ he d.old)⟩

theorem updatePlatformSetting_performs {fee : UInt32} {update : ProgramSettings → ProgramSettings}
    {e : PlatformEdit Pubkey} (hu : ∀ s, fee ≤ maxFeeCutBps → SettingsChange s (update s))
    (he : ∀ s, platformOf (update s) = e.apply (platformOf s)) (hrate : e.rate = fee.toNat)
    (hix : Issues R sv (keysOf accounts) ix (.configure e))
    (h : updatePlatformSetting R accounts fee update σ = .ok (u, σ')) :
    ∃ cmd, Performs R K sv accounts σ σ' ix cmd := by
  obtain ⟨hfee, d, hd, hnew⟩ := updatePlatformSetting_edit hu h
  have hle : e.rate ≤ limits.rate := hrate ▸ UInt32.le_iff_toNat_le.mp hfee
  exact ⟨_, hix, hd.allowed hle, hd.applies (hnew ▸ he d.old)⟩

theorem updateThread_performs {update : ThreadNode → ThreadNode} {e : Price}
    (hu : ∀ x, ThreadChange x (update x)) (he : ∀ x, channelOf (update x) = e.apply (channelOf x))
    (hix : ∀ t, (keysOf accounts)[1]? = some t → Issues R sv (keysOf accounts) ix (.setPrice t e))
    (h : updateThread R accounts update σ = .ok (u, σ')) :
    ∃ cmd, Performs R K sv accounts σ σ' ix cmd := by
  obtain ⟨d, hd, hnew⟩ := updateThread_edit hu h
  exact ⟨_, hix d.thread (getElem?_of_take hd.keys (by omega)), hd.allowed,
    hd.applies (hnew ▸ he d.old)⟩

section Reached

variable (hr : (program R).Reach (Roomy R K) σ)
include hr

theorem updateAccess_performs {update : ThreadAccess → ThreadAccess} {e : GateEdit}
    (hu : ∀ a, AccessChange a (update a)) (he : ∀ a, gateOf (update a) = e.apply (gateOf a))
    (ht : ∀ a, (update a).thread = a.thread)
    (hix : ∀ t k, (keysOf accounts)[1]? = some k → R.HasAddress (.access t) k →
      Issues R sv (keysOf accounts) ix (.setGate t e))
    (h : updateAccess R accounts update σ = .ok (u, σ')) :
    ∃ cmd, Performs R K sv accounts σ σ' ix cmd := by
  obtain ⟨d, hd, hnew⟩ := updateAccess_edit hu (reach_tidy hr) h
  exact ⟨_, hix d.old.thread d.access (getElem?_of_take hd.keys (by omega)) hd.addr,
    hd.allowed hr, hd.applies (hnew ▸ he d.old) (hnew ▸ ht d.old)⟩

theorem addToList_performs (hix : ix.addsTo = some (w, r.status))
    (h : addToList R sv accounts w r.status σ = .ok (u, σ')) :
    ∃ cmd, Performs R K sv accounts σ σ' ix cmd := by
  obtain ⟨d, hd, rfl, hs⟩ := addToList_ok (reach_tidy hr) h
  exact ⟨_, .addTo hix (getElem?_of_take hd.keys (by omega)) hd.access_addr, hd.allowed hr,
    hd.applies hs⟩

theorem removeFromList_performs (hown : OwnKeys R accounts)
    (hix : ix.removesFrom = some (w, r.status))
    (h : removeFromList R accounts w r.status σ = .ok (u, σ')) :
    ∃ cmd, Performs R K sv accounts σ σ' ix cmd := by
  obtain ⟨d, hd, rfl, hs⟩ := removeFromList_ok (reach_tidy hr) hown h
  exact ⟨_, .removeFrom hix (getElem?_of_take hd.keys (by omega)) hd.access_addr,
    hd.allowed hr hs, hd.applies⟩

/-- **A successful instruction that is no sweep performs a command** that the board allows. -/
theorem performs (hK : R.CollisionFree K)
    (hs : (program R).step σ (.call sv accounts ix) σ') (hix : ¬ ix.Sweeps) :
    ∃ cmd, Performs R K sv accounts σ σ' ix cmd := by
  have hT := reach_tidy hr
  have hw := reach_wellFormed hr
  have hlive : ∀ t, (σ.cell R).Live t → t ∈ K := fun t =>
    reach_live_within (hr.mono fun _ _ _ hok => hok.1)
  obtain ⟨hown, h⟩ := hs
  cases ix with
  | sweepTreasury is | sweepAuthorFees is => exact absurd trivial hix
  | initSettings treasury =>
    obtain ⟨d, hd, rfl⟩ := processInitSettings_ok h
    exact ⟨_, .initSettings (getElem?_of_take hd.keys (by omega)), hd.allowed, hd.applies⟩
  | setTreasury k =>
    exact updateSettings_performs (fun _ => .treasury k) (fun _ => rfl) (Nat.zero_le _)
      (.setTreasury k) h
  | setAdmin k =>
    exact updateSettings_performs (fun _ => .admin k) (fun _ => rfl) (Nat.zero_le _)
      (.setAdmin k) h
  | setBaseFee b =>
    exact updatePlatformSetting_performs (fun _ => .baseFee) (fun _ => rfl) rfl (.setBaseFee b) h
  | setAuthorFeeCut b =>
    exact updatePlatformSetting_performs (fun _ => .authorFeeCut) (fun _ => rfl) rfl
      (.setAuthorFeeCut b) h
  | setEntryCut b =>
    exact updatePlatformSetting_performs (fun _ => .entryCut) (fun _ => rfl) rfl
      (.setEntryCut b) h
  | setLikeCut b =>
    exact updatePlatformSetting_performs (fun _ => .likeCut) (fun _ => rfl) rfl (.setLikeCut b) h
  | createRootAlloc fee i title =>
    obtain ⟨d, hd, rfl, rfl, rfl⟩ := processCreateRootAlloc_ok h
    exact ⟨_, .createRootAlloc (getElem?_of_take hd.keys (by omega))
      (getElem?_of_take hd.keys (by omega)), hd.allowed, hd.applies⟩
  | prepareAlloc seq =>
    obtain ⟨d, hd, rfl⟩ := processPrepareAlloc_ok h
    refine ⟨_, ?_, hd.allowed, hd.applies⟩
    rw [hd.seq_eq]
    exact .prepareAlloc (getElem?_of_take hd.keys (by omega))
  | setMessageFee fee =>
    exact updateThread_performs (fun _ => .messageFee fee) (fun _ => rfl)
      (fun _ => .setMessageFee) h
  | setLikeFee fee =>
    exact updateThread_performs (fun _ => .likeFee fee) (fun _ => rfl) (fun _ => .setLikeFee) h
  | initThreadAccess enabled i =>
    obtain ⟨d, hd, -, rfl⟩ := processInitThreadAccess_ok h
    exact ⟨_, .initThreadAccess (getElem?_of_take hd.keys (by omega)), hd.allowed, hd.applies⟩
  | setThreadAccess b =>
    exact updateAccess_performs hr (fun _ => .enabled b) (fun _ => rfl) (fun _ => rfl)
      (fun _ _ => .setThreadAccess) h
  | setEntryFee fee =>
    exact updateAccess_performs hr (fun _ => .entryFee fee) (fun _ => rfl) (fun _ => rfl)
      (fun _ _ => .setEntryFee) h
  | addToWhitelist w => exact addToList_performs (r := .member) hr rfl h
  | addToBlacklist w => exact addToList_performs (r := .banned) hr rfl h
  | addToFeeWhitelist w => exact addToList_performs (r := .exempt) hr rfl h
  | removeFromWhitelist w => exact removeFromList_performs (r := .member) hr hown rfl h
  | removeFromBlacklist w => exact removeFromList_performs (r := .banned) hr hown rfl h
  | removeFromFeeWhitelist w => exact removeFromList_performs (r := .exempt) hr hown rfl h
  | requestAccess ti ai =>
    obtain ⟨d, hd⟩ := processRequestAccess_ok hT h
    exact ⟨_, .requestAccess (getElem?_of_take hd.keys (by omega))
      (getElem?_of_take hd.keys (by omega)), hd.allowed, hd.applies⟩
  | fillSlot kind body candidates ti ai rs rp maxFee =>
    obtain ⟨d, hd, hpost, rfl, rfl, hc⟩ := processFillSlot_ok hT h
    obtain ⟨_, _, _, _, _, _, _, _, _, _, _, _, _, _, _, post⟩ := d
    obtain rfl : post = _ := hpost
    exact ⟨_, .fillSlot hc (getElem?_of_take hd.keys (by omega))
      (getElem?_of_take hd.keys (by omega)), hd.allowed hr, hd.applies⟩
  | appendContent chunk ti ai =>
    obtain ⟨d, hd, rfl, rfl⟩ := processAppendContent_ok h
    exact ⟨_, .appendContent (p := placeOf d.old) (getElem?_of_take hd.keys (by omega))
      hd.content_addr, hd.allowed, hd.applies⟩
  | closeAccount =>
    obtain ⟨d, hd⟩ := processCloseAccount_ok hown h
    exact ⟨_, .closeAccount (p := placeOf d.old) (getElem?_of_take hd.keys (by omega)) hd.addr,
      hd.allowed, hd.applies hK hlive hw⟩
  | likeContent seq slot ti ai maxFee =>
    obtain ⟨d, hd, rfl, rfl, rfl, rfl⟩ := processLikeContent_ok h
    exact ⟨_, .likeContent (getElem?_of_take hd.keys (by omega))
      (getElem?_of_take hd.keys (by omega)), hd.allowed hK hlive hw, hd.applies hK hlive⟩
  | subscribe =>
    obtain ⟨d, hd⟩ := processSubscribe_ok h
    exact ⟨_, .subscribe (getElem?_of_take hd.keys (by omega))
      (getElem?_of_take hd.keys (by omega)), hd.allowed, hd.applies⟩
  | unsubscribe =>
    obtain ⟨d, hd⟩ := processUnsubscribe_ok h
    have hreg := hd.registry_holds.cell hd.registry_tag
    have hnodup := ((reach_followAgrees hr).registry _ _ hreg).nodup
    exact ⟨_, .unsubscribe (getElem?_of_take hd.keys (by omega))
      (getElem?_of_take hd.keys (by omega)), hd.allowed, hd.applies hnodup⟩

end Reached

end Performs

/-- What the board does not show does not change it. -/
theorem board_same (h : ∀ κ, SameKind κ c c') : board R K c' = board R K c :=
  Board.ext (platform_same (h _)) (channels_same (h _)) (gates_same (h _)) (roles_same (h _))
    (messages_same (h _)) (likes_same (h _)) (follows_same (h _))

theorem Act.sweeps_same (h : Act R sv accounts σ σ' ix) (hix : ix.Sweeps) (κ : Kind) :
    SameKind κ (σ.cell R) (σ'.cell R) := by
  cases h with
  | treasurySweep d h =>
    rw [h.cells]
    exact .refl _ _
  | authorSweep d h =>
    rw [h.cells]
    exact .refl _ _
  | settingsEdit d _ he | threadEdit d _ he | accessEdit d _ he =>
    cases ix <;> first | exact absurd hix id | exact absurd he id
  | setEntry d _ he | removeEntry d _ he =>
    cases ix <;> first | exact absurd hix id | exact nomatch he
  | _ => exact absurd hix id

/-- Nothing is on the board of a fresh ledger. -/
theorem board_fresh (h : Fresh R σ) : board R K (σ.cell R) = .empty := by
  have hsame : ∀ κ, SameKind κ (fun _ => .free) (σ.cell R) := fun κ k a _ =>
    ⟨fun hk => absurd (owner_of_cell_holds hk) (h.unowned k), nofun⟩
  rw [board_same hsame]
  refine Board.ext ?_ rfl ?_ ?_ ?_ ?_ ?_
  · exact Option.bind_eq_none_iff.mpr fun _ _ => rfl
  · exact funext fun t => Option.map_eq_none_iff.mpr (lookup_eq_none fun _ => rfl)
  · funext t w
    have hnone : Cells.standing (fun _ => .free) R t w = none := lookup_eq_none fun _ => rfl
    show (Cells.standing (fun _ => .free) R t w).bind Role.ofStatus = none
    rw [hnone]
    rfl
  · exact funext fun p => lookup_eq_none fun _ => rfl
  · funext p
    by_cases hp : p.channel ∈ K
    · rw [likes_read hp]
      unfold Cells.likesOf
      cases (contentAddress R p).bind fun _ => likesAddress R p <;> rfl
    · exact if_neg hp
  · funext w
    have hnone : Cells.following (fun _ => .free) R w = none := lookup_eq_none fun _ => rfl
    show (Cells.channels (fun _ => .free) R w).toFinset = ∅
    rw [Cells.channels, hnone]
    rfl

/-- **The label of a step**: the command of the instruction, and who signed it. -/
inductive Commands (R : Runtime) : Event → Action Pubkey → Prop where
  | call {sv : Sysvars} {accounts : List AccountInfo} {ix : ProgramInstruction}
      {cmd : Command Pubkey} (h : Issues R sv (keysOf accounts) ix cmd) :
      Commands R (.call sv accounts ix) ⟨signers accounts, cmd⟩

/-- The steps that the board does not show. -/
def Unseen : Ledger × Event × Ledger → Prop
  | (_, .outside, _) => True
  | (_, .call _ _ ix, _) => ix.Sweeps

/-- **Every step of the program is a step of the board**, or one that it does not show. -/
theorem board_simulates (hK : R.CollisionFree K) :
    (program R).Simulates (machine Pubkey limits) (Roomy R K) anyAction
      (fun σ => board R K (σ.cell R)) (Commands R) Unseen where
  init σ h := board_fresh h
  step σ e σ' hr hs hok := by
    cases e with
    | outside => exact .inr ⟨trivial, board_same fun κ k a _ => Outside.holds_iff hs⟩
    | call sv accounts ix =>
      by_cases hix : ix.Sweeps
      · exact .inr ⟨hix, board_same ((reach_act hr hs).sweeps_same hix)⟩
      · obtain ⟨cmd, h⟩ := performs hr hK hs hix
        exact .inl ⟨⟨signers accounts, cmd⟩, .call h.issues, ⟨h.allowed, h.applies⟩, trivial⟩

/-! ## 5. Runs -/

section Runs

variable {Ok : Ledger → Event → Ledger → Prop} {σ₀ : Ledger} {tr : List (Ledger × Event × Ledger)}

/-- A run lets in at most one member with each step. -/
theorem allowedCount_le_length (h0 : Fresh R σ₀) (h : (program R).Path Ok σ₀ tr σ) :
    allowedCount R σ t ≤ tr.length := by
  induction h with
  | nil =>
    rw [List.length_nil, Nat.le_zero]
    refine countOf_eq_zero fun w s hs => ?_
    obtain ⟨k, e, -, hk, -⟩ := standing_eq_some.mp hs
    exact h0.unowned k (owner_of_cell_holds hk)
  | snoc hp hs hok ih =>
    rename_i tr τ σ e
    rw [List.length_append, List.length_singleton]
    have hstep : allowedCount R σ t ≤ allowedCount R τ t + 1 := by
      cases e with
      | call sv accounts ix => exact (reach_act (hp.reach (.init h0)) hs).aclEffect.allowedCount_le
      | outside =>
        unfold allowedCount
        rw [Outside.standing hs]
        omega
    omega

/-- **In fewer than 2 ^ 32 steps the counters have room.** -/
theorem path_roomy (h0 : Fresh R σ₀) (h : (program R).Path (Within K) σ₀ tr σ)
    (hlen : tr.length < 2 ^ 32) : (program R).Path (Roomy R K) σ₀ tr σ := by
  induction h with
  | nil => exact .nil
  | snoc hp hs hok ih =>
    rw [List.length_append, List.length_singleton] at hlen
    refine .snoc (ih (by omega)) hs ⟨hok, fun t => ?_⟩
    have hle := allowedCount_le_length (t := t) h0 (hp.snoc hs hok)
    rw [List.length_append, List.length_singleton] at hle
    exact hle.trans_lt hlen

/-- **Main statement**: over keys whose addresses do not collide and while the counters have room
    (`Roomy`), the program refines the message board. Each step is a command that the board allows
    to the signers of the instruction, or a step that the board does not show; and each run from a
    fresh ledger is the run of its commands, from the empty board. -/
theorem board_refines (hK : R.CollisionFree K) :
    (program R).Simulates (machine Pubkey limits) (Roomy R K) anyAction
      (fun σ => board R K (σ.cell R)) (Commands R) Unseen ∧
    ∀ σ₀ tr σ, Fresh R σ₀ → (program R).Path (Roomy R K) σ₀ tr σ →
      ∃ tr', Lts.Seen (fun σ => board R K (σ.cell R)) (Commands R) Unseen tr tr' ∧
        (machine Pubkey limits).Path anyAction .empty tr' (board R K (σ.cell R)) := by
  refine ⟨board_simulates hK, fun σ₀ tr σ h0 hp => ?_⟩
  rw [← board_fresh (K := K) h0]
  exact (board_simulates hK).path (.init h0) hp

theorem Local.inUse_roomy :
    ∃ tr, (program localnet).Path (Roomy localnet {k | Plain k}) Local.genesis tr
      (afterCalls localnet Local.inUse Local.genesis) ∧
      tr.map (·.2.1) = Local.inUse.map Call.event := by
  obtain ⟨tr, hp, htr⟩ := Local.inUse_path fun c hc σ τ => (Local.inUse_steady c hc σ τ).2
  have hlen := congrArg List.length htr
  rw [List.length_map, List.length_map] at hlen
  exact ⟨tr, path_roomy Local.genesis_init hp (hlen ▸ by decide), htr⟩

/-- The local channel in use, as a board. -/
theorem board_refines_local : ∃ tr tr', tr.map (·.2.1) = Local.inUse.map Call.event ∧
    Lts.Seen (fun σ => board localnet {k | Plain k} (σ.cell localnet)) (Commands localnet) Unseen
      tr tr' ∧
    (machine Pubkey limits).Path anyAction .empty tr'
      (board localnet {k | Plain k} ((afterCalls localnet Local.inUse Local.genesis).cell
        localnet)) := by
  obtain ⟨tr, hp, htr⟩ := Local.inUse_roomy
  obtain ⟨tr', hseen, hpath⟩ :=
    (board_refines localnet_collisionFree).2 _ tr _ Local.genesis_init hp
  exact ⟨tr, tr', htr, hseen, hpath⟩

end Runs

end Txtcel
