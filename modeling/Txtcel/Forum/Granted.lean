import Txtcel.Forum.Invariants
import Txtcel.Forum.Refinement
import Txtcel.Properties.Chain
import Txtcel.Properties.Followers
import Txtcel.Properties.Prefunding
import Txtcel.Spec.Progress

/-!
# What costs nothing is never refused

The refinement says that the program does no more than the board allows. This is a converse for the
commands that cost nothing: settings, prices and gates are edited, roles taken away, messages
deleted and channels unfollowed whenever the board allows it.

* `Command.Free`, `Command.Encodable`: those commands, and that their amounts fit in `u64`;
* `Granted`: some instruction that only the wallet signs performs the command, and the wallet is not
  poorer for it;
* `free_commands_granted`: in every reachable state, whoever may give a free command is granted it.

The runs are those of the refinement (`CollisionFree`, `Roomy`); besides, every derivation finds an
address (`Derivable`), the amounts can be written (`Encodable`), and all lamports fit in `u64`.
-/

namespace Txtcel

open Lib Exec Borsh Function Forum

/-! ## 1. The commands -/

namespace Forum

variable {Key : Type}

/-- The commands that cost nothing. -/
def Command.Free : Command Key → Prop
  | configure _ | setPrice _ _ | setGate _ _ | dismiss _ _ _ | delete _ _ | unfollow _ _ => True
  | _ => False

/-- The amounts of the command fit in `u64`. -/
def Command.Encodable : Command Key → Prop
  | setPrice _ (.message fee) | setPrice _ (.like fee) => fee < 2 ^ 64
  | setGate _ (.entryFee fee) => fee < 2 ^ 64
  | _ => True

end Forum

variable {R : Runtime} {sv : Sysvars} {σ : Ledger} {K : Set Pubkey} {k t w : Pubkey}
  {cmd : Command Pubkey} {ks : List Pubkey}

/-- A wallet: System-owned, without data, and no address of the program. -/
structure IsWallet (R : Runtime) (σ : Ledger) (w : Pubkey) : Prop where
  owner : σ.owner w = systemProgram
  empty : σ.data w = []
  own : ¬ R.IsPda w

/-- Every derivation over `K` finds an address. -/
def Derivable (R : Runtime) (K : Set Pubkey) : Prop :=
  ∀ q : Pda, (∀ k ∈ q.keys, k ∈ K) → ∃ k, R.HasAddress q k

/-- **The command is granted to the wallet**: an instruction that nobody else signs performs it, and
    takes nothing from the wallet. -/
def Granted (R : Runtime) (K : Set Pubkey) (sv : Sysvars) (σ : Ledger) (w : Pubkey)
    (cmd : Command Pubkey) : Prop :=
  ∃ accounts ix σ', signers accounts = {w} ∧ Issues R sv (keysOf accounts) ix cmd ∧
    (program R).step σ (.call sv accounts ix) σ' ∧
    board R K (σ'.cell R) = (board R K (σ.cell R)).apply limits cmd ∧
    σ.lamports w ≤ σ'.lamports w

/-! ## 2. Calls with one signer -/

/-- The accounts of a call that `w` signs. -/
def callBy (w : Pubkey) (ks : List Pubkey) : List AccountInfo := signer w :: ks.map passed

theorem signers_callBy : signers (callBy w ks) = {w} := by
  ext k
  constructor
  · intro h
    obtain ⟨a, ha, hs, rfl⟩ := h
    rcases List.mem_cons.mp ha with rfl | ha
    · rfl
    · obtain ⟨j, -, rfl⟩ := List.mem_map.mp ha
      cases hs
  · intro h
    obtain rfl : k = w := h
    exact ⟨signer k, List.mem_cons_self, rfl, rfl⟩

theorem keysOf_callBy : keysOf (callBy w ks) = w :: ks := by
  simp only [keysOf, callBy, List.map_cons, List.map_map]
  exact congrArg (w :: ·) (List.map_id ks)

/-- The account behind the signer, as a handler reads it. -/
theorem second_of_callBy {n : Nat} {i j : Pubkey} {l : List Pubkey}
    (h : (keysOf (callBy w (k :: ks))).take n = i :: j :: l) : k = j := by
  have hsecond := congrArg (·[1]?) h
  rw [keysOf_callBy] at hsecond
  simp only [List.getElem?_take, List.getElem?_cons_succ, List.getElem?_cons_zero] at hsecond
  split at hsecond
  · exact Option.some.inj hsecond
  · cases hsecond

namespace IsWallet

variable (hw : IsWallet R σ w)
include hw

theorem ownKeys : OwnKeys R (callBy w ks) := by
  intro k hk
  rw [signers_callBy] at hk
  obtain rfl : k = w := hk
  exact hw.own

/-- The wallet can spend what it has. -/
theorem paying (hsup : total σ.lamports < 2 ^ 64) :
    Paying R (signer w) (σ.lamports w) (σ.cell R) σ where
  wallet := ⟨rfl, rfl, hw.empty, hw.owner, Nat.le_refl _, hsup⟩
  cells := rfl

/-- A call that succeeds, and performs the command when it does. -/
theorem granted (ks : List Pubkey) (ix : ProgramInstruction)
    (hix : Issues R sv (w :: ks) ix cmd)
    (hrun : wp (processInstruction R sv (callBy w ks) ix) (Paid w (σ.lamports w)) σ)
    (happ : ∀ σ', processInstruction R sv (callBy w ks) ix σ = .ok ((), σ') →
      board R K (σ'.cell R) = (board R K (σ.cell R)).apply limits cmd) :
    Granted R K sv σ w cmd := by
  obtain ⟨_, σ', hok, hpaid⟩ := hrun
  exact ⟨callBy w ks, ix, σ', signers_callBy, keysOf_callBy ▸ hix, ⟨hw.ownKeys, hok⟩, happ σ' hok,
    hpaid⟩

end IsWallet

/-! ## 3. What the board says of the accounts -/

theorem Cell.platform_eq_some {x : Cell} {p : Platform Pubkey} (h : x.platform? = some p) :
    ∃ s, x = .holds (.settings s) ∧ platformOf s = p := by
  unfold Cell.platform? at h
  split at h
  · exact ⟨_, rfl, Option.some.inj h⟩
  · cases h

theorem Cell.channel_eq_some {x : Cell} {c : Channel Pubkey} (h : x.channel? = some c) :
    ∃ n, x = .holds (.thread n) ∧ channelOf n = c := by
  unfold Cell.channel? at h
  split at h
  · exact ⟨_, rfl, Option.some.inj h⟩
  · cases h

theorem Cell.messageAt_eq_some {x : Cell} {p : Place Pubkey} {m : Message Pubkey}
    (h : x.messageAt p = some m) :
    ∃ n, x = .holds (.content n) ∧ placeOf n = p ∧ messageOf n = m := by
  unfold Cell.messageAt at h
  split at h
  · split at h
    · rename_i n hp
      exact ⟨n, rfl, hp, Option.some.inj h⟩
    · cases h
  · cases h

/-- A gate of the channel is its access account. -/
theorem gate_eq_some {c : Cells} {g : Gate} (h : (board R K c).gates t = some g) :
    ∃ k a, R.HasAddress (.access t) k ∧ c k = .holds (.access a) ∧ a.thread = t := by
  obtain ⟨a, ha, -⟩ := Option.map_eq_some_iff.mp h
  obtain ⟨k, hk, hc, ht⟩ := accessOf_eq_some.mp ha
  exact ⟨k, a, hk, hc, ht⟩

/-- The author of a channel is the admin of its access account. -/
theorem admin_of_runBy {a : ThreadAccess} (hr : (program R).Reach (Roomy R K) σ)
    (hc : σ.cell R k = .holds (.access a)) (h : (board R K (σ.cell R)).RunBy a.thread {w}) :
    a.admin = w := by
  obtain ⟨c, hch, hau⟩ := h
  obtain ⟨x, hx, hxa⟩ := reach_admin hr hc
  obtain ⟨y, hy, rfl⟩ := Cell.channel_eq_some hch
  rw [hx] at hy
  cases hy
  exact hxa.symm.trans hau

/-- What is stored at the counters of a page: the counters of that page. -/
theorem Pda.Stores.likes_eq {seq : UInt32} {x : Cell} (h : (Pda.likes t seq).Stores x) :
    ∃ l, x = .holds (.likes l) ∧ l.allocSeq = seq := by
  cases h with
  | likes t l => exact ⟨l, rfl, rfl⟩

/-- The counters of a page, when they are to be cleared. -/
theorem exists_pageLikes (seq : UInt32) (hK : R.CollisionFree K) (hder : Derivable R K)
    (h : (program R).Reach (Within K) σ) (ht : t ∈ K) (clear : Bool) :
    ∃ likes : Option Pubkey, likes.isSome = clear ∧
      ∀ li, likes = some li → R.HasAddress (.likes t seq) li ∧ PageLikes (σ.cell R) li seq := by
  have hkeys : ∀ q ∈ (Pda.likes t seq).keys, q ∈ K := by
    intro q hq
    obtain rfl := List.mem_singleton.mp hq
    exact ht
  cases clear with
  | false => exact ⟨none, rfl, nofun⟩
  | true =>
    obtain ⟨li, hli⟩ := hder _ hkeys
    refine ⟨some li, rfl, fun j hj => ?_⟩
    obtain rfl := Option.some.inj hj
    refine ⟨hli, ?_⟩
    rcases reach_stored hK h hli hkeys with hf | hst
    · exact .inl (cell_eq_free.mpr hf)
    · exact .inr hst.likes_eq

namespace UnsubscribeAccounts

variable (c : UnsubscribeAccounts R)

theorem does {σ' : Ledger} (h : processUnsubscribe R sv c.list σ = .ok ((), σ')) :
    ∃ d : Unsubscribe, d.Ok R sv c.list σ σ' ∧ d.user = c.user.key ∧ d.thread = c.thread.key := by
  obtain ⟨d, hd⟩ := processUnsubscribe_ok h
  obtain ⟨hu, -, -, ht⟩ : c.user.key = d.user ∧ c.registry.key = d.registry ∧
      c.shard.key = d.shard ∧ c.thread.key = d.thread := by
    simpa [list, keysOf] using hd.keys
  exact ⟨d, hd, hu.symm, ht.symm⟩

/-- With all lamports within `u64` the refund finds room in the wallet. -/
theorem succeeds_within (hI : FollowAgrees R σ) (ht : (σ.cell R).Live c.thread.key)
    (hmem : c.thread.key ∈ (σ.cell R).channels R c.user.key) (hown : ¬ R.IsPda c.user.key)
    (hsup : total σ.lamports < 2 ^ 64) :
    wp (processUnsubscribe R sv c.list) (Paid c.user.key (σ.lamports c.user.key)) σ := by
  have hcases : (∃ σ', processUnsubscribe R sv c.list σ = .ok ((), σ')) ∨ _ :=
    c.succeeds hI ht hmem
  rcases hcases with ⟨σ', hok⟩ | ⟨hfull, -⟩
  · obtain ⟨d, hd, hu, -⟩ := c.does hok
    refine ⟨(), σ', hok, ?_⟩
    have hne : d.user ≠ d.registry := by
      intro he
      rw [← hu, he] at hown
      exact hown hd.registry_addr.isPda
    rw [← hu, hd.post, Paid, Ledger.put_lamports, Ledger.pay_dst _ _ _ _ hne]
    exact Nat.le_add_right _ _
  · have hne : c.user.key ≠ c.registry.key := fun he => hown (he ▸ c.registry_addr.isPda)
    exact absurd (hfull.trans (Ledger.add_le_total hne)) (Nat.not_le.mpr hsup)

end UnsubscribeAccounts

/-! ## 4. Edits -/

section Edits

variable (hw : IsWallet R σ w) (hsup : total σ.lamports < 2 ^ 64)

include hw hsup

theorem updateSettings_granted (ix : ProgramInstruction)
    {update : ProgramSettings → ProgramSettings} {e : PlatformEdit Pubkey}
    (hu : ∀ s, SettingsChange s (update s))
    (he : ∀ s, platformOf (update s) = e.apply (platformOf s))
    (hix : ∀ ks, Issues R sv ks ix (.configure e))
    (hproc : ∀ accounts, processInstruction R sv accounts ix σ =
      updateSettings R accounts update σ)
    (ha : Command.Allowed limits (board R K (σ.cell R)) {w} (.configure e)) :
    Granted R K sv σ w (.configure e) := by
  obtain ⟨p, hp, hadmin, -⟩ := ha
  obtain ⟨s, hs, hx⟩ := Option.bind_eq_some_iff.mp hp
  have haddr := settingsAddress_eq_some.mp hs
  obtain ⟨x, hc, rfl⟩ := Cell.platform_eq_some hx
  have hrun : wp (updateSettings R (callBy w [s]) update) (Paid w (σ.lamports w)) σ :=
    updateSettings_wp (hw.paying hsup) haddr hc hadmin (hu x)
  refine hw.granted [s] ix (hix _) ?_ fun σ' hok => ?_
  · unfold wp
    rw [hproc]
    exact hrun
  · rw [hproc] at hok
    obtain ⟨d, hd, hnew⟩ := updateSettings_edit hu hok
    exact hd.applies (hnew ▸ he d.old)

theorem updatePlatformSetting_granted (ix : ProgramInstruction) {fee : UInt32}
    {update : ProgramSettings → ProgramSettings} {e : PlatformEdit Pubkey}
    (hu : ∀ s, fee ≤ maxFeeCutBps → SettingsChange s (update s))
    (he : ∀ s, platformOf (update s) = e.apply (platformOf s)) (hrate : e.rate = fee.toNat)
    (hix : ∀ ks, Issues R sv ks ix (.configure e))
    (hproc : ∀ accounts, processInstruction R sv accounts ix =
      updatePlatformSetting R accounts fee update)
    (ha : Command.Allowed limits (board R K (σ.cell R)) {w} (.configure e)) :
    Granted R K sv σ w (.configure e) := by
  obtain ⟨p, hp, hadmin, hle⟩ := ha
  have hfee : fee ≤ maxFeeCutBps := UInt32.le_iff_toNat_le.mpr (hrate ▸ hle)
  refine updateSettings_granted hw hsup ix (fun s => hu s hfee) he hix (fun accounts => ?_)
    ⟨p, hp, hadmin, hle⟩
  rw [hproc, updatePlatformSetting,
    bind_of_ok (failIf_eq_ok (u := ()).mpr ⟨UInt32.not_lt.mpr hfee, rfl⟩)]

theorem updateThread_granted (ix : ProgramInstruction) {update : ThreadNode → ThreadNode}
    {e : Price} (hu : ∀ x, ThreadChange x (update x))
    (he : ∀ x, channelOf (update x) = e.apply (channelOf x))
    (hix : Issues R sv [w, t] ix (.setPrice t e))
    (hproc : ∀ accounts, processInstruction R sv accounts ix = updateThread R accounts update)
    (ha : Command.Allowed limits (board R K (σ.cell R)) {w} (.setPrice t e)) :
    Granted R K sv σ w (.setPrice t e) := by
  obtain ⟨c, hc, hau⟩ := ha
  obtain ⟨x, hx, rfl⟩ := Cell.channel_eq_some hc
  have hrun : wp (updateThread R (callBy w [t]) update) (Paid w (σ.lamports w)) σ :=
    updateThread_wp (hw.paying hsup) hx hau (hu x)
  refine hw.granted [t] ix hix (hproc _ ▸ hrun) fun σ' hok => ?_
  rw [hproc] at hok
  obtain ⟨d, hd, hnew⟩ := updateThread_edit hu hok
  obtain rfl : t = d.thread := second_of_callBy hd.keys
  exact hd.applies (hnew ▸ he d.old)

/-! ## 5. Gates and roles -/

section Reached

variable (hr : (program R).Reach (Roomy R K) σ)
include hr

theorem updateAccess_granted (ix : ProgramInstruction) {update : ThreadAccess → ThreadAccess}
    {e : GateEdit} (hu : ∀ a, AccessChange a (update a))
    (he : ∀ a, gateOf (update a) = e.apply (gateOf a))
    (ht : ∀ a, (update a).thread = a.thread)
    (hix : ∀ k, R.HasAddress (.access t) k → Issues R sv [w, k] ix (.setGate t e))
    (hproc : ∀ accounts, processInstruction R sv accounts ix = updateAccess R accounts update)
    (ha : Command.Allowed limits (board R K (σ.cell R)) {w} (.setGate t e)) :
    Granted R K sv σ w (.setGate t e) := by
  obtain ⟨⟨g, hg⟩, hrun⟩ := ha
  obtain ⟨k, a, hk, hc, rfl⟩ := gate_eq_some hg
  have hadmin := admin_of_runBy hr hc hrun
  have hwp : wp (updateAccess R (callBy w [k]) update) (Paid w (σ.lamports w)) σ :=
    updateAccess_wp (hw.paying hsup) hc hk hadmin (hu a)
  refine hw.granted [k] ix (hix k hk) (hproc _ ▸ hwp) fun σ' hok => ?_
  rw [hproc] at hok
  obtain ⟨d, hd, hnew⟩ := updateAccess_edit hu (reach_tidy hr) hok
  obtain rfl : k = d.access := second_of_callBy hd.keys
  have hold := hd.holds.cell hd.tag
  rw [hc] at hold
  cases hold
  exact hd.applies (hnew ▸ he _) (hnew ▸ ht _)

theorem removeFromList_granted (ix : ProgramInstruction) {v : Pubkey} {r : Role}
    (hix : ix.removesFrom = some (v, r.status))
    (hproc : ∀ accounts, processInstruction R sv accounts ix = removeFromList R accounts v r.status)
    (ha : Command.Allowed limits (board R K (σ.cell R)) {w} (.dismiss t v r)) :
    Granted R K sv σ w (.dismiss t v r) := by
  obtain ⟨⟨g, hg⟩, hrun, hrole⟩ := ha
  obtain ⟨k, a, hk, hc, rfl⟩ := gate_eq_some hg
  have hadmin := admin_of_runBy hr hc hrun
  obtain ⟨j, e, hj, he, het, hew, hes⟩ := standing_eq_some.mp (role_eq_some.mp hrole)
  have hen : R.HasAddress (.entry a.thread e.wallet) j := by rwa [hew]
  have hwp : wp (removeFromList R (callBy w [k, j, systemProgram]) v r.status)
      (Paid w (σ.lamports w)) σ := by
    rw [← hew, ← hes]
    exact removeFromList_wp (hw.paying hsup) hc hk hadmin he het hen
  refine hw.granted [k, j, systemProgram] ix (.removeFrom hix rfl hk) (hproc _ ▸ hwp)
    fun σ' hok => ?_
  rw [hproc] at hok
  obtain ⟨d, hd, rfl, -⟩ := removeFromList_ok (reach_tidy hr) hw.ownKeys hok
  obtain rfl : k = d.access := second_of_callBy hd.keys
  have hold := hd.access_holds.cell hd.access_tag
  rw [hc] at hold
  cases hold
  exact hd.applies

/-! ## 6. Deletions -/

theorem closeAccount_granted (hK : R.CollisionFree K) (hder : Derivable R K) {p : Place Pubkey}
    {clear : Bool} (ha : Command.Allowed limits (board R K (σ.cell R)) {w} (.delete p clear)) :
    Granted R K sv σ w (.delete p clear) := by
  obtain ⟨m, hm, hau⟩ := ha
  obtain ⟨k, hk, hread⟩ := lookup_eq_some.mp hm
  obtain ⟨n, hc, rfl, rfl⟩ := Cell.messageAt_eq_some hread
  have haddr := contentAddress_eq_some.mp hk
  have hwithin : (program R).Reach (Within K) σ := hr.mono fun _ _ _ hok => hok.1
  have hlive : ∀ t, (σ.cell R).Live t → t ∈ K := fun t => reach_live_within hwithin
  have hwf := reach_wellFormed hr
  have hslot := reach_slot (hr.mono fun _ _ _ _ => trivial) hc
  obtain ⟨likes, hlikes, hpage⟩ := exists_pageLikes n.header.allocSeq hK hder hwithin
    (hlive _ (hwf.placed _ _ hc).2) clear
  have hwp : wp (processCloseAccount R (callBy w (k :: likes.toList))) (Paid w (σ.lamports w)) σ :=
    processCloseAccount_wp (hw.paying hsup) hc haddr hau hslot hpage
  have hthird : ((w :: k :: likes.toList)[2]?).isSome = clear := by
    rw [← hlikes]
    cases likes <;> rfl
  refine hw.granted (k :: likes.toList) .closeAccount ?_ hwp fun σ' hok => ?_
  · rw [← hthird]
    exact .closeAccount rfl haddr
  · obtain ⟨d, hd⟩ := processCloseAccount_ok hw.ownKeys hok
    have happ := hd.applies hK hlive hwf
    rw [keysOf_callBy, hthird] at happ
    obtain rfl : k = d.content := second_of_callBy hd.keys
    have hold := hd.holds.cell hd.tag
    rw [hc] at hold
    cases hold
    exact happ

/-! ## 7. Unfollowing -/

theorem unsubscribe_granted (hK : R.CollisionFree K) (hder : Derivable R K) (hwK : w ∈ K)
    {v : Pubkey} (ha : Command.Allowed limits (board R K (σ.cell R)) {w} (.unfollow v t)) :
    Granted R K sv σ w (.unfollow v t) := by
  obtain ⟨rfl, hmem⟩ : v = w ∧ t ∈ (board R K (σ.cell R)).follows v := ha
  have hsound : (board R K (σ.cell R)).Sound limits :=
    machine_sound (by decide) (by decide) ((board_simulates hK).reach hr)
  obtain ⟨c, hch⟩ := (hsound.follows v).2 t hmem
  obtain ⟨x, hx, -⟩ := Cell.channel_eq_some hch
  have ht : t ∈ K := reach_live_within (hr.mono fun _ _ _ hok => hok.1) ⟨x, hx⟩
  have hin : t ∈ (σ.cell R).channels R v := List.mem_toFinset.mp hmem
  have hagree := reach_followAgrees hr
  obtain ⟨reg, hreg⟩ := hder (.followRegistry v) (by simpa [Pda.keys] using hwK)
  obtain ⟨sh, hsh⟩ := hder (.followerShard t (followerShardIndex v)) (by simpa [Pda.keys] using ht)
  let call : UnsubscribeAccounts R := ⟨signer v, passed reg, passed sh, passed t,
    passed systemProgram, [], rfl, rfl, hreg, rfl, hsh, rfl, rfl⟩
  refine hw.granted [reg, sh, t, systemProgram] .unsubscribe (.unsubscribe rfl rfl)
    (call.succeeds_within hagree ⟨x, hx⟩ hin hw.own hsup) fun σ' hok => ?_
  obtain ⟨d, hd, rfl, rfl⟩ : ∃ d : Unsubscribe, d.Ok R sv call.list σ σ' ∧ d.user = v ∧
    d.thread = t := call.does hok
  have hold := hd.registry_holds.cell hd.registry_tag
  exact hd.applies (hagree.registry _ _ hold).nodup

end Reached

end Edits

/-! ## 8. The result -/

theorem exists_bps {n : Nat} (h : n ≤ limits.rate) : ∃ b : UInt32, b.toNat = n :=
  ⟨UInt32.ofNat n, UInt32.toNat_ofNat_of_lt' (h.trans_lt (by decide))⟩

theorem exists_fee {n : Nat} (h : n < 2 ^ 64) : ∃ f : UInt64, f.toNat = n :=
  ⟨UInt64.ofNat n, UInt64.toNat_ofNat_of_lt' h⟩

/-- **Main statement**: in every state that a `Roomy` run without collisions reaches, a wallet is
    granted each free command that the board allows it and that can be written. While derivations
    find addresses and the supply fits in `u64`, no balance, no other signer and no state of the
    accounts stands against it. -/
theorem free_commands_granted (hK : R.CollisionFree K) (hder : Derivable R K)
    (hr : (program R).Reach (Roomy R K) σ) (hw : IsWallet R σ w) (hwK : w ∈ K)
    (hsup : total σ.lamports < 2 ^ 64) (hfree : cmd.Free) (henc : cmd.Encodable)
    (ha : cmd.Allowed limits (board R K (σ.cell R)) {w}) : Granted R K sv σ w cmd := by
  cases cmd with
  | configure e =>
    obtain ⟨-, -, -, hrate⟩ := id ha
    cases e with
    | admin k =>
      exact updateSettings_granted hw hsup (.setAdmin k) (fun _ => .admin k) (fun _ => rfl)
        (fun _ => .setAdmin k) (fun _ => rfl) ha
    | treasury k =>
      exact updateSettings_granted hw hsup (.setTreasury k) (fun _ => .treasury k) (fun _ => rfl)
        (fun _ => .setTreasury k) (fun _ => rfl) ha
    | baseFee n =>
      obtain ⟨b, rfl⟩ := exists_bps hrate
      exact updatePlatformSetting_granted hw hsup (.setBaseFee b) (fun _ => .baseFee)
        (fun _ => rfl) rfl (fun _ => .setBaseFee b) (fun _ => rfl) ha
    | authorFeeCut n =>
      obtain ⟨b, rfl⟩ := exists_bps hrate
      exact updatePlatformSetting_granted hw hsup (.setAuthorFeeCut b) (fun _ => .authorFeeCut)
        (fun _ => rfl) rfl (fun _ => .setAuthorFeeCut b) (fun _ => rfl) ha
    | entryCut n =>
      obtain ⟨b, rfl⟩ := exists_bps hrate
      exact updatePlatformSetting_granted hw hsup (.setEntryCut b) (fun _ => .entryCut)
        (fun _ => rfl) rfl (fun _ => .setEntryCut b) (fun _ => rfl) ha
    | likeCut n =>
      obtain ⟨b, rfl⟩ := exists_bps hrate
      exact updatePlatformSetting_granted hw hsup (.setLikeCut b) (fun _ => .likeCut)
        (fun _ => rfl) rfl (fun _ => .setLikeCut b) (fun _ => rfl) ha
  | setPrice t e =>
    cases e with
    | message n =>
      obtain ⟨f, rfl⟩ := exists_fee henc
      exact updateThread_granted hw hsup (.setMessageFee f) (fun _ => .messageFee f)
        (fun _ => rfl) (.setMessageFee rfl) (fun _ => rfl) ha
    | like n =>
      obtain ⟨f, rfl⟩ := exists_fee henc
      exact updateThread_granted hw hsup (.setLikeFee f) (fun _ => .likeFee f) (fun _ => rfl)
        (.setLikeFee rfl) (fun _ => rfl) ha
  | setGate t e =>
    cases e with
    | enabled b =>
      exact updateAccess_granted hw hsup hr (.setThreadAccess b) (fun _ => .enabled b)
        (fun _ => rfl) (fun _ => rfl) (fun _ => .setThreadAccess rfl) (fun _ => rfl) ha
    | entryFee n =>
      obtain ⟨f, rfl⟩ := exists_fee henc
      exact updateAccess_granted hw hsup hr (.setEntryFee f) (fun _ => .entryFee f) (fun _ => rfl)
        (fun _ => rfl) (fun _ => .setEntryFee rfl) (fun _ => rfl) ha
  | dismiss t v r =>
    cases r with
    | member =>
      exact removeFromList_granted hw hsup hr (.removeFromWhitelist v) rfl (fun _ => rfl) ha
    | banned =>
      exact removeFromList_granted hw hsup hr (.removeFromBlacklist v) rfl (fun _ => rfl) ha
    | exempt =>
      exact removeFromList_granted hw hsup hr (.removeFromFeeWhitelist v) rfl (fun _ => rfl) ha
  | delete p clear => exact closeAccount_granted hw hsup hr hK hder ha
  | unfollow v t => exact unsubscribe_granted hw hsup hr hK hder hwK ha
  | _ => exact hfree.elim

/-- `bob` deletes his message from the channel in use, with its likes. -/
theorem free_commands_granted_bob :
    Granted localnet {k | Plain k} Local.sysvars (afterCalls localnet Local.inUse Local.genesis)
      Local.bob (.delete ⟨Local.channel, 0, 0⟩ true) := by
  obtain ⟨tr, hp, -⟩ := Local.inUse_roomy
  have haddr := Local.hasAddress_addressOf (.content Local.channel 0 0)
  have hbob : ((Cell.messageAt ⟨Local.channel, 0, 0⟩
      ((afterCalls localnet Local.inUse Local.genesis).cell localnet
        (Local.addressOf (.content Local.channel 0 0)))).map (·.author)) = some Local.bob := by
    decide +kernel
  obtain ⟨m, hm, hau⟩ := Option.map_eq_some_iff.mp hbob
  rw [← messages_of_address (K := {k | Plain k}) (p := ⟨Local.channel, 0, 0⟩) haddr] at hm
  have htotal := Local.total_inUse
  exact free_commands_granted localnet_collisionFree
    (fun q _ => ⟨_, Local.hasAddress_addressOf q⟩) (hp.reach (.init Local.genesis_init))
    ⟨by decide +kernel, by decide +kernel, localnet_notPda (by decide)⟩ ⟨_, rfl⟩ (by omega) trivial
    trivial ⟨m, hm, hau⟩

end Txtcel
