import Txtcel.Spec.Candidates
import Txtcel.System.Addresses
import Txtcel.Properties.Prefunding

/-!
# A post takes the first free candidate

A `fill_slot` call that gets past its access stage, from any reachable store, with any list of
candidates:

* the first candidate whose account is free decides: if it and all before it are valid, the post
  lands there and nowhere else (`FillCall.Lands`), and what stands behind it in the list does not
  matter;
* an invalid candidate before it, or in its place, aborts the call, and so does a list without a free
  candidate -- with an error of its own when all of them are valid.
-/

namespace Txtcel

open Lib Exec Borsh Function

variable {R : Runtime} {sv : Sysvars} {Ok : Ledger → Event → Ledger → Prop} {σ τ : Ledger}
  {f : FillCall} {e : FillEnv} {b c : UInt8} {x : CandidateSlot × AccountInfo}
  {pre rest : List (CandidateSlot × AccountInfo)}

/-! ## 1. The call as an instruction -/

namespace FillCall

def ix (f : FillCall) : ProgramInstruction :=
  .fillSlot f.post.kind f.post.body f.candidates f.treasuryIdx f.authorIdx f.post.replyAllocSeq
    f.post.replySlot f.post.maxFee

def event (f : FillCall) (sv : Sysvars) : Event := .call sv f.accounts f.ix

/-- The message of the call in the slot `c`. -/
def message (f : FillCall) (sv : Sysvars) (c : CandidateSlot) : ContentNode :=
  { header :=
      { tag := tagContent, allocSeq := c.allocSeq, slot := c.slot, thread := f.thread.key
        author := f.payer.key, createdAt := sv.unixTimestamp
        replyAllocSeq := f.post.replyAllocSeq, replySlot := f.post.replySlot }
    kind := f.post.kind, body := f.post.body }

/-- **The post lands in the slot `x`, and nowhere else**: every other account keeps its data and
    holds the structure it held, and every other message keeps its lamports. -/
structure Lands (f : FillCall) (R : Runtime) (sv : Sysvars) (x : CandidateSlot × AccountInfo)
    (σ τ : Ledger) : Prop where
  content : τ.Holds R x.2.key (f.message sv x.1)
  data : ∀ k, k ≠ x.2.key → τ.data k = σ.data k
  holds : ∀ k a, k ≠ x.2.key → (τ.cell R k = .holds a ↔ σ.cell R k = .holds a)
  lamports : ∀ k m, k ≠ x.2.key → σ.cell R k = .holds (.content m) → τ.lamports k = σ.lamports k

/-- The checks read the candidates only to see that there is one. -/
theorem checks_withSlots (slots : List (CandidateSlot × AccountInfo)) (h : f.slots ≠ [])
    (h' : slots ≠ []) : (f.withSlots slots).checks R = f.checks R := by
  have hne : ¬ f.candidates = [] := mt List.map_eq_nil_iff.mp h
  have hne' : ¬ (f.withSlots slots).candidates = [] := mt List.map_eq_nil_iff.mp h'
  simp only [checks, failIf, if_neg hne, if_neg hne']
  rfl

theorem run_def (f : FillCall) : processInstruction R sv f.accounts f.ix =
    processFillSlot R sv f.accounts f.post f.candidates f.treasuryIdx f.authorIdx := rfl

/-- Past the access stage: the shards, then the loop. -/
theorem run_eq (h : f.checks R σ = .ok ((e, b, c), τ)) :
    processInstruction R sv f.accounts f.ix σ = (do
      ensureFeeShardsInitialized R sv f.payer f.treasuryShard f.authorFeeShard f.system
        f.thread.key f.treasuryIdx f.authorIdx b c
      fillCandidates R sv e f.post f.slots : Handler Unit) τ := by
  rw [run_def, processFillSlot_eq, bind_of_ok h]

/-- The loop of a call that succeeds. -/
theorem loop_of_ok (h : f.checks R σ = .ok ((e, b, c), σ))
    (hrun : processInstruction R sv f.accounts f.ix σ = .ok ((), τ)) :
    fillCandidates R sv e f.post f.slots (f.opened R sv σ) = .ok ((), τ) := by
  rw [run_eq h] at hrun
  obtain ⟨_, σ₁, hens, hloop⟩ := bind_eq_ok.mp hrun
  obtain ⟨rfl, -⟩ := ensureFeeShardsInitialized_ok hens
  exact hloop

/-- The payer of a call is no address of the program. -/
theorem pda_ne_payer {k : Pubkey} (hc : f.Checked R σ e b c) (hown : OwnKeys R f.accounts)
    (hk : R.IsPda k) : k ≠ f.payer.key :=
  hown.ne hk _ ⟨f.payer, List.mem_cons_self, hc.signer, rfl⟩

variable {K : Set Pubkey} (hr : (program R).Reach (Within K) σ) (hc : f.Checked R σ e b c)
include hr hc

theorem thread_within : f.thread.key ∈ K :=
  reach_live_within hr ⟨_, hc.thread_holds.cell hc.thread_tag⟩

variable (hK : R.CollisionFree K)
include hK

/-- A message is not at the address of a fee shard. -/
theorem content_ne_shards {t : Pubkey} {q : UInt32} {s : UInt8} {k : Pubkey} (ht : t ∈ K)
    (hk : R.HasAddress (.content t q s) k) :
    k ≠ f.treasuryShard.key ∧ k ≠ f.authorFeeShard.key := by
  have hone : ∀ {t}, t ∈ K → ∀ j ∈ [t], j ∈ K := fun ht j hj => List.mem_singleton.mp hj ▸ ht
  constructor
  · intro heq
    rw [heq] at hk
    have hpda := address_inj (p := .content t q s) (q := .treasuryShard f.treasuryIdx) hK (hone ht)
      (fun j hj => absurd hj List.not_mem_nil) hk hc.treasury_addr
    cases hpda
  · intro heq
    rw [heq] at hk
    have hpda := address_inj (p := .content t q s) (q := .authorFee f.thread.key f.authorIdx) hK
      (hone ht) (hone (thread_within hr hc)) hk hc.author_addr
    cases hpda

theorem valid_ne_shards (hx : e.Valid R x) :
    x.2.key ≠ f.treasuryShard.key ∧ x.2.key ≠ f.authorFeeShard.key :=
  content_ne_shards hr hc hK (thread_within hr hc) (hc.threadKey ▸ hx.addr)

/-- A valid candidate is free in the loop if it was free before. -/
theorem valid_free_opened (hx : e.Valid R x) (hf : σ.Free x.2.key) :
    (f.opened R sv σ).Free x.2.key :=
  free_opened.mpr ⟨hf, valid_ne_shards hr hc hK hx⟩

end FillCall

/-! ## 2. The ledger after a post -/

namespace FillCall

theorem message_eq (hc : f.Checked R σ e b c) (sv : Sysvars) (s : CandidateSlot) :
    e.message sv f.post s = f.message sv s := by
  rw [FillEnv.message, message, hc.payer, hc.threadKey]

theorem message_valid (hc : f.Checked R σ e b c) (sv : Sysvars) (s : CandidateSlot) :
    (AccountData.content (f.message sv s)).Valid := by
  refine ⟨rfl, (ContentNode.fits_iff _).mpr ?_⟩
  have hlen : f.post.body.length ≤ maxBodyLen := hc.body_le
  have hmax : maxBodyLen < 2 ^ 32 := by decide
  exact hlen.trans_lt hmax

/-- The cells after a post: the message in its slot, the shards open, nothing else. -/
theorem cells_filled (sv : Sysvars) (hc : f.Checked R σ e b c) (k : Pubkey) (s : CandidateSlot) :
    (e.filled R sv f.post s k (f.opened R sv σ)).cell R =
      update (Cells.open (Cells.open (σ.cell R) f.treasuryShard.key) f.authorFeeShard.key) k
        (.holds (.content (f.message sv s))) := by
  rw [FillEnv.filled, cells_split, cells_collect, FillEnv.stored, message_eq hc,
    cells_create_put (message_valid hc sv s), opened, cells_openShards]
  rfl

/-- Every other account keeps its data. -/
theorem filled_data {k j : Pubkey} (s : CandidateSlot) (hj : j ≠ k) :
    (e.filled R sv f.post s k (f.opened R sv σ)).data j = σ.data j := by
  rw [FillEnv.filled, Ledger.split_data, Ledger.collect_data, FillEnv.stored, Ledger.put_data,
    update_of_ne hj, Ledger.create_data, update_of_ne hj, opened, Ledger.openShards_data]

/-- Nobody but the payer, the slot and the two shards has other lamports. -/
theorem filled_lamports (hc : f.Checked R σ e b c) {k j : Pubkey} (s : CandidateSlot)
    (hp : j ≠ f.payer.key) (hk : j ≠ k) (ht : j ≠ f.treasuryShard.key)
    (ha : j ≠ f.authorFeeShard.key) :
    (e.filled R sv f.post s k (f.opened R sv σ)).lamports j = σ.lamports j := by
  rw [FillEnv.filled, hc.payer, hc.treasuryShard, hc.authorFeeShard,
    Ledger.split_other _ _ _ _ _ _ _ hp ha ht, Ledger.collect_other _ _ _ _ _ hp ht,
    FillEnv.stored, Ledger.put_lamports, hc.payer, Ledger.create_lamports_of_ne hp hk, opened,
    Ledger.openShards_lamports hp, if_neg (not_or.mpr ⟨ht, ha⟩)]

theorem lands_filled {K : Set Pubkey} (hr : (program R).Reach (Within K) σ)
    (hc : f.Checked R σ e b c) (hK : R.CollisionFree K) (hown : OwnKeys R f.accounts) :
    f.Lands R sv x σ (e.filled R sv f.post x.1 x.2.key (f.opened R sv σ)) := by
  have hcells := cells_filled sv hc x.2.key x.1
  refine ⟨?_, fun k hk => filled_data x.1 hk, fun k a hk => ?_, fun k m hk hm => ?_⟩
  · have hcell := congrFun hcells x.2.key
    rw [update_self] at hcell
    obtain ⟨ho, hv, hd⟩ := cell_eq_holds.mp hcell
    exact ⟨ho, hv.fits, hd⟩
  · rw [hcells, update_of_ne hk, Cells.open_holds, Cells.open_holds]
  · -- a message is neither the payer nor a shard
    obtain ⟨haddr, hlive⟩ := (reach_wellFormed hr).placed k _ hm
    obtain ⟨hts, hau⟩ := content_ne_shards hr hc hK (reach_live_within hr hlive) haddr
    exact filled_lamports hc x.1 (pda_ne_payer hc hown haddr.isPda) hk hts hau

end FillCall

/-! ## 3. The first free candidate -/

namespace FillCall

/-- The fees are within the payer's limit, the slot's account is writable, and the payer can pay. -/
structure Affordable (f : FillCall) (R : Runtime) (sv : Sysvars) (e : FillEnv)
    (x : CandidateSlot × AccountInfo) (σ : Ledger) : Prop where
  writable : x.2.isWritable = true
  fee_le : e.baseFee sv f.post + e.authorFee ≤ f.post.maxFee.toNat
  wallet : Wallet σ f.payer (f.price R sv e x.1 x.2.key σ)

variable (hpass : f.checks R σ = .ok ((e, b, c), σ))
include hpass

/-- **An invalid candidate before the first free one, or in its place, aborts the call.** -/
theorem no_step_of_invalid (hslots : f.slots = pre ++ x :: rest)
    (hpre : ∀ y ∈ pre, ¬ σ.Free y.2.key) (hx : ¬ e.Valid R x) :
    ¬ (program R).step σ (f.event sv) τ := by
  intro hs
  have hloop := loop_of_ok hpass hs.2
  rw [hslots] at hloop
  exact fillCandidates_invalid (fun y hy => not_free_opened (hpre y hy)) hx _ hloop

/-- **Without a free candidate there is no post.** -/
theorem no_step_of_occupied (hocc : ∀ y ∈ f.slots, ¬ σ.Free y.2.key) :
    ¬ (program R).step σ (f.event sv) τ := fun hs =>
  fillCandidates_occupied (fun y hy => not_free_opened (hocc y hy)) _ (loop_of_ok hpass hs.2)

/-- ... and the error says so, when every candidate is valid. -/
theorem error_of_occupied (hc : f.Checked R σ e b c) (hown : OwnKeys R f.accounts)
    (hocc : ∀ y ∈ f.slots, e.Valid R y ∧ ¬ σ.Free y.2.key)
    (hpay : Wallet σ f.payer (f.shardsPrice R sv σ)) :
    processInstruction R sv f.accounts f.ix σ =
      .error ProtocolError.noFreeSlot.toProgramError := by
  have hts := pda_ne_payer hc hown hc.treasury_addr.isPda
  have hau := pda_ne_payer hc hown hc.author_addr.isPda
  obtain ⟨hens, -⟩ := ensure_eq (n := 0) hc hts hau hpay
  rw [run_eq hpass, bind_of_ok hens]
  exact fillCandidates_none fun y hy => ⟨(hocc y hy).1, not_free_opened (hocc y hy).2⟩

variable {K : Set Pubkey} (hr : (program R).Reach (Within K) σ) (hc : f.Checked R σ e b c)
  (hK : R.CollisionFree K)
include hr hc hK

/-- The loop stops at the first free candidate: the rest of the list does not matter. -/
theorem run_first (sv : Sysvars) (hslots : f.slots = pre ++ x :: rest)
    (hpre : ∀ y ∈ pre, e.Valid R y ∧ ¬ σ.Free y.2.key) (hx : e.Valid R x) (hf : σ.Free x.2.key) :
    ∃ bump, (Pda.content e.threadKey x.1.allocSeq x.1.slot).derive R = some (x.2.key, bump) ∧
      ∀ rest, processInstruction R sv (f.withSlots (pre ++ x :: rest)).accounts
        (f.withSlots (pre ++ x :: rest)).ix σ = (do
          ensureFeeShardsInitialized R sv f.payer f.treasuryShard f.authorFeeShard f.system
            f.thread.key f.treasuryIdx f.authorIdx b c
          fillFreeSlot R sv e f.post x.1 x.2 bump : Handler Unit) σ := by
  have hpre' : ∀ y ∈ pre, e.Valid R y ∧ ¬ (f.opened R sv σ).Free y.2.key := fun y hy =>
    ⟨(hpre y hy).1, not_free_opened (hpre y hy).2⟩
  obtain ⟨bump, hbump, hloop⟩ := fillCandidates_first sv f.post hpre' hx
    (valid_free_opened hr hc hK hx hf)
  refine ⟨bump, hbump, fun rest' => ?_⟩
  have hcons : ∀ r, pre ++ x :: r ≠ [] := fun r => by simp
  have hpass' : (f.withSlots (pre ++ x :: rest')).checks R σ = .ok ((e, b, c), σ) := by
    rw [checks_withSlots _ (hslots ▸ hcons rest) (hcons rest')]
    exact hpass
  rw [run_eq hpass']
  show (ensureFeeShardsInitialized R sv f.payer f.treasuryShard f.authorFeeShard f.system
    f.thread.key f.treasuryIdx f.authorIdx b c >>= fun _ =>
      fillCandidates R sv e f.post (pre ++ x :: rest')) σ = _
  cases hens : ensureFeeShardsInitialized R sv f.payer f.treasuryShard f.authorFeeShard f.system
      f.thread.key f.treasuryIdx f.authorIdx b c σ with
  | error err => rw [bind_of_error hens, bind_of_error hens]
  | ok r =>
    obtain ⟨u, σ₁⟩ := r
    obtain ⟨rfl, -⟩ := ensureFeeShardsInitialized_ok hens
    rw [bind_of_ok hens, bind_of_ok hens]
    exact hloop rest'

/-- **The first free candidate is filled.** -/
theorem lands_first (hown : OwnKeys R f.accounts) (hslots : f.slots = pre ++ x :: rest)
    (hpre : ∀ y ∈ pre, e.Valid R y ∧ ¬ σ.Free y.2.key) (hx : e.Valid R x) (hf : σ.Free x.2.key)
    (hpay : f.Affordable R sv e x σ) :
    ∃ τ, (program R).step σ (f.event sv) τ ∧ f.Lands R sv x σ τ := by
  obtain ⟨bump, hbump, hrun⟩ := run_first hpass hr hc hK sv hslots hpre hx hf
  have hts := pda_ne_payer hc hown hc.treasury_addr.isPda
  have hau := pda_ne_payer hc hown hc.author_addr.isPda
  have hne := pda_ne_payer hc hown (Runtime.HasAddress.isPda ⟨bump, hbump⟩)
  obtain ⟨hens, hwallet⟩ := ensure_eq hc hts hau hpay.wallet
  have hfill : fillFreeSlot R sv e f.post x.1 x.2 bump (f.opened R sv σ) = _ :=
    fillFreeSlot_eq (n := 0) hbump
    (hc.payer ▸ hne) (hc.payer ▸ hc.treasuryShard ▸ hts) (hc.system ▸ hc.system_key)
    (valid_free_opened hr hc hK hx hf) hpay.writable (hc.treasuryShard ▸ hc.treasury_writable)
    (hc.authorFeeShard ▸ hc.author_writable) hpay.fee_le (hc.payer ▸ hwallet)
  refine ⟨_, ⟨hown, ?_⟩, lands_filled hr hc hK hown⟩
  have hself : f.withSlots (pre ++ x :: rest) = f := by
    rw [← hslots]
    rfl
  have hrest := hrun rest
  rw [hself, bind_of_ok hens, hfill] at hrest
  exact hrest

end FillCall

/-- A call that succeeded got past its checks. -/
theorem FillCall.checks_of_step (hs : (program R).step σ (f.event sv) τ) :
    ∃ e b c τ₀, f.checks R σ = .ok ((e, b, c), τ₀) := by
  have hrun := hs.2
  rw [FillCall.run_def, processFillSlot_eq] at hrun
  obtain ⟨⟨e, b, c⟩, τ₀, hpass, -⟩ := bind_eq_ok.mp hrun
  exact ⟨e, b, c, τ₀, hpass⟩

/-- **Every successful post took the first free candidate.** -/
theorem FillCall.lands_of_step {K : Set Pubkey} (hr : (program R).Reach (Within K) σ)
    (hK : R.CollisionFree K) (hs : (program R).step σ (f.event sv) τ) :
    ∃ pre x rest, f.slots = pre ++ x :: rest ∧ (∀ y ∈ pre, ¬ σ.Free y.2.key) ∧
      σ.Free x.2.key ∧ f.Lands R sv x σ τ := by
  obtain ⟨e, b, c, τ₀, hpass⟩ := FillCall.checks_of_step hs
  obtain ⟨hc, rfl⟩ := FillCall.checks_ok (reach_tidy hr) hpass
  obtain ⟨pre, x, rest, bump, hslots, hpre, -, hf, -, hfill⟩ :=
    fillCandidates_split (FillCall.loop_of_ok hpass hs.2)
  refine ⟨pre, x, rest, hslots, fun y hy hfree => ?_, (FillCall.free_opened.mp hf).1, ?_⟩
  · obtain ⟨hval, hocc⟩ := hpre y hy
    exact hocc (FillCall.valid_free_opened hr hc hK hval hfree)
  · rw [fillFreeSlot_ok hfill]
    exact FillCall.lands_filled hr hc hK hs.1

/-- **A post takes the first free candidate and only that one**, whatever else is in the list. -/
theorem first_free_candidate {K : Set Pubkey} {τ₀ : Ledger} (hK : R.CollisionFree K)
    (hr : (program R).Reach (Within K) σ) (hown : OwnKeys R f.accounts)
    (hpass : f.checks R σ = .ok ((e, b, c), τ₀)) :
    (∀ pre x rest, f.slots = pre ++ x :: rest → (∀ y ∈ pre, ¬ σ.Free y.2.key) → σ.Free x.2.key →
      ((∀ y ∈ pre ++ [x], e.Valid R y) →
        (∀ rest', processInstruction R sv (f.withSlots (pre ++ x :: rest')).accounts
            (f.withSlots (pre ++ x :: rest')).ix σ = processInstruction R sv f.accounts f.ix σ) ∧
        (f.Affordable R sv e x σ →
          ∃ τ, (program R).step σ (f.event sv) τ ∧ f.Lands R sv x σ τ)) ∧
      (∀ y ∈ pre ++ [x], ¬ e.Valid R y → ∀ τ, ¬ (program R).step σ (f.event sv) τ)) ∧
    ((∀ y ∈ f.slots, ¬ σ.Free y.2.key) →
      (∀ τ, ¬ (program R).step σ (f.event sv) τ) ∧
      ((∀ y ∈ f.slots, e.Valid R y) → Wallet σ f.payer (f.shardsPrice R sv σ) →
        processInstruction R sv f.accounts f.ix σ =
          .error ProtocolError.noFreeSlot.toProgramError)) := by
  obtain ⟨hc, rfl⟩ := FillCall.checks_ok (reach_tidy hr) hpass
  refine ⟨fun pre x rest hslots hpre hf => ⟨fun hval => ?_, fun y hy hinv τ => ?_⟩, fun hocc => ?_⟩
  · have hx : e.Valid R x := hval x (List.mem_append_right _ (List.mem_singleton_self x))
    have hpre' : ∀ y ∈ pre, e.Valid R y ∧ ¬ τ₀.Free y.2.key := fun y hy =>
      ⟨hval y (List.mem_append_left _ hy), hpre y hy⟩
    refine ⟨fun rest' => ?_, FillCall.lands_first hpass hr hc hK hown hslots hpre' hx hf⟩
    obtain ⟨bump, -, hrun⟩ := FillCall.run_first hpass hr hc hK sv hslots hpre' hx hf
    have hself : f.withSlots (pre ++ x :: rest) = f := by
      rw [← hslots]
      rfl
    have hrest := hrun rest
    rw [hself] at hrest
    rw [hrun rest', hrest]
  · rcases List.mem_append.mp hy with hy | hy
    · obtain ⟨p, q, rfl⟩ := List.append_of_mem hy
      have hslots' : f.slots = p ++ y :: (q ++ x :: rest) := by
        rw [hslots, List.append_assoc, List.cons_append]
      exact FillCall.no_step_of_invalid hpass hslots'
        (fun z hz => hpre z (List.mem_append_left _ hz)) hinv
    · obtain rfl := List.mem_singleton.mp hy
      exact FillCall.no_step_of_invalid hpass hslots hpre hinv
  · exact ⟨fun τ => FillCall.no_step_of_occupied hpass hocc, fun hval =>
      FillCall.error_of_occupied hpass hc hown fun y hy => ⟨hval y hy, hocc y hy⟩⟩

namespace Local

/-- The second slot of the first page. -/
def secondSlot : CandidateSlot × AccountInfo :=
  (⟨0, 1⟩, passed (addressOf (.content channel 0 1)))

/-- `bob` posts again: his first slot is taken, the second is free, and what follows is no slot. -/
def secondPost : FillCall where
  payer := signing bob
  thread := passed channel
  settings := passed (addressOf .settings)
  treasuryShard := passed (addressOf (.treasuryShard 0))
  authorFeeShard := passed (addressOf (.authorFee channel 0))
  system := passed systemProgram
  slots := [(⟨0, 0⟩, passed (addressOf (.content channel 0 0))), secondSlot,
    (⟨9, 200⟩, passed alice)]
  access := passed (addressOf (.access channel))
  entry := passed (addressOf (.entry channel bob))
  extra := []
  post := { kind := 0, body := [104, 105], replyAllocSeq := 0, replySlot := 0, maxFee := 1000 }
  treasuryIdx := 0
  authorIdx := 0

/-- What a run of the checks must find for `bob` to be able to pay. -/
def bobPays (σ : Ledger) (r : (FillEnv × UInt8 × UInt8) × Ledger) : Bool :=
  decide (r.1.1.baseFee sysvars secondPost.post + r.1.1.authorFee ≤ 1000 ∧
    secondPost.price localnet sysvars r.1.1 secondSlot.1 secondSlot.2.key σ ≤ σ.lamports bob ∧
    σ.data bob = [] ∧ σ.owner bob = systemProgram)

theorem secondPost_passes : ((secondPost.checks localnet
    (afterCalls localnet inUse genesis)).toOption.map
      (bobPays (afterCalls localnet inUse genesis))) = some true := by
  decide +kernel

theorem bob_wallet {σ : Ledger} {n : Nat} (hdata : σ.data bob = [])
    (howner : σ.owner bob = systemProgram) (hn : n ≤ σ.lamports bob)
    (htotal : total σ.lamports < 2 ^ 64) : Wallet σ secondPost.payer n :=
  ⟨rfl, rfl, hdata, howner, hn, htotal⟩

theorem secondPost_own : OwnKeys localnet secondPost.accounts :=
  ownKeys_of_plain (show [Call.mk sysvars secondPost.accounts secondPost.ix].all Call.isPlain = true
    by decide +kernel) _ (List.mem_singleton_self _)

end Local

/-- `bob`'s second message takes the second slot. -/
theorem first_free_candidate_second :
    ∃ τ, (program localnet).step (afterCalls localnet Local.inUse Local.genesis)
        (Local.secondPost.event Local.sysvars) τ ∧
      Local.secondPost.Lands localnet Local.sysvars Local.secondSlot
        (afterCalls localnet Local.inUse Local.genesis) τ := by
  obtain ⟨⟨⟨e, b, c⟩, τ₀⟩, hpass, hpays⟩ := exists_ok_of_map Local.secondPost_passes
  obtain ⟨hc, -⟩ := FillCall.checks_ok (reach_tidy Local.inUse_reach) hpass
  obtain ⟨hfee, hprice, hdata, howner⟩ := of_decide_eq_true hpays
  have htotal := Local.total_inUse
  have hthread : e.threadKey = Local.channel := hc.threadKey
  have hvalid : ∀ s, s < 32 → e.Valid localnet
      (⟨0, s⟩, Local.passed (Local.addressOf (.content Local.channel 0 s))) := by
    intro s hs
    refine ⟨UInt32.zero_le, UInt8.lt_iff_toNat_lt.mp hs, ?_⟩
    rw [hthread]
    exact Local.hasAddress_addressOf _
  refine ((first_free_candidate localnet_collisionFree Local.inUse_reach Local.secondPost_own
    hpass).1 [_] Local.secondSlot [_] rfl ?_ (by decide +kernel)).1 ?_ |>.2 ⟨rfl, hfee, ?_⟩
  · intro y hy
    rw [List.mem_singleton.mp hy]
    decide +kernel
  · intro y hy
    rcases List.mem_cons.mp hy with rfl | hy
    · exact hvalid 0 (by decide)
    · rw [List.mem_singleton.mp hy]
      exact hvalid 1 (by decide)
  · exact Local.bob_wallet hdata howner hprice (by omega)

end Txtcel
