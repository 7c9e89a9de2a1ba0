import Txtcel.System.Addresses
import Txtcel.System.Footprint
import Txtcel.System.TwoRuns

/-!
# The accounts of a thread

* `BoundTo R K t k`: the account is the thread `t`, or at the address of a derivation of it over
  keys in `K`; `apart R K t` are all others;
* `threadOf`: the thread an instruction acts on;
* `Elsewhere`: what is known of a reachable store and of a call that `t` did not sign;
* `*.Ok.firstIn`: the accounts that an instruction on another thread takes are apart from `t`.
  The handlers derive each address from their own thread, and no two derivations share one.
-/

namespace Txtcel

open Lib

variable {R : Runtime} {K : Set Pubkey} {sv : Sysvars} {accounts : List AccountInfo}
  {ix : ProgramInstruction} {σ σ' : Ledger} {t t' k : Pubkey} {q : Pda}

/-! ## 1. Whose account -/

/-- The account is the thread, or at an address of the thread. -/
inductive BoundTo (R : Runtime) (K : Set Pubkey) (t : Pubkey) : Pubkey → Prop where
  | self : BoundTo R K t t
  | derived {k : Pubkey} (p : Pda) (hp : ∀ j ∈ p.keys, j ∈ K) (ht : p.thread? = some t)
      (ha : R.HasAddress p k) : BoundTo R K t k

/-- The accounts that are not the thread's. -/
def apart (R : Runtime) (K : Set Pubkey) (t : Pubkey) : Set Pubkey := {k | ¬ BoundTo R K t k}

/-- The thread that is stored in an access or a content account. -/
def Cell.thread? : Cell → Option Pubkey
  | .holds (.access a) => some a.thread
  | .holds (.content c) => some c.header.thread
  | _ => none

/-- The thread of an instruction: its thread account, or the thread stored in the access or content
    account it acts on. -/
def ProgramInstruction.threadOf (R : Runtime) (σ : Ledger) (accounts : List AccountInfo) :
    ProgramInstruction → Option Pubkey
  | createRootAlloc .. | fillSlot .. | initThreadAccess .. | setMessageFee _ | setLikeFee _ =>
    (keysOf accounts)[1]?
  | appendContent .. => (keysOf accounts)[2]?
  | prepareAlloc _ | requestAccess .. | likeContent .. | subscribe | unsubscribe =>
    (keysOf accounts)[3]?
  | sweepAuthorFees _ => (keysOf accounts)[0]?
  | setThreadAccess _ | setEntryFee _ | addToWhitelist _ | addToBlacklist _ | addToFeeWhitelist _
  | removeFromWhitelist _ | removeFromBlacklist _ | removeFromFeeWhitelist _ | closeAccount =>
    (keysOf accounts)[1]?.bind fun k => (σ.cell R k).thread?
  | sweepTreasury _ | initSettings _ | setTreasury _ | setBaseFee _ | setAuthorFeeCut _
  | setEntryCut _ | setLikeCut _ | setAdmin _ => none

/-- A well-formed store, a call that stays within `K`, and a thread that did not sign it. -/
structure Elsewhere (R : Runtime) (K : Set Pubkey) (σ : Ledger) (accounts : List AccountInfo)
    (ix : ProgramInstruction) (t' : Pubkey) : Prop where
  collisionFree : R.CollisionFree K
  placed : WellFormed R (σ.cell R)
  live : ∀ t, (σ.cell R).Live t → t ∈ K
  signed : ∀ k ∈ signers accounts, k ∈ K
  named : ∀ w, ix.wallet? = some w → w ∈ K
  own : OwnKeys R accounts
  notPda : ¬ R.IsPda t'
  unsigned : t' ∉ signers accounts

/-- A key that is no derived address, and not the thread. -/
theorem apart_of_wallet (hk : ¬ R.IsPda k) (hne : k ≠ t') : k ∈ apart R K t' := by
  intro hb
  cases hb with
  | self => exact hne rfl
  | derived p _ _ ha => exact hk ha.isPda

theorem Ledger.Holds.live {x : ThreadNode} (h : σ.Holds R t x) (htag : x.tag = tagThread) :
    (σ.cell R).Live t := ⟨x, h.cell htag⟩

namespace Elsewhere

variable (e : Elsewhere R K σ accounts ix t')
include e

theorem of_signer (hk : k ∈ signers accounts) : k ∈ apart R K t' :=
  apart_of_wallet (e.own k hk) fun h => e.unsigned (h ▸ hk)

theorem of_live (ht : (σ.cell R).Live t) (hne : t ≠ t') : t ∈ apart R K t' := by
  obtain ⟨x, hx⟩ := ht
  exact apart_of_wallet (e.placed.placed t _ hx) hne

/-- **An address of somebody else's derivation.** -/
theorem of_address (ha : R.HasAddress q k) (hq : ∀ j ∈ q.keys, j ∈ K)
    (hne : q.thread? ≠ some t') : k ∈ apart R K t' := by
  intro hb
  cases hb with
  | self => exact e.notPda ha.isPda
  | derived p hp ht hp' =>
    rw [address_inj e.collisionFree hq hp ha hp'] at hne
    exact hne ht

/-- The settings and the treasury shards. -/
theorem of_common (ha : R.HasAddress q k) (hq : q.keys = []) : k ∈ apart R K t' := by
  refine e.of_address ha (by rw [hq]; exact fun _ h => absurd h List.not_mem_nil) fun ht => ?_
  have hmem := Pda.thread_mem_keys ht
  rw [hq] at hmem
  exact absurd hmem List.not_mem_nil

/-- An account of another thread that is derived from the thread alone. -/
theorem of_own (ha : R.HasAddress q k) (hkeys : q.keys = [t]) (hthread : q.thread? = some t)
    (ht : t ∈ K) (hne : t ≠ t') : k ∈ apart R K t' := by
  refine e.of_address ha (by rw [hkeys]; exact List.forall_mem_singleton.mpr ht) ?_
  rw [hthread]
  exact fun h => hne (Option.some.inj h)

theorem of_entry {w : Pubkey} (ha : R.HasAddress (.entry t w) k) (ht : t ∈ K) (hw : w ∈ K)
    (hne : t ≠ t') : k ∈ apart R K t' :=
  e.of_address ha (List.forall_mem_cons.mpr ⟨ht, List.forall_mem_singleton.mpr hw⟩)
    fun h => hne (Option.some.inj h)

theorem of_registry {w : Pubkey} (ha : R.HasAddress (.followRegistry w) k) (hw : w ∈ K) :
    k ∈ apart R K t' :=
  e.of_address ha (List.forall_mem_singleton.mpr hw) (by simp [Pda.thread?])

/-! ## 2. What an instruction takes -/

theorem rootAlloc {d : RootAlloc} (h : d.Ok R sv accounts σ σ') (hne : d.thread ≠ t') :
    FirstIn (apart R K t') accounts 5 := by
  have ht := e.signed _ h.thread_signed
  rw [FirstIn, h.keys]
  simp only [List.forall_mem_cons, List.not_mem_nil, false_implies, implies_true, and_true]
  exact ⟨e.of_signer h.payer_signed, e.of_signer h.thread_signed,
    e.of_own h.alloc_addr rfl rfl ht hne, e.of_common h.settings_addr rfl,
    e.of_common h.shard_addr rfl⟩

theorem nextAlloc {d : NextAlloc} (h : d.Ok R sv accounts σ σ') (hne : d.thread ≠ t') :
    FirstIn (apart R K t') accounts 4 := by
  have hl := h.thread_holds.live h.thread_tag
  have ht := e.live _ hl
  rw [FirstIn, h.keys]
  simp only [List.forall_mem_cons, List.not_mem_nil, false_implies, implies_true, and_true]
  exact ⟨e.of_signer h.payer_signed, e.of_own h.current_addr rfl rfl ht hne,
    e.of_own h.page_addr rfl rfl ht hne, e.of_live hl hne⟩

theorem threadEdit {d : ThreadEdit} (h : d.Ok R accounts σ σ') (hne : d.thread ≠ t') :
    FirstIn (apart R K t') accounts 2 := by
  rw [FirstIn, h.keys]
  simp only [List.forall_mem_cons, List.not_mem_nil, false_implies, implies_true, and_true]
  exact ⟨e.of_signer h.signer, e.of_live (h.holds.live h.tag) hne⟩

theorem initAccess {d : InitAccess} (h : d.Ok R sv accounts σ σ') (hne : d.thread ≠ t') :
    FirstIn (apart R K t') accounts 4 := by
  have hl := h.thread_holds.live h.thread_tag
  rw [FirstIn, h.keys]
  simp only [List.forall_mem_cons, List.not_mem_nil, false_implies, implies_true, and_true]
  exact ⟨e.of_signer h.signer, e.of_live hl hne,
    e.of_own h.access_addr rfl rfl (e.live _ hl) hne, e.of_common h.shard_addr rfl⟩

/-- The thread of an access account is live. -/
theorem access_live {a : ThreadAccess} (h : σ.Holds R k a) (htag : a.tag = tagAccess) :
    (σ.cell R).Live a.thread := by
  have hc := h.cell htag
  exact (e.placed.placed k _ hc).2

theorem accessEdit {d : AccessEdit} (h : d.Ok R accounts σ σ') (hne : d.old.thread ≠ t') :
    FirstIn (apart R K t') accounts 2 := by
  have ht := e.live _ (e.access_live h.holds h.tag)
  rw [FirstIn, h.keys]
  simp only [List.forall_mem_cons, List.not_mem_nil, false_implies, implies_true, and_true]
  exact ⟨e.of_signer h.signer, e.of_own h.addr rfl rfl ht hne⟩

theorem setEntry {d : SetEntry} (h : d.Ok R sv accounts σ σ')
    (hix : ix.addsTo = some (d.wallet, d.status)) (hne : d.old.thread ≠ t') :
    FirstIn (apart R K t') accounts 3 := by
  have ht := e.live _ (e.access_live h.access_holds h.access_tag)
  have hw := e.named _ (ProgramInstruction.wallet_of_addsTo hix)
  rw [FirstIn, h.keys]
  simp only [List.forall_mem_cons, List.not_mem_nil, false_implies, implies_true, and_true]
  exact ⟨e.of_signer h.signer, e.of_own h.access_addr rfl rfl ht hne,
    e.of_entry h.entry_addr ht hw hne⟩

theorem removeEntry {d : RemoveEntry} (h : d.Ok R accounts σ σ')
    (hix : ix.removesFrom = some (d.wallet, d.status)) (hne : d.old.thread ≠ t') :
    FirstIn (apart R K t') accounts 3 := by
  have ht := e.live _ (e.access_live h.access_holds h.access_tag)
  have hw := e.named _ (ProgramInstruction.wallet_of_removesFrom hix)
  rw [FirstIn, h.keys]
  simp only [List.forall_mem_cons, List.not_mem_nil, false_implies, implies_true, and_true]
  exact ⟨e.of_signer h.signer, e.of_own h.access_addr rfl rfl ht hne,
    e.of_entry h.entry_addr ht hw hne⟩

theorem requestAccess {d : RequestAccess} (h : d.Ok R sv accounts σ σ') (hne : d.thread ≠ t') :
    FirstIn (apart R K t') accounts 7 := by
  have hl := h.thread_holds.live h.thread_tag
  have ht := e.live _ hl
  rw [FirstIn, h.keys]
  simp only [List.forall_mem_cons, List.not_mem_nil, false_implies, implies_true, and_true]
  exact ⟨e.of_signer h.signer, e.of_own h.access_addr rfl rfl ht hne,
    e.of_entry h.entry_addr ht (e.signed _ h.signer) hne, e.of_live hl hne,
    e.of_common h.settings_addr rfl, e.of_common h.shards.treasury_addr rfl,
    e.of_own h.shards.author_addr rfl rfl ht hne⟩

theorem fillSlot {d : FillSlot} (h : d.Ok R sv accounts σ σ') (hne : d.thread ≠ t') :
    FirstIn (apart R K t') accounts 5 := by
  have hl := h.thread_holds.live h.thread_tag
  rw [FirstIn, h.keys]
  simp only [List.forall_mem_cons, List.not_mem_nil, false_implies, implies_true, and_true]
  exact ⟨e.of_signer h.signer, e.of_live hl hne, e.of_common h.settings_addr rfl,
    e.of_common h.shards.treasury_addr rfl,
    e.of_own h.shards.author_addr rfl rfl (e.live _ hl) hne⟩

/-- ... and what a post looks up besides. -/
theorem seesThread {p : Pubkey} (hl : (σ.cell R).Live t) (hp : p ∈ signers accounts)
    (hne : t ≠ t') : SeesThread R (apart R K t') t p where
  access _ ha := e.of_own ha rfl rfl (e.live _ hl) hne
  entry _ ha := e.of_entry ha (e.live _ hl) (e.signed _ hp) hne
  content _ _ _ ha := e.of_own ha rfl rfl (e.live _ hl) hne

theorem appendContent {d : AppendContent} (h : d.Ok R sv accounts σ σ') (hne : d.thread ≠ t') :
    FirstIn (apart R K t') accounts 6 := by
  have hl := h.thread_holds.live h.thread_tag
  have ht := e.live _ hl
  have hc := h.content_addr
  rw [h.content_thread] at hc
  rw [FirstIn, h.keys]
  simp only [List.forall_mem_cons, List.not_mem_nil, false_implies, implies_true, and_true]
  exact ⟨e.of_signer h.signer, e.of_own hc rfl rfl ht hne, e.of_live hl hne,
    e.of_common h.settings_addr rfl, e.of_common h.shards.treasury_addr rfl,
    e.of_own h.shards.author_addr rfl rfl ht hne⟩

theorem likeContent {d : LikeContent} (h : d.Ok R sv accounts σ σ') (hne : d.thread ≠ t') :
    FirstIn (apart R K t') accounts 7 := by
  have hl := h.thread_holds.live h.thread_tag
  have ht := e.live _ hl
  rw [FirstIn, h.keys]
  simp only [List.forall_mem_cons, List.not_mem_nil, false_implies, implies_true, and_true]
  exact ⟨e.of_signer h.signer, e.of_own h.likes_addr rfl rfl ht hne,
    e.of_own h.content_addr rfl rfl ht hne, e.of_live hl hne, e.of_common h.settings_addr rfl,
    e.of_common h.shards.treasury_addr rfl, e.of_own h.shards.author_addr rfl rfl ht hne⟩

/-- The thread of a message is live. -/
theorem content_live {c : ContentNode} (h : σ.Holds R k c) (htag : c.header.tag = tagContent) :
    (σ.cell R).Live c.header.thread := by
  have hc := h.cell htag
  exact (e.placed.placed k _ hc).2

theorem closeContent {d : CloseContent} (h : d.Ok R accounts σ σ')
    (hne : d.old.header.thread ≠ t') : FirstIn (apart R K t') accounts 3 := by
  have ht := e.live _ (e.content_live h.holds h.tag)
  intro k hk
  obtain ⟨i, hi, hget⟩ := List.mem_take_iff_getElem.mp hk
  have hpos : (keysOf accounts)[i]? = some k := hget ▸ List.getElem?_eq_getElem _
  have hlt : i < 3 := by omega
  have hcases : i = 0 ∨ i = 1 ∨ i = 2 := by omega
  rcases hcases with rfl | rfl | rfl
  · obtain rfl : d.payer = k :=
      Option.some.inj ((getElem?_of_take h.keys (by omega)).symm.trans hpos)
    exact e.of_signer h.signer
  · obtain rfl : d.content = k :=
      Option.some.inj ((getElem?_of_take h.keys (by omega)).symm.trans hpos)
    exact e.of_own h.addr rfl rfl ht hne
  · exact e.of_own (h.third k hpos).1 rfl rfl ht hne

theorem subscribe {d : Subscribe} (h : d.Ok R sv accounts σ σ') (hne : d.thread ≠ t') :
    FirstIn (apart R K t') accounts 4 := by
  have hl := h.thread_holds.live h.thread_tag
  rw [FirstIn, h.keys]
  simp only [List.forall_mem_cons, List.not_mem_nil, false_implies, implies_true, and_true]
  exact ⟨e.of_signer h.signer, e.of_registry h.registry_addr (e.signed _ h.signer),
    e.of_own h.shard_addr rfl rfl (e.live _ hl) hne, e.of_live hl hne⟩

theorem unsubscribe {d : Unsubscribe} (h : d.Ok R sv accounts σ σ') (hne : d.thread ≠ t') :
    FirstIn (apart R K t') accounts 4 := by
  have hl := h.thread_holds.live h.thread_tag
  rw [FirstIn, h.keys]
  simp only [List.forall_mem_cons, List.not_mem_nil, false_implies, implies_true, and_true]
  exact ⟨e.of_signer h.signer, e.of_registry h.registry_addr (e.signed _ h.signer),
    e.of_own h.shard_addr rfl rfl (e.live _ hl) hne, e.of_live hl hne⟩

/-- A sweep of another thread's shards: what is not free was validated. -/
theorem authorSweep {d : AuthorSweep} (h : d.Ok R sv accounts σ σ') (hne : d.thread ≠ t') :
    FirstIn (apart R K t') accounts 2 ∧ ∀ k ∈ d.shards, ¬ σ.Free k → k ∈ apart R K t' := by
  have hl := h.holds.live h.tag
  refine ⟨?_, fun k hk hf => ?_⟩
  · rw [FirstIn, h.keys]
    simp only [List.take_succ_cons, List.take_zero, List.forall_mem_cons, List.not_mem_nil,
      false_implies, implies_true, and_true]
    exact ⟨e.of_live hl hne, e.of_signer h.signer⟩
  · obtain ⟨-, i, -, ha⟩ := h.shards k hk hf
    exact e.of_own ha rfl rfl (e.live _ hl) hne

end Elsewhere

end Txtcel
