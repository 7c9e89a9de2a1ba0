import Txtcel.System.Delta
import Txtcel.System.Rewritten

/-!
# The growth of a thread as a change of single accounts

`NextAlloc.Ok` says what a successful `prepare_alloc` did to the ledger. Here it is read account by
account (`NextAlloc.Ok.does`), and it is shown to be the same growth after a step that leaves the
tail and the record of the thread alone (`PageCall.keeps`).
-/

namespace Txtcel

open Lib Exec Borsh Function

variable {R : Runtime} {sv : Sysvars} {σ σ' τ υ : Ledger} {as : List AccountInfo}
  {d d' : NextAlloc} {k : Pubkey}

/-! ## 1. What it does to each account -/

namespace NextAlloc

/-- What a growth does, where the new page's account holds `held` lamports before. -/
def delta (d : NextAlloc) (R : Runtime) (sv : Sysvars) (held : Nat) : Delta where
  data k := if k = d.thread then some (Borsh.serialize d.new) else
    if k = d.page then some (Borsh.serialize d.node) else none
  owner k := if k = d.page then some R.programId else none
  gain k := if k = d.page then sv.rent AllocNode.size - held else 0
  loss k := if k = d.payer then sv.rent AllocNode.size - held else 0

section Delta

variable {n : Nat}

theorem delta_data : (d.delta R sv n).data k = if k = d.thread then some (Borsh.serialize d.new)
    else if k = d.page then some (Borsh.serialize d.node) else none := rfl

theorem delta_data_of_ne (ht : k ≠ d.thread) (hp : k ≠ d.page) :
    (d.delta R sv n).data k = none := by
  rw [delta_data, if_neg ht, if_neg hp]

theorem delta_owner : (d.delta R sv n).owner k =
    if k = d.page then some R.programId else none := rfl

theorem delta_owner_of_ne (hp : k ≠ d.page) : (d.delta R sv n).owner k = none := if_neg hp

theorem delta_gain_of_ne (hp : k ≠ d.page) : (d.delta R sv n).gain k = 0 := if_neg hp

theorem delta_loss_of_ne (hp : k ≠ d.payer) : (d.delta R sv n).loss k = 0 := if_neg hp

end Delta

/-- **The change, account by account.** -/
theorem Ok.does (h : d.Ok R sv as σ τ) (hown : OwnKeys R as) :
    (d.delta R sv (σ.lamports d.page)).Does ∅ σ τ := by
  have hne : d.page ≠ d.payer := hown.ne h.page_addr.isPda _ h.payer_signed
  have hpost := h.post
  refine ⟨fun k => ?_, fun k => ?_, fun k _ => ?_⟩
  · rw [hpost, Ledger.put_data, Ledger.put_data, Ledger.create_data, update_apply, update_apply,
      update_apply, delta_data]
    split
    · rfl
    · split
      · rfl
      · rfl
  · rw [hpost, Ledger.put_owner, Ledger.put_owner, Ledger.create_owner, update_apply, delta_owner]
    split
    · rfl
    · rfl
  · rw [hpost, Ledger.put_lamports, Ledger.put_lamports, Ledger.create_lamports]
    by_cases hk : k = d.payer
    · subst hk
      rw [Ledger.pay_src _ _ _ _ hne, delta_gain_of_ne hne.symm, Nat.add_zero]
      simp only [delta, if_true]
    · rw [Ledger.pay_lamports hk, delta_loss_of_ne hk, Nat.sub_zero]
      rfl

section Ok

variable (h : d.Ok R sv as σ τ)
include h

theorem Ok.grown : d.old.Grown d.new where
  tag := rfl
  author := rfl
  messageFee := rfl
  last_le := UInt32.le_iff_toNat_le.mpr (h.seq_eq ▸ Nat.le_succ _)

theorem Ok.new_holds (hown : OwnKeys R as) : τ.Holds R d.thread d.new := by
  refine ⟨?_, h.thread_holds.fits, ?_⟩
  · rw [(h.does hown).owner, delta_owner_of_ne h.page_ne]
    exact h.thread_holds.owner
  · rw [(h.does hown).data, delta_data, if_pos rfl]
    rfl

/-- First the record is rewritten ... -/
theorem Ok.rewritten : Rewritten d.thread σ (σ.put d.thread d.new) where
  lamports := rfl
  owner := rfl
  data k hk := update_of_ne hk _ _
  before := by
    rw [h.thread_holds.data]
    exact AccountData.bytes_ne_nil (.thread d.old)
  after := by
    rw [Ledger.put_data, update_self]
    exact AccountData.bytes_ne_nil (.thread d.new)

/-- ... and then nothing is disturbed but the new page and the payer. -/
theorem Ok.undisturbed_put (hown : OwnKeys R as) (hp : k ≠ d.page)
    (hk : k ≠ d.payer ∨ σ.owner k ≠ systemProgram) : k ∈ Undisturbed (σ.put d.thread d.new) τ := by
  have hdoes := h.does hown
  refine ⟨?_, ?_, h.spends.le hk⟩
  · rw [hdoes.data, delta_data, if_neg hp, Ledger.put_data, update_apply]
    split
    · rfl
    · rfl
  · rw [hdoes.owner, delta_owner_of_ne hp]
    rfl

theorem Ok.undisturbed (hown : OwnKeys R as) (hp : k ≠ d.page) (ht : k ≠ d.thread)
    (hk : k ≠ d.payer ∨ σ.owner k ≠ systemProgram) : k ∈ Undisturbed σ τ :=
  .of_does (h.does hown) (delta_data_of_ne ht hp) (delta_owner_of_ne hp) (h.spends.le hk)

/-- **Every thread is still there**, and has at most grown. -/
theorem Ok.grown_of_holds {t : ThreadNode} (hown : OwnKeys R as) (hp : k ≠ d.page)
    (ht : σ.Holds R k t) : ∃ t', τ.Holds R k t' ∧ t.Grown t' := by
  by_cases heq : k = d.thread
  · have hold : t = d.old := (heq ▸ ht).unique h.thread_holds
    exact ⟨d.new, heq ▸ h.new_holds hown, hold ▸ h.grown⟩
  · refine ⟨t, Undisturbed.holds (h.undisturbed hown hp heq (.inr ?_)) ht, .refl t⟩
    rw [ht.owner]
    exact R.programId_ne

end Ok

end NextAlloc

/-! ## 2. The call -/

/-- A `prepare_alloc` call, the accounts by their role. -/
structure PageCall where
  payer : AccountInfo
  current : AccountInfo
  page : AccountInfo
  thread : AccountInfo
  system : AccountInfo
  extra : List AccountInfo
  seq : UInt32

namespace PageCall

variable {g : PageCall}

def accounts (g : PageCall) : List AccountInfo :=
  g.payer :: g.current :: g.page :: g.thread :: g.system :: g.extra

def ix (g : PageCall) : ProgramInstruction := .prepareAlloc g.seq

def event (g : PageCall) (sv : Sysvars) : Event := .call sv g.accounts g.ix

/-- Every call with enough accounts is of this shape. -/
theorem exists_layout (accounts : List AccountInfo) (seq : UInt32) (h : 5 ≤ accounts.length) :
    ∃ g : PageCall, g.accounts = accounts ∧ g.seq = seq := by
  match accounts, h with
  | p :: c :: n :: t :: s :: extra, _ => exact ⟨⟨p, c, n, t, s, extra, seq⟩, rfl, rfl⟩

/-- The growth that the call makes. -/
structure Grows (g : PageCall) (R : Runtime) (sv : Sysvars) (d : NextAlloc) (σ τ : Ledger) :
    Prop where
  ok : d.Ok R sv g.accounts σ τ
  payer : d.payer = g.payer.key
  current : d.current = g.current.key
  page : d.page = g.page.key
  thread : d.thread = g.thread.key

theorem exists_grows (hs : (program R).step σ (g.event sv) τ) : ∃ d, g.Grows R sv d σ τ := by
  obtain ⟨d, hd, -⟩ := processPrepareAlloc_ok hs.2
  have hkeys : [g.payer.key, g.current.key, g.page.key, g.thread.key] =
      [d.payer, d.current, d.page, d.thread] := hd.keys
  obtain ⟨hp, hkeys⟩ := List.cons.inj hkeys
  obtain ⟨hc, hkeys⟩ := List.cons.inj hkeys
  obtain ⟨hn, hkeys⟩ := List.cons.inj hkeys
  exact ⟨d, hd, hp.symm, hc.symm, hn.symm, (List.cons.inj hkeys).1.symm⟩

/-- **The growth is determined by the record of the thread.** -/
theorem Grows.unique (h : g.Grows R sv d σ σ') (h' : g.Grows R sv d' τ υ)
    (hold : τ.Holds R d.thread d.old) : d' = d := by
  have hthread : d'.thread = d.thread := h'.thread.trans h.thread.symm
  have hsame : d'.old = d.old := (hthread ▸ h'.ok.thread_holds).unique hold
  have hseq : d'.newSeq = d.newSeq := by
    refine UInt32.toNat_inj.mp ?_
    rw [h'.ok.seq_eq, h.ok.seq_eq, hsame]
  have hcount : d'.newCount = d.newCount := by
    refine UInt32.toNat_inj.mp ?_
    rw [h'.ok.count_eq, h.ok.count_eq, hsame]
  have hpayer := h'.payer.trans h.payer.symm
  have hcurrent := h'.current.trans h.current.symm
  have hpage := h'.page.trans h.page.symm
  cases d
  cases d'
  simp only at hpayer hcurrent hpage hthread hsame hseq hcount
  subst hpayer hcurrent hpage hthread hsame hseq hcount
  rfl

end PageCall

end Txtcel
