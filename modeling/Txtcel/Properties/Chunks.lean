import Txtcel.Properties.FirstFree
import Txtcel.Properties.Messages
import Txtcel.Properties.PostCharge
import Txtcel.System.Unnamed

/-!
# A message in chunks

A body posted in pieces, `FillSlot` with the first and `AppendContent` with the others, against the
same post with the whole body. Between the pieces anybody does anything with other accounts.

* `AppendCharge`: what an append costs, account by account -- no author fee;
* `ChunkedTo`: where a chunked run has got: the message so far, its lamports, and the base fees so far
  within one lamport for each chunk of the fee on the whole;
* `chunked_posting`: the result is the one-shot result, byte for byte and lamport for lamport.
-/

namespace Txtcel

open Lib Borsh Function

variable {R : Runtime} {sv : Sysvars} {accounts : List AccountInfo} {σ σ' τ : Ledger}
  {ix : ProgramInstruction} {k j : Pubkey} {K : Set Pubkey} {rent : Nat → UInt64} {β : UInt32}

/-! ## 1. What an append costs -/

/-- What opening the treasury shard takes; it is opened only when there is a fee. -/
def AppendContent.opening (d : AppendContent) (sv : Sysvars) (σ : Ledger) : Nat :=
  if 0 < d.rentDelta sv then σ.shortfall (sv.rent 0) d.treasury else 0

/-- What an append brings the account `j`. -/
def AppendContent.gain (d : AppendContent) (sv : Sysvars) (σ : Ledger) (j : Pubkey) : Nat :=
  (if j = d.treasury then d.opening sv σ + d.baseFee sv else 0) +
    (if j = d.content then d.newRent sv - σ.lamports d.content else 0)

/-- No growth of the rent, no base fee. -/
theorem AppendContent.baseFee_eq_zero {d : AppendContent} (h : ¬ 0 < d.rentDelta sv) :
    d.baseFee sv = 0 := by
  rw [AppendContent.baseFee, Nat.le_zero.mp (Nat.not_lt.mp h)]
  simp [baseFeeOf, saturatingMul128]

/-- **What every account but the payer gains.** -/
theorem AppendContent.Ok.gain_eq {d : AppendContent} (h : d.Ok R sv accounts σ σ')
    (hf : sv.rent 0 ≤ σ.opened (sv.rent 0) d.treasury) (ht : d.treasury ≠ d.payer)
    (htc : d.treasury ≠ d.content) (hj : j ≠ d.payer) :
    σ'.lamports j = σ.lamports j + d.gain sv σ j := by
  have hpaid := Ledger.pay_lamports (σ := σ) (k := d.content)
    (n := d.newRent sv - σ.lamports d.content) hj
  rw [h.post, Ledger.put_lamports, AppendContent.charged, AppendContent.gain,
    AppendContent.opening]
  by_cases hd : 0 < d.rentDelta sv
  · simp only [if_pos hd]
    have hts := Ledger.pay_other σ d.treasury d.payer d.content
      (d.newRent sv - σ.lamports d.content) ht htc
    have hshort : (σ.pay d.payer d.content (d.newRent sv - σ.lamports d.content)).shortfall
        (sv.rent 0) d.treasury = σ.shortfall (sv.rent 0) d.treasury := by
      rw [Ledger.shortfall, Ledger.shortfall, hts]
      rfl
    have hopen : ((σ.pay d.payer d.content (d.newRent sv - σ.lamports d.content)).openShard R
        (sv.rent 0) d.payer d.treasury).lamports j = σ.lamports j +
          (if j = d.treasury then σ.shortfall (sv.rent 0) d.treasury else 0) +
          (if j = d.content then d.newRent sv - σ.lamports d.content else 0) := by
      rw [Ledger.openShard_lamports hj]
      by_cases hjt : j = d.treasury
      · subst hjt
        rw [if_pos rfl, if_pos rfl, if_neg htc, Ledger.opened, hshort, hts, Nat.add_zero]
      · rw [if_neg hjt, if_neg hjt, hpaid, Nat.add_zero]
    rw [Ledger.collect_lamports hj, hopen]
    · split <;> omega
    · intro hjt
      rw [hopen, hjt, if_pos rfl, if_neg htc]
      exact hf
  · simp only [if_neg hd, hpaid, AppendContent.baseFee_eq_zero hd, Nat.add_zero, ite_self,
      Nat.zero_add]

/-- **The charge of an append**: the missing rent of the grown account and the base fee on the
    growth; nothing goes to the author's shard. -/
structure AppendCharge (sv : Sysvars) (d : AppendContent) (base : Nat) (σ σ' : Ledger) : Prop where
  treasury : σ'.lamports d.treasury = σ.lamports d.treasury + d.opening sv σ + base
  content : σ'.lamports d.content = max (σ.lamports d.content) (d.newRent sv)
  author : σ'.lamports d.author = σ.lamports d.author
  payer : σ'.lamports d.payer + (base + (d.newRent sv - σ.lamports d.content) + d.opening sv σ) =
    σ.lamports d.payer
  others : ∀ j, j ≠ d.payer → j ≠ d.treasury → j ≠ d.content → σ'.lamports j = σ.lamports j

/-- The message and the two shards of an append are three accounts. -/
structure AppendContent.Apart (d : AppendContent) : Prop where
  treasury_ne : d.treasury ≠ d.content
  author_ne : d.author ≠ d.content
  shards_ne : d.author ≠ d.treasury

theorem AppendContent.Ok.charge {d : AppendContent} (h : d.Ok R sv accounts σ σ')
    (hS : OwnKeys R accounts) (hd : d.Apart)
    (hf : sv.rent 0 ≤ σ.opened (sv.rent 0) d.treasury) :
    AppendCharge sv d (d.baseFee sv) σ σ' := by
  have ht : d.treasury ≠ d.payer := hS.ne h.shards.treasury_addr.isPda _ h.signer
  have ha : d.author ≠ d.payer := hS.ne h.shards.author_addr.isPda _ h.signer
  have hc : d.content ≠ d.payer := hS.ne h.content_addr.isPda _ h.signer
  have hgain := fun j => h.gain_eq (j := j) hf ht hd.treasury_ne
  refine ⟨?_, ?_, ?_, ?_, fun j hp hjt hjc => ?_⟩
  · rw [hgain _ ht, AppendContent.gain, if_pos rfl, if_neg hd.treasury_ne]
    omega
  · rw [hgain _ hc, AppendContent.gain, if_neg hd.treasury_ne.symm, if_pos rfl]
    omega
  · rw [hgain _ ha, AppendContent.gain, if_neg hd.shards_ne, if_neg hd.author_ne, Nat.add_zero]
  · have hzero : d.gain sv σ d.payer = 0 := by
      rw [AppendContent.gain, if_neg ht.symm, if_neg hc.symm]
    have hpays := total_gains hzero (fun j hj => hgain j hj) h.spends.total_eq
    have htotal : total (d.gain sv σ) =
        d.opening sv σ + d.baseFee sv + (d.newRent sv - σ.lamports d.content) := by
      show total (fun j => _) = _
      unfold AppendContent.gain
      rw [total_add, total_single, total_single]
    omega
  · rw [hgain _ hp, AppendContent.gain, if_neg hjt, if_neg hjc, Nat.add_zero]

/-- From a reachable state the charge is exact. -/
theorem reach_appendCharge {d : AppendContent} (hK : R.CollisionFree K)
    (hr : (program R).Reach (Steady sv.minimumBalance K) σ) (h : d.Ok R sv accounts σ σ')
    (hS : OwnKeys R accounts) : AppendCharge sv d (d.baseFee sv) σ σ' := by
  have hin : (program R).Reach (Within K) σ := hr.mono fun _ _ _ hok => hok.2
  have hlive : d.thread ∈ K := reach_live_within hin ⟨_, h.thread_holds.cell h.thread_tag⟩
  have hone : ∀ k ∈ [d.thread], k ∈ K := fun k hk => List.mem_singleton.mp hk ▸ hlive
  have hnone : ∀ k ∈ (Pda.treasuryShard d.treasuryIdx).keys, k ∈ K := fun k hk =>
    absurd hk List.not_mem_nil
  have hcontent : R.HasAddress (.content d.thread d.old.header.allocSeq d.old.header.slot)
      d.content := h.content_thread ▸ h.content_addr
  refine h.charge hS ⟨fun heq => ?_, fun heq => ?_, fun heq => ?_⟩ ?_
  · have hpda := address_inj hK hnone (q := .content _ _ _) hone h.shards.treasury_addr
      (heq ▸ hcontent)
    cases hpda
  · have hpda := address_inj hK (p := .authorFee d.thread d.authorIdx) hone (q := .content _ _ _)
      hone h.shards.author_addr (heq ▸ hcontent)
    cases hpda
  · have hpda := address_inj hK (p := .authorFee d.thread d.authorIdx) hone hnone
      h.shards.author_addr (heq ▸ h.shards.treasury_addr)
    cases hpda
  · refine reach_opened hK hr (p := .treasuryShard d.treasuryIdx) h.shards.treasury_lt
      h.shards.treasury_addr (fun t ht => ?_) rfl
    cases ht

/-! ## 2. Runs in chunks -/

/-- The chunk that an instruction appends to the message at `k`. -/
def chunkFor (k : Pubkey) : Event → Option Bytes
  | .call _ accounts (.appendContent chunk _ _) =>
    if (keysOf accounts)[1]? = some k then some chunk else none
  | _ => none

/-- The chunks of a run, in their order. -/
def chunksFor (k : Pubkey) (tr : List (Ledger × Event × Ledger)) : List Bytes :=
  tr.filterMap fun x => chunkFor k x.2.1

/-- The base fee an append paid: what its treasury shard gained over being opened. -/
def baseFeeIn (k : Pubkey) (x : Ledger × Event × Ledger) : Nat :=
  match x.2.1, chunkFor k x.2.1 with
  | .call sv accounts _, some _ =>
    match (keysOf accounts)[4]? with
    | some s => x.2.2.lamports s - x.1.opened (sv.rent 0) s
    | none => 0
  | _, _ => 0

/-- Something that happens elsewhere: an instruction that is not given the account at `k`, or
    something outside the program that sends it nothing. -/
def Spares (k : Pubkey) (σ : Ledger) (e : Event) (σ' : Ledger) : Prop :=
  match e with
  | .call _ accounts _ => k ∉ keysOf accounts
  | .outside => σ'.lamports k = σ.lamports k

/-- The base fee in force is `β`. -/
def BaseFeeIs (R : Runtime) (β : UInt32) (σ : Ledger) : Prop :=
  ∀ k s, σ.cell R k = .holds (.settings s) → s.baseFeeBps = β

/-- **A step of a chunked run**, at a fixed rent: a chunk at the base fee `β`, or something
    elsewhere. -/
def Chunked (R : Runtime) (rent : Nat → UInt64) (K : Set Pubkey) (β : UInt32) (k : Pubkey)
    (σ : Ledger) (e : Event) (σ' : Ledger) : Prop :=
  Steady rent K σ e σ' ∧ (BaseFeeIs R β σ ∧ (chunkFor k e).isSome ∨ Spares k σ e σ')

/-- What happens elsewhere leaves the message and its lamports alone. -/
theorem Spares.keeps {m : ContentNode} {e : Event} {Ok : Ledger → Event → Ledger → Prop}
    (h : Spares k σ e σ') (hr : (program R).Reach Ok σ) (hs : (program R).step σ e σ')
    (hm : σ.cell R k = .holds (.content m)) :
    σ'.cell R k = .holds (.content m) ∧ σ'.lamports k = σ.lamports k ∧ chunkFor k e = none := by
  cases e with
  | outside => exact ⟨(Outside.holds_iff hs).mpr hm, h, rfl⟩
  | call sv accounts ix =>
    have hk : k ∉ keysOf accounts := h
    have hnot : (keysOf accounts)[1]? ≠ some k := fun h1 => hk (List.mem_of_getElem? h1)
    have hfree : ¬ σ.Free k := fun hf => nomatch (cell_eq_free.mpr hf).symm.trans hm
    have hact := reach_act hr hs
    refine ⟨?_, hact.unnamed hk hfree, ?_⟩
    · have hkept := hact.messageStep hm
      generalize σ'.cell R k = y at hkept ⊢
      cases hkept with
      | keep => rfl
      | append m' h =>
        obtain ⟨sv', accounts', chunk, ti, ai, heq, h1, -⟩ := h
        cases heq
        exact absurd h1 hnot
      | close h =>
        obtain ⟨sv', accounts', heq, h1, -⟩ := h
        cases heq
        exact absurd h1 hnot
    · unfold chunkFor
      split
      · rename_i heq
        cases heq
        exact if_neg hnot
      · rfl

/-! ## 3. One chunk -/

/-- The rent minimum of a message with a body of `n` bytes. -/
def bodyRent (rent : Nat → UInt64) (n : Nat) : Nat := (rent (ContentNode.size n)).toNat

/-- The rent minimum does not fall as a message grows. -/
def RentGrows (rent : Nat → UInt64) : Prop :=
  ∀ a b, a ≤ b → b ≤ maxBodyLen → bodyRent rent a ≤ bodyRent rent b

/-- The message with a chunk behind its body. -/
def ContentNode.extend (m : ContentNode) (chunk : Bytes) : ContentNode :=
  { m with body := m.body ++ chunk }

/-- **What one chunk did**: the message grew, the account was topped up, and the base fee on the
    growth of the rent was paid, and nothing else. -/
structure AppendDone (R : Runtime) (rent : Nat → UInt64) (β : UInt32) (k : Pubkey)
    (m : ContentNode) (chunk : Bytes) (x : Ledger × Event × Ledger) : Prop where
  cell : x.2.2.cell R k = .holds (.content (m.extend chunk))
  body_le : (m.extend chunk).body.length ≤ maxBodyLen
  lamports : x.2.2.lamports k = max (x.1.lamports k) (bodyRent rent (m.extend chunk).body.length)
  fee : baseFeeIn k x = feeShare (bodyRent rent (m.extend chunk).body.length -
    bodyRent rent m.body.length) β.toNat
  charge : ∃ sv accounts, ∃ d : AppendContent, d.Ok R sv accounts x.1 x.2.2 ∧
    d.payer = m.header.author ∧ d.content = k ∧ d.chunk = chunk ∧
      AppendCharge sv d (baseFeeIn k x) x.1 x.2.2

theorem append_done {m : ContentNode} {chunk : Bytes} {e : Event} (hK : R.CollisionFree K)
    (hr : (program R).Reach (Steady rent K) σ) (hs : (program R).step σ e σ')
    (hok : Chunked R rent K β k σ e σ') (hchunk : chunkFor k e = some chunk)
    (hβ : BaseFeeIs R β σ) (hm : σ.cell R k = .holds (.content m)) :
    AppendDone R rent β k m chunk (σ, e, σ') := by
  unfold chunkFor at hchunk
  split at hchunk
  · rename_i sv accounts c ti ai
    obtain ⟨h1, hc⟩ := Option.ite_none_right_eq_some.mp hchunk
    obtain rfl := Option.some.inj hc
    obtain rfl : sv.minimumBalance = rent := hok.1.1 _ _ _ rfl
    obtain ⟨d, hd, rfl, -⟩ := processAppendContent_ok hs.2
    have hkeys := getElem?_of_take (i := 1) hd.keys (by omega)
    obtain rfl : d.content = k := Option.some.inj (hkeys.symm.trans h1)
    have hold : d.old = m := by
      have hcell := hd.content_holds.cell hd.content_tag
      exact AccountData.content.inj (Cell.holds.inj (hcell.symm.trans hm))
    subst hold
    have hcharge := reach_appendCharge hK hr hd hs.1
    -- what the treasury shard gained is the fee
    have hfee : baseFeeIn d.content (σ, .call sv accounts (.appendContent d.chunk ti ai), σ') =
        d.baseFee sv := by
      have h4 := getElem?_of_take (i := 4) hd.keys (by omega)
      have hts := hcharge.treasury
      simp only [baseFeeIn, chunkFor, h1, if_true, h4, List.getElem?_cons_succ,
        List.getElem?_cons_zero, Ledger.opened]
      rw [hts, AppendContent.opening]
      by_cases hpos : 0 < d.rentDelta sv
      · rw [if_pos hpos]
        omega
      · rw [if_neg hpos, AppendContent.baseFee_eq_zero hpos]
        omega
    have hcfg := hd.settings_holds.cell hd.settings_tag
    have hlt : d.rentDelta sv < 2 ^ 64 :=
      Nat.lt_of_le_of_lt (Nat.sub_le _ _) (Sysvars.rent_lt _ _)
    have hbase : d.baseFee sv = feeShare (d.rentDelta sv) β.toNat := by
      rw [AppendContent.baseFee, baseFeeOf_eq hlt (rate_le (reach_bounded hr hcfg).baseFee),
        hβ _ _ hcfg]
    refine ⟨?_, hd.body_le, hcharge.content, hfee.trans hbase, sv, accounts, d, hd,
      hd.content_author.symm, rfl, rfl, hfee ▸ hcharge⟩
    rw [hd.cells, update_self]
    rfl
  · cases hchunk

/-! ## 4. All chunks -/

/-- **Where a chunked run has got**, from a message `m` that was posted with the base fee `base` into
    an account that held `held` lamports. -/
structure ChunkedTo (R : Runtime) (rent : Nat → UInt64) (β : UInt32) (k : Pubkey) (m : ContentNode)
    (held base : Nat) (tr : List (Ledger × Event × Ledger)) (τ : Ledger) : Prop where
  cell : τ.cell R k = .holds (.content (m.extend (chunksFor k tr).flatten))
  body_le : (m.extend (chunksFor k tr).flatten).body.length ≤ maxBodyLen
  lamports : τ.lamports k =
    max held (bodyRent rent (m.extend (chunksFor k tr).flatten).body.length)
  paid_le : base + totalOver (baseFeeIn k) tr ≤
    feeShare (bodyRent rent (m.extend (chunksFor k tr).flatten).body.length) β.toNat
  le_paid : feeShare (bodyRent rent (m.extend (chunksFor k tr).flatten).body.length) β.toNat ≤
    base + totalOver (baseFeeIn k) tr + (chunksFor k tr).length

theorem ContentNode.extend_extend (m : ContentNode) (a b : Bytes) :
    (m.extend a).extend b = m.extend (a ++ b) := by
  simp [ContentNode.extend]

theorem ContentNode.extend_nil (m : ContentNode) : m.extend [] = m := by
  simp [ContentNode.extend]

theorem chunksFor_snoc (tr : List (Ledger × Event × Ledger)) (x : Ledger × Event × Ledger) :
    chunksFor k (tr ++ [x]) = chunksFor k tr ++ (chunkFor k x.2.1).toList := by
  unfold chunksFor
  rw [List.filterMap_append]
  cases h : chunkFor k x.2.1 <;> simp [h]

/-- No chunk, no base fee. -/
theorem baseFeeIn_of_none {x : Ledger × Event × Ledger} (h : chunkFor k x.2.1 = none) :
    baseFeeIn k x = 0 := by
  unfold baseFeeIn
  split
  · rename_i heq
    rw [h] at heq
    cases heq
  · rfl

variable {m : ContentNode} {held base : Nat} {tr : List (Ledger × Event × Ledger)} {e : Event}

/-- A step elsewhere changes none of it. -/
theorem ChunkedTo.spare (h : ChunkedTo R rent β k m held base tr σ)
    {Ok : Ledger → Event → Ledger → Prop} (hr : (program R).Reach Ok σ)
    (hs : (program R).step σ e σ') (hsp : Spares k σ e σ') :
    ChunkedTo R rent β k m held base (tr ++ [(σ, e, σ')]) σ' := by
  obtain ⟨hcell, hlam, hnone⟩ := hsp.keeps hr hs h.cell
  have hchunks : chunksFor k (tr ++ [(σ, e, σ')]) = chunksFor k tr := by
    rw [chunksFor_snoc, hnone, Option.toList_none, List.append_nil]
  have hpaid : totalOver (baseFeeIn k) (tr ++ [(σ, e, σ')]) = totalOver (baseFeeIn k) tr := by
    rw [totalOver_append, totalOver_singleton, baseFeeIn_of_none hnone, Nat.add_zero]
  refine ⟨?_, ?_, ?_, ?_, ?_⟩
  all_goals simp only [hchunks, hpaid]
  · exact hcell
  · exact h.body_le
  · exact hlam.trans h.lamports
  · exact h.paid_le
  · exact h.le_paid

/-- A chunk moves all of it along: two fees lose at most one lamport to one. -/
theorem ChunkedTo.append {chunk : Bytes} (h : ChunkedTo R rent β k m held base tr σ)
    (hmono : RentGrows rent) (hchunk : chunkFor k e = some chunk)
    (hd : AppendDone R rent β k (m.extend (chunksFor k tr).flatten) chunk (σ, e, σ')) :
    ChunkedTo R rent β k m held base (tr ++ [(σ, e, σ')]) σ' := by
  obtain ⟨hcell, hbody, hlam, hfee, -⟩ := hd
  rw [ContentNode.extend_extend] at hcell hbody hlam hfee
  have hchunks : chunksFor k (tr ++ [(σ, e, σ')]) = chunksFor k tr ++ [chunk] := by
    rw [chunksFor_snoc, hchunk, Option.toList_some]
  have hflat : (chunksFor k tr ++ [chunk]).flatten = (chunksFor k tr).flatten ++ chunk := by
    simp
  have hpaid : totalOver (baseFeeIn k) (tr ++ [(σ, e, σ')]) =
      totalOver (baseFeeIn k) tr + baseFeeIn k (σ, e, σ') := by
    rw [totalOver_append, totalOver_singleton]
  have hlen : (m.extend (chunksFor k tr).flatten).body.length ≤
      (m.extend ((chunksFor k tr).flatten ++ chunk)).body.length := by
    simp only [ContentNode.extend, List.length_append]
    omega
  have hle := hmono _ _ hlen hbody
  obtain ⟨hlow, hhigh⟩ := feeShare_add
    (bodyRent rent (m.extend (chunksFor k tr).flatten).body.length)
    (bodyRent rent (m.extend ((chunksFor k tr).flatten ++ chunk)).body.length -
      bodyRent rent (m.extend (chunksFor k tr).flatten).body.length) β.toNat
  rw [Nat.add_sub_of_le hle] at hlow hhigh
  have hpl := h.paid_le
  have hlp := h.le_paid
  refine ⟨?_, ?_, ?_, ?_, ?_⟩
  all_goals simp only [hchunks, hflat, hpaid, hfee, List.length_append, List.length_singleton]
  · exact hcell
  · exact hbody
  · rw [hlam, h.lamports]
    omega
  · omega
  · omega

/-- **All chunks of a run.** -/
theorem chunked_run (hK : R.CollisionFree K) (hmono : RentGrows rent)
    (hr : (program R).Reach (Steady rent K) σ) (h0 : ChunkedTo R rent β k m held base [] σ)
    (hp : (program R).Path (Chunked R rent K β k) σ tr τ) :
    (program R).Reach (Steady rent K) τ ∧ ChunkedTo R rent β k m held base tr τ ∧
      ∀ x ∈ tr, ∀ chunk, chunkFor k x.2.1 = some chunk →
        ∃ m', AppendDone R rent β k m' chunk x := by
  induction hp with
  | nil => exact ⟨hr, h0, fun x hx => absurd hx List.not_mem_nil⟩
  | @snoc tr τ υ e hp hs hok ih =>
    obtain ⟨hrτ, hτ, hall⟩ := ih
    refine ⟨.step hrτ hs hok.1, ?_, fun x hx chunk hchunk => ?_⟩
    · rcases hok.2 with ⟨hβ, hsome⟩ | hsp
      · obtain ⟨chunk, hchunk⟩ := Option.isSome_iff_exists.mp hsome
        exact hτ.append hmono hchunk (append_done hK hrτ hs hok hchunk hβ hτ.cell)
      · exact hτ.spare hrτ hs hsp
    · rcases List.mem_append.mp hx with hx | hx
      · exact hall x hx chunk hchunk
      · obtain rfl := List.mem_singleton.mp hx
        rcases hok.2 with ⟨hβ, -⟩ | hsp
        · exact ⟨_, append_done hK hrτ hs hok hchunk hβ hτ.cell⟩
        · exact nomatch hchunk.symm.trans (hsp.keeps hrτ hs hτ.cell).2.2

/-! ## 5. Against the whole body -/

namespace FillCall

variable {f : FillCall} {d : FillSlot} {x : CandidateSlot × AccountInfo}

/-- The same post with another body, and another limit on its fees. -/
def withBody (f : FillCall) (body : Bytes) (maxFee : UInt64) : FillCall :=
  { f with post := { f.post with body := body, maxFee := maxFee } }

/-- Where a post landed is what its inversion calls its content. -/
theorem Lands.content_eq (h : f.Lands R sv x σ τ) (hd : d.Ok R sv accounts σ τ) :
    d.content = x.2.key ∧ d.message sv = f.message sv x.1 := by
  have hcell : τ.cell R d.content = .holds (.content (d.message sv)) := by
    rw [hd.cells, update_self]
  have hkey : d.content = x.2.key := by
    by_contra hne
    have hbefore := (h.holds _ _ hne).mp hcell
    exact nomatch (cell_eq_free.mpr hd.content_free).symm.trans hbefore
  have hland := h.content.cell rfl
  rw [← hkey] at hland
  exact ⟨hkey, AccountData.content.inj (Cell.holds.inj (hcell.symm.trans hland))⟩

/-- The first free candidate is determined by the list. -/
theorem first_unique {l : List (CandidateSlot × AccountInfo)}
    {pre rest pre' rest' : List (CandidateSlot × AccountInfo)} {y : CandidateSlot × AccountInfo}
    (hl : l = pre ++ x :: rest) (hpre : ∀ z ∈ pre, ¬ σ.Free z.2.key) (hx : σ.Free x.2.key)
    (hl' : l = pre' ++ y :: rest') (hpre' : ∀ z ∈ pre', ¬ σ.Free z.2.key) (hy : σ.Free y.2.key) :
    x = y := by
  have hfind : ∀ {p r : List (CandidateSlot × AccountInfo)} {z : CandidateSlot × AccountInfo},
      l = p ++ z :: r → (∀ w ∈ p, ¬ σ.Free w.2.key) → σ.Free z.2.key →
        l.find? (fun w => decide (σ.Free w.2.key)) = some z := by
    intro p r z hz hp hf
    rw [List.find?_eq_some_iff_append]
    exact ⟨decide_eq_true hf, p, r, hz, fun w hw => by simpa using hp w hw⟩
  exact Option.some.inj ((hfind hl hpre hx).symm.trans (hfind hl' hpre' hy))

end FillCall

/-- **The end of a chunked run, against the post `f` with the whole body** from the same ledger `σ`:
    the account at `k` holds what that post would have written, byte for byte, with the same
    lamports; every chunk paid its base fee and no author fee; and the base fees together miss the
    fee on the whole by at most one lamport for each chunk. -/
structure ChunkedPost (R : Runtime) (rent : Nat → UInt64) (β : UInt32) (f : FillCall)
    (sv : Sysvars) (k : Pubkey) (base : Nat) (body : Bytes) (σ : Ledger)
    (tr : List (Ledger × Event × Ledger)) (τ : Ledger) : Prop where
  body_le : body.length ≤ maxBodyLen
  data : ∃ x ∈ f.slots, x.2.key = k ∧ ∀ fee,
    τ.data k = serialize ((f.withBody body fee).message sv x.1)
  length : (τ.data k).length = ContentNode.size body.length
  lamports : τ.lamports k = max (σ.lamports k) (bodyRent rent body.length)
  oneShot : ∀ fee τ', (program R).step σ ((f.withBody body fee).event sv) τ' →
    τ.data k = τ'.data k ∧ τ.lamports k = τ'.lamports k
  chunks : ∀ x ∈ tr, ∀ chunk, chunkFor k x.2.1 = some chunk →
    ∃ m, AppendDone R rent β k m chunk x
  paid_le : base + totalOver (baseFeeIn k) tr ≤ feeShare (bodyRent rent body.length) β.toNat
  le_paid : feeShare (bodyRent rent body.length) β.toNat ≤
    base + totalOver (baseFeeIn k) tr + (chunksFor k tr).length

/-- **Chunked posting equals one-shot posting.** -/
theorem chunked_posting {f : FillCall} {σ₁ : Ledger} (hK : R.CollisionFree K)
    (hmono : RentGrows rent) (hr : (program R).Reach (Steady rent K) σ)
    (hs : (program R).step σ (f.event sv) σ₁) (hok : Steady rent K σ (f.event sv) σ₁)
    (hβ : BaseFeeIs R β σ) :
    ∃ d : FillSlot, d.Ok R sv f.accounts σ σ₁ ∧ d.post = f.post ∧
      PostCharge sv d (feeShare (bodyRent rent f.post.body.length) β.toNat)
        (authorFeeDue R σ d.thread d.payer d.node) σ σ₁ ∧
      ∀ tr τ, (program R).Path (Chunked R rent K β d.content) σ₁ tr τ →
        ChunkedPost R rent β f sv d.content (feeShare (bodyRent rent f.post.body.length) β.toNat)
          (f.post.body ++ (chunksFor d.content tr).flatten) σ tr τ := by
  obtain rfl : sv.minimumBalance = rent := hok.1 _ _ _ rfl
  have hin : (program R).Reach (Within K) σ := hr.mono fun _ _ _ h => h.2
  obtain ⟨d, hd, hpost, -, -, -, hcharge⟩ := post_charge hK hr rfl hs
  obtain ⟨pre, x, rest, hslots, hpre, hx, hlands⟩ := FillCall.lands_of_step hin hK hs
  obtain ⟨hkey, hmsg⟩ := hlands.content_eq hd
  rw [hβ _ _ (hd.settings_holds.cell hd.settings_tag)] at hcharge
  refine ⟨d, hd, hpost, hcharge, fun tr τ hp => ?_⟩
  have hstart : ChunkedTo R sv.minimumBalance β d.content (f.message sv x.1)
      (σ.lamports d.content) (feeShare (bodyRent sv.minimumBalance f.post.body.length) β.toNat) []
      σ₁ := by
    have hcell : σ₁.cell R d.content = .holds (.content (f.message sv x.1)) :=
      hkey ▸ hlands.content.cell rfl
    have hrent : d.rent sv = bodyRent sv.minimumBalance f.post.body.length := by
      rw [FillSlot.rent, hpost]
      rfl
    have hnil : (f.message sv x.1).extend (chunksFor d.content []).flatten =
      f.message sv x.1 := ContentNode.extend_nil _
    refine ⟨?_, ?_, ?_, ?_, ?_⟩
    all_goals rw [hnil]
    · exact hcell
    · have hlen := hd.body_le
      rw [hpost] at hlen
      exact hlen
    · rw [hcharge.content, hrent]
      rfl
    · exact le_refl _
    · exact Nat.le_add_right _ _
  obtain ⟨-, hend, hall⟩ := chunked_run hK hmono (.step hr hs hok) hstart hp
  obtain ⟨-, hv, hdata⟩ := cell_eq_holds.mp hend.cell
  refine ⟨hend.body_le, ⟨x, ?_, hkey.symm, fun fee => hdata⟩, ?_, hend.lamports, fun fee τ' hs' => ?_,
    hall, hend.paid_le, hend.le_paid⟩
  · rw [hslots]
    exact List.mem_append_right _ List.mem_cons_self
  · rw [hdata, AccountData.length_bytes]
    rfl
  · -- the whole body lands in the same slot
    obtain ⟨pre', y, rest', hslots', hpre', hy, hlands'⟩ := FillCall.lands_of_step hin hK hs'
    obtain rfl : x = y := FillCall.first_unique hslots hpre hx hslots' hpre' hy
    obtain ⟨d', hd', hpost', -, -, -, hcharge'⟩ := post_charge hK hr rfl hs'
    obtain ⟨hkey', -⟩ := hlands'.content_eq hd'
    have hsame : d'.content = d.content := hkey'.trans hkey.symm
    have hlam := hcharge'.content
    rw [hsame, FillSlot.rent, hpost'] at hlam
    refine ⟨?_, hend.lamports.trans hlam.symm⟩
    have hdata' := hlands'.content.data
    rw [← hkey] at hdata'
    exact hdata.trans hdata'.symm

namespace Local

/-- The post of `bob`, with its accounts by their role. -/
def firstPost : FillCall :=
  secondPost.withSlots [(⟨0, 0⟩, passed (addressOf (.content channel 0 0)))]

/-- `bob` appends an exclamation mark to it. -/
def appendBob : Call where
  sv := sysvars
  accounts := [signing bob, passed (addressOf (.content channel 0 0)), passed channel,
    passed (addressOf .settings)] ++ shards
  ix := .appendContent [33] 0 0

/-- The store after the post, and after `alice` has linked a page. -/
def chunkStart : Ledger := afterCalls localnet [postBob] (afterCalls localnet history genesis)

def chunkMiddle : Ledger := afterCalls localnet [growChannel] chunkStart

theorem rentGrows : RentGrows sysvars.minimumBalance := by
  have hrent : ∀ n, n ≤ maxBodyLen →
      bodyRent sysvars.minimumBalance n = 100 + ContentNode.size n := by
    intro n hn
    refine UInt64.toNat_ofNat_of_lt' (show 100 + ContentNode.size n < 2 ^ 64 from ?_)
    have hmax : maxBodyLen = 8192 := rfl
    unfold ContentNode.size ContentHeader.size
    omega
  intro a b hab hb
  rw [hrent a (hab.trans hb), hrent b hb]
  exact Nat.add_le_add_left (Nat.add_le_add_left hab _) _

/-- There is one settings account. -/
theorem baseFeeIs {σ : Ledger} (hw : WellFormed localnet (σ.cell localnet))
    (h : (σ.settingsAt localnet (addressOf .settings)).map (·.baseFeeBps) = some 1000) :
    BaseFeeIs localnet 1000 σ := by
  intro k s hk
  have haddr : localnet.HasAddress .settings k := hw.placed k _ hk
  obtain rfl := haddr.unique (hasAddress_addressOf .settings)
  rw [settingsAt_eq_some.mpr hk] at h
  exact Option.some.inj h

theorem chunk_steady : ∀ c ∈ [postBob, growChannel, appendBob], ∀ σ τ,
    Steady sysvars.minimumBalance {k | Plain k} σ c.event τ := by
  intro c hc σ τ
  refine ⟨fun sv accounts ix he => ?_, within_of_plain (by decide +kernel) c hc σ τ⟩
  cases he
  simp only [List.mem_cons, List.not_mem_nil, or_false] at hc
  rcases hc with rfl | rfl | rfl <;> rfl

theorem growChannel_step : (program localnet).step chunkStart growChannel.event chunkMiddle :=
  step_afterCalls (ownKeys_of_plain (show [growChannel].all Call.isPlain = true by decide +kernel) _
    (List.mem_singleton_self _)) (by decide +kernel)

theorem appendBob_step : (program localnet).step chunkMiddle appendBob.event
    (afterCalls localnet [appendBob] chunkMiddle) :=
  step_afterCalls (ownKeys_of_plain (show [appendBob].all Call.isPlain = true by decide +kernel) _
    (List.mem_singleton_self _)) (by decide +kernel)

/-- The page, then the chunk. -/
def chunkTrace : List (Ledger × Event × Ledger) :=
  [(chunkStart, growChannel.event, chunkMiddle),
    (chunkMiddle, appendBob.event, afterCalls localnet [appendBob] chunkMiddle)]

theorem chunkStart_reach :
    (program localnet).Reach (Steady sysvars.minimumBalance {k | Plain k}) chunkStart :=
  .step (history_reach history_steady) postBob_step (chunk_steady _ List.mem_cons_self _ _)

theorem chunkTrace_path : (program localnet).Path
    (Chunked localnet sysvars.minimumBalance {k | Plain k} 1000 (addressOf (.content channel 0 0)))
    chunkStart chunkTrace (afterCalls localnet [appendBob] chunkMiddle) := by
  have hmiddle : (program localnet).Reach (Steady sysvars.minimumBalance {k | Plain k})
      chunkMiddle :=
    .step chunkStart_reach growChannel_step (chunk_steady _ (by simp) _ _)
  have hgrow : addressOf (.content channel 0 0) ∉ keysOf growChannel.accounts := by
    decide +kernel
  have hchunk : (chunkFor (addressOf (.content channel 0 0)) appendBob.event).isSome := by
    decide +kernel
  have hfirst : (program localnet).Path (Chunked localnet sysvars.minimumBalance {k | Plain k} 1000
      (addressOf (.content channel 0 0))) chunkStart
      ([] ++ [(chunkStart, growChannel.event, chunkMiddle)]) chunkMiddle :=
    .snoc .nil growChannel_step ⟨chunk_steady _ (by simp) _ _, .inr hgrow⟩
  exact hfirst.snoc appendBob_step ⟨chunk_steady _ (by simp) _ _,
    .inl ⟨baseFeeIs (reach_wellFormed hmiddle) (by decide +kernel), hchunk⟩⟩

end Local

/-- `bob` posts two letters and appends a third, while `alice` links a page. -/
theorem chunked_posting_bob :
    ChunkedPost localnet Local.sysvars.minimumBalance 1000 Local.firstPost Local.sysvars
      (Local.addressOf (.content Local.channel 0 0))
      (feeShare (bodyRent Local.sysvars.minimumBalance 2) 1000) [104, 105, 33]
      (afterCalls localnet Local.history Local.genesis) Local.chunkTrace
      (afterCalls localnet [Local.appendBob] Local.chunkMiddle) := by
  have hr := Local.history_reach Local.history_steady
  obtain ⟨d, hd, -, -, hrun⟩ := chunked_posting (f := Local.firstPost) localnet_collisionFree
    Local.rentGrows hr Local.postBob_step (Local.chunk_steady _ List.mem_cons_self _ _)
    (Local.baseFeeIs (reach_wellFormed hr) (by decide +kernel))
  obtain ⟨pre, x, rest, hslots, -, -, hlands⟩ := FillCall.lands_of_step (f := Local.firstPost)
    (hr.mono fun _ _ _ h => h.2) localnet_collisionFree Local.postBob_step
  have hx : x = (⟨0, 0⟩, Local.passed (Local.addressOf (.content Local.channel 0 0))) := by
    have hmem : x ∈ Local.firstPost.slots := by
      rw [hslots]
      exact List.mem_append_right _ List.mem_cons_self
    exact List.mem_singleton.mp hmem
  have hkey : d.content = Local.addressOf (.content Local.channel 0 0) := by
    rw [(hlands.content_eq hd).1, hx]
    rfl
  have hend := hrun _ _ (hkey ▸ Local.chunkTrace_path)
  rw [hkey] at hend
  have hchunks : chunksFor (Local.addressOf (.content Local.channel 0 0)) Local.chunkTrace =
      [[33]] := by
    decide +kernel
  rw [hchunks] at hend
  exact hend

end Txtcel
