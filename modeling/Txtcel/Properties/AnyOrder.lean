import Txtcel.Lib.Interleave
import Txtcel.Properties.PageDelta
import Txtcel.Properties.PostDelta

/-!
# Posts and page growth in any order

A `Task` is a post or the growth of a thread. Tasks are `Apart` when they have different payers, no
slot in common and do not grow the same thread.

* `Task.Ready`: the task would succeed, and make the change `d`; it stays so while tasks that are
  apart from it are executed (`Ready.keeps`), so they are independent operations in the sense of
  `Lts.Independent`;
* `any_order`: they succeed in every order, and every order ends alike;
* `any_order_risen`: not with the same lamports where the rent has risen since the shards were
  opened -- the first post pays what they are short of.
-/

namespace Txtcel

open Lib Exec Borsh Function

variable {R : Runtime} {sv : Sysvars} {σ τ υ : Ledger} {K : Set Pubkey} {j k : Pubkey} {p q : Pda}
  {f f' : FillCall} {g g' : PageCall} {e e' : FillEnv} {x x' : CandidateSlot × AccountInfo}
  {n n' : NextAlloc}

/-! ## 1. Addresses -/

/-- `k` is at the address of `p`, over known keys. -/
structure At (R : Runtime) (K : Set Pubkey) (p : Pda) (k : Pubkey) : Prop where
  addr : R.HasAddress p k
  keys : ∀ j ∈ p.keys, j ∈ K

/-- Different derivations, different addresses. -/
theorem At.ne (hK : R.CollisionFree K) (h : At R K p j) (h' : At R K q k) (hne : p ≠ q) :
    j ≠ k := by
  intro heq
  subst heq
  exact hne (address_inj hK h.keys h'.keys h.addr h'.addr)

/-- Where everything is that a post looks at. -/
structure FillCall.Situated (f : FillCall) (R : Runtime) (K : Set Pubkey) (e : FillEnv) : Prop where
  settings : At R K .settings f.settings.key
  access : At R K (.access f.thread.key) f.access.key
  entry : At R K (.entry f.thread.key f.payer.key) f.entry.key
  treasury : At R K (.treasuryShard f.treasuryIdx) f.treasuryShard.key
  author : At R K (.authorFee f.thread.key f.authorIdx) f.authorFeeShard.key
  slot : ∀ y, e.Valid R y → At R K (.content f.thread.key y.1.allocSeq y.1.slot) y.2.key
  thread : ¬ R.IsPda f.thread.key
  payer : ¬ R.IsPda f.payer.key

theorem FillCall.Checked.situated {b c : UInt8} (hc : f.Checked R σ e b c) (hl : f.Looks R σ e)
    (hr : (program R).Reach (Within K) σ) (hown : OwnKeys R f.accounts)
    (hin : ∀ k ∈ signers f.accounts, k ∈ K) : f.Situated R K e := by
  have hcell := hc.thread_holds.cell hc.thread_tag
  have hthread : f.thread.key ∈ K := FillCall.thread_within hr hc
  have hpayer : f.payer.key ∈ signers f.accounts := ⟨f.payer, List.mem_cons_self, hc.signer, rfl⟩
  have hone : ∀ j ∈ [f.thread.key], j ∈ K := fun j hj => List.mem_singleton.mp hj ▸ hthread
  refine ⟨⟨hl.settings_addr, fun j hj => absurd hj List.not_mem_nil⟩,
    ⟨hl.access_addr, hone⟩, ⟨hl.entry_addr, fun j hj => ?_⟩,
    ⟨hc.treasury_addr, fun j hj => absurd hj List.not_mem_nil⟩,
    ⟨hc.author_addr, hone⟩, fun y hy => ⟨hc.threadKey ▸ hy.addr, hone⟩,
    (reach_wellFormed hr).placed _ _ hcell, hown _ hpayer⟩
  rcases List.mem_cons.mp hj with rfl | hj
  · exact hthread
  · rw [List.mem_singleton.mp hj]
    exact hin _ hpayer

theorem FillCall.Fills.situated (h : f.Fills R sv e x σ τ) (hr : (program R).Reach (Within K) σ)
    (hown : OwnKeys R f.accounts) (hin : ∀ k ∈ signers f.accounts, k ∈ K) : f.Situated R K e := by
  obtain ⟨b, c, hc⟩ := h.checked (reach_tidy hr)
  exact hc.situated (h.looks (reach_tidy hr)) hr hown hin

/-- Where everything is that a growth looks at. -/
structure NextAlloc.Situated (d : NextAlloc) (R : Runtime) (K : Set Pubkey) : Prop where
  current : At R K (.alloc d.thread d.old.lastAllocSeq) d.current
  page : At R K (.alloc d.thread d.newSeq) d.page
  thread : ¬ R.IsPda d.thread
  payer : ¬ R.IsPda d.payer

theorem NextAlloc.Ok.situated {as : List AccountInfo} (h : n.Ok R sv as σ τ)
    (hr : (program R).Reach (Within K) σ) (hown : OwnKeys R as) : n.Situated R K := by
  have hcell := h.thread_holds.cell h.thread_tag
  have hone : ∀ j ∈ [n.thread], j ∈ K := fun j hj =>
    List.mem_singleton.mp hj ▸ reach_live_within hr ⟨_, hcell⟩
  exact ⟨⟨h.current_addr, hone⟩, ⟨h.page_addr, hone⟩, (reach_wellFormed hr).placed _ _ hcell,
    hown _ h.payer_signed⟩

/-! ## 2. Operations -/

/-- A post or the growth of a thread. -/
inductive Task where
  | post (f : FillCall)
  | page (g : PageCall)

namespace Task

def accounts : Task → List AccountInfo
  | post f => f.accounts
  | page g => g.accounts

def event (sv : Sysvars) : Task → Event
  | post f => f.event sv
  | page g => g.event sv

def payer : Task → Pubkey
  | post f => f.payer.key
  | page g => g.payer.key

/-- The slots a post may take, with their thread. -/
def slots : Task → List (Pubkey × CandidateSlot)
  | post f => f.candidates.map (f.thread.key, ·)
  | page _ => []

/-- The thread that grows. -/
def grows? : Task → Option Pubkey
  | post _ => none
  | page g => some g.thread.key

/-- Different payers, different slots, different growing threads. -/
structure Apart (a b : Task) : Prop where
  payer : a.payer ≠ b.payer
  slots : ∀ s ∈ a.slots, s ∉ b.slots
  thread : ∀ t, a.grows? = some t → b.grows? ≠ some t

theorem Apart.symm {a b : Task} (h : a.Apart b) : b.Apart a where
  payer := h.payer.symm
  slots s hs ha := h.slots s ha hs
  thread t ht ha := h.thread t ha ht

/-- Posts that are apart have no slot in common. -/
theorem Apart.content_ne (h : Apart (post f) (post f')) (hx : x ∈ f.slots) (hx' : x' ∈ f'.slots) :
    Pda.content f.thread.key x.1.allocSeq x.1.slot ≠
      .content f'.thread.key x'.1.allocSeq x'.1.slot := by
  intro heq
  obtain ⟨hthread, hseq, hnum⟩ := Pda.content.inj heq
  have hcand : x.1 = x'.1 := by
    show (⟨x.1.allocSeq, x.1.slot⟩ : CandidateSlot) = ⟨x'.1.allocSeq, x'.1.slot⟩
    rw [hseq, hnum]
  refine h.slots (f.thread.key, x.1) (List.mem_map_of_mem (List.mem_map_of_mem hx)) ?_
  rw [hthread, hcand]
  exact List.mem_map_of_mem (List.mem_map_of_mem hx')

/-- Growths that are apart are of different threads. -/
theorem Apart.thread_ne (h : Apart (page g) (page g')) : g.thread.key ≠ g'.thread.key :=
  fun heq => h.thread _ rfl (congrArg some heq.symm)

end Task

/-! ## 3. What a step leaves to the others -/

namespace FillCall.Fills

variable (h : f.Fills R sv e x σ τ) (hr : (program R).Reach (Within K) σ) (hK : R.CollisionFree K)
  (hown : OwnKeys R f.accounts)
include h hr hK hown

theorem undisturbed (hx : k ≠ x.2.key) (hp : k ≠ f.payer.key ∨ σ.owner k ≠ systemProgram) :
    k ∈ Undisturbed σ τ :=
  .of_does (h.does hr hK hown) (delta_data_of_ne hx) (delta_owner_of_ne hx)
    ((spends (reach_tidy hr) (h.step hown)).le hp)

/-- Nobody else gains or loses anything. -/
theorem lamports_other (hx : k ≠ x.2.key) (hk : k ∉ f.charged) : τ.lamports k = σ.lamports k := by
  obtain ⟨hp, hts, hau⟩ := not_or.mp hk |>.imp_right not_or.mp
  rw [(h.does hr hK hown).lamports k hk, delta_loss_of_ne hp]
  simp only [delta, hts, hau, hx, if_false]
  omega

end FillCall.Fills

theorem NextAlloc.Ok.lamports_other {as : List AccountInfo} (h : n.Ok R sv as σ τ)
    (hown : OwnKeys R as) (hn : k ≠ n.page) (hp : k ≠ n.payer) : τ.lamports k = σ.lamports k := by
  rw [(h.does hown).lamports k (Set.notMem_empty k), delta_gain_of_ne hn, delta_loss_of_ne hp]
  omega

/-! ### A post after another operation -/

section Post

variable (h : f.Fills R sv e x σ υ) (hr : (program R).Reach (Within K) σ) (hK : R.CollisionFree K)
  (hown : OwnKeys R f.accounts) (hin : ∀ k ∈ signers f.accounts, k ∈ K) (hT : τ.Tidy R)
  (hsup : total τ.lamports < 2 ^ 64)
include h hr hown hin hT hsup

/-- A post stays what it was after a step that disturbs, among the derived addresses, only one page
    or one slot that is none of its own: `ρ` is the ledger with the record of a thread rewritten. -/
theorem FillCall.Fills.after {q : Pda} {ρ : Ledger} {t : ThreadNode}
    (hkind : q.kind = 1 ∨ q.kind = 2)
    (hslot : ∀ y ∈ f.slots, .content f.thread.key y.1.allocSeq y.1.slot ≠ q)
    (hσ : ∀ p j, At R K p j → p ≠ q → j ∈ Undisturbed σ τ)
    (hρ : ∀ p j, At R K p j → p ≠ q → j ∈ Undisturbed ρ τ)
    (hpayer : f.payer.key ∈ Undisturbed ρ τ) (hrew : ρ = σ ∨ ∃ t, Rewritten t σ ρ)
    (ht : τ.Holds R f.thread.key t) (hg : e.thread.Grown t)
    (hlam : τ.lamports x.2.key = σ.lamports x.2.key) :
    ∃ e₁ υ', f.Fills R sv e₁ x τ υ' ∧
      f.delta R sv e₁ x (τ.lamports x.2.key) = f.delta R sv e x (σ.lamports x.2.key) := by
  have hs := h.situated hr hown hin
  obtain ⟨b, c, hc⟩ := h.checked (reach_tidy hr)
  have hother : ∀ p : Pda, p.kind ≠ 1 → p.kind ≠ 2 → p ≠ q := by
    intro p h1 h2 heq
    subst heq
    exact hkind.elim h1 h2
  have hfree : ∀ y, e.Valid R y → y ∈ f.slots → (τ.Free y.2.key ↔ σ.Free y.2.key) :=
    fun y hy hmem => Undisturbed.free_iff (hσ _ _ (hs.slot y hy) (hslot y hmem))
  have hts := hother (.treasuryShard f.treasuryIdx) (by simp [Pda.kind]) (by simp [Pda.kind])
  have hau := hother (.authorFee f.thread.key f.authorIdx) (by simp [Pda.kind]) (by simp [Pda.kind])
  have hopen : f.ShardsOpen τ :=
    ⟨mt (Undisturbed.free_iff (hσ _ _ hs.treasury hts)).mp h.shards_open.1,
      mt (Undisturbed.free_iff (hσ _ _ hs.author hau)).mp h.shards_open.2⟩
  -- the payment looks at the payer, the slot and the shards
  have hne : x.2.key ≠ e.payer.key := by
    rw [hc.payer]
    exact FillCall.pda_ne_payer hc hown h.valid.addr.isPda
  have hrun : ∀ bump, fillFreeSlot R sv e f.post x.1 x.2 bump σ = .ok ((), υ) →
      ∃ τ', fillFreeSlot R sv e f.post x.1 x.2 bump τ = .ok ((), τ') := by
    intro bump hfill
    have hfillρ : ∃ ρ', fillFreeSlot R sv e f.post x.1 x.2 bump ρ = .ok ((), ρ') := by
      rcases hrew with rfl | ⟨w, hw⟩
      · exact ⟨υ, hfill⟩
      · obtain ⟨ρ', hρ', -⟩ := rewritten_fillFreeSlot (hw.ne_of_free h.free) hne _ _ hw _ _ hfill
        exact ⟨ρ', hρ'⟩
    obtain ⟨ρ', hρ'⟩ := hfillρ
    obtain ⟨τ', hτ', -⟩ := respects_fillFreeSlot (V := Undisturbed ρ τ) (Z := Undisturbed ρ τ)
      ⟨hc.payer ▸ hpayer, .inr (hc.payer ▸ hpayer)⟩ (hρ _ _ (hs.slot x h.valid)
        (hslot x h.mem_slots)) hne
      (hc.treasuryShard ▸ hρ _ _ hs.treasury hts) (hc.authorFeeShard ▸ hρ _ _ hs.author hau) _ _
      (alike_undisturbed hsup) _ _ hρ'
    exact ⟨τ', hτ'⟩
  obtain ⟨τ', hτ'⟩ := h.keeps (reach_tidy hr) hT (alike_undisturbed hsup)
    (hσ _ _ hs.settings (hother _ (by simp [Pda.kind]) (by simp [Pda.kind])))
    (hσ _ _ hs.access (hother _ (by simp [Pda.kind]) (by simp [Pda.kind])))
    (hσ _ _ hs.entry (hother _ (by simp [Pda.kind]) (by simp [Pda.kind]))) hopen hfree ht hg hrun
  exact ⟨_, τ', hτ', by rw [FillCall.delta_grown hg, hlam]⟩

include hK

/-- **After another post**, into another slot and by another payer. -/
theorem FillCall.Fills.after_post (h' : f'.Fills R sv e' x' σ τ) (hown' : OwnKeys R f'.accounts)
    (hin' : ∀ k ∈ signers f'.accounts, k ∈ K) (hap : Task.Apart (.post f) (.post f')) :
    ∃ e₁ υ', f.Fills R sv e₁ x τ υ' ∧
      f.delta R sv e₁ x (τ.lamports x.2.key) = f.delta R sv e x (σ.lamports x.2.key) := by
  have hs := h.situated hr hown hin
  have hs' := h'.situated hr hown' hin'
  have hx' := hs'.slot x' h'.valid
  obtain ⟨b, c, hc⟩ := h.checked (reach_tidy hr)
  have hσ : ∀ p j, At R K p j → p ≠ .content f'.thread.key x'.1.allocSeq x'.1.slot →
      j ∈ Undisturbed σ τ := fun p j hj hne =>
    h'.undisturbed hr hK hown' (hj.ne hK hx' hne) (.inl fun heq => hs'.payer (heq ▸ hj.addr.isPda))
  have hpayer : f.payer.key ∈ Undisturbed σ τ :=
    h'.undisturbed hr hK hown' (fun heq => hs.payer (heq ▸ hx'.addr.isPda)) (.inl hap.payer)
  have hthread : f.thread.key ∈ Undisturbed σ τ := by
    refine h'.undisturbed hr hK hown' (fun heq => hs.thread (heq ▸ hx'.addr.isPda)) (.inr ?_)
    rw [hc.thread_holds.owner]
    exact R.programId_ne
  have hx := hs.slot x h.valid
  refine h.after hr hown hin hT hsup (.inr rfl) (fun y hy => hap.content_ne hy h'.mem_slots) hσ hσ
    hpayer (.inl rfl) (Undisturbed.holds hthread hc.thread_holds) (.refl _)
    (h'.lamports_other hr hK hown' (hx.ne hK hx' (hap.content_ne h.mem_slots h'.mem_slots)) ?_)
  rintro (heq | heq | heq)
  · exact hs'.payer (heq ▸ hx.addr.isPda)
  · exact hx.ne hK hs'.treasury (by simp) heq
  · exact hx.ne hK hs'.author (by simp) heq

/-- **After the growth of a thread**, also of its own. -/
theorem FillCall.Fills.after_page (h' : g.Grows R sv n σ τ) (hown' : OwnKeys R g.accounts)
    (hap : Task.Apart (.post f) (.page g)) :
    ∃ e₁ υ', f.Fills R sv e₁ x τ υ' ∧
      f.delta R sv e₁ x (τ.lamports x.2.key) = f.delta R sv e x (σ.lamports x.2.key) := by
  have hs := h.situated hr hown hin
  have hs' := h'.ok.situated hr hown'
  obtain ⟨b, c, hc⟩ := h.checked (reach_tidy hr)
  have hpayer : f.payer.key ≠ n.payer := by
    rw [h'.payer]
    exact hap.payer
  have hx := hs.slot x h.valid
  -- a thread is at no derived address
  have hne : ∀ {p j}, At R K p j → j ≠ n.thread ∧ j ≠ n.payer := fun hj =>
    ⟨fun heq => hs'.thread (heq ▸ hj.addr.isPda), fun heq => hs'.payer (heq ▸ hj.addr.isPda)⟩
  have hpage : f.thread.key ≠ n.page := fun heq => hs.thread (heq ▸ hs'.page.addr.isPda)
  obtain ⟨t, ht, hg⟩ := h'.ok.grown_of_holds hown' hpage hc.thread_holds
  refine h.after hr hown hin hT hsup (q := .alloc n.thread n.newSeq) (.inl rfl) (fun y _ => by simp)
    (fun p j hj hp => h'.ok.undisturbed hown' (hj.ne hK hs'.page hp) (hne hj).1 (.inl (hne hj).2))
    (fun p j hj hp => h'.ok.undisturbed_put hown' (hj.ne hK hs'.page hp) (.inl (hne hj).2))
    (h'.ok.undisturbed_put hown' (fun heq => hs.payer (heq ▸ hs'.page.addr.isPda)) (.inl hpayer))
    (.inr ⟨n.thread, h'.ok.rewritten⟩) ht hg
    (h'.ok.lamports_other hown' (hx.ne hK hs'.page (by simp)) (hne hx).2)

end Post

/-- **No growth makes a post fail**, whether its shards are open or not. -/
theorem FillCall.steps_after_page {sv' : Sysvars} (hs : (program R).step σ (f.event sv) υ)
    (hr : (program R).Reach (Within K) σ) (hK : R.CollisionFree K)
    (hin : ∀ k ∈ signers f.accounts, k ∈ K) (hT : τ.Tidy R) (hsup : total τ.lamports < 2 ^ 64)
    (h' : g.Grows R sv' n σ τ) (hown' : OwnKeys R g.accounts) (hne : f.payer.key ≠ g.payer.key) :
    ∃ υ', (program R).step τ (f.event sv) υ' := by
  obtain ⟨e, b, c, σ₀, hpass⟩ := FillCall.checks_of_step hs
  obtain ⟨hc, rfl⟩ := FillCall.checks_ok (reach_tidy hr) hpass
  have hsit := hc.situated (FillCall.checks_looks (reach_tidy hr) hpass) hr hs.1 hin
  have hsit' := h'.ok.situated hr hown'
  have hpage : f.thread.key ≠ n.page := fun heq => hsit.thread (heq ▸ hsit'.page.addr.isPda)
  obtain ⟨t, ht, hg⟩ := h'.ok.grown_of_holds hown' hpage hc.thread_holds
  have hpayer : f.payer.key ≠ n.payer := by
    rw [h'.payer]
    exact hne
  have hnot : ∀ {p j}, At R K p j → j ≠ n.thread ∧ j ≠ n.payer := fun hj =>
    ⟨fun heq => hsit'.thread (heq ▸ hj.addr.isPda), fun heq => hsit'.payer (heq ▸ hj.addr.isPda)⟩
  have hund : ∀ p j, At R K p j → p ≠ .alloc n.thread n.newSeq → j ∈ Undisturbed σ₀ τ :=
    fun p j hj hp => h'.ok.undisturbed hown' (hj.ne hK hsit'.page hp) (hnot hj).1 (.inl (hnot hj).2)
  have hput : ∀ p j, At R K p j → p ≠ .alloc n.thread n.newSeq →
      j ∈ Undisturbed (σ₀.put n.thread n.new) τ :=
    fun p j hj hp => h'.ok.undisturbed_put hown' (hj.ne hK hsit'.page hp) (.inl (hnot hj).2)
  have hpay : f.payer.key ∈ Undisturbed (σ₀.put n.thread n.new) τ :=
    h'.ok.undisturbed_put hown' (fun heq => hsit.payer (heq ▸ hsit'.page.addr.isPda)) (.inl hpayer)
  have hpass' := FillCall.checks_alike hT hpass (alike_undisturbed hsup)
    (hund _ _ hsit.settings (by simp)) (hund _ _ hsit.access (by simp))
    (hund _ _ hsit.entry (by simp)) ht (hg.tag.trans hc.thread_tag) hg.author
  have hts_ne := FillCall.pda_ne_payer hc hs.1 hsit.treasury.addr.isPda
  have hau_ne := FillCall.pda_ne_payer hc hs.1 hsit.author.addr.isPda
  have hts := hput _ _ hsit.treasury (by simp)
  have hau := hput _ _ hsit.author (by simp)
  have hsee : SeesThread R (Undisturbed (σ₀.put n.thread n.new) τ) f.thread.key f.payer.key :=
    ⟨fun k hk => hput _ k ⟨hk, hsit.access.keys⟩ (by simp),
      fun k hk => hput _ k ⟨hk, hsit.entry.keys⟩ (by simp),
      fun seq slot k hk => hput _ k ⟨hk, hsit.access.keys⟩ (by simp)⟩
  -- the shards and the loop: first with the record rewritten, then with the new page
  have hrun := hs.2
  rw [FillCall.run_eq hpass] at hrun
  obtain ⟨_, σ₁, hens, hloop⟩ := bind_eq_ok.mp hrun
  obtain ⟨ρ₁, hens₁, hrew⟩ :=
    rewritten_ensureFeeShardsInitialized hts_ne hau_ne _ _ h'.ok.rewritten _ _ hens
  obtain ⟨ρ₂, hloop₁, -⟩ :=
    rewritten_fillCandidates hsit'.thread (hc.payer ▸ hsit.payer) _ _ hrew _ _ hloop
  obtain ⟨τ₁, hens₂, halike⟩ := respects_ensureFeeShardsInitialized (V := Undisturbed _ τ)
    (Z := Undisturbed _ τ) ⟨hpay, .inr hpay⟩ hts hau hts_ne hau_ne _ _ (alike_undisturbed hsup) _ _
    hens₁
  obtain ⟨τ₂, hloop₂, -⟩ := respects_fillCandidates ⟨hc.payer ▸ hpay, .inr (hc.payer ▸ hpay)⟩
    (hc.payer ▸ hsit.payer) (hc.threadKey ▸ hc.payer ▸ hsee) (hc.treasuryShard ▸ hts)
    (hc.authorFeeShard ▸ hau) _ _ halike _ _ hloop₁
  refine ⟨τ₂, hs.1, ?_⟩
  rw [FillCall.run_eq hpass', bind_of_ok hens₂]
  exact fillCandidates_grown hg hloop₂

/-! ### A growth after another operation -/

section Page

variable (h : g.Grows R sv n σ υ) (hs : (program R).step σ (g.event sv) υ)
  (hsup : total τ.lamports < 2 ^ 64)
include h hs hsup

/-- A growth stays what it was after a step that leaves its four accounts alone: `ρ` is the ledger
    with the record of another thread rewritten. -/
theorem PageCall.Grows.after {ρ : Ledger}
    (hfirst : ∀ k ∈ [g.payer.key, g.current.key, g.page.key, g.thread.key], k ∈ Undisturbed ρ τ)
    (hrew : ρ = σ ∨ ∃ w, Rewritten w σ ρ ∧ ¬ R.IsPda w ∧ g.current.key ≠ w ∧ g.thread.key ≠ w)
    (hold : τ.Holds R n.thread n.old) :
    ∃ υ', g.Grows R sv n τ υ' ∧ (program R).step τ (g.event sv) υ' := by
  have hrun : processPrepareAlloc R sv g.accounts g.seq σ = .ok ((), υ) := hs.2
  have hrunρ : ∃ ρ', processPrepareAlloc R sv g.accounts g.seq ρ = .ok ((), ρ') := by
    rcases hrew with rfl | ⟨w, hw, hpda, hcur, hth⟩
    · exact ⟨υ, hrun⟩
    · have hresp : Respects (Rewritten w) (processPrepareAlloc R sv g.accounts g.seq) := by
        refine rewritten_processPrepareAlloc hs.1 hpda (fun k hk => ?_) fun k hk => ?_
        · cases hk
          exact hcur
        · cases hk
          exact hth
      obtain ⟨ρ', hρ', -⟩ := hresp _ _ hw _ _ hrun
      exact ⟨ρ', hρ'⟩
  obtain ⟨ρ', hρ'⟩ := hrunρ
  have hpayer : g.payer.key ∈ Undisturbed ρ τ := hfirst _ List.mem_cons_self
  have hresp : Respects (Alike (Undisturbed ρ τ) (Undisturbed ρ τ))
      (processPrepareAlloc R sv g.accounts g.seq) := by
    refine respects_processPrepareAlloc hs.1 hfirst fun p hp => ?_
    cases hp
    exact ⟨hpayer, .inr hpayer⟩
  obtain ⟨υ', hυ', -⟩ := hresp _ _ (alike_undisturbed hsup) _ _ hρ'
  have hstep : (program R).step τ (g.event sv) υ' := ⟨hs.1, hυ'⟩
  obtain ⟨d, hd⟩ := PageCall.exists_grows hstep
  obtain rfl := h.unique hd hold
  exact ⟨υ', hd, hstep⟩

variable (hr : (program R).Reach (Within K) σ) (hK : R.CollisionFree K)
include hr hK

/-- **After a post**, also to its own thread. -/
theorem PageCall.Grows.after_post (h' : f.Fills R sv e x σ τ) (hown' : OwnKeys R f.accounts)
    (hin' : ∀ k ∈ signers f.accounts, k ∈ K) (hap : Task.Apart (.page g) (.post f)) :
    ∃ υ', g.Grows R sv n τ υ' ∧ (program R).step τ (g.event sv) υ' ∧
      τ.lamports n.page = σ.lamports n.page := by
  have hsit := h.ok.situated hr hs.1
  have hsit' := h'.situated hr hown' hin'
  have hx := hsit'.slot x h'.valid
  have hpayer : n.payer ≠ f.payer.key := by
    rw [h.payer]
    exact hap.payer
  have hpda : ∀ {p j}, At R K p j → p.kind = 1 → j ∈ Undisturbed σ τ := fun hj hk =>
    h'.undisturbed hr hK hown' (hj.ne hK hx (fun heq => by simp [heq, Pda.kind] at hk))
      (.inl fun heq => hsit'.payer (heq ▸ hj.addr.isPda))
  have hthread : n.thread ∈ Undisturbed σ τ := by
    refine h'.undisturbed hr hK hown' (fun heq => hsit.thread (heq ▸ hx.addr.isPda)) (.inr ?_)
    rw [h.ok.thread_holds.owner]
    exact R.programId_ne
  have hfirst : ∀ k ∈ [n.payer, n.current, n.page, n.thread], k ∈ Undisturbed σ τ := by
    simp only [List.mem_cons, List.not_mem_nil, or_false, forall_eq_or_imp, forall_eq]
    exact ⟨h'.undisturbed hr hK hown' (fun heq => hsit.payer (heq ▸ hx.addr.isPda)) (.inl hpayer),
      hpda hsit.current rfl, hpda hsit.page rfl, hthread⟩
  rw [h.payer, h.current, h.page, h.thread] at hfirst
  obtain ⟨υ', hg, hstep⟩ := h.after hs hsup hfirst (.inl rfl)
    (Undisturbed.holds hthread h.ok.thread_holds)
  refine ⟨υ', hg, hstep, h'.lamports_other hr hK hown' (hsit.page.ne hK hx (by simp)) ?_⟩
  rintro (heq | heq | heq)
  · exact hsit'.payer (heq ▸ hsit.page.addr.isPda)
  · exact hsit.page.ne hK hsit'.treasury (by simp) heq
  · exact hsit.page.ne hK hsit'.author (by simp) heq

/-- **After the growth of another thread.** -/
theorem PageCall.Grows.after_page (h' : g'.Grows R sv n' σ τ) (hown' : OwnKeys R g'.accounts)
    (hap : Task.Apart (.page g) (.page g')) :
    ∃ υ', g.Grows R sv n τ υ' ∧ (program R).step τ (g.event sv) υ' ∧
      τ.lamports n.page = σ.lamports n.page := by
  have hsit := h.ok.situated hr hs.1
  have hsit' := h'.ok.situated hr hown'
  have hpayer : n.payer ≠ n'.payer := by
    rw [h.payer, h'.payer]
    exact hap.payer
  have hthread : n.thread ≠ n'.thread := by
    rw [h.thread, h'.thread]
    exact hap.thread_ne
  have hne : ∀ {q j}, At R K (.alloc n.thread q) j → j ≠ n'.page ∧ j ≠ n'.thread ∧ j ≠ n'.payer :=
    fun hj => ⟨hj.ne hK hsit'.page fun heq => hthread (Pda.alloc.inj heq).1,
      fun heq => hsit'.thread (heq ▸ hj.addr.isPda), fun heq => hsit'.payer (heq ▸ hj.addr.isPda)⟩
  have howner : σ.owner n.thread ≠ systemProgram := by
    rw [h.ok.thread_holds.owner]
    exact R.programId_ne
  have htp : n.thread ≠ n'.page := fun heq => hsit.thread (heq ▸ hsit'.page.addr.isPda)
  have hund : ∀ {k}, k ≠ n'.page → (k ≠ n'.payer ∨ σ.owner k ≠ systemProgram) →
      k ∈ Undisturbed (σ.put n'.thread n'.new) τ := h'.ok.undisturbed_put hown'
  have hfirst : ∀ k ∈ [n.payer, n.current, n.page, n.thread],
      k ∈ Undisturbed (σ.put n'.thread n'.new) τ := by
    simp only [List.mem_cons, List.not_mem_nil, or_false, forall_eq_or_imp, forall_eq]
    exact ⟨hund (fun heq => hsit.payer (heq ▸ hsit'.page.addr.isPda)) (.inl hpayer),
      hund (hne hsit.current).1 (.inl (hne hsit.current).2.2),
      hund (hne hsit.page).1 (.inl (hne hsit.page).2.2), hund htp (.inr howner)⟩
  rw [h.payer, h.current, h.page, h.thread] at hfirst
  have hcur : g.current.key ≠ n'.thread := h.current ▸ (hne hsit.current).2.1
  obtain ⟨υ', hg, hstep⟩ := h.after hs hsup hfirst
    (.inr ⟨n'.thread, h'.ok.rewritten, hsit'.thread, hcur, h.thread ▸ hthread⟩)
    (Undisturbed.holds (h'.ok.undisturbed hown' htp hthread (.inr howner)) h.ok.thread_holds)
  exact ⟨υ', hg, hstep, h'.ok.lamports_other hown' (hne hsit.page).1 (hne hsit.page).2.2⟩

end Page

/-! ## 4. Deltas that are apart -/

theorem FillCall.Situated.gain_eq_zero {m : Nat} (h : f.Situated R K e) (hx : e.Valid R x)
    (hk : ¬ R.IsPda k) : (f.delta R sv e x m).gain k = 0 := by
  have hne : ∀ {p j}, At R K p j → k ≠ j := fun hj heq => hk (heq ▸ hj.addr.isPda)
  simp only [FillCall.delta, hne h.treasury, hne h.author, hne (h.slot x hx), if_false]

theorem NextAlloc.Situated.gain_eq_zero {m : Nat} (h : n.Situated R K) (hk : ¬ R.IsPda k) :
    (n.delta R sv m).gain k = 0 :=
  NextAlloc.delta_gain_of_ne fun heq => hk (heq ▸ h.page.addr.isPda)

section Apart

variable {m m' : Nat} (hK : R.CollisionFree K)
include hK

theorem FillCall.Situated.apart_post (h : f.Situated R K e) (h' : f'.Situated R K e')
    (hx : e.Valid R x) (hx' : e'.Valid R x') (hmem : x ∈ f.slots) (hmem' : x' ∈ f'.slots)
    (hap : Task.Apart (.post f) (.post f')) :
    (f.delta R sv e x m).Apart (f'.delta R sv e' x' m') := by
  have hne : x.2.key ≠ x'.2.key :=
    (h.slot x hx).ne hK (h'.slot x' hx') (hap.content_ne hmem hmem')
  refine Delta.apart_of_payers (fun k => ?_) (fun k => ?_) (fun k => FillCall.delta_loss_of_ne)
    (fun k => FillCall.delta_loss_of_ne) (h'.gain_eq_zero hx' h.payer) (h.gain_eq_zero hx h'.payer)
  · by_cases hk : k = x.2.key
    · exact .inr (FillCall.delta_data_of_ne (hk ▸ hne))
    · exact .inl (FillCall.delta_data_of_ne hk)
  · by_cases hk : k = x.2.key
    · exact .inr (FillCall.delta_owner_of_ne (hk ▸ hne))
    · exact .inl (FillCall.delta_owner_of_ne hk)

theorem FillCall.Situated.apart_page (h : f.Situated R K e) (h' : n.Situated R K)
    (hx : e.Valid R x) : (f.delta R sv e x m).Apart (n.delta R sv m') := by
  have hpage : x.2.key ≠ n.page := (h.slot x hx).ne hK h'.page (by simp)
  have hthread : x.2.key ≠ n.thread := fun heq => h'.thread (heq ▸ (h.slot x hx).addr.isPda)
  refine Delta.apart_of_payers (fun k => ?_) (fun k => ?_) (fun k => FillCall.delta_loss_of_ne)
    (fun k => NextAlloc.delta_loss_of_ne) (h'.gain_eq_zero h.payer) (h.gain_eq_zero hx h'.payer)
  · by_cases hk : k = x.2.key
    · exact .inr (NextAlloc.delta_data_of_ne (hk ▸ hthread) (hk ▸ hpage))
    · exact .inl (FillCall.delta_data_of_ne hk)
  · by_cases hk : k = x.2.key
    · exact .inr (NextAlloc.delta_owner_of_ne (hk ▸ hpage))
    · exact .inl (FillCall.delta_owner_of_ne hk)

theorem NextAlloc.Situated.apart_page (h : n.Situated R K) (h' : n'.Situated R K)
    (hne : n.thread ≠ n'.thread) : (n.delta R sv m).Apart (n'.delta R sv m') := by
  have hpage : n.page ≠ n'.page :=
    h.page.ne hK h'.page fun heq => hne (Pda.alloc.inj heq).1
  have htp : n.thread ≠ n'.page := fun heq => h.thread (heq ▸ h'.page.addr.isPda)
  have hpt : n.page ≠ n'.thread := fun heq => h'.thread (heq ▸ h.page.addr.isPda)
  refine Delta.apart_of_payers (fun k => ?_) (fun k => ?_) (fun k => NextAlloc.delta_loss_of_ne)
    (fun k => NextAlloc.delta_loss_of_ne) (h'.gain_eq_zero h.payer) (h.gain_eq_zero h'.payer)
  · by_cases ht : k = n.thread
    · exact .inr (NextAlloc.delta_data_of_ne (ht ▸ hne) (ht ▸ htp))
    · by_cases hp : k = n.page
      · exact .inr (NextAlloc.delta_data_of_ne (hp ▸ hpt) (hp ▸ hpage))
      · exact .inl (NextAlloc.delta_data_of_ne ht hp)
  · by_cases hp : k = n.page
    · exact .inr (NextAlloc.delta_owner_of_ne (hp ▸ hpage))
    · exact .inl (NextAlloc.delta_owner_of_ne hp)

end Apart

/-! ## 5. Readiness -/

namespace Task

variable {a b : Task} {d d' : Delta}

/-- The operation succeeds, and `d` is the change. -/
def Makes (R : Runtime) (sv : Sysvars) : Task → Delta → Ledger → Ledger → Prop
  | post f, d, σ, τ => ∃ e x, f.Fills R sv e x σ τ ∧ d = f.delta R sv e x (σ.lamports x.2.key)
  | page g, d, σ, τ => ∃ n, g.Grows R sv n σ τ ∧ (program R).step σ (g.event sv) τ ∧
      d = n.delta R sv (σ.lamports n.page)

/-- The operation would make the change `d` in this reachable state. -/
structure Ready (R : Runtime) (sv : Sysvars) (K : Set Pubkey) (a : Task) (d : Delta) (σ : Ledger) :
    Prop where
  reach : (program R).Reach (Within K) σ
  supply : total σ.lamports < 2 ^ 64
  own : OwnKeys R a.accounts
  known : ∀ k ∈ signers a.accounts, k ∈ K
  makes : ∃ τ, a.Makes R sv d σ τ

/-- The accounts whose lamports depend on what the fee shards hold. -/
def charged : Task → Set Pubkey
  | post f => f.charged
  | page _ => ∅

/-- The fee shards that are named hold the rent minimum in force. -/
def Funded (sv : Sysvars) (σ : Ledger) : Task → Prop
  | post f => f.Funded sv σ
  | page _ => True

theorem step_unique {ev : Event} (hev : ev ≠ .outside) (h : (program R).step σ ev τ)
    (h' : (program R).step σ ev υ) : υ = τ := by
  cases ev with
  | outside => exact absurd rfl hev
  | call sv as ix =>
    have heq := h'.2.symm.trans h.2
    cases heq
    rfl

theorem event_ne_outside : a.event sv ≠ .outside := by
  cases a with
  | post f => nofun
  | page g => nofun

theorem Makes.step (h : a.Makes R sv d σ τ) (hown : OwnKeys R a.accounts) :
    (program R).step σ (a.event sv) τ := by
  cases a with
  | post f =>
    obtain ⟨e, x, hf, -⟩ := h
    exact hf.step hown
  | page g =>
    obtain ⟨n, -, hs, -⟩ := h
    exact hs

namespace Ready

/-- What is ready makes its change when it is executed. -/
theorem makes_of_step (h : a.Ready R sv K d σ) (hs : (program R).step σ (a.event sv) τ) :
    a.Makes R sv d σ τ := by
  obtain ⟨υ, hυ⟩ := h.makes
  obtain rfl := step_unique event_ne_outside hs (hυ.step h.own)
  exact hυ

theorem steps (h : a.Ready R sv K d σ) : ∃ τ, (program R).step σ (a.event sv) τ := by
  obtain ⟨τ, hτ⟩ := h.makes
  exact ⟨τ, hτ.step h.own⟩

theorem spends (h : a.Ready R sv K d σ) (hs : (program R).step σ (a.event sv) τ) :
    σ.Spends a.payer τ := by
  cases a with
  | post f => exact FillCall.spends (reach_tidy h.reach) hs
  | page g =>
    obtain ⟨n, hn, -⟩ := h.makes_of_step hs
    have hspends := hn.ok.spends
    rw [hn.payer] at hspends
    exact hspends

theorem within (h : a.Ready R sv K d σ) : Within K σ (a.event sv) τ := by
  intro sv' as ix heq
  cases a with
  | post f =>
    cases heq
    exact ⟨h.known, nofun⟩
  | page g =>
    cases heq
    exact ⟨h.known, nofun⟩

theorem reach_step (h : a.Ready R sv K d σ) (hs : (program R).step σ (a.event sv) τ) :
    (program R).Reach (Within K) τ := .step h.reach hs h.within

theorem supply_step (h : a.Ready R sv K d σ) (hs : (program R).step σ (a.event sv) τ) :
    total τ.lamports < 2 ^ 64 := by
  rw [(h.spends hs).total_eq]
  exact h.supply

variable (hK : R.CollisionFree K)
include hK

/-- **What is ready stays ready** while an operation that is apart from it is executed, and its
    change stays the same. -/
theorem keeps (hap : a.Apart b) (ha : a.Ready R sv K d σ) (hb : b.Ready R sv K d' σ)
    (hs : (program R).step σ (b.event sv) τ) : a.Ready R sv K d τ := by
  have hr := hb.reach_step hs
  have hsup := hb.supply_step hs
  refine ⟨hr, hsup, ha.own, ha.known, ?_⟩
  obtain ⟨υ, hυ⟩ := ha.makes
  have hmakes := hb.makes_of_step hs
  cases a with
  | post f =>
    obtain ⟨e, x, hf, rfl⟩ := hυ
    cases b with
    | post f' =>
      obtain ⟨e', x', hf', -⟩ := hmakes
      obtain ⟨e₁, υ', h₁, hd⟩ := hf.after_post ha.reach hK ha.own ha.known (reach_tidy hr) hsup hf'
        hb.own hb.known hap
      exact ⟨υ', e₁, x, h₁, hd.symm⟩
    | page g =>
      obtain ⟨n, hn, -⟩ := hmakes
      obtain ⟨e₁, υ', h₁, hd⟩ := hf.after_page ha.reach hK ha.own ha.known (reach_tidy hr) hsup hn
        hb.own hap
      exact ⟨υ', e₁, x, h₁, hd.symm⟩
  | page g =>
    obtain ⟨n, hn, hstep, rfl⟩ := hυ
    cases b with
    | post f' =>
      obtain ⟨e', x', hf', -⟩ := hmakes
      obtain ⟨υ', h₁, hs₁, hl⟩ := hn.after_post hstep hsup ha.reach hK hf' hb.own hb.known hap
      exact ⟨υ', n, h₁, hs₁, by rw [hl]⟩
    | page g' =>
      obtain ⟨n', hn', -⟩ := hmakes
      obtain ⟨υ', h₁, hs₁, hl⟩ := hn.after_page hstep hsup ha.reach hK hn' hb.own hap
      exact ⟨υ', n, h₁, hs₁, by rw [hl]⟩

/-- **The change**, but for the lamports that depend on the shards. -/
theorem does (h : a.Ready R sv K d σ) (hs : (program R).step σ (a.event sv) τ) :
    d.Does a.charged σ τ := by
  have hm := h.makes_of_step hs
  cases a with
  | post f =>
    obtain ⟨e, x, hf, rfl⟩ := hm
    exact hf.does h.reach hK h.own
  | page g =>
    obtain ⟨n, hn, -, rfl⟩ := hm
    exact hn.ok.does h.own

/-- ... and all of it, where the shards are funded. -/
theorem does_funded (h : a.Ready R sv K d σ) (hf : a.Funded sv σ)
    (hs : (program R).step σ (a.event sv) τ) : d.Does ∅ σ τ := by
  have hm := h.makes_of_step hs
  cases a with
  | post f =>
    obtain ⟨e, x, hfill, rfl⟩ := hm
    exact hfill.lamports h.reach hK h.own hf
  | page g =>
    obtain ⟨n, hn, -, rfl⟩ := hm
    exact hn.ok.does h.own

theorem apart (hap : a.Apart b) (ha : a.Ready R sv K d σ) (hb : b.Ready R sv K d' σ) :
    d.Apart d' := by
  obtain ⟨υ, hυ⟩ := ha.makes
  obtain ⟨τ, hτ⟩ := hb.makes
  cases a with
  | post f =>
    obtain ⟨e, x, hf, rfl⟩ := hυ
    have hsit := hf.situated ha.reach ha.own ha.known
    cases b with
    | post f' =>
      obtain ⟨e', x', hf', rfl⟩ := hτ
      exact hsit.apart_post hK (hf'.situated hb.reach hb.own hb.known) hf.valid hf'.valid
        hf.mem_slots hf'.mem_slots hap
    | page g =>
      obtain ⟨n, hn, -, rfl⟩ := hτ
      exact hsit.apart_page hK (hn.ok.situated hb.reach hb.own) hf.valid
  | page g =>
    obtain ⟨n, hn, -, rfl⟩ := hυ
    have hsit := hn.ok.situated ha.reach ha.own
    cases b with
    | post f' =>
      obtain ⟨e', x', hf', rfl⟩ := hτ
      exact ((hf'.situated hb.reach hb.own hb.known).apart_page hK hsit hf'.valid).symm
    | page g' =>
      obtain ⟨n', hn', -, rfl⟩ := hτ
      refine hsit.apart_page hK (hn'.ok.situated hb.reach hb.own) ?_
      rw [hn.thread, hn'.thread]
      exact hap.thread_ne

omit hK in
theorem payer_not_pda (h : a.Ready R sv K d σ) : ¬ R.IsPda a.payer := by
  obtain ⟨τ, hτ⟩ := h.makes
  cases a with
  | post f =>
    obtain ⟨e, x, hf, -⟩ := hτ
    exact (hf.situated h.reach h.own h.known).payer
  | page g =>
    obtain ⟨n, hn, -⟩ := hτ
    have hpayer := (hn.ok.situated h.reach h.own).payer
    rw [hn.payer] at hpayer
    exact hpayer

omit hK in
/-- Shards that are funded stay funded. -/
theorem keeps_funded (ha : a.Ready R sv K d σ) (hb : b.Ready R sv K d' σ) (hf : a.Funded sv σ)
    (hs : (program R).step σ (b.event sv) τ) : a.Funded sv τ := by
  have hle : ∀ {p k}, At R K p k → σ.lamports k ≤ τ.lamports k := fun hk =>
    (hb.spends hs).le (.inl fun heq => hb.payer_not_pda (heq ▸ hk.addr.isPda))
  obtain ⟨υ, hυ⟩ := ha.makes
  cases a with
  | post f =>
    obtain ⟨e, x, hfill, -⟩ := hυ
    have hsit := hfill.situated ha.reach ha.own ha.known
    exact ⟨hf.1.trans (hle hsit.treasury), hf.2.trans (hle hsit.author)⟩
  | page g => trivial

/-- The lamports of an account change by the delta, but where it pays or receives what an
    underfunded shard is short of. -/
theorem lamports (h : a.Ready R sv K d σ) (hk : k ∈ a.charged → a.Funded sv σ)
    (hs : (program R).step σ (a.event sv) τ) :
    τ.lamports k = σ.lamports k + d.gain k - d.loss k := by
  by_cases hc : k ∈ a.charged
  · exact (h.does_funded hK (hk hc) hs).lamports k (Set.notMem_empty k)
  · exact (h.does hK hs).lamports k hc

/-- **At a fixed rent every shard is funded.** -/
theorem funded (h : a.Ready R sv K d σ) (hr : (program R).Reach (FixedRent sv.minimumBalance) σ) :
    a.Funded sv σ := by
  have hvault : ∀ {p k}, At R K p k → (∀ c, p.Stores c → c = .vault) → ¬ σ.Free k →
      sv.rent 0 ≤ σ.lamports k := by
    intro p k hk hst hfree
    have hcell := hst _ ((reach_stored hK h.reach hk.addr hk.keys).resolve_left hfree)
    exact reach_funded hr hk.addr.isPda hcell
  obtain ⟨υ, hυ⟩ := h.makes
  cases a with
  | post f =>
    obtain ⟨e, x, hf, -⟩ := hυ
    have hsit := hf.situated h.reach h.own h.known
    refine ⟨hvault hsit.treasury (fun c hc => ?_) hf.shards_open.1,
      hvault hsit.author (fun c hc => ?_) hf.shards_open.2⟩
    · cases hc
      rfl
    · cases hc
      rfl
  | page g => trivial

end Ready

/-! ## 6. Any order -/

/-- The fee shards that are named are initialized. -/
def ShardsOpen (σ : Ledger) : Task → Prop
  | post f => f.ShardsOpen σ
  | page _ => True

/-- What succeeds by itself is ready. -/
theorem exists_ready (hr : (program R).Reach (Within K) σ) (hsup : total σ.lamports < 2 ^ 64)
    (hs : (program R).step σ (a.event sv) τ) (hin : Within K σ (a.event sv) τ)
    (hopen : a.ShardsOpen σ) : ∃ d, a.Ready R sv K d σ := by
  cases a with
  | post f =>
    obtain ⟨e, x, hf⟩ := FillCall.exists_fills (reach_tidy hr) hopen hs
    exact ⟨_, hr, hsup, hs.1, (hin _ _ _ rfl).1, τ, e, x, hf, rfl⟩
  | page g =>
    obtain ⟨n, hn⟩ := PageCall.exists_grows hs
    exact ⟨_, hr, hsup, hs.1, (hin _ _ _ rfl).1, τ, n, hn, hs, rfl⟩

section Order

variable {E : Task → Delta} {calls l : List Task} (hK : R.CollisionFree K)
include hK

theorem independent : Lts.Independent (program R) (event sv)
    (fun a σ => a.Ready R sv K (E a) σ) Apart where
  symm _ _ hab := hab.symm
  steps _ _ ha := ha.steps
  keeps _ _ _ _ hab ha hb hs := ha.keeps hK hab hb hs

/-- ... also with the lamports of `k` known. -/
theorem independent_lamports (k : Pubkey) : Lts.Independent (program R) (event sv)
    (fun a σ => a.Ready R sv K (E a) σ ∧ (k ∈ a.charged → a.Funded sv σ)) Apart where
  symm _ _ hab := hab.symm
  steps _ _ ha := ha.1.steps
  keeps _ _ _ _ hab ha hb hs :=
    ⟨ha.1.keeps hK hab hb.1 hs, fun hk => ha.1.keeps_funded hb.1 (ha.2 hk) hs⟩

variable (hap : calls.Pairwise Apart) (hready : ∀ a ∈ calls, a.Ready R sv K (E a) σ)
  (hp : calls.Perm l) (hrun : (program R).Runs σ (calls.map (event sv)) τ)
  (hrun' : (program R).Runs σ (l.map (event sv)) υ)
include hap hready hp hrun hrun'

theorem data_perm : τ.data = υ.data := by
  funext k
  have hact : Lts.Updates (program R) (event sv) (fun a σ => a.Ready R sv K (E a) σ)
      (fun σ => σ.data k) (fun v a => ((E a).data k).getD v) :=
    fun a σ τ ha hs => (ha.does hK hs).data k
  refine (independent hK).read_perm hact (fun a ha b hb hab v => ?_) hp hap hready hrun hrun'
  exact Delta.getD_comm (((hready a ha).apart hK hab (hready b hb)).data k) v

theorem owner_perm : τ.owner = υ.owner := by
  funext k
  have hact : Lts.Updates (program R) (event sv) (fun a σ => a.Ready R sv K (E a) σ)
      (fun σ => σ.owner k) (fun v a => ((E a).owner k).getD v) :=
    fun a σ τ ha hs => (ha.does hK hs).owner k
  refine (independent hK).read_perm hact (fun a ha b hb hab v => ?_) hp hap hready hrun hrun'
  exact Delta.getD_comm (((hready a ha).apart hK hab (hready b hb)).owner k) v

theorem lamports_perm (hk : ∀ a ∈ calls, k ∈ a.charged → a.Funded sv σ) :
    τ.lamports k = υ.lamports k := by
  have hact : Lts.Updates (program R) (event sv)
      (fun a σ => a.Ready R sv K (E a) σ ∧ (k ∈ a.charged → a.Funded sv σ))
      (fun σ => σ.lamports k) (fun v a => v + (E a).gain k - (E a).loss k) :=
    fun a σ τ ha hs => ha.1.lamports hK ha.2 hs
  refine (independent_lamports hK k).read_perm hact (fun a ha b hb hab v => ?_) hp hap
    (fun a ha => ⟨hready a ha, hk a ha⟩) hrun hrun'
  exact ((hready a ha).apart hK hab (hready b hb)).lamports_comm k v

end Order

end Task

/-- **Posts and page growth in any order.** Operations that are pairwise apart and each succeed by
    themselves, with the shards they name initialized, succeed in every order. Every order leaves
    the same data and owners, and the same lamports but for those that pay, or share, what an
    underfunded shard is short of; at a fixed rent no shard is, and every order ends in the same
    state. No growth makes a post fail, and no post changes a structure. -/
theorem any_order {calls : List Task} (hK : R.CollisionFree K)
    (hr : (program R).Reach (Within K) σ) (hsup : total σ.lamports < 2 ^ 64)
    (hap : calls.Pairwise Task.Apart)
    (hsteps : ∀ a ∈ calls, ∃ τ, (program R).step σ (a.event sv) τ ∧ Within K σ (a.event sv) τ)
    (hopen : ∀ a ∈ calls, a.ShardsOpen σ) :
    (∀ l, calls.Perm l → ∃ τ, (program R).Runs σ (l.map (Task.event sv)) τ) ∧
    (∀ l τ υ, calls.Perm l → (program R).Runs σ (calls.map (Task.event sv)) τ →
      (program R).Runs σ (l.map (Task.event sv)) υ →
        τ.data = υ.data ∧ τ.owner = υ.owner ∧
        (∀ k, (∀ a ∈ calls, k ∈ a.charged → a.Funded sv σ) → τ.lamports k = υ.lamports k) ∧
        ((program R).Reach (FixedRent sv.minimumBalance) σ → τ = υ)) ∧
    (∀ (f : FillCall) (g : PageCall) sv₁ sv₂ τ υ, (program R).step σ (f.event sv₁) υ →
      Within K σ (f.event sv₁) υ → (program R).step σ (g.event sv₂) τ →
      f.payer.key ≠ g.payer.key → ∃ υ', (program R).step τ (f.event sv₁) υ') ∧
    ∀ (f : FillCall) sv₁ τ, (program R).step σ (f.event sv₁) τ →
      ∀ k a, σ.cell R k = .holds a → τ.data k = σ.data k := by
  have hd : ∀ a ∈ calls, ∃ d, a.Ready R sv K d σ := by
    intro a ha
    obtain ⟨τ, hs, hin⟩ := hsteps a ha
    exact Task.exists_ready hr hsup hs hin (hopen a ha)
  choose! E hE using hd
  have hind : Lts.Independent (program R) (Task.event sv)
      (fun a σ => a.Ready R sv K (E a) σ) Task.Apart := Task.independent hK
  refine ⟨fun l hp => ?_, fun l τ υ hp hrun hrun' => ?_, fun f g sv₁ sv₂ τ υ hs hin hg hne => ?_,
    fun f sv₁ τ hs k a hk => ?_⟩
  · exact hind.exists_runs (hind.pairwise_perm hp hap) fun a ha => hE a (hp.mem_iff.mpr ha)
  · have hdata := Task.data_perm hK hap hE hp hrun hrun'
    have howner := Task.owner_perm hK hap hE hp hrun hrun'
    have hlam : ∀ k, (∀ a ∈ calls, k ∈ a.charged → a.Funded sv σ) → τ.lamports k = υ.lamports k :=
      fun k hk => Task.lamports_perm hK hap hE hp hrun hrun' hk
    refine ⟨hdata, howner, hlam, fun hfix => ?_⟩
    have hall : τ.lamports = υ.lamports :=
      funext fun k => hlam k fun a ha _ => (hE a ha).funded hK hfix
    cases τ
    cases υ
    simp only at hdata howner hall
    rw [hdata, howner, hall]
  · obtain ⟨n, hn⟩ := PageCall.exists_grows hg
    have hreach : (program R).Reach anyStep τ := .step (hr.mono fun _ _ _ _ => trivial) hg trivial
    have htotal : total τ.lamports < 2 ^ 64 := by
      rw [hn.ok.spends.total_eq]
      exact hsup
    exact FillCall.steps_after_page hs hr hK (hin _ _ _ rfl).1 (reach_tidy hreach) htotal hn hg.1
      hne
  · obtain ⟨pre, x, rest, -, -, hfree, hlands⟩ := FillCall.lands_of_step hr hK hs
    refine hlands.data k fun heq => ?_
    rw [heq, cell_eq_free.mpr hfree] at hk
    cases hk

namespace Local

/-- The task as a call that can be executed. -/
def taskCall (sv : Sysvars) : Task → Call
  | .post f => ⟨sv, f.accounts, f.ix⟩
  | .page g => ⟨sv, g.accounts, g.ix⟩

theorem taskCall_event {a : Task} : (taskCall sv a).event = a.event sv := by
  cases a with
  | post f => rfl
  | page g => rfl

/-- A task that can be executed is a step, with plain signers. -/
theorem task_step {calls : List Call} {a : Task}
    (hplain : [taskCall sv a].all Call.isPlain = true)
    (h : (runCalls localnet [taskCall sv a] (afterCalls localnet calls σ)).isSome) :
    (program localnet).step (afterCalls localnet calls σ) (a.event sv)
        (afterCalls localnet [taskCall sv a] (afterCalls localnet calls σ)) ∧
      Within {k | Plain k} (afterCalls localnet calls σ) (a.event sv)
        (afterCalls localnet [taskCall sv a] (afterCalls localnet calls σ)) := by
  rw [← taskCall_event]
  exact ⟨step_afterCalls (ownKeys_of_plain hplain _ (List.mem_singleton_self _)) h,
    within_of_plain hplain _ (List.mem_singleton_self _) _ _⟩

/-- `alice` posts a longer message, into the third slot. -/
def alicePost : FillCall :=
  { secondPost with
    payer := signing alice
    slots := [(⟨0, 2⟩, passed (addressOf (.content channel 0 2)))]
    entry := passed (addressOf (.entry channel alice))
    post := { secondPost.post with body := List.replicate 100 97 } }

/-- `alice` adds a third page. -/
def thirdPage : PageCall where
  payer := signing alice
  current := passed (addressOf (.alloc channel 1))
  page := passed (addressOf (.alloc channel 2))
  thread := passed channel
  system := passed systemProgram
  extra := []
  seq := 1

theorem risen_steps : ∀ a ∈ [Task.post secondPost, .post alicePost],
    ∃ τ, (program localnet).step (afterCalls localnet inUse genesis) (a.event risenRent) τ ∧
      Within {k | Plain k} (afterCalls localnet inUse genesis) (a.event risenRent) τ := by
  simp only [List.mem_cons, List.not_mem_nil, or_false, forall_eq_or_imp, forall_eq]
  exact ⟨⟨_, task_step (by decide +kernel) (by decide +kernel)⟩,
    ⟨_, task_step (by decide +kernel) (by decide +kernel)⟩⟩

theorem posts_apart : [Task.post secondPost, .post alicePost].Pairwise Task.Apart := by
  refine List.pairwise_pair.mpr ⟨by decide +kernel, ?_, nofun⟩
  simp [Task.slots, FillCall.candidates, secondPost, secondSlot, alicePost]

theorem secondPost_open : secondPost.ShardsOpen (afterCalls localnet inUse genesis) :=
  ⟨by decide +kernel, by decide +kernel⟩

/-- Two tasks one after the other. -/
theorem runs_pair {calls : List Call} {a b : Task} (ha : [taskCall sv a].all Call.isPlain = true)
    (hb : [taskCall sv b].all Call.isPlain = true)
    (h : (runCalls localnet [taskCall sv a] (afterCalls localnet calls σ)).isSome)
    (h' : (runCalls localnet [taskCall sv b]
      (afterCalls localnet [taskCall sv a] (afterCalls localnet calls σ))).isSome) :
    (program localnet).Runs (afterCalls localnet calls σ) ([a, b].map (Task.event sv))
      (afterCalls localnet [taskCall sv b]
        (afterCalls localnet [taskCall sv a] (afterCalls localnet calls σ))) :=
  .cons (task_step ha h).1 (.cons (task_step hb h').1 .nil)

end Local

/-- At a risen rent the first of two posts pays what the shards are short of, and the order of the
    two shows in what `bob` is left with. -/
theorem any_order_risen :
    ((program localnet).Reach (Within {k | Plain k})
        (afterCalls localnet Local.inUse Local.genesis) ∧
      total (afterCalls localnet Local.inUse Local.genesis).lamports < 2 ^ 64 ∧
      [Task.post Local.secondPost, .post Local.alicePost].Pairwise Task.Apart ∧
      (∀ a ∈ [Task.post Local.secondPost, .post Local.alicePost], ∃ τ,
        (program localnet).step (afterCalls localnet Local.inUse Local.genesis)
          (a.event Local.risenRent) τ ∧
        Within {k | Plain k} (afterCalls localnet Local.inUse Local.genesis)
          (a.event Local.risenRent) τ) ∧
      ∀ a ∈ [Task.post Local.secondPost, .post Local.alicePost],
        a.ShardsOpen (afterCalls localnet Local.inUse Local.genesis)) ∧
    ∃ τ υ, (program localnet).Runs (afterCalls localnet Local.inUse Local.genesis)
        ([Task.post Local.secondPost, .post Local.alicePost].map (Task.event Local.risenRent)) τ ∧
      (program localnet).Runs (afterCalls localnet Local.inUse Local.genesis)
        ([Task.post Local.alicePost, .post Local.secondPost].map (Task.event Local.risenRent)) υ ∧
      τ.lamports Local.bob ≠ υ.lamports Local.bob := by
  have hsup := Local.total_inUse
  refine ⟨⟨Local.inUse_reach, by omega, Local.posts_apart, Local.risen_steps, ?_⟩, _, _,
    Local.runs_pair (by decide +kernel) (by decide +kernel) (by decide +kernel) (by decide +kernel),
    Local.runs_pair (by decide +kernel) (by decide +kernel) (by decide +kernel) (by decide +kernel),
    by decide +kernel⟩
  simp only [List.mem_cons, List.not_mem_nil, or_false, forall_eq_or_imp, forall_eq]
  exact ⟨Local.secondPost_open, Local.secondPost_open⟩

/-- `bob`'s second post and `alice`'s third page, either first: the same state. -/
theorem any_order_page :
    ∃ τ, (program localnet).Runs (afterCalls localnet Local.inUse Local.genesis)
        ([Task.post Local.secondPost, .page Local.thirdPage].map (Task.event Local.sysvars)) τ ∧
      (program localnet).Runs (afterCalls localnet Local.inUse Local.genesis)
        ([Task.page Local.thirdPage, .post Local.secondPost].map (Task.event Local.sysvars)) τ := by
  have hsup := Local.total_inUse
  have hsteps : ∀ a ∈ [Task.post Local.secondPost, .page Local.thirdPage], ∃ τ,
      (program localnet).step (afterCalls localnet Local.inUse Local.genesis)
        (a.event Local.sysvars) τ ∧
      Within {k | Plain k} (afterCalls localnet Local.inUse Local.genesis)
        (a.event Local.sysvars) τ := by
    simp only [List.mem_cons, List.not_mem_nil, or_false, forall_eq_or_imp, forall_eq]
    exact ⟨⟨_, Local.task_step (by decide +kernel) (by decide +kernel)⟩,
      ⟨_, Local.task_step (by decide +kernel) (by decide +kernel)⟩⟩
  have hap : [Task.post Local.secondPost, .page Local.thirdPage].Pairwise Task.Apart :=
    List.pairwise_pair.mpr ⟨by decide +kernel, fun _ _ => List.not_mem_nil, nofun⟩
  have hopen : ∀ a ∈ [Task.post Local.secondPost, .page Local.thirdPage],
      a.ShardsOpen (afterCalls localnet Local.inUse Local.genesis) := by
    simp only [List.mem_cons, List.not_mem_nil, or_false, forall_eq_or_imp, forall_eq]
    exact ⟨Local.secondPost_open, trivial⟩
  obtain ⟨hruns, hsame, -⟩ := any_order localnet_collisionFree Local.inUse_reach (by omega) hap
    hsteps hopen
  obtain ⟨τ, hτ⟩ := hruns _ (.refl _)
  obtain ⟨υ, hυ⟩ := hruns _ (.swap _ _ _)
  have hfix : (program localnet).Reach (FixedRent Local.sysvars.minimumBalance)
      (afterCalls localnet Local.inUse Local.genesis) :=
    Local.inUse_reach_steady.mono fun _ _ _ hok => hok.1
  obtain ⟨-, -, -, heq⟩ := hsame _ τ υ (.swap _ _ _) hτ hυ
  exact ⟨τ, hτ, (heq hfix).symm ▸ hυ⟩

end Txtcel
