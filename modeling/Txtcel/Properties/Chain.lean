import Txtcel.System.Deployment
import Txtcel.System.Invariants

/-!
# The page chain is dense

A thread records how many pages it has and the number of the last; the pages are accounts of their
own and carry no links. In every reachable store the two agree:

* `Chained`: the pages of a thread are exactly those up to its last, and no message of it is beyond;
* `ChainStep`: what one step can do to a chain -- nothing, or one page more by `PrepareAlloc` on the
  tail;
* `chain_dense`: both, for every reachable store and along every run.

A likes account does not store its thread. That its page exists is a statement about the address, so
it takes a hash without collisions over the live threads (`LikesChained`).
-/

namespace Txtcel

open Lib Function

variable {R : Runtime} {sv : Sysvars} {accounts : List AccountInfo} {σ σ' : Ledger}
  {ix : ProgramInstruction} {t k : Pubkey} {x : ThreadNode}

/-! ## 1. What an act does to threads, pages and messages -/

/-- Pages stay, as they are. -/
theorem Act.page_after (h : Act R sv accounts σ σ' ix) {a : AllocNode}
    (ha : σ.cell R k = .holds (.alloc a)) : σ'.cell R k = .holds (.alloc a) := by
  rcases h.change k with he | hc
  · exact he.trans ha
  · rw [ha] at hc
    generalize σ'.cell R k = y at hc
    cases hc

/-- Where a page comes from. -/
theorem Act.page_before (h : Act R sv accounts σ σ' ix) {a : AllocNode}
    (ha : σ'.cell R k = .holds (.alloc a)) :
    σ.cell R k = .holds (.alloc a) ∨
      (∃ d : RootAlloc, d.Ok R sv accounts σ σ' ∧ a = d.page) ∨
      ∃ d : NextAlloc, d.Ok R sv accounts σ σ' ∧ a = d.node := by
  rcases h.change k with he | hc
  · exact .inl (he.symm.trans ha)
  · rw [ha] at hc
    generalize σ.cell R k = y at hc
    cases hc with
    | createRoot d h => exact .inr (.inl ⟨d, h, rfl⟩)
    | createPage d h _ => exact .inr (.inr ⟨d, h, rfl⟩)

/-- Where a message comes from: it was there with the same header, or is a new post. -/
theorem Act.content_before (h : Act R sv accounts σ σ' ix) {m : ContentNode}
    (hm : σ'.cell R k = .holds (.content m)) :
    (∃ m₀ : ContentNode, σ.cell R k = .holds (.content m₀) ∧ m₀.header = m.header) ∨
      ∃ d : FillSlot, d.Ok R sv accounts σ σ' ∧ m = d.message sv := by
  rcases h.change k with he | hc
  · exact .inl ⟨m, he.symm.trans hm, rfl⟩
  · rw [hm] at hc
    generalize σ.cell R k = y at hc ⊢
    cases hc with
    | createContent d h _ _ => exact .inr ⟨d, h, rfl⟩
    | appendContent d h _ => exact .inl ⟨d.old, rfl, rfl⟩

/-- What becomes of the counters of a thread: they stay, or `PrepareAlloc` grows the chain. -/
theorem Act.tail_after (h : Act R sv accounts σ σ' ix) (hx : σ.cell R t = .holds (.thread x)) :
    ∃ y, σ'.cell R t = .holds (.thread y) ∧
      ((y.lastAllocSeq = x.lastAllocSeq ∧ y.allocCount = x.allocCount) ∨
        ∃ d : NextAlloc, d.Ok R sv accounts σ σ' ∧ d.thread = t ∧ d.old = x ∧ y = d.new ∧
          ix = .prepareAlloc x.lastAllocSeq) := by
  rcases h.change t with he | hc
  · exact ⟨x, he.trans hx, .inl ⟨rfl, rfl⟩⟩
  · rw [hx] at hc
    generalize σ'.cell R t = y at hc ⊢
    cases hc with
    | growThread d h hix => exact ⟨_, rfl, .inr ⟨d, h, rfl, rfl, rfl, hix⟩⟩
    | editThread d h =>
      refine ⟨_, rfl, .inl ?_⟩
      have hch := h.change
      generalize d.new = n at hch
      cases hch <;> exact ⟨rfl, rfl⟩

/-- The tail never moves back. -/
theorem Act.tail_le (h : Act R sv accounts σ σ' ix) {y : ThreadNode}
    (hx : σ.cell R t = .holds (.thread x)) (hy : σ'.cell R t = .holds (.thread y)) :
    x.lastAllocSeq ≤ y.lastAllocSeq := by
  obtain ⟨z, hz, hcase⟩ := h.tail_after hx
  rw [hy] at hz
  cases hz
  rcases hcase with ⟨hl, -⟩ | ⟨d, hd, -, rfl, rfl, -⟩
  · rw [hl]
    exact UInt32.le_refl _
  · rw [UInt32.le_iff_toNat_le]
    show d.old.lastAllocSeq.toNat ≤ d.newSeq.toNat
    rw [hd.seq_eq]
    omega

/-! ## 2. The chain of a thread -/

/-- Page `n` of the thread is live. -/
def Cells.Page (c : Cells) (R : Runtime) (t : Pubkey) (n : UInt32) : Prop :=
  ∃ k a, R.HasAddress (.alloc t n) k ∧ c k = .holds (.alloc a) ∧ a.thread = t ∧ a.allocSeq = n

/-- The counters of the thread describe its pages, and its messages are on them. -/
structure Chained (R : Runtime) (c : Cells) (t : Pubkey) (x : ThreadNode) : Prop where
  count : x.allocCount.toNat = x.lastAllocSeq.toNat + 1
  pages : ∀ n, c.Page R t n ↔ n ≤ x.lastAllocSeq
  contents : ∀ k m, c k = .holds (.content m) → m.header.thread = t →
    m.header.allocSeq ≤ x.lastAllocSeq

theorem Act.page_mono (h : Act R sv accounts σ σ' ix) {n : UInt32} (hn : (σ.cell R).Page R t n) :
    (σ'.cell R).Page R t n := by
  obtain ⟨k, a, hk, ha, h1, h2⟩ := hn
  exact ⟨k, a, hk, h.page_after ha, h1, h2⟩

/-- A new thread has one page and no messages: nothing named it before. -/
theorem RootAlloc.Ok.chained {d : RootAlloc} (hd : d.Ok R sv accounts σ σ')
    (h : Act R sv accounts σ σ' ix) (hw : WellFormed R (σ.cell R)) :
    Chained R (σ'.cell R) d.thread d.node := by
  have hfree := cell_eq_free (R := R).mpr hd.thread_free
  have hdead : ¬ (σ.cell R).Live d.thread := by
    rintro ⟨x, hx⟩
    exact nomatch hfree.symm.trans hx
  have hle : ∀ n : UInt32, (0 : UInt32) ≤ n := fun n => UInt32.zero_le
  refine ⟨rfl, fun n => ⟨?_, fun hn => ?_⟩, fun k m hm ht => ?_⟩
  · rintro ⟨k, a, -, ha, hth, rfl⟩
    rcases h.page_before ha with ha | ⟨e, -, rfl⟩ | ⟨e, he, rfl⟩
    · exact absurd (hth ▸ (hw.placed k _ ha).2) hdead
    · exact hle _
    · have hlive := he.thread_holds.cell he.thread_tag
      exact absurd (hth ▸ ⟨_, hlive⟩) hdead
  · obtain rfl : n = 0 := UInt32.le_antisymm hn (hle n)
    refine ⟨d.alloc, d.page, hd.alloc_addr, ?_, rfl, rfl⟩
    rw [hd.cells, update_self]
  · rcases h.content_before hm with ⟨m₀, hm₀, hh⟩ | ⟨e, he, rfl⟩
    · have hlive := (hw.placed k _ hm₀).2
      rw [hh, ht] at hlive
      exact absurd hlive hdead
    · have hlive := he.thread_holds.cell he.thread_tag
      exact absurd (ht ▸ ⟨_, hlive⟩) hdead

/-- **One act keeps every chain dense.** -/
theorem Act.chained (h : Act R sv accounts σ σ' ix) (hw : WellFormed R (σ.cell R))
    (hI : ∀ t x, σ.cell R t = .holds (.thread x) → Chained R (σ.cell R) t x)
    (hx : σ'.cell R t = .holds (.thread x)) : Chained R (σ'.cell R) t x := by
  rcases h.thread_before hx with ⟨x₀, hx₀⟩ | ⟨d, hd, rfl, rfl⟩
  · obtain ⟨y, hy, hcase⟩ := h.tail_after hx₀
    obtain rfl : y = x := by
      rw [hx] at hy
      cases hy
      rfl
    have hC := hI t x₀ hx₀
    have hle := h.tail_le hx₀ hx
    -- a page or a message that is new is not beyond the new tail
    have hpage : ∀ d : NextAlloc, d.Ok R sv accounts σ σ' → d.thread = t →
        d.newSeq ≤ y.lastAllocSeq := by
      rintro d hd rfl
      have hgrown : (σ'.cell R) d.thread = .holds (.thread d.new) := by
        rw [hd.cells, update_self]
      rw [hx] at hgrown
      cases hgrown
      exact UInt32.le_refl _
    refine ⟨?_, fun n => ⟨?_, fun hn => ?_⟩, fun k m hm ht => ?_⟩
    · rcases hcase with ⟨hl, hc⟩ | ⟨d, hd, -, rfl, rfl, -⟩
      · rw [hl, hc]
        exact hC.count
      · show d.newCount.toNat = d.newSeq.toNat + 1
        rw [hd.seq_eq, hd.count_eq, hC.count]
    · rintro ⟨k, a, hk, ha, hth, rfl⟩
      rcases h.page_before ha with ha | ⟨d, hd, rfl⟩ | ⟨d, hd, rfl⟩
      · exact UInt32.le_trans ((hC.pages _).mp ⟨k, a, hk, ha, hth, rfl⟩) hle
      · exact UInt32.zero_le
      · exact hpage d hd hth
    · by_cases hold : n ≤ x₀.lastAllocSeq
      · exact h.page_mono ((hC.pages n).mpr hold)
      · rcases hcase with ⟨hl, -⟩ | ⟨d, hd, rfl, rfl, rfl, -⟩
        · exact absurd (hl ▸ hn) hold
        · -- the one page that is new
          obtain rfl : n = d.newSeq := by
            rw [UInt32.le_iff_toNat_le] at hn hold
            have hn' : n.toNat ≤ d.newSeq.toNat := hn
            have hseq := hd.seq_eq
            exact UInt32.toNat_inj.mp (by omega)
          refine ⟨d.page, d.node, hd.page_addr, ?_, rfl, rfl⟩
          rw [hd.cells, update_of_ne hd.page_ne.symm, update_self]
    · rcases h.content_before hm with ⟨m₀, hm₀, hh⟩ | ⟨d, hd, rfl⟩
      · have hseq := hC.contents k m₀ hm₀ (hh ▸ ht)
        rw [hh] at hseq
        exact UInt32.le_trans hseq hle
      · have hth : d.thread = t := ht
        subst hth
        have hnode := hd.thread_holds.cell hd.thread_tag
        rw [hx₀] at hnode
        cases hnode
        exact UInt32.le_trans hd.seq_le hle
  · exact hd.chained h hw

theorem Outside.chained (h : Outside R σ σ')
    (hI : ∀ t x, σ.cell R t = .holds (.thread x) → Chained R (σ.cell R) t x)
    (hx : σ'.cell R t = .holds (.thread x)) : Chained R (σ'.cell R) t x := by
  have hC := hI t x (h.holds_iff.mp hx)
  refine ⟨hC.count, fun n => Iff.trans ?_ (hC.pages n), fun k m hm => hC.contents k m
    (h.holds_iff.mp hm)⟩
  simp only [Cells.Page, h.holds_iff]

/-- **The chain of every thread of a reachable store is dense.** -/
theorem reach_chained (h : (program R).Reach anyStep σ)
    (hx : σ.cell R t = .holds (.thread x)) : Chained R (σ.cell R) t x := by
  refine reach_induction
    (I := fun σ => ∀ t x, σ.cell R t = .holds (.thread x) → Chained R (σ.cell R) t x)
    ?_ ?_ ?_ h t x hx
  · intro σ h0 t x hx
    exact absurd (owner_of_cell_holds hx) (h0.unowned t)
  · intro σ σ' sv accounts ix hr hI hact _ _ t x hx
    exact hact.chained (reach_wellFormed hr) hI hx
  · intro σ σ' _ hI hout _ t x hx
    exact hout.chained hI hx

/-! ## 3. Slots and likes -/

/-- **No message of a reachable store is in a slot that does not exist**, so the counter of its slot
    is found when it is closed. -/
theorem reach_slot (h : (program R).Reach anyStep σ) {m : ContentNode}
    (hm : σ.cell R k = .holds (.content m)) : m.header.slot.toNat < contentSlots := by
  refine reach_induction (I := fun σ => ∀ k m, σ.cell R k = .holds (.content m) →
    m.header.slot.toNat < contentSlots) ?_ ?_ ?_ h k m hm
  · intro σ h0 k m hm
    exact absurd (owner_of_cell_holds hm) (h0.unowned k)
  · intro σ σ' sv accounts ix _ hI hact _ _ k m hm
    rcases hact.content_before hm with ⟨m₀, hm₀, hh⟩ | ⟨d, hd, rfl⟩
    · rw [← hh]
      exact hI k m₀ hm₀
    · exact hd.slot_lt
  · intro σ σ' _ hI hout _ k m hm
    exact hI k m (hout.holds_iff.mp hm)

/-- Over a hash without collisions among the live threads, the likes account at the address of a
    thread counts a page the thread has. -/
def LikesChained (R : Runtime) (c : Cells) : Prop :=
  ∀ K, R.CollisionFree K → (∀ t, c.Live t → t ∈ K) →
    ∀ k l t x, c k = .holds (.likes l) → R.HasAddress (.likes t l.allocSeq) k →
      c t = .holds (.thread x) → l.allocSeq ≤ x.lastAllocSeq

/-- Where a likes account comes from. -/
theorem Act.likes_before (h : Act R sv accounts σ σ' ix) {l : AllocLikes}
    (hl : σ'.cell R k = .holds (.likes l)) :
    (∃ l₀ : AllocLikes, σ.cell R k = .holds (.likes l₀) ∧ l₀.allocSeq = l.allocSeq) ∨
      ∃ d : LikeContent, d.Ok R sv accounts σ σ' ∧ k = d.likes ∧ l.allocSeq = d.allocSeq := by
  rcases h.change k with he | hc
  · exact .inl ⟨l, he.symm.trans hl, rfl⟩
  · rw [hl] at hc
    generalize σ.cell R k = y at hc ⊢
    cases hc with
    | createLikes d h hp =>
      exact .inr ⟨d, h, rfl, by simp [LikeContent.new, hp, freshLikes, AllocLikes.bump]⟩
    | bumpLikes d h l₀ hp => exact .inl ⟨l₀, rfl, by simp [LikeContent.new, hp, AllocLikes.bump]⟩
    | resetLikes d h r hr => exact .inl ⟨r.old, rfl, rfl⟩

theorem Act.likesChained (h : Act R sv accounts σ σ' ix) (hw : WellFormed R (σ.cell R))
    (hC : ∀ t x, σ.cell R t = .holds (.thread x) → Chained R (σ.cell R) t x)
    (hI : LikesChained R (σ.cell R)) : LikesChained R (σ'.cell R) := by
  intro K hK hlive k l t x hl ha hx
  have hlive₀ : ∀ t, (σ.cell R).Live t → t ∈ K := fun t ht => hlive t (h.live ht)
  have ht : t ∈ K := hlive t ⟨x, hx⟩
  rcases h.likes_before hl with ⟨l₀, hl₀, hseq⟩ | ⟨d, hd, rfl, hseq⟩
  · -- the thread is the one the account was made for
    rw [← hseq] at ha ⊢
    obtain ⟨t₀, ha₀, x₀, hx₀⟩ := hw.placed k _ hl₀
    have hp := address_inj hK (p := .likes t l₀.allocSeq) (q := .likes t₀ l₀.allocSeq)
      (by simpa [Pda.keys] using ht) (by simpa [Pda.keys] using hlive₀ _ ⟨x₀, hx₀⟩) ha ha₀
    cases hp
    exact UInt32.le_trans (hI K hK hlive₀ k l₀ t x₀ hl₀ ha hx₀) (h.tail_le hx₀ hx)
  · -- a new account: the liked message is on the page
    rw [hseq] at ha ⊢
    have hnode := hd.thread_holds.cell hd.thread_tag
    have hmsg := hd.content_holds.cell hd.content_tag
    have hth := hlive₀ d.thread ⟨_, hnode⟩
    obtain ⟨hma, hmt⟩ := hw.placed _ _ hmsg
    have hp := address_inj hK (p := .likes t d.allocSeq) (q := .likes d.thread d.allocSeq)
      (by simpa [Pda.keys] using ht) (by simpa [Pda.keys] using hth) ha hd.likes_addr
    cases hp
    have hq := address_inj hK (by simpa [Pda.keys] using hlive₀ _ hmt)
      (by simpa [Pda.keys] using hth) hma hd.content_addr
    injection hq with hmthread hmseq _
    have hle := (hC _ _ hnode).contents _ _ hmsg hmthread
    rw [hmseq] at hle
    exact UInt32.le_trans hle (h.tail_le hnode hx)

theorem reach_likesChained (h : (program R).Reach anyStep σ) : LikesChained R (σ.cell R) := by
  refine reach_induction (I := fun σ => LikesChained R (σ.cell R)) ?_ ?_ ?_ h
  · intro σ h0 K _ _ k l t x hl
    exact absurd (owner_of_cell_holds hl) (h0.unowned k)
  · intro σ σ' sv accounts ix hr hI hact _ _
    exact hact.likesChained (reach_wellFormed hr) (fun t x => reach_chained hr) hI
  · intro σ σ' _ hI hout _ K hK hlive k l t x hl ha hx
    exact hI K hK (fun t ht => hlive t (hout.live ht)) k l t x (hout.holds_iff.mp hl) ha
      (hout.holds_iff.mp hx)

/-! ## 4. Along a run -/

/-- `PrepareAlloc` naming the tail of the thread. -/
def GrowsTail (R : Runtime) (c : Cells) (t : Pubkey) (tail : UInt32) (e : Event) : Prop :=
  ∃ sv accounts k a, e = .call sv accounts (.prepareAlloc tail) ∧
    (keysOf accounts)[1]? = some k ∧ (keysOf accounts)[3]? = some t ∧
      R.HasAddress (.alloc t tail) k ∧ c k = .holds (.alloc a) ∧ a.thread = t ∧ a.allocSeq = tail

/-- **What one step does to a chain**: its pages stay, and its counters stay or both grow by one. -/
structure ChainStep (R : Runtime) (t : Pubkey) (σ : Ledger) (e : Event) (σ' : Ledger) : Prop where
  tail : ∀ x, σ.cell R t = .holds (.thread x) → ∃ y, σ'.cell R t = .holds (.thread y) ∧
    ((y.lastAllocSeq = x.lastAllocSeq ∧ y.allocCount = x.allocCount) ∨
      (y.lastAllocSeq.toNat = x.lastAllocSeq.toNat + 1 ∧
        y.allocCount.toNat = x.allocCount.toNat + 1 ∧
          GrowsTail R (σ.cell R) t x.lastAllocSeq e))
  pages : ∀ k a, σ.cell R k = .holds (.alloc a) → σ'.cell R k = .holds (.alloc a)

theorem Act.chainStep (h : Act R sv accounts σ σ' ix) :
    ChainStep R t σ (.call sv accounts ix) σ' where
  tail x hx := by
    obtain ⟨y, hy, hcase⟩ := h.tail_after hx
    refine ⟨y, hy, hcase.imp_right ?_⟩
    rintro ⟨d, hd, rfl, rfl, rfl, rfl⟩
    have hcur := hd.current_holds.cell rfl
    exact ⟨hd.seq_eq, hd.count_eq, sv, accounts, d.current, _, rfl,
      getElem?_of_take (i := 1) hd.keys (by omega), getElem?_of_take (i := 3) hd.keys (by omega),
      hd.current_addr, hcur, rfl, rfl⟩
  pages _ _ := h.page_after

theorem reach_chainStep (h : (program R).Reach anyStep σ) {e : Event}
    (hs : (program R).step σ e σ') : ChainStep R t σ e σ' := by
  cases e with
  | call sv accounts ix => exact (reach_act h hs).chainStep
  | outside =>
    refine ⟨fun x hx => ⟨x, Outside.holds_iff hs |>.mpr hx, .inl ⟨rfl, rfl⟩⟩, fun k a ha => ?_⟩
    exact Outside.holds_iff hs |>.mpr ha

/-- What a run of `n` steps does to a chain. -/
structure ChainRun (R : Runtime) (t : Pubkey) (n : Nat) (σ σ' : Ledger) : Prop where
  tail : ∀ x, σ.cell R t = .holds (.thread x) → ∃ y, σ'.cell R t = .holds (.thread y) ∧
    x.lastAllocSeq.toNat ≤ y.lastAllocSeq.toNat ∧
      y.lastAllocSeq.toNat ≤ x.lastAllocSeq.toNat + n
  pages : ∀ k a, σ.cell R k = .holds (.alloc a) → σ'.cell R k = .holds (.alloc a)

/-- **A run only extends a chain**, by at most one page in each step. -/
theorem path_chainRun {tr : List (Ledger × Event × Ledger)} (h : (program R).Reach anyStep σ)
    (hp : (program R).Path anyStep σ tr σ') : ChainRun R t tr.length σ σ' := by
  induction hp with
  | nil => exact ⟨fun x hx => ⟨x, hx, le_refl _, Nat.le_add_right _ _⟩, fun _ _ ha => ha⟩
  | snoc hp hs _ ih =>
    have hstep := reach_chainStep (t := t) (hp.reach h) hs
    refine ⟨fun x hx => ?_, fun k a ha => hstep.pages k a (ih.pages k a ha)⟩
    obtain ⟨y, hy, hle, hlen⟩ := ih.tail x hx
    obtain ⟨z, hz, hcase⟩ := hstep.tail y hy
    rw [List.length_append, List.length_singleton]
    refine ⟨z, hz, ?_⟩
    rcases hcase with ⟨hl, -⟩ | ⟨hl, -, -⟩
    · rw [hl]
      omega
    · omega

/-- **Main statement**: in every reachable store every chain is dense, its messages are in slots
    that exist and its likes on pages that exist; and every run from there only extends it, step by
    step through `PrepareAlloc` on the tail. -/
theorem chain_dense (h : (program R).Reach anyStep σ) :
    (∀ t x, σ.cell R t = .holds (.thread x) → Chained R (σ.cell R) t x) ∧
    (∀ k m, σ.cell R k = .holds (.content m) → m.header.slot.toNat < contentSlots) ∧
    LikesChained R (σ.cell R) ∧
    ∀ tr σ', (program R).Path anyStep σ tr σ' → ∀ t,
      ChainRun R t tr.length σ σ' ∧ ∀ s ∈ tr, ChainStep R t s.1 s.2.1 s.2.2 := by
  refine ⟨fun t x => reach_chained h, fun k m => reach_slot h, reach_likesChained h,
    fun tr σ' hp t => ⟨path_chainRun h hp, fun s hs => ?_⟩⟩
  obtain ⟨hstep, -, tr', hp'⟩ := hp.mem hs
  exact reach_chainStep (hp'.reach h) hstep

/-- The channel in use: its chain is dense, and its likes count a page it has. -/
theorem chain_dense_inUse :
    (∀ x, (afterCalls localnet Local.inUse Local.genesis).cell localnet Local.channel =
        .holds (.thread x) →
      Chained localnet ((afterCalls localnet Local.inUse Local.genesis).cell localnet)
        Local.channel x) ∧
    ∀ k l x, (afterCalls localnet Local.inUse Local.genesis).cell localnet k = .holds (.likes l) →
      localnet.HasAddress (.likes Local.channel l.allocSeq) k →
      (afterCalls localnet Local.inUse Local.genesis).cell localnet Local.channel =
        .holds (.thread x) → l.allocSeq ≤ x.lastAllocSeq := by
  have hreach := Local.inUse_reach
  obtain ⟨hchain, -, hlikes, -⟩ := chain_dense (hreach.mono fun _ _ _ _ => trivial)
  exact ⟨hchain _, fun k l x => hlikes _ localnet_collisionFree
    (fun t ht => reach_live_within hreach ht) k l _ x⟩

end Txtcel
