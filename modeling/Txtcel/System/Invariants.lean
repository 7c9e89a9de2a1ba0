import Txtcel.System.Machine

/-!
# Invariants of the store

* `WellFormed`: every structure is at the address of its own fields, every thread it names is live,
  and an empty account of the program at one of its addresses is a fee shard. The loaders check only
  part of this; the rest is what the handlers keep true of every reachable store.
* `RatesBounded`: no rate of the settings is above `MAX_FEE_CUT_BPS`.
* `AdminsAuthors`: the admin of an access account is the author of its thread.

Each is kept by every act because `Change` lists what can happen to a cell, and threads never go.
-/

namespace Txtcel

open Lib

variable {R : Runtime} {sv : Sysvars} {accounts : List AccountInfo} {σ σ' : Ledger}
  {ix : ProgramInstruction} {Ok : Ledger → Event → Ledger → Prop}

/-! ## 1. Threads stay -/

/-- `t` is the address of a thread. -/
def Cells.Live (c : Cells) (t : Pubkey) : Prop := ∃ x, c t = .holds (.thread x)

/-- What an instruction can do to a thread: its fees and its page counters change, its author and
    title do not. -/
theorem Act.thread_after {t : Pubkey} {x : ThreadNode} (h : Act R sv accounts σ σ' ix)
    (hx : σ.cell R t = .holds (.thread x)) :
    ∃ y, σ'.cell R t = .holds (.thread y) ∧ y.author = x.author ∧ y.title = x.title := by
  rcases h.change t with he | hc
  · exact ⟨x, he.trans hx, rfl, rfl⟩
  · generalize σ'.cell R t = y at hc ⊢
    rw [hx] at hc
    cases hc with
    | growThread d h _ => exact ⟨_, rfl, rfl, rfl⟩
    | editThread d h =>
      refine ⟨_, rfl, ?_, h.change.title_eq⟩
      have := h.change
      generalize d.new = n at this
      cases this <;> rfl

theorem Act.live {t : Pubkey} (h : Act R sv accounts σ σ' ix) (ht : (σ.cell R).Live t) :
    (σ'.cell R).Live t := by
  obtain ⟨x, hx⟩ := ht
  obtain ⟨y, hy, -⟩ := h.thread_after hx
  exact ⟨y, hy⟩

theorem Outside.live {t : Pubkey} (h : Outside R σ σ') (ht : (σ.cell R).Live t) :
    (σ'.cell R).Live t := by
  obtain ⟨x, hx⟩ := ht
  exact ⟨x, h.holds_iff.mpr hx⟩

/-- Where a thread comes from. -/
theorem Act.thread_before {t : Pubkey} {x : ThreadNode} (h : Act R sv accounts σ σ' ix)
    (hx : σ'.cell R t = .holds (.thread x)) :
    (∃ y, σ.cell R t = .holds (.thread y)) ∨
      ∃ d : RootAlloc, d.Ok R sv accounts σ σ' ∧ d.thread = t ∧ x = d.node := by
  rcases h.change t with he | hc
  · exact .inl ⟨x, he.symm.trans hx⟩
  · rw [hx] at hc
    generalize σ.cell R t = y at hc ⊢
    cases hc with
    | createThread d h => exact .inr ⟨d, h, rfl, rfl⟩
    | growThread d h _ => exact .inl ⟨_, rfl⟩
    | editThread d h => exact .inl ⟨_, rfl⟩

/-- **Every live thread signed**: its key is among the keys that signed in the run. -/
theorem reach_live_within {K : Set Pubkey} {t : Pubkey} (h : (program R).Reach (Within K) σ)
    (ht : (σ.cell R).Live t) : t ∈ K := by
  refine reach_induction (I := fun σ => ∀ t, (σ.cell R).Live t → t ∈ K) ?_ ?_ ?_ h t ht
  · rintro σ h0 t ⟨x, hx⟩
    exact absurd (owner_of_cell_holds hx) (h0.unowned t)
  · rintro σ σ' sv accounts ix _ hI hact _ hsig t ⟨x, hx⟩
    rcases hact.thread_before hx with hold | ⟨d, hd, rfl, -⟩
    · exact hI t hold
    · exact (hsig _ _ _ rfl).1 _ hd.thread_signed
  · rintro σ σ' _ hI hout _ t ⟨x, hx⟩
    exact hI t ⟨x, hout.holds_iff.mp hx⟩

/-! ## 2. Every structure is in its place -/

/-- The address of a structure is the one derived from its own fields -- for a thread, one that no
    fields derive -- and the threads it names are live. -/
def Placed (R : Runtime) (c : Cells) (k : Pubkey) : AccountData → Prop
  | .content x => R.HasAddress (.content x.header.thread x.header.allocSeq x.header.slot) k ∧
      c.Live x.header.thread
  | .alloc x => R.HasAddress (.alloc x.thread x.allocSeq) k ∧ c.Live x.thread
  | .thread _ => ¬ R.IsPda k
  | .settings _ => R.HasAddress .settings k
  | .access x => R.HasAddress (.access x.thread) k ∧ c.Live x.thread
  | .likes x => ∃ t, R.HasAddress (.likes t x.allocSeq) k ∧ c.Live t
  | .entry x => R.HasAddress (.entry x.thread x.wallet) k ∧ c.Live x.thread
  | .registry x => R.HasAddress (.followRegistry x.owner) k ∧ ∀ t ∈ x.channels, c.Live t
  | .follower x => R.HasAddress (.followerShard x.thread x.shard) k ∧ c.Live x.thread

/-- A fee shard of the treasury or of a live thread. -/
def ShardPlaced (R : Runtime) (c : Cells) (k : Pubkey) : Prop :=
  ∃ p : Pda, p.IsFeeShard ∧ R.HasAddress p k ∧ ∀ t, p.thread? = some t → c.Live t

structure WellFormed (R : Runtime) (c : Cells) : Prop where
  placed : ∀ k a, c k = .holds a → Placed R c k a
  vault : ∀ k, R.IsPda k → c k = .vault → ShardPlaced R c k
  blank : ∀ k, c k = .blank → ¬ R.IsPda k
  junk : ∀ k, c k ≠ .junk

/-- Places depend on the live threads only. -/
theorem Placed.mono {c c' : Cells} {k : Pubkey} {a : AccountData} (h : Placed R c k a)
    (hl : ∀ t, c.Live t → c'.Live t) : Placed R c' k a := by
  cases a with
  | content x => exact ⟨h.1, hl _ h.2⟩
  | alloc x => exact ⟨h.1, hl _ h.2⟩
  | thread x => exact h
  | settings x => exact h
  | access x => exact ⟨h.1, hl _ h.2⟩
  | likes x =>
    obtain ⟨t, ha, ht⟩ := h
    exact ⟨t, ha, hl t ht⟩
  | entry x => exact ⟨h.1, hl _ h.2⟩
  | registry x => exact ⟨h.1, fun t ht => hl t (h.2 t ht)⟩
  | follower x => exact ⟨h.1, hl _ h.2⟩

theorem ShardPlaced.mono {c c' : Cells} {k : Pubkey} (h : ShardPlaced R c k)
    (hl : ∀ t, c.Live t → c'.Live t) : ShardPlaced R c' k := by
  obtain ⟨p, hp, ha, ht⟩ := h
  exact ⟨p, hp, ha, fun t h => hl t (ht t h)⟩

/-- What a removal leaves of a list was in it. -/
theorem mem_of_mem_swapRemove {α : Type} {xs : List α} {i : Nat} {x : α}
    (h : x ∈ swapRemove xs i) : x ∈ xs := by
  unfold swapRemove at h
  split at h
  · rename_i last hlast
    have hmem := List.mem_of_mem_dropLast h
    rcases List.mem_or_eq_of_mem_set hmem with hx | rfl
    · exact hx
    · exact List.mem_of_getLast? hlast
  · exact h

theorem Change.placed {k : Pubkey} {a : AccountData} {x : Cell} (hS : OwnKeys R accounts)
    (hw : WellFormed R (σ.cell R)) (hx : σ.cell R k = x)
    (h : Change R sv accounts σ σ' ix k x (.holds a)) (hl : ∀ t, (σ.cell R).Live t → (σ'.cell R).Live t)
    (hnew : ∀ d : RootAlloc, d.Ok R sv accounts σ σ' → (σ'.cell R).Live d.thread) :
    Placed R (σ'.cell R) k a := by
  cases h with
  | initSettings d h => exact h.addr
  | editSettings d h => exact h.addr
  | createThread d h => exact hS _ h.thread_signed
  | createRoot d h => exact ⟨h.alloc_addr, hnew d h⟩
  | createPage d h _ =>
    have ht := h.thread_holds.cell h.thread_tag
    exact ⟨h.page_addr, hl _ ⟨_, ht⟩⟩
  | growThread d h _ => exact hw.placed _ _ hx
  | editThread d h => exact hw.placed _ _ hx
  | createAccess d h =>
    have ht := h.thread_holds.cell h.thread_tag
    exact ⟨h.access_addr, hl _ ⟨_, ht⟩⟩
  | editAccess d h =>
    obtain ⟨ha, ht⟩ := hw.placed _ _ hx
    have hth : d.new.thread = d.old.thread := by
      have := h.change
      generalize d.new = n at this ⊢
      cases this <;> rfl
    show R.HasAddress (.access d.new.thread) _ ∧ _
    rw [hth]
    exact ⟨ha, hl _ ht⟩
  | createEntry d h _ _ =>
    have ha := h.access_holds.cell h.access_tag
    exact ⟨h.entry_addr, hl _ (hw.placed _ _ ha).2⟩
  | flipEntry d h s _ _ => exact (hw.placed _ _ hx).mono hl
  | countSet d h _ => exact (hw.placed _ _ hx).mono hl
  | countRemove d h _ => exact (hw.placed _ _ hx).mono hl
  | requestEntry d h _ =>
    have ht := h.thread_holds.cell h.thread_tag
    exact ⟨h.entry_addr, hl _ ⟨_, ht⟩⟩
  | countRequest d h _ => exact (hw.placed _ _ hx).mono hl
  | createContent d h _ _ =>
    have ht := h.thread_holds.cell h.thread_tag
    exact ⟨h.content_addr, hl _ ⟨_, ht⟩⟩
  | appendContent d h _ => exact (hw.placed _ _ hx).mono hl
  | createLikes d h hp =>
    have ht := h.thread_holds.cell h.thread_tag
    refine ⟨d.thread, ?_, hl _ ⟨_, ht⟩⟩
    have hseq : d.new.allocSeq = d.allocSeq := by
      simp [LikeContent.new, hp, freshLikes, AllocLikes.bump]
    rw [hseq]
    exact h.likes_addr
  | bumpLikes d h l hp =>
    obtain ⟨t, ha, ht⟩ := hw.placed _ _ hx
    refine ⟨t, ?_, hl _ ht⟩
    have hseq : d.new.allocSeq = l.allocSeq := by
      simp [LikeContent.new, hp, AllocLikes.bump]
    rw [hseq]
    exact ha
  | resetLikes d h r hr =>
    obtain ⟨t, ha, ht⟩ := hw.placed _ _ hx
    exact ⟨t, ha, hl _ ht⟩
  | createRegistry d h hp =>
    have ht := h.thread_holds.cell h.thread_tag
    have hold : d.old = emptyRegistry d.user := by simp [Subscribe.old, hp]
    refine ⟨?_, fun t hmem => ?_⟩
    · show R.HasAddress (.followRegistry d.old.owner) _
      rw [hold]
      exact h.registry_addr
    · simp only [Subscribe.new, hold, emptyRegistry, List.nil_append, List.mem_singleton] at hmem
      subst hmem
      exact hl _ ⟨_, ht⟩
  | growRegistry d h r hp =>
    have ht := h.thread_holds.cell h.thread_tag
    obtain ⟨ha, hch⟩ := hw.placed _ _ hx
    have hold : d.old = r := by simp [Subscribe.old, hp]
    refine ⟨?_, fun t hmem => ?_⟩
    · show R.HasAddress (.followRegistry d.old.owner) _
      rw [hold]
      exact ha
    · simp only [Subscribe.new, hold, List.mem_append, List.mem_singleton] at hmem
      rcases hmem with hmem | rfl
      · exact hl _ (hch t hmem)
      · exact hl _ ⟨_, ht⟩
  | createFollower d h _ =>
    have ht := h.thread_holds.cell h.thread_tag
    exact ⟨h.shard_addr, hl _ ⟨_, ht⟩⟩
  | bumpFollower d h s _ =>
    have ht := h.thread_holds.cell h.thread_tag
    exact ⟨h.shard_addr, hl _ ⟨_, ht⟩⟩
  | shrinkRegistry d h =>
    obtain ⟨ha, hch⟩ := hw.placed _ _ hx
    exact ⟨ha, fun t hmem => hl _ (hch t (mem_of_mem_swapRemove hmem))⟩
  | dropFollower d h => exact (hw.placed _ _ hx).mono hl

theorem RootAlloc.Ok.live {d : RootAlloc} (h : d.Ok R sv accounts σ σ') :
    (σ'.cell R).Live d.thread := by
  refine ⟨d.node, ?_⟩
  rw [h.cells, Function.update_of_ne h.alloc_ne.symm, Function.update_self]

theorem Act.wellFormed (h : Act R sv accounts σ σ' ix) (hS : OwnKeys R accounts)
    (hw : WellFormed R (σ.cell R)) : WellFormed R (σ'.cell R) where
  placed k a hk := by
    rcases h.change k with he | hc
    · exact (hw.placed k a (he.symm.trans hk)).mono fun t => h.live
    · rw [hk] at hc
      exact hc.placed hS hw rfl (fun t => h.live) fun d hd => hd.live
  vault k hpda hk := by
    rcases h.change k with he | hc
    · exact (hw.vault k hpda (he.symm.trans hk)).mono fun t => h.live
    · rw [hk] at hc
      generalize σ.cell R k = x at hc
      cases hc with
      | openShard p hp ha ht => exact ⟨p, hp, ha, fun t htp => h.live (ht t htp)⟩
  blank k hk := by
    rcases h.change k with he | hc
    · exact hw.blank k (he.symm.trans hk)
    · rw [hk] at hc
      generalize σ.cell R k = x at hc
      cases hc
  junk := h.tidy hw.junk

theorem Outside.wellFormed (h : Outside R σ σ') (hT : σ'.Tidy R) (hw : WellFormed R (σ.cell R)) :
    WellFormed R (σ'.cell R) where
  placed k a hk := (hw.placed k a (h.holds_iff.mp hk)).mono fun t => h.live
  vault k hpda hk := (hw.vault k hpda ((h.vault_iff hpda).mp hk)).mono fun t => h.live
  blank k hk := by
    by_cases ho : σ.owner k = R.programId
    · exact hw.blank k ((h.cell_of_owner ho).symm.trans hk)
    · by_cases ho' : σ'.owner k = R.programId
      · exact (h.cell_created ho ho').1
      · rcases cell_of_ne_owner ho' with hc | hc
        · exact nomatch hc.symm.trans hk
        · exact nomatch hc.symm.trans hk
  junk := hT

/-- A store in which the program owns nothing is well formed. -/
theorem wellFormed_init (h : ∀ k, σ.owner k ≠ R.programId) : WellFormed R (σ.cell R) := by
  have hnot : ∀ k, σ.cell R k = .free ∨ σ.cell R k = .foreign := fun k => cell_of_ne_owner (h k)
  refine ⟨fun k a hk => ?_, fun k _ hk => ?_, fun k hk => ?_, fun k hk => ?_⟩
  all_goals
    rcases hnot k with hc | hc
    · exact nomatch hc.symm.trans hk
    · exact nomatch hc.symm.trans hk

/-- **Every reachable store is well formed.** -/
theorem reach_wellFormed (h : (program R).Reach Ok σ) : WellFormed R (σ.cell R) := by
  refine h.invariant (I := fun σ => WellFormed R (σ.cell R)) ?_ ?_
  · intro σ h0
    exact wellFormed_init h0.unowned
  · intro σ e σ' hr hw hs hok
    cases e with
    | call sv accounts ix => exact (reach_act hr hs).wellFormed hs.1 hw
    | outside => exact Outside.wellFormed hs (reach_tidy (.step hr hs hok)) hw

/-! ## 3. Rates and admins -/

/-- Every rate is at most `MAX_FEE_CUT_BPS`. -/
structure ProgramSettings.Bounded (s : ProgramSettings) : Prop where
  baseFee : s.baseFeeBps ≤ maxFeeCutBps
  authorFeeCut : s.authorFeeCutBps ≤ maxFeeCutBps
  entryCut : s.entryCutBps ≤ maxFeeCutBps
  likeCut : s.likeCutBps ≤ maxFeeCutBps

/-- The rates a program starts with are bounded. -/
theorem initialSettings_bounded (a t : Pubkey) : (initialSettings a t).Bounded := by
  have h : (1000 : UInt32) ≤ maxFeeCutBps := by decide
  exact ⟨h, h, h, h⟩

theorem SettingsChange.bounded {s s' : ProgramSettings} (h : SettingsChange s s')
    (hb : s.Bounded) : s'.Bounded := by
  cases h with
  | admin k => exact ⟨hb.baseFee, hb.authorFeeCut, hb.entryCut, hb.likeCut⟩
  | treasury k => exact ⟨hb.baseFee, hb.authorFeeCut, hb.entryCut, hb.likeCut⟩
  | baseFee h => exact ⟨h, hb.authorFeeCut, hb.entryCut, hb.likeCut⟩
  | authorFeeCut h => exact ⟨hb.baseFee, h, hb.entryCut, hb.likeCut⟩
  | entryCut h => exact ⟨hb.baseFee, hb.authorFeeCut, h, hb.likeCut⟩
  | likeCut h => exact ⟨hb.baseFee, hb.authorFeeCut, hb.entryCut, h⟩

/-- **No reachable settings account has a rate above the bound.** -/
theorem reach_bounded {k : Pubkey} {s : ProgramSettings} (h : (program R).Reach Ok σ)
    (hk : σ.cell R k = .holds (.settings s)) : s.Bounded := by
  refine reach_induction (I := fun σ => ∀ k s, σ.cell R k = .holds (.settings s) → s.Bounded)
    ?_ ?_ ?_ h k s hk
  · intro σ h0 k s hk
    exact absurd (owner_of_cell_holds hk) (h0.unowned k)
  · intro σ σ' sv accounts ix _ hI hact _ _ k s hk
    rcases hact.change k with he | hc
    · exact hI k s (he.symm.trans hk)
    · rw [hk] at hc
      generalize hx : σ.cell R k = x at hc
      cases hc with
      | initSettings d h => exact initialSettings_bounded _ _
      | editSettings d h => exact h.change.bounded (hI _ _ hx)
  · intro σ σ' _ hI hout _ k s hk
    exact hI k s (hout.holds_iff.mp hk)

/-- **The admin of an access account is the author of its thread**, in every reachable store. -/
theorem reach_admin {k : Pubkey} {a : ThreadAccess} (h : (program R).Reach Ok σ)
    (hk : σ.cell R k = .holds (.access a)) :
    ∃ x, σ.cell R a.thread = .holds (.thread x) ∧ x.author = a.admin := by
  refine reach_induction (I := fun σ => ∀ k a, σ.cell R k = .holds (.access a) →
    ∃ x, σ.cell R a.thread = .holds (.thread x) ∧ x.author = a.admin) ?_ ?_ ?_ h k a hk
  · intro σ h0 k a hk
    exact absurd (owner_of_cell_holds hk) (h0.unowned k)
  · intro σ σ' sv accounts ix _ hI hact _ _ k a hk
    -- the author survives every act
    have hkeep : ∀ t w, (∃ x, σ.cell R t = .holds (.thread x) ∧ x.author = w) →
        ∃ x, σ'.cell R t = .holds (.thread x) ∧ x.author = w := by
      rintro t w ⟨x, hx, rfl⟩
      obtain ⟨y, hy, ha, -⟩ := hact.thread_after hx
      exact ⟨y, hy, ha⟩
    rcases hact.change k with he | hc
    · exact hkeep _ _ (hI k a (he.symm.trans hk))
    · rw [hk] at hc
      generalize hx : σ.cell R k = x at hc
      cases hc with
      | createAccess d h =>
        have ht := h.thread_holds.cell h.thread_tag
        exact hkeep _ _ ⟨_, ht, h.author⟩
      | editAccess d h =>
        have hsame : d.new.thread = d.old.thread ∧ d.new.admin = d.old.admin := by
          have := h.change
          generalize d.new = n at this ⊢
          cases this <;> exact ⟨rfl, rfl⟩
        rw [hsame.1, hsame.2]
        exact hkeep _ _ (hI _ _ hx)
      | countSet d h _ => exact hkeep d.old.thread d.old.admin (hI _ _ hx)
      | countRemove d h _ => exact hkeep d.old.thread d.old.admin (hI _ _ hx)
      | countRequest d h _ => exact hkeep d.old.thread d.old.admin (hI _ _ hx)
  · intro σ σ' _ hI hout _ k a hk
    obtain ⟨x, hx, ha⟩ := hI k a (hout.holds_iff.mp hk)
    exact ⟨x, hout.holds_iff.mpr hx, ha⟩

end Txtcel
