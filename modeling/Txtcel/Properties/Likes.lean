import Txtcel.Lib.Since
import Txtcel.Properties.Messages

/-!
# The like counters

The counter of a slot is in the likes account of its page, created by the first like of the page
and shared by the slots. A like adds one to the counter of its slot, up to the largest `u32`; a
close sets it back where the closer passed the likes account, and leaves it where not.

* `Act.likesAt`: the counter of one slot over one act;
* `ContentStep`: when the message of the slot comes and goes;
* `like_counters`: so the counter is the number of likes since the last close that was given the
  likes account; and where every close of the message address was, or had no likes to leave behind
  (`ClosesClean`), it is the number of likes since the message was created;
* `likes_inherited`: any other close leaves its likes to the next message of the slot.
-/

namespace Txtcel

open Lib Function

variable {R : Runtime} {sv : Sysvars} {accounts : List AccountInfo} {σ σ' : Ledger}
  {ix : ProgramInstruction} {K : Set Pubkey} {k l t : Pubkey} {seq : UInt32} {slot : UInt8}

/-! ## 1. Counters and events -/

/-- The counter of a slot that the cell keeps: `0` where there is none. -/
def Cell.likesAt (slot : UInt8) : Cell → Nat
  | .holds (.likes x) => (x.counts[slot.toNat]?.getD 0).toNat
  | _ => 0

namespace Event

/-- A like of the slot. -/
def likes (t : Pubkey) (seq : UInt32) (slot : UInt8) : Event → Bool
  | .call _ accounts (.likeContent s i _ _ _) =>
    decide ((keysOf accounts)[3]? = some t ∧ s = seq ∧ i = slot)
  | _ => false

/-- A close of the message account `k`. -/
def closes (k : Pubkey) : Event → Bool
  | .call _ accounts .closeAccount => decide ((keysOf accounts)[1]? = some k)
  | _ => false

/-- A close of `k` that was given the likes account. -/
def resets (k : Pubkey) : Event → Bool
  | .call _ accounts .closeAccount =>
    decide ((keysOf accounts)[1]? = some k) && ((keysOf accounts)[2]?).isSome
  | _ => false

end Event

/-- The step made the account `k`. -/
def creates (k : Pubkey) (x : Ledger × Event × Ledger) : Bool :=
  decide (x.1.Free k) && !decide (x.2.2.Free k)

/-- The counter with one like more. -/
theorem saturatingSucc32_toNat (n : UInt32) :
    (saturatingSucc32 n).toNat = min (n.toNat + 1) (2 ^ 32 - 1) := by
  rw [saturatingSucc32, UInt32.toNat_ofNat']
  omega

theorem likesAt_bump {x : AllocLikes} {i : Fin contentSlots} :
    Cell.likesAt slot (.holds (.likes (x.bump i))) =
      if i.val = slot.toNat then min (Cell.likesAt slot (.holds (.likes x)) + 1) (2 ^ 32 - 1)
      else Cell.likesAt slot (.holds (.likes x)) := by
  simp only [Cell.likesAt, AllocLikes.bump, Vector.getElem?_set]
  by_cases hi : i.val = slot.toNat
  · have hlt : slot.toNat < contentSlots := hi ▸ i.isLt
    simp only [hi, if_pos, hlt, Option.getD_some, Vector.getElem?_eq_getElem,
      saturatingSucc32_toNat, Fin.getElem_fin]
  · simp only [hi, if_false]

theorem likesAt_reset {x : AllocLikes} {i : Fin contentSlots} :
    Cell.likesAt slot (.holds (.likes (x.reset i))) =
      if i.val = slot.toNat then 0 else Cell.likesAt slot (.holds (.likes x)) := by
  simp only [Cell.likesAt, AllocLikes.reset, Vector.getElem?_set]
  by_cases hi : i.val = slot.toNat
  · simp [hi]
  · simp only [hi, if_false]

theorem likesAt_fresh : Cell.likesAt slot (.holds (.likes (freshLikes seq))) = 0 := by
  simp only [Cell.likesAt, freshLikes]
  by_cases hlt : slot.toNat < contentSlots
  · simp [hlt]
  · simp [Vector.getElem?_eq_none (Nat.le_of_not_lt hlt)]

/-! ## 2. One act -/

/-- Opening a shard moves no counter. -/
theorem likesAt_open (c : Cells) (s : Pubkey) :
    (c.open s k).likesAt slot = (c k).likesAt slot := by
  rcases c.open_apply s k with he | ⟨-, hf, hv⟩
  · rw [he]
  · rw [hf, hv]
    rfl

section Act

variable (hK : R.CollisionFree K) (hlive : ∀ t, (σ.cell R).Live t → t ∈ K) (ht : t ∈ K)
  (hl : R.HasAddress (.likes t seq) l)

include hK hlive ht hl

/-- What a like does to the counter of a slot. -/
theorem LikeContent.Ok.likesAt {d : LikeContent} {maxFee : UInt64} (h : d.Ok R sv accounts σ σ') :
    (σ'.cell R l).likesAt slot =
      if (Event.call sv accounts (.likeContent d.allocSeq d.slot d.treasuryIdx d.authorIdx
        maxFee)).likes t seq slot then min ((σ.cell R l).likesAt slot + 1) (2 ^ 32 - 1)
      else (σ.cell R l).likesAt slot := by
  have hthread : (keysOf accounts)[3]? = some d.thread := getElem?_of_take h.keys (by omega)
  have hdK : d.thread ∈ K := hlive _ ⟨_, h.thread_holds.cell h.thread_tag⟩
  have hevent : (Event.call sv accounts (.likeContent d.allocSeq d.slot d.treasuryIdx d.authorIdx
      maxFee)).likes t seq slot = true ↔ l = d.likes ∧ d.slot = slot := by
    simp only [Event.likes, hthread, Option.some.injEq, decide_eq_true_eq]
    constructor
    · rintro ⟨rfl, rfl, hs⟩
      exact ⟨hl.unique h.likes_addr, hs⟩
    · rintro ⟨rfl, hs⟩
      have hsame := address_inj hK (p := .likes t seq) (q := .likes d.thread d.allocSeq)
        (by simpa [Pda.keys] using ht) (by simpa [Pda.keys] using hdK) hl h.likes_addr
      cases hsame
      exact ⟨rfl, rfl, hs⟩
  have hbefore : Cell.likesAt slot (.holds (.likes (d.prev.getD (freshLikes d.allocSeq)))) =
      (σ.cell R d.likes).likesAt slot := by
    have hb := h.before
    cases hp : d.prev with
    | none =>
      simp only [LikeContent.Before, hp] at hb
      rw [cell_eq_free.mpr hb.1]
      exact likesAt_fresh
    | some x =>
      simp only [LikeContent.Before, hp] at hb
      have hx := hb.1.cell hb.2
      rw [hx]
      rfl
  by_cases hld : l = d.likes
  · subst hld
    rw [h.cells, update_self, LikeContent.new, likesAt_bump, hbefore, h.index_eq]
    simp only [hevent, true_and, UInt8.toNat_inj]
  · rw [h.cells, update_of_ne hld, likesAt_open, likesAt_open,
      if_neg fun he => hld (hevent.mp he).1]

/-- What a close does to the counter of a slot. -/
theorem CloseContent.Ok.likesAt {d : CloseContent} (hw : WellFormed R (σ.cell R))
    (hk : R.HasAddress (.content t seq slot) k) (h : d.Ok R accounts σ σ') :
    (σ'.cell R l).likesAt slot =
      if (Event.call sv accounts .closeAccount).resets k then 0 else (σ.cell R l).likesAt slot := by
  have hm := h.holds.cell h.tag
  have hdK : d.old.header.thread ∈ K := hlive _ (hw.placed _ _ hm).2
  have hcontent : (keysOf accounts)[1]? = some d.content := getElem?_of_take h.keys (by omega)
  have hne : l ≠ d.content := by
    rintro rfl
    have hsame := address_inj hK (p := .likes t seq) (by simpa [Pda.keys] using ht)
      (by simpa [Pda.keys] using hdK) hl h.addr
    cases hsame
  rw [h.cells, update_of_ne hne]
  by_cases hr : (Event.call sv accounts .closeAccount).resets k = true
  · rw [if_pos hr]
    simp only [Event.resets, hcontent, Option.some.injEq, Bool.and_eq_true,
      decide_eq_true_eq] at hr
    obtain ⟨rfl, hsome⟩ := hr
    obtain ⟨third, hthird⟩ := Option.isSome_iff_exists.mp hsome
    have hsame := address_inj hK (p := .content t seq slot) (by simpa [Pda.keys] using ht)
      (by simpa [Pda.keys] using hdK) hk h.addr
    simp only [Pda.content.injEq] at hsame
    obtain ⟨rfl, rfl, rfl⟩ := hsame
    obtain ⟨hta, hcase⟩ := h.third third hthird
    obtain rfl := hl.unique hta
    unfold CloseContent.clearedCells
    rcases hcase with hf | ⟨r, hr, rfl⟩
    · cases hreset : d.reset with
      | none =>
        simp only
        rw [cell_eq_free.mpr hf]
        rfl
      | some r =>
        have hok := h.reset r hreset
        obtain rfl := hl.unique hok.addr
        simp only [update_self, LikesReset.new, likesAt_reset, hok.index_eq, if_true]
    · have hok := h.reset r hr
      simp only [hr, update_self, LikesReset.new, likesAt_reset, hok.index_eq, if_true]
  · rw [if_neg hr]
    unfold CloseContent.clearedCells
    cases hreset : d.reset with
    | none => rfl
    | some r =>
      have hok := h.reset r hreset
      have hold := hok.holds.cell hok.tag
      by_cases hlr : l = r.likes
      · subst hlr
        have hsame := address_inj hK (p := .likes t seq) (by simpa [Pda.keys] using ht)
          (by simpa [Pda.keys] using hdK) hl hok.addr
        simp only [Pda.likes.injEq] at hsame
        obtain ⟨rfl, rfl⟩ := hsame
        have hother : r.index.val ≠ slot.toNat := by
          -- the reset of this very slot would have been given the likes account
          intro hi
          rw [hok.index_eq, UInt8.toNat_inj] at hi
          subst hi
          obtain rfl := hk.unique h.addr
          refine hr ?_
          simp only [Event.resets, hcontent, decide_true, Bool.true_and]
          by_contra hnone
          rw [Option.not_isSome_iff_eq_none] at hnone
          rw [h.unasked hnone] at hreset
          cases hreset
        simp only [update_self, LikesReset.new, likesAt_reset, if_neg hother, hold]
        rfl
      · simp only [update_of_ne hlr]

omit hK hlive ht hl in
/-- Every other change leaves the counters alone. -/
theorem Change.likesAt {x y : Cell} (h : Change R sv accounts σ σ' ix k x y)
    (hlike : ∀ s i ti ai fee, ix ≠ .likeContent s i ti ai fee) (hclose : ix ≠ .closeAccount) :
    y.likesAt slot = x.likesAt slot := by
  cases h with
  | createLikes d h hp hix => exact absurd hix (hlike _ _ _ _ _)
  | bumpLikes d h l hp hix => exact absurd hix (hlike _ _ _ _ _)
  | resetLikes d h r hr hix => exact absurd hix hclose
  | _ => rfl

/-- **The counter of a slot over one act.** -/
theorem Act.likesAt (h : Act R sv accounts σ σ' ix) (hw : WellFormed R (σ.cell R))
    (hk : R.HasAddress (.content t seq slot) k) :
    (σ'.cell R l).likesAt slot =
      if (Event.call sv accounts ix).resets k then 0
      else if (Event.call sv accounts ix).likes t seq slot then
        min ((σ.cell R l).likesAt slot + 1) (2 ^ 32 - 1)
      else (σ.cell R l).likesAt slot := by
  have hother (hlike : ∀ s i ti ai fee, ix ≠ .likeContent s i ti ai fee)
      (hclose : ix ≠ .closeAccount) :
      (σ'.cell R l).likesAt slot = (σ.cell R l).likesAt slot := by
    rcases h.change l with he | hc
    · rw [he]
    · exact hc.likesAt hlike hclose
  cases ix with
  | likeContent s i ti ai fee =>
    cases h with
    | likeContent d h => exact h.likesAt hK hlive ht hl
    | settingsEdit d h hix => exact hix.elim
    | threadEdit d h hix => exact hix.elim
    | accessEdit d h hix => exact hix.elim
    | setEntry d h hix => cases hix
    | removeEntry d h hix => cases hix
  | closeAccount =>
    cases h with
    | closeContent d h => exact h.likesAt hK hlive ht hl hw hk
    | settingsEdit d h hix => exact hix.elim
    | threadEdit d h hix => exact hix.elim
    | accessEdit d h hix => exact hix.elim
    | setEntry d h hix => cases hix
    | removeEntry d h hix => cases hix
  | _ => exact hother (by simp) (by simp)

end Act

/-! ## 3. The message of the slot -/

/-- The message account of a slot over one step: a like needs it, a close ends it, and nothing else
    does. -/
structure ContentStep (R : Runtime) (t : Pubkey) (seq : UInt32) (slot : UInt8) (k : Pubkey)
    (σ : Ledger) (e : Event) (σ' : Ledger) : Prop where
  liked : e.likes t seq slot = true → ¬ σ.Free k ∧ ¬ σ'.Free k
  closed : e.closes k = true → ¬ σ.Free k ∧ σ'.Free k
  ended : ¬ σ.Free k → σ'.Free k → e.closes k = true

theorem Event.closes_of_resets {e : Event} (h : e.resets k = true) : e.closes k = true := by
  unfold Event.resets at h
  split at h
  · exact (Bool.and_eq_true_iff.mp h).1
  · cases h

/-- A message is not freed but by its close. -/
theorem Change.closes {y : Cell} {x : ContentNode}
    (h : Change R sv accounts σ σ' ix k (.holds (.content x)) y) (hy : y = .free) :
    (Event.call sv accounts ix).closes k = true := by
  cases h with
  | appendContent d h _ => cases hy
  | closeContent d h hix =>
    subst hix
    exact decide_eq_true (getElem?_of_take h.keys (by omega))

/-- An instruction acts on the message account as `ContentStep` says. -/
theorem Act.contentStep (h : Act R sv accounts σ σ' ix)
    (hk : R.HasAddress (.content t seq slot) k)
    (hstored : ¬ σ.Free k → ∃ x, σ.cell R k = .holds (.content x)) :
    ContentStep R t seq slot k σ (.call sv accounts ix) σ' := by
  have hended : ¬ σ.Free k → σ'.Free k → (Event.call sv accounts ix).closes k = true := by
    intro hnf hf
    obtain ⟨x, hx⟩ := hstored hnf
    rcases h.change k with he | hc
    · exact absurd (cell_eq_free.mp (he.symm.trans (cell_eq_free.mpr hf))) hnf
    · rw [hx] at hc
      exact hc.closes (cell_eq_free.mpr hf)
  refine ⟨fun hl => ?_, fun hcl => ?_, hended⟩
  · cases ix with
    | likeContent s i ti ai fee =>
      cases h with
      | likeContent d h' =>
        have hthread : (keysOf accounts)[3]? = some d.thread := getElem?_of_take h'.keys (by omega)
        simp only [Event.likes, hthread, Option.some.injEq, decide_eq_true_eq] at hl
        obtain ⟨rfl, rfl, rfl⟩ := hl
        obtain rfl := hk.unique h'.content_addr
        have hnf : ¬ σ.Free d.content := fun hf =>
          R.programId_ne (h'.content_holds.owner.symm.trans hf.1)
        exact ⟨hnf, fun hf => absurd (hended hnf hf) (by simp [Event.closes])⟩
      | settingsEdit d h hix => exact hix.elim
      | threadEdit d h hix => exact hix.elim
      | accessEdit d h hix => exact hix.elim
      | setEntry d h hix => cases hix
      | removeEntry d h hix => cases hix
    | _ => cases hl
  · cases ix with
    | closeAccount => exact h.closed (of_decide_eq_true hcl)
    | _ => cases hcl

/-! ## 4. Every run -/

/-- The address of a message is free or holds a message. -/
theorem reach_content (hK : R.CollisionFree K) (h : (program R).Reach (Within K) σ)
    (ht : t ∈ K) (hk : R.HasAddress (.content t seq slot) k) (hnf : ¬ σ.Free k) :
    ∃ x, σ.cell R k = .holds (.content x) := by
  have hst := (reach_stored hK h hk (by simpa [Pda.keys] using ht)).resolve_left hnf
  generalize σ.cell R k = y at hst ⊢
  cases hst with
  | content x => exact ⟨x, rfl⟩

/-- **The counter of a slot, and its message, over one step.** -/
theorem step_likes {e : Event} (hK : R.CollisionFree K) (h : (program R).Reach (Within K) σ)
    (hs : (program R).step σ e σ') (ht : t ∈ K) (hk : R.HasAddress (.content t seq slot) k)
    (hl : R.HasAddress (.likes t seq) l) :
    ContentStep R t seq slot k σ e σ' ∧ (σ'.cell R l).likesAt slot =
      if e.resets k then 0
      else if e.likes t seq slot then min ((σ.cell R l).likesAt slot + 1) (2 ^ 32 - 1)
      else (σ.cell R l).likesAt slot := by
  cases e with
  | call sv accounts ix =>
    have hact := reach_act h hs
    exact ⟨hact.contentStep hk (reach_content hK h ht hk),
      hact.likesAt hK (fun _ => reach_live_within h) ht hl (reach_wellFormed h) hk⟩
  | outside =>
    have hfree {j : Pubkey} (hj : R.IsPda j) : σ'.Free j ↔ σ.Free j := by
      refine ⟨fun hf => ?_, hs.unclaimed j hj⟩
      refine (reach_pda h hj).resolve_right fun ho => ?_
      exact R.programId_ne ((hs.owner j ho).symm.trans hf.1)
    refine ⟨⟨fun hl => absurd hl (by simp [Event.likes]), fun hc => absurd hc (by simp [Event.closes]),
      fun hnf hf => absurd ((hfree hk.isPda).mp hf) hnf⟩, ?_⟩
    rcases reach_pda h hl.isPda with hf | ho
    · have hcell := cell_eq_free (R := R).mpr hf
      have hcell' := cell_eq_free (R := R).mpr ((hfree hl.isPda).mpr hf)
      rw [hcell, hcell']
      rfl
    · rw [Outside.cell_of_owner hs ho]
      rfl

/-- A step that closes the message at `k` leaves no likes behind: it is given the likes account, or
    it finds the counter of the slot at zero. -/
def ClosesClean (R : Runtime) (slot : UInt8) (k l : Pubkey) (x : Ledger × Event × Ledger) : Prop :=
  x.2.1.closes k = true → x.2.1.resets k = true ∨ (x.1.cell R l).likesAt slot = 0

/-- What a run says of the counter of the slot: the likes since the last close that was given the
    likes account; and, where no close of the message left likes behind, the likes since the message
    was created. -/
structure LikesCounted (R : Runtime) (t : Pubkey) (seq : UInt32) (slot : UInt8) (k l : Pubkey)
    (tr : List (Ledger × Event × Ledger)) (σ : Ledger) : Prop where
  sinceReset : (σ.cell R l).likesAt slot =
    min (countSince (fun x => x.2.1.likes t seq slot) (fun x => x.2.1.resets k) tr) (2 ^ 32 - 1)
  sinceCreated : (∀ x ∈ tr, ClosesClean R slot k l x) →
    (σ.cell R l).likesAt slot = if σ.Free k then 0 else
      min (countSince (fun x => x.2.1.likes t seq slot) (creates k) tr) (2 ^ 32 - 1)

/-- One step more. -/
theorem LikesCounted.snoc {tr : List (Ledger × Event × Ledger)} {e : Event}
    (h : LikesCounted R t seq slot k l tr σ) (hc : ContentStep R t seq slot k σ e σ')
    (hl : (σ'.cell R l).likesAt slot =
      if e.resets k then 0
      else if e.likes t seq slot then min ((σ.cell R l).likesAt slot + 1) (2 ^ 32 - 1)
      else (σ.cell R l).likesAt slot) :
    LikesCounted R t seq slot k l (tr ++ [(σ, e, σ')]) σ' := by
  refine ⟨?_, fun hall => ?_⟩
  · rw [countSince_snoc, hl, h.sinceReset]
    split
    · rfl
    · split
      · omega
      · rfl
  · have hbefore := h.sinceCreated fun x hx => hall x (List.mem_append_left _ hx)
    have hlast := hall (σ, e, σ') (List.mem_append_right _ (List.mem_singleton_self _))
    rw [countSince_snoc, hl, hbefore]
    by_cases hf : σ.Free k
    · -- nothing is liked or closed where there is no message
      have hnl : e.likes t seq slot = false := Bool.eq_false_iff.mpr fun h => (hc.liked h).1 hf
      have hnr : e.resets k = false :=
        Bool.eq_false_iff.mpr fun h => (hc.closed (Event.closes_of_resets h)).1 hf
      by_cases hf' : σ'.Free k <;> simp [creates, hf, hf', hnl, hnr]
    · by_cases hf' : σ'.Free k
      · -- the message was closed, and its likes with it
        rw [if_pos hf']
        rcases hlast (hc.ended hf hf') with hr | hzero
        · rw [if_pos hr]
        · have hnl : e.likes t seq slot = false := Bool.eq_false_iff.mpr fun h => (hc.liked h).2 hf'
          rw [← hbefore, hzero, hnl]
          simp
      · have hnr : e.resets k = false :=
          Bool.eq_false_iff.mpr fun h => hf' (hc.closed (Event.closes_of_resets h)).2
        simp only [creates, hf, hf', hnr, if_false, decide_false, Bool.false_and,
          Bool.false_eq_true]
        split
        · omega
        · rfl

/-- The likes since the message was created are the likes in the steps after the one that created
    it. -/
theorem LikesCounted.afterCreation {pre post : List (Ledger × Event × Ledger)}
    {x : Ledger × Event × Ledger} (h : LikesCounted R t seq slot k l (pre ++ x :: post) σ)
    (hclean : ∀ y ∈ pre ++ x :: post, ClosesClean R slot k l y) (hnf : ¬ σ.Free k)
    (hx : creates k x = true) (hpost : ∀ y ∈ post, creates k y = false) :
    (σ.cell R l).likesAt slot =
      min (post.countP fun y => y.2.1.likes t seq slot) (2 ^ 32 - 1) := by
  rw [h.sinceCreated hclean, if_neg hnf, countSince_split hx hpost]

theorem path_likesCounted {σ₀ : Ledger} {tr : List (Ledger × Event × Ledger)}
    (hK : R.CollisionFree K) (h0 : (program R).init σ₀)
    (hp : (program R).Path (Within K) σ₀ tr σ) (ht : t ∈ K)
    (hk : R.HasAddress (.content t seq slot) k) (hl : R.HasAddress (.likes t seq) l) :
    LikesCounted R t seq slot k l tr σ := by
  induction hp with
  | nil =>
    have hnone : (σ₀.cell R l).likesAt slot = 0 := by
      rcases cell_of_ne_owner (h0.unowned l) with hc | hc <;> rw [hc] <;> rfl
    refine ⟨by simp [hnone], fun _ => ?_⟩
    rw [hnone, if_pos (h0.unclaimed k hk.isPda)]
  | snoc hp hs _ ih =>
    obtain ⟨hc, hcount⟩ := step_likes hK (hp.reach (.init h0)) hs ht hk hl
    exact ih.snoc hc hcount

/-- **The counter of every live message.** Where every close of the message address was given the
    likes account or found the counter at zero, it is the number of likes of the slot since the
    message was created, up to the largest `u32`; in every run it is the number of likes since the
    last close of that address that was given the likes account; and no other like or close changes
    it. -/
theorem like_counters {σ₀ : Ledger} {tr : List (Ledger × Event × Ledger)} {m : ContentNode}
    (hK : R.CollisionFree K) (h0 : (program R).init σ₀)
    (hp : (program R).Path (Within K) σ₀ tr σ) (hm : σ.cell R k = .holds (.content m))
    (hl : R.HasAddress (.likes m.header.thread m.header.allocSeq) l) :
    (σ.cell R l).likesAt m.header.slot =
        min (countSince (fun x => x.2.1.likes m.header.thread m.header.allocSeq m.header.slot)
          (fun x => x.2.1.resets k) tr) (2 ^ 32 - 1) ∧
      ((∀ x ∈ tr, ClosesClean R m.header.slot k l x) →
        (σ.cell R l).likesAt m.header.slot =
          min (countSince (fun x => x.2.1.likes m.header.thread m.header.allocSeq m.header.slot)
            (creates k) tr) (2 ^ 32 - 1)) ∧
      ∀ x ∈ tr, x.2.1.likes m.header.thread m.header.allocSeq m.header.slot = false →
        x.2.1.resets k = false →
        (x.2.2.cell R l).likesAt m.header.slot = (x.1.cell R l).likesAt m.header.slot := by
  have hr := hp.reach (.init h0)
  obtain ⟨hk, hlive⟩ := (reach_wellFormed hr).placed _ _ hm
  have ht := reach_live_within hr hlive
  have hcount := path_likesCounted hK h0 hp ht hk hl
  refine ⟨hcount.sinceReset, fun hall => ?_, fun x hx hnl hnr => ?_⟩
  · have hnf : ¬ σ.Free k := fun hf => by
      rw [cell_eq_free.mpr hf] at hm
      cases hm
    rw [hcount.sinceCreated hall, if_neg hnf]
  · obtain ⟨hs, -, tr', hp'⟩ := hp.mem hx
    rw [(step_likes hK (hp'.reach (.init h0)) hs ht hk hl).2, hnr, hnl]
    rfl

/-! ## 5. A reused slot -/

namespace Local

/-- `bob` closes his message and leaves the likes account out. -/
def closeQuietly : Call := { closePost with accounts := closePost.accounts.take 2 }

/-- The channel in use, after that close. -/
def closedQuietly : List Call := inUse ++ [closeQuietly]

theorem closedQuietly_reach : ∃ tr, (program localnet).Path (Within {k | Plain k}) genesis tr
    (afterCalls localnet closedQuietly genesis) := by
  have hplain : closedQuietly.all Call.isPlain = true := by decide +kernel
  obtain ⟨tr, hp, -⟩ := path_afterCalls (ownKeys_of_plain hplain) (within_of_plain hplain)
    (show (runCalls localnet closedQuietly genesis).isSome by decide +kernel)
  exact ⟨tr, hp⟩

/-- The slot of the closed message is filled again. -/
theorem reuse_step : (program localnet).step (afterCalls localnet closedQuietly genesis)
    postBob.event (afterCalls localnet [postBob] (afterCalls localnet closedQuietly genesis)) :=
  step_afterCalls (ownKeys_of_plain (show [postBob].all Call.isPlain = true by decide +kernel) _
    (List.mem_singleton_self _)) (by decide +kernel)

/-- The channel in use, closed with the likes account and filled again. -/
def reopened : List Call := inUse ++ [closePost, postBob]

theorem reopened_path : ∃ tr, (program localnet).Path (Within {k | Plain k}) genesis tr
    (afterCalls localnet reopened genesis) ∧ tr.map (·.2.1) = reopened.map Call.event := by
  have hplain : reopened.all Call.isPlain = true := by decide +kernel
  exact path_afterCalls (ownKeys_of_plain hplain) (within_of_plain hplain) (by decide +kernel)

theorem reopened_resets : ∀ e ∈ reopened.map Call.event,
    e.closes (addressOf (.content channel 0 0)) = true →
      e.resets (addressOf (.content channel 0 0)) = true := by
  decide +kernel

end Local

/-- The message that the cell holds, with the slot it is in. -/
theorem message_of_slot {x : Cell} (t : Pubkey) (seq : UInt32) (slot : UInt8)
    (h : x.message?.map (fun m => (m.header.thread, m.header.allocSeq, m.header.slot)) =
      some (t, seq, slot)) :
    ∃ m, x = .holds (.content m) ∧ m.header.thread = t ∧ m.header.allocSeq = seq ∧
      m.header.slot = slot := by
  obtain ⟨m, hm, heq⟩ := Option.map_eq_some_iff.mp h
  simp only [Prod.mk.injEq] at heq
  exact ⟨m, Cell.message?_eq_some hm, heq⟩

/-- The counter of the channel in use, whose message was liked once; and of the same slot with a new
    message in it, after a close that was given the likes account. -/
theorem like_counters_inUse :
    (∃ (tr : List (Ledger × Event × Ledger)) (m : ContentNode),
      tr.map (·.2.1) = Local.inUse.map Call.event ∧
      ((afterCalls localnet Local.inUse Local.genesis).cell localnet
          (Local.addressOf (.likes Local.channel 0))).likesAt m.header.slot =
        min (countSince (fun x => x.2.1.likes m.header.thread m.header.allocSeq m.header.slot)
          (fun x => x.2.1.resets (Local.addressOf (.content Local.channel 0 0))) tr)
          (2 ^ 32 - 1)) ∧
    ∃ (tr : List (Ledger × Event × Ledger)) (m : ContentNode),
      tr.map (·.2.1) = Local.reopened.map Call.event ∧
      ((afterCalls localnet Local.reopened Local.genesis).cell localnet
          (Local.addressOf (.likes Local.channel 0))).likesAt m.header.slot =
        min (countSince (fun x => x.2.1.likes m.header.thread m.header.allocSeq m.header.slot)
          (creates (Local.addressOf (.content Local.channel 0 0))) tr) (2 ^ 32 - 1) := by
  constructor
  · obtain ⟨tr, hp, hev⟩ := Local.inUse_path fun c hc σ τ => (Local.inUse_steady c hc σ τ).2
    obtain ⟨m, hm, ht, hs, -⟩ := message_of_slot Local.channel 0 0
      (show (((afterCalls localnet Local.inUse Local.genesis).cell localnet
        (Local.addressOf (.content Local.channel 0 0))).message?.map _) = _ by decide +kernel)
    refine ⟨tr, m, hev, (like_counters localnet_collisionFree Local.genesis_init hp hm ?_).1⟩
    rw [ht, hs]
    exact Local.hasAddress_addressOf _
  · obtain ⟨tr, hp, hev⟩ := Local.reopened_path
    obtain ⟨m, hm, ht, hs, -⟩ := message_of_slot Local.channel 0 0
      (show (((afterCalls localnet Local.reopened Local.genesis).cell localnet
        (Local.addressOf (.content Local.channel 0 0))).message?.map _) = _ by decide +kernel)
    refine ⟨tr, m, hev,
      (like_counters localnet_collisionFree Local.genesis_init hp hm ?_).2.1 fun x hx hc => ?_⟩
    · rw [ht, hs]
      exact Local.hasAddress_addressOf _
    · -- the only close of the run passes the likes account
      have hmem : x.2.1 ∈ Local.reopened.map Call.event := by
        rw [← hev]
        exact List.mem_map_of_mem hx
      exact .inl (Local.reopened_resets _ hmem hc)

/-- **A reused slot may inherit likes**: where the closer left the likes account out, the counter of
    the next message does not start at zero. -/
theorem likes_inherited : ¬ ∀ (R : Runtime) (K : Set Pubkey) (σ₀ σ : Ledger)
    (tr : List (Ledger × Event × Ledger)) (k l : Pubkey) (m : ContentNode),
    R.CollisionFree K → (program R).init σ₀ → (program R).Path (Within K) σ₀ tr σ →
    σ.cell R k = .holds (.content m) →
    R.HasAddress (.likes m.header.thread m.header.allocSeq) l →
    (σ.cell R l).likesAt m.header.slot =
      min (countSince (fun x => x.2.1.likes m.header.thread m.header.allocSeq m.header.slot)
        (creates k) tr) (2 ^ 32 - 1) := by
  intro hclaim
  obtain ⟨tr, hp⟩ := Local.closedQuietly_reach
  have hwithin := within_of_plain (show [Local.postBob].all Call.isPlain = true by decide +kernel)
    Local.postBob (List.mem_singleton_self _) (afterCalls localnet Local.closedQuietly Local.genesis)
    (afterCalls localnet [Local.postBob] (afterCalls localnet Local.closedQuietly Local.genesis))
  obtain ⟨m, hm, ht, hs, hi⟩ := message_of_slot Local.channel 0 0
    (show (((afterCalls localnet [Local.postBob] (afterCalls localnet Local.closedQuietly
      Local.genesis)).cell localnet (Local.addressOf (.content Local.channel 0 0))).message?.map _)
        = _ by decide +kernel)
  have hcount := hclaim localnet {k | Plain k} Local.genesis _ _ _
    (Local.addressOf (.likes Local.channel 0)) m localnet_collisionFree Local.genesis_init
    (hp.snoc Local.reuse_step hwithin) hm
    (by rw [ht, hs]; exact Local.hasAddress_addressOf _)
  -- the last step created the message, so nothing liked it
  have hnew : creates (Local.addressOf (.content Local.channel 0 0))
      (afterCalls localnet Local.closedQuietly Local.genesis, Local.postBob.event,
        afterCalls localnet [Local.postBob]
          (afterCalls localnet Local.closedQuietly Local.genesis)) = true := by decide +kernel
  rw [countSince_snoc, if_pos hnew, hi] at hcount
  exact absurd hcount (by decide +kernel)

end Txtcel
