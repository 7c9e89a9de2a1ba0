import Txtcel.Lib.Counting
import Txtcel.System.AccessMap
import Txtcel.System.Deployment

/-!
# The access list refines a map

A thread's access list is a map from wallets to statuses, with a counter. The counter is cached in
one account and the map is spread over one account for each wallet; the acts keep the two in
agreement:

* `AclEffect`: what an instruction does to the map -- set one entry, remove one, let one wallet in,
  or nothing;
* `AclAgrees`: the counter is the number of allowed wallets, and every status is one of the three;
* `acl_refinement`: both, for every reachable store, as long as the counter has room.

The counter saturates at its width. `reach_few_of_short`: it has room in every run of fewer than
2 ^ 32 steps.
-/

namespace Txtcel

open Lib Function

variable {R : Runtime} {sv : Sysvars} {accounts : List AccountInfo} {σ σ' : Ledger}
  {ix : ProgramInstruction} {t : Pubkey}

/-! ## 1. What an instruction does to the map -/

/-- The instructions that change an access list. -/
def ProgramInstruction.EditsList (ix : ProgramInstruction) : Prop :=
  ix.addsTo ≠ none ∨ ix.removesFrom ≠ none ∨ ∃ ti ai, ix = .requestAccess ti ai

/-- The second account is the live access account of the thread. -/
def ActsOn (R : Runtime) (accounts : List AccountInfo) (c : Cells) (t : Pubkey) : Prop :=
  ∃ k a, (keysOf accounts)[1]? = some k ∧ R.HasAddress (.access t) k ∧
    c k = .holds (.access a) ∧ a.thread = t

/-- **What an instruction does to the access lists**, as maps from wallets to statuses. -/
inductive AclEffect (R : Runtime) (accounts : List AccountInfo) (ix : ProgramInstruction)
    (c c' : Cells) : Prop where
  /-- `AddTo*`: the wallet gets the status, whatever it had. -/
  | add (t w : Pubkey) (s : UInt8) (hix : ix.addsTo = some (w, s)) (ht : ActsOn R accounts c t)
      (hm : c'.standing R = update (c.standing R) t (update (c.standing R t) w (some s)))
  /-- `RemoveFrom*`: the wallet had exactly the status, and has none. -/
  | remove (t w : Pubkey) (s : UInt8) (hix : ix.removesFrom = some (w, s))
      (ht : ActsOn R accounts c t) (held : c.standing R t w = some s)
      (hm : c'.standing R = update (c.standing R) t (update (c.standing R t) w none))
  /-- `RequestAccess`: the signer had none, and is allowed. -/
  | request (t w : Pubkey) (ti : UInt16) (ai : UInt8) (hix : ix = .requestAccess ti ai)
      (ht : ActsOn R accounts c t) (hw : (keysOf accounts)[0]? = some w) (hs : w ∈ signers accounts)
      (absent : c.standing R t w = none)
      (hm : c'.standing R =
        update (c.standing R) t (update (c.standing R t) w (some accessAllowed)))
  /-- Any other instruction. -/
  | other (hix : ¬ ix.EditsList) (hm : c'.standing R = c.standing R)

/-- An instruction that edits no list changes no entry. -/
theorem Act.standing_of_not (h : Act R sv accounts σ σ' ix) (hix : ¬ ix.EditsList) :
    (σ'.cell R).standing R = (σ.cell R).standing R := by
  simp only [ProgramInstruction.EditsList, not_or, not_exists, ne_eq, not_not] at hix
  obtain ⟨hadd, hrem, hreq⟩ := hix
  funext t w
  refine lookup_congr fun k _ => ?_
  rcases h.change k with he | hc
  · rw [he]
  · generalize σ.cell R k = x at hc
    generalize σ'.cell R k = y at hc
    cases hc with
    | createEntry d _ _ hix => exact nomatch hadd.symm.trans hix
    | flipEntry d _ _ _ hix => exact nomatch hadd.symm.trans hix
    | removeEntry d _ hix => exact nomatch hrem.symm.trans hix
    | requestEntry d _ hix => exact absurd hix (hreq _ _)
    | _ => rfl

/-- An instruction that edits no list keeps every counter, and creates it at zero. -/
theorem Act.count_of_not (h : Act R sv accounts σ σ' ix) (hix : ¬ ix.EditsList) {a : ThreadAccess}
    (ha : (σ'.cell R).accessOf R t = some a) :
    (∃ b, (σ.cell R).accessOf R t = some b ∧ a.whitelistCount = b.whitelistCount) ∨
      ((σ.cell R).accessOf R t = none ∧ a.whitelistCount = 0) := by
  simp only [ProgramInstruction.EditsList, not_or, not_exists, ne_eq, not_not] at hix
  obtain ⟨hadd, hrem, hreq⟩ := hix
  obtain ⟨k, hk, hcell, hth⟩ := accessOf_eq_some.mp ha
  rw [accessOf_of_address hk]
  rcases h.change k with he | hc
  · exact .inl ⟨a, accessFor_eq_some.mpr ⟨he.symm.trans hcell, hth⟩, rfl⟩
  · rw [hcell] at hc
    generalize σ.cell R k = x at hc ⊢
    cases hc with
    | createAccess d h => exact .inr ⟨rfl, rfl⟩
    | editAccess d h =>
      have hchange := h.change
      generalize d.new = n at hchange hth
      cases hchange <;> exact .inl ⟨d.old, accessFor_eq_some.mpr ⟨rfl, hth⟩, rfl⟩
    | countSet d _ hix => exact nomatch hadd.symm.trans hix
    | countRemove d _ hix => exact nomatch hrem.symm.trans hix
    | countRequest d _ hix => exact absurd hix (hreq _ _)

theorem SetEntry.Ok.effect {d : SetEntry} (h : d.Ok R sv accounts σ σ')
    (hix : ix.addsTo = some (d.wallet, d.status)) :
    AclEffect R accounts ix (σ.cell R) (σ'.cell R) := by
  have ha := h.access_holds.cell h.access_tag
  exact .add d.old.thread d.wallet d.status hix
    ⟨d.access, d.old, getElem?_of_take (i := 1) h.keys (by omega), h.access_addr, ha, rfl⟩
    h.standing

theorem RemoveEntry.Ok.effect {d : RemoveEntry} (h : d.Ok R accounts σ σ')
    (hix : ix.removesFrom = some (d.wallet, d.status)) :
    AclEffect R accounts ix (σ.cell R) (σ'.cell R) := by
  have ha := h.access_holds.cell h.access_tag
  exact .remove d.old.thread d.wallet d.status hix
    ⟨d.access, d.old, getElem?_of_take (i := 1) h.keys (by omega), h.access_addr, ha, rfl⟩
    h.standing.1 h.standing.2

theorem RequestAccess.Ok.effect {d : RequestAccess} {ti : UInt16} {ai : UInt8}
    (h : d.Ok R sv accounts σ σ') :
    AclEffect R accounts (.requestAccess ti ai) (σ.cell R) (σ'.cell R) := by
  have ha := h.access_holds.cell h.access_tag
  exact .request d.thread d.payer ti ai rfl
    ⟨d.access, d.old, getElem?_of_take (i := 1) h.keys (by omega), h.access_addr, ha,
      h.access_thread⟩
    (getElem?_of_take (i := 0) h.keys (by omega)) h.signer h.standing.1 h.standing.2

/-- The setters of the other accounts edit no list. -/
theorem not_editsList (h : ix.EditsSettings ∨ ix.EditsThread ∨ ix.EditsAccess) :
    ¬ ix.EditsList := by
  simp only [ProgramInstruction.EditsList, not_or, not_exists, ne_eq, not_not]
  rcases h with h | h | h <;> cases ix <;> first
    | exact False.elim h
    | exact ⟨rfl, rfl, nofun⟩

/-- The acts, as far as the access lists go: one of the three, or an instruction that edits none. -/
theorem Act.list_cases (h : Act R sv accounts σ σ' ix) :
    (∃ d : SetEntry, d.Ok R sv accounts σ σ' ∧ ix.addsTo = some (d.wallet, d.status)) ∨
    (∃ d : RemoveEntry, d.Ok R accounts σ σ' ∧ ix.removesFrom = some (d.wallet, d.status)) ∨
    (∃ d : RequestAccess, d.Ok R sv accounts σ σ' ∧ ∃ ti ai, ix = .requestAccess ti ai) ∨
    ¬ ix.EditsList := by
  cases h with
  | setEntry d h hix => exact .inl ⟨d, h, hix⟩
  | removeEntry d h hix => exact .inr (.inl ⟨d, h, hix⟩)
  | requestAccess d h => exact .inr (.inr (.inl ⟨d, h, _, _, rfl⟩))
  | settingsEdit d h hix => exact .inr (.inr (.inr (not_editsList (.inl hix))))
  | threadEdit d h hix => exact .inr (.inr (.inr (not_editsList (.inr (.inl hix)))))
  | accessEdit d h hix => exact .inr (.inr (.inr (not_editsList (.inr (.inr hix)))))
  | _ =>
    refine .inr (.inr (.inr ?_))
    simp [ProgramInstruction.EditsList, ProgramInstruction.addsTo, ProgramInstruction.removesFrom]

theorem Act.aclEffect (h : Act R sv accounts σ σ' ix) :
    AclEffect R accounts ix (σ.cell R) (σ'.cell R) := by
  rcases h.list_cases with ⟨d, hd, hix⟩ | ⟨d, hd, hix⟩ | ⟨d, hd, ti, ai, rfl⟩ | hix
  · exact hd.effect hix
  · exact hd.effect hix
  · exact hd.effect
  · exact .other hix (h.standing_of_not hix)

/-! ## 2. The counter -/

/-- How many wallets are allowed. -/
noncomputable def allowedCount (R : Runtime) (σ : Ledger) (t : Pubkey) : Nat :=
  countOf ((σ.cell R).standing R t) (some accessAllowed)

/-- The step leaves the counter of the thread room. -/
def fewAllowed (R : Runtime) (t : Pubkey) (_ : Ledger) (_ : Event) (σ' : Ledger) : Prop :=
  allowedCount R σ' t < 2 ^ 32

/-- The counter of the thread is the number of allowed wallets, every status is one of the three,
    and there are entries only under an access account. -/
structure AclAgrees (R : Runtime) (σ : Ledger) (t : Pubkey) : Prop where
  counted : ∀ a, (σ.cell R).accessOf R t = some a → a.whitelistCount.toNat = allowedCount R σ t
  codes : ∀ w s, (σ.cell R).standing R t w = some s →
    s = accessAllowed ∨ s = accessDenied ∨ s = accessFeeExempt
  under : ∀ w s, (σ.cell R).standing R t w = some s → ∃ a, (σ.cell R).accessOf R t = some a

/-- The clamped 64-bit sum is the sum, where that fits. -/
theorem shiftedCount_toNat {c : UInt32} {d : Int} {n : Nat} (h : (c.toNat : Int) + d = n)
    (hn : n < 2 ^ 32) : (shiftedCount c d).toNat = n := by
  have hsum : (max 0 (saturatingAddI64 c.toNat d)).toNat = n := by
    unfold saturatingAddI64
    omega
  rw [shiftedCount, hsum, UInt32.toNat_ofNat']
  exact Nat.mod_eq_of_lt hn

/-- What one changed status does to the counter. -/
theorem shift_counted {a : ThreadAccess} {m : Pubkey → Option UInt8} {w : Pubkey}
    {new : Option UInt8} (h : a.whitelistCount.toNat = countOf m (some accessAllowed))
    (hroom : countOf (update m w new) (some accessAllowed) < 2 ^ 32) :
    (a.shift (countedBit new - countedBit (m w))).whitelistCount.toNat =
      countOf (update m w new) (some accessAllowed) := by
  have hu := countOf_update m w new (some accessAllowed)
  refine shiftedCount_toNat ?_ hroom
  simp only [countedBit, allowedBit, decide_eq_true_eq]
  split_ifs at hu ⊢ <;> omega

/-- No entries, no allowed wallets. -/
theorem countOf_eq_zero {m : Pubkey → Option UInt8} (h : ∀ w s, m w ≠ some s) :
    countOf m (some accessAllowed) = 0 := by
  by_contra hne
  obtain ⟨w, hw⟩ := countOf_pos.mp (Nat.pos_of_ne_zero hne)
  exact h w _ hw

theorem addsTo_code {w : Pubkey} {s : UInt8} (h : ix.addsTo = some (w, s)) :
    s = accessAllowed ∨ s = accessDenied ∨ s = accessFeeExempt := by
  cases ix <;> simp only [ProgramInstruction.addsTo, Option.some.injEq, Prod.mk.injEq,
    reduceCtorEq] at h
  · exact .inl h.2.symm
  · exact .inr (.inl h.2.symm)
  · exact .inr (.inr h.2.symm)

section Agrees

variable {m m' : Pubkey → Option UInt8} {w : Pubkey} {new : Option UInt8} {a : ThreadAccess}

/-- An entry of the thread is replaced, and its counter moved with it. -/
theorem AclAgrees.set (h : AclAgrees R σ t) (ha : (σ.cell R).accessOf R t = some a)
    (hm : (σ'.cell R).standing R t = update ((σ.cell R).standing R t) w new)
    (ha' : (σ'.cell R).accessOf R t =
      some (a.shift (countedBit new - countedBit ((σ.cell R).standing R t w))))
    (hcode : ∀ s, new = some s → s = accessAllowed ∨ s = accessDenied ∨ s = accessFeeExempt)
    (hroom : allowedCount R σ' t < 2 ^ 32) : AclAgrees R σ' t where
  counted b hb := by
    rw [ha'] at hb
    obtain rfl := Option.some.inj hb
    unfold allowedCount at hroom ⊢
    rw [hm] at hroom ⊢
    exact shift_counted (h.counted a ha) hroom
  codes w' s hs := by
    rw [hm] at hs
    by_cases hw : w' = w
    · subst hw
      rw [update_self] at hs
      exact hcode s hs
    · rw [update_of_ne hw] at hs
      exact h.codes w' s hs
  under _ _ _ := ⟨_, ha'⟩

/-- Another thread is not concerned. -/
theorem AclAgrees.of_eq (h : AclAgrees R σ t)
    (hm : (σ'.cell R).standing R t = (σ.cell R).standing R t)
    (ha : (σ'.cell R).accessOf R t = (σ.cell R).accessOf R t) : AclAgrees R σ' t where
  counted b hb := by
    rw [ha] at hb
    unfold allowedCount
    rw [hm]
    exact h.counted b hb
  codes w s hs := h.codes w s (hm ▸ hs)
  under w s hs := by
    rw [ha]
    exact h.under w s (hm ▸ hs)

end Agrees

/-- **One act keeps the agreement**, when it leaves the counter room. -/
theorem Act.aclAgrees (h : Act R sv accounts σ σ' ix) (hI : AclAgrees R σ t)
    (hroom : allowedCount R σ' t < 2 ^ 32) : AclAgrees R σ' t := by
  rcases h.list_cases with ⟨d, hd, hix⟩ | ⟨d, hd, hix⟩ | ⟨d, hd, ti, ai, rfl⟩ | hix
  · obtain ⟨ha, ha'⟩ := hd.accessOf
    by_cases ht : t = d.old.thread
    · subst ht
      refine hI.set ha (by rw [hd.standing, update_self]) ?_
        (fun s hs => Option.some.inj hs ▸ addsTo_code hix) hroom
      rw [ha', update_self, hd.prev_eq]
      rfl
    · exact hI.of_eq (by rw [hd.standing, update_of_ne ht]) (by rw [ha', update_of_ne ht])
  · obtain ⟨ha, ha'⟩ := hd.accessOf
    by_cases ht : t = d.old.thread
    · subst ht
      have hdelta : d.delta = countedBit none - countedBit (some d.status) := by
        simp [RemoveEntry.delta, countedBit, allowedBit]
      refine hI.set ha (by rw [hd.standing.2, update_self]) ?_ ?_ hroom
      · rw [ha', update_self, hd.standing.1, hdelta]
      · exact fun s hs => absurd hs.symm (Option.some_ne_none s)
    · exact hI.of_eq (by rw [hd.standing.2, update_of_ne ht]) (by rw [ha', update_of_ne ht])
  · obtain ⟨ha, ha'⟩ := hd.accessOf
    by_cases ht : t = d.thread
    · subst ht
      refine hI.set ha (by rw [hd.standing.2, update_self]) ?_
        (fun s hs => .inl (Option.some.inj hs).symm) hroom
      rw [ha', update_self, hd.standing.1]
      rfl
    · exact hI.of_eq (by rw [hd.standing.2, update_of_ne ht]) (by rw [ha', update_of_ne ht])
  · have hm := h.standing_of_not hix
    refine ⟨fun a ha => ?_, fun w s hs => hI.codes w s (hm ▸ hs), fun w s hs => ?_⟩
    · unfold allowedCount
      rw [hm]
      rcases h.count_of_not hix ha with ⟨b, hb, hcount⟩ | ⟨hnone, hzero⟩
      · rw [hcount]
        exact hI.counted b hb
      · -- a new access account: there was none, so there are no entries
        rw [hzero, countOf_eq_zero]
        · rfl
        · intro w s hs
          obtain ⟨a, ha⟩ := hI.under w s hs
          exact absurd (ha.symm.trans hnone) (Option.some_ne_none a)
    · obtain ⟨a, ha⟩ := hI.under w s (hm ▸ hs)
      obtain ⟨k, hk, hcell, hth⟩ := accessOf_eq_some.mp ha
      rcases h.change k with he | hc
      · exact ⟨a, accessOf_eq_some.mpr ⟨k, hk, he.trans hcell, hth⟩⟩
      · rw [hcell] at hc
        generalize hy : σ'.cell R k = y at hc
        cases hc with
        | editAccess d h =>
          refine ⟨d.new, accessOf_eq_some.mpr ⟨_, hk, hy, ?_⟩⟩
          have hchange := h.change
          generalize d.new = n at hchange
          cases hchange <;> exact hth
        | countSet d _ _ => exact ⟨_, accessOf_eq_some.mpr ⟨_, hk, hy, hth⟩⟩
        | countRemove d _ _ => exact ⟨_, accessOf_eq_some.mpr ⟨_, hk, hy, hth⟩⟩
        | countRequest d _ _ => exact ⟨_, accessOf_eq_some.mpr ⟨_, hk, hy, hth⟩⟩

/-! ## 3. Every reachable store -/

theorem entryFor_of_not_holds {x : Cell} (p : Pubkey × Pubkey) (hx : ∀ a, x ≠ .holds a) :
    x.entryFor p = none := by
  unfold Cell.entryFor
  split
  · exact absurd rfl (hx _)
  · rfl

theorem accessFor_of_not_holds {x : Cell} (t : Pubkey) (hx : ∀ a, x ≠ .holds a) :
    x.accessFor t = none := by
  unfold Cell.accessFor
  split
  · exact absurd rfl (hx _)
  · rfl

theorem Outside.standing (h : Outside R σ σ') :
    (σ'.cell R).standing R = (σ.cell R).standing R := by
  funext t w
  exact lookup_congr fun k _ => h.read_eq (fun _ => entryFor_of_not_holds _) k

theorem Outside.accessOf (h : Outside R σ σ') :
    (σ'.cell R).accessOf R = (σ.cell R).accessOf R := by
  funext t
  exact lookup_congr fun k _ => h.read_eq (fun _ => accessFor_of_not_holds _) k

/-- **The counter agrees with the entries** in every store reached with room for it. -/
theorem reach_aclAgrees (h : (program R).Reach (fewAllowed R t) σ) : AclAgrees R σ t := by
  refine reach_induction (I := fun σ => AclAgrees R σ t) ?_ ?_ ?_ h
  · intro σ h0
    have hno : ∀ w s, (σ.cell R).standing R t w ≠ some s := by
      intro w s hs
      obtain ⟨k, e, -, hk, -⟩ := standing_eq_some.mp hs
      exact h0.unowned k (owner_of_cell_holds hk)
    refine ⟨fun a ha => ?_, fun w s hs => absurd hs (hno w s), fun w s hs => absurd hs (hno w s)⟩
    obtain ⟨k, -, hk, -⟩ := accessOf_eq_some.mp ha
    exact absurd (owner_of_cell_holds hk) (h0.unowned k)
  · intro σ σ' sv accounts ix _ hI hact _ hroom
    exact hact.aclAgrees hI hroom
  · intro σ σ' _ hI hout _
    exact hI.of_eq (congrFun hout.standing t) (congrFun hout.accessOf t)

/-- **Main statement**: in every store reached while the counter of `t` had room, the counter is the
    number of allowed wallets and every status is one of the three codes; and every instruction that
    succeeds from there does to the access lists of all threads what `AclEffect` says. -/
theorem acl_refinement (h : (program R).Reach (fewAllowed R t) σ) :
    AclAgrees R σ t ∧
      ∀ sv accounts ix σ', (program R).step σ (.call sv accounts ix) σ' →
        AclEffect R accounts ix (σ.cell R) (σ'.cell R) :=
  ⟨reach_aclAgrees h, fun _ _ _ _ hs => (reach_act h hs).aclEffect⟩

/-! ## 4. Short runs have room -/

/-- An act lets in one wallet at most. -/
theorem AclEffect.allowedCount_le (h : AclEffect R accounts ix (σ.cell R) (σ'.cell R)) :
    allowedCount R σ' t ≤ allowedCount R σ t + 1 := by
  have hupd : ∀ t' w new, (σ'.cell R).standing R = update ((σ.cell R).standing R) t'
      (update ((σ.cell R).standing R t') w new) → allowedCount R σ' t ≤ allowedCount R σ t + 1 := by
    intro t' w new hm
    unfold allowedCount
    rw [hm]
    by_cases ht : t = t'
    · subst ht
      rw [update_self]
      have := countOf_update ((σ.cell R).standing R t) w new (some accessAllowed)
      split_ifs at this <;> omega
    · rw [update_of_ne ht]
      omega
  cases h with
  | add t' w s _ _ hm => exact hupd t' w _ hm
  | remove t' w s _ _ _ hm => exact hupd t' w _ hm
  | request t' w _ _ _ _ _ _ _ hm => exact hupd t' w _ hm
  | other _ hm =>
    unfold allowedCount
    rw [hm]
    omega

/-- **In fewer than 2 ^ 32 steps the counter never runs out.** -/
theorem reach_few_of_short {σ₀ : Ledger} {tr : List (Ledger × Event × Ledger)}
    (h0 : (program R).init σ₀) (h : (program R).Path anyStep σ₀ tr σ) (hlen : tr.length < 2 ^ 32) :
    (program R).Reach (fewAllowed R t) σ := by
  suffices hboth : (program R).Reach (fewAllowed R t) σ ∧ allowedCount R σ t ≤ tr.length from
    hboth.1
  induction h with
  | nil =>
    refine ⟨.init h0, ?_⟩
    rw [List.length_nil, Nat.le_zero]
    refine countOf_eq_zero fun w s hs => ?_
    obtain ⟨k, e, -, hk, -⟩ := standing_eq_some.mp hs
    exact h0.unowned k (owner_of_cell_holds hk)
  | snoc hp hs hok ih =>
    rename_i tr τ σ e
    rw [List.length_append, List.length_singleton] at hlen ⊢
    obtain ⟨hr, hle⟩ := ih (by omega)
    have hstep : allowedCount R σ t ≤ allowedCount R τ t + 1 := by
      cases e with
      | call sv accounts ix => exact (reach_act hr hs).aclEffect.allowedCount_le
      | outside =>
        unfold allowedCount
        rw [Outside.standing hs]
        omega
    exact ⟨.step hr hs (show allowedCount R σ t < _ by omega), by omega⟩

theorem history_few : (program localnet).Reach (fewAllowed localnet Local.channel)
    (afterCalls localnet Local.history Local.genesis) := by
  obtain ⟨tr, hp, htr⟩ := Local.history_path
    (show ∀ c ∈ Local.history, ∀ σ τ, anyStep σ c.event τ from fun _ _ _ _ => trivial)
  refine reach_few_of_short Local.genesis_init hp ?_
  have hlen := congrArg List.length htr
  rw [List.length_map, List.length_map] at hlen
  rw [hlen]
  decide

/-- The gated channel with one member: its counter is right, and the post of that member leaves the
    access lists alone. -/
theorem acl_refinement_local :
    AclAgrees localnet (afterCalls localnet Local.history Local.genesis) Local.channel ∧
      AclEffect localnet Local.postBob.accounts Local.postBob.ix
        ((afterCalls localnet Local.history Local.genesis).cell localnet)
        ((afterCalls localnet [Local.postBob]
          (afterCalls localnet Local.history Local.genesis)).cell localnet) :=
  ⟨(acl_refinement history_few).1, (acl_refinement history_few).2 _ _ _ _ Local.postBob_step⟩

end Txtcel
