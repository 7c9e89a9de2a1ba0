import Txtcel.Spec.Content

/-!
# Only the access stage denies access

`fill_slot` reports `AccessDenied` in two places of its access stage and nowhere else: not one of
the checks, loaders, payments and writes around the stage raises that error (`avoids_*`). So where
the error is raised, the stage was reached, and found what `accessStage_denied` says.
-/

namespace Txtcel

open Lib Exec Borsh

/-- The error in question. -/
def denied : ProgramError := ProtocolError.accessDenied.toProgramError

section Avoids

variable {R : Runtime} {sv : Sysvars} {a b s : AccountInfo} {n m : Nat}

/-! ## 1. Reads, checks, payments -/

theorem avoids_lamportsOf : Avoids denied (lamportsOf a) :=
  avoids_bind avoids_get fun _ => avoids_pure _

theorem avoids_dataOf : Avoids denied (dataOf a) := avoids_bind avoids_get fun _ => avoids_pure _

theorem avoids_ownerOf : Avoids denied (ownerOf a) := avoids_bind avoids_get fun _ => avoids_pure _

theorem avoids_serializeInto {α : Type} [Borsh α] {x : α} : Avoids denied (serializeInto a x) :=
  avoids_bind avoids_dataOf fun _ => avoids_bind (avoids_orFail (by decide)) fun _ =>
    avoids_modify _

theorem avoids_nextAccountInfo {accounts : List AccountInfo} :
    Avoids denied (nextAccountInfo accounts) := by
  cases accounts with
  | nil => exact avoids_throw (by decide)
  | cons a rest => exact avoids_pure _

theorem avoids_isUninitialized : Avoids denied (isUninitialized a) :=
  avoids_bind avoids_ownerOf fun _ => avoids_bind avoids_dataOf fun _ => avoids_pure _

theorem avoids_assertOwnedBy {k : Pubkey} : Avoids denied (assertOwnedBy a k) :=
  avoids_bind avoids_ownerOf fun _ => avoids_require (by decide)

theorem avoids_assertPda {k : Pubkey} : Avoids denied (assertPda a k) := avoids_failIf (by decide)

theorem avoids_transfer {p q : Pubkey} : Avoids denied (SystemProgram.transfer p q n) :=
  avoids_bind avoids_get fun _ => avoids_bind (avoids_require (by decide)) fun _ =>
    avoids_bind (avoids_require (by decide)) fun _ => avoids_bind (avoids_require (by decide))
      fun _ => avoids_bind (avoids_require (by decide)) fun _ => avoids_modify _

theorem avoids_allocate {k : Pubkey} : Avoids denied (SystemProgram.allocate k n) :=
  avoids_bind avoids_get fun _ => avoids_bind (avoids_require (by decide)) fun _ => avoids_modify _

theorem avoids_assign {k o : Pubkey} : Avoids denied (SystemProgram.assign k o) :=
  avoids_bind avoids_get fun _ => avoids_bind (avoids_require (by decide)) fun _ => avoids_modify _

theorem avoids_invokeTransfer : Avoids denied (invokeTransfer a b n) :=
  avoids_bind (avoids_require (by decide)) fun _ => avoids_transfer

theorem avoids_invokeCreateAccount {o : Pubkey} {seeds : List (List Bytes)} :
    Avoids denied (invokeCreateAccount R a b n m o seeds) :=
  avoids_bind (avoids_require (by decide)) fun _ => avoids_bind avoids_get fun _ =>
    avoids_bind (avoids_require (by decide)) fun _ => avoids_bind avoids_allocate fun _ =>
      avoids_bind avoids_assign fun _ => avoids_transfer

theorem avoids_createPdaAccount {seeds : List Bytes} :
    Avoids denied (createPdaAccount R sv a b s n seeds) :=
  avoids_bind (avoids_require (by decide)) fun _ => avoids_bind avoids_lamportsOf fun _ =>
    avoids_ite avoids_invokeCreateAccount
      (avoids_bind (avoids_onlyIf avoids_invokeTransfer) fun _ =>
        avoids_bind (avoids_bind (avoids_require (by decide)) fun _ => avoids_allocate) fun _ =>
          avoids_bind (avoids_require (by decide)) fun _ => avoids_assign)

/-! ## 2. Fees -/

theorem avoids_collectFeeToShard : Avoids denied (collectFeeToShard sv n a b) :=
  avoids_ite (avoids_pure _)
    (avoids_bind avoids_lamportsOf fun _ => avoids_onlyIf avoids_invokeTransfer)

theorem avoids_transferFeeSplit : Avoids denied (transferFeeSplit sv n m a b s) :=
  avoids_bind (avoids_onlyIf avoids_collectFeeToShard) fun _ =>
    avoids_onlyIf avoids_collectFeeToShard

theorem avoids_validateFeeShards {k : Pubkey} {ti : UInt16} {ai : UInt8} :
    Avoids denied (validateFeeShards R a b k ti ai) :=
  avoids_bind (avoids_bind (avoids_failIf (by decide)) fun _ =>
      avoids_bind (avoids_orFail (by decide)) fun _ =>
        avoids_bind avoids_assertPda fun _ => avoids_pure _) fun _ =>
    avoids_bind (avoids_bind (avoids_failIf (by decide)) fun _ =>
        avoids_bind (avoids_orFail (by decide)) fun _ =>
          avoids_bind avoids_assertPda fun _ => avoids_pure _) fun _ => avoids_pure _

theorem avoids_assertFeeShardAccounts {c : AccountInfo} :
    Avoids denied (assertFeeShardAccounts a b c) :=
  avoids_bind (avoids_require (by decide)) fun _ => avoids_bind (avoids_require (by decide))
    fun _ => avoids_require (by decide)

theorem avoids_ensureShardInitialized {seeds : List Bytes} {bump : UInt8} :
    Avoids denied (ensureShardInitialized R sv a b s seeds bump) :=
  avoids_bind avoids_isUninitialized fun _ => avoids_onlyIf avoids_createPdaAccount

theorem avoids_ensureFeeShardsInitialized {c : AccountInfo} {k : Pubkey} {ti : UInt16}
    {ai b₁ b₂ : UInt8} :
    Avoids denied (ensureFeeShardsInitialized R sv a b c s k ti ai b₁ b₂) :=
  avoids_bind avoids_ensureShardInitialized fun _ => avoids_ensureShardInitialized

/-! ## 3. Loaders -/

theorem avoids_loadThread : Avoids denied (loadThread R a) :=
  avoids_bind avoids_assertOwnedBy fun _ => avoids_bind avoids_dataOf fun _ =>
    avoids_bind (avoids_orFail (by decide)) fun _ => avoids_bind (avoids_failIf (by decide))
      fun _ => avoids_pure _

theorem avoids_loadSettings : Avoids denied (loadSettings R a) := by
  unfold loadSettings
  repeat' first
    | exact avoids_pure _
    | exact avoids_ownerOf
    | exact avoids_dataOf
    | exact avoids_assertPda
    | exact avoids_orFail (by decide)
    | exact avoids_failIf (by decide)
    | refine avoids_bind ?_ fun _ => ?_

theorem avoids_loadThreadAccess : Avoids denied (loadThreadAccess a) :=
  avoids_bind avoids_dataOf fun _ => avoids_bind (avoids_orFail (by decide)) fun _ =>
    avoids_bind (avoids_failIf (by decide)) fun _ => avoids_pure _

theorem avoids_loadBoundAccessEntry {t w : Pubkey} :
    Avoids denied (loadBoundAccessEntry R a t w) :=
  avoids_bind avoids_assertOwnedBy fun _ =>
    avoids_bind (avoids_bind avoids_dataOf fun _ => avoids_bind (avoids_orFail (by decide)) fun _ =>
      avoids_bind (avoids_failIf (by decide)) fun _ => avoids_pure _) fun _ =>
        avoids_bind (avoids_failIf (by decide)) fun _ => avoids_pure _

/-! ## 4. `fill_slot` around the stage -/

theorem avoids_fillFreeSlot {e : FillEnv} {post : Post} {c : CandidateSlot} {bump : UInt8} :
    Avoids denied (fillFreeSlot R sv e post c a bump) := by
  refine avoids_bind (avoids_require (by decide)) fun _ =>
    avoids_bind avoids_createPdaAccount fun _ => avoids_bind avoids_serializeInto fun _ =>
      avoids_bind (avoids_orFail (by decide)) fun _ => ?_
  exact avoids_bind (avoids_orFail (by decide)) fun _ => avoids_bind (avoids_failIf (by decide))
    fun _ => avoids_bind avoids_collectFeeToShard fun _ => avoids_onlyIf avoids_transferFeeSplit

theorem avoids_fillCandidates {e : FillEnv} {post : Post}
    {cs : List (CandidateSlot × AccountInfo)} : Avoids denied (fillCandidates R sv e post cs) := by
  induction cs with
  | nil => exact avoids_throw (by decide)
  | cons x cs ih =>
    refine avoids_bind (avoids_failIf (by decide)) fun _ =>
      avoids_bind (avoids_failIf (by decide)) fun _ =>
        avoids_bind (avoids_orFail (by decide)) fun _ =>
          avoids_bind avoids_assertPda fun _ => avoids_bind avoids_isUninitialized fun _ => ?_
    exact avoids_ite avoids_fillFreeSlot ih

end Avoids

/-! ## 5. The stage -/

section Stage

variable {R : Runtime} {sv : Sysvars} {σ : Ledger}

theorem avoids_gatingOf {ac : AccountInfo} {t : Pubkey} : Avoids denied (gatingOf R ac t) := by
  refine avoids_bind avoids_isUninitialized fun _ => avoids_ite (avoids_pure _) ?_
  exact avoids_bind avoids_assertOwnedBy fun _ => avoids_bind avoids_loadThreadAccess fun _ =>
    avoids_bind (avoids_failIf (by decide)) fun _ => avoids_pure _

/-- A wallet is turned away for its own entry only when that says so. -/
theorem standingOf_denied {p en : AccountInfo} {t au : Pubkey} (hst : σ.Strict R en.key)
    (h : standingOf R p en t au σ = .error denied) :
    EntrySeen σ R en.key t p.key (some accessDenied) := by
  obtain ⟨fresh, σ₁, hfresh, g1⟩ := avoids_isUninitialized.bind_eq_error h
  obtain ⟨-, rfl⟩ := isUninitialized_eq_ok.mp hfresh
  split at g1
  · cases g1
  · obtain ⟨x, σ₂, hload, g2⟩ := avoids_loadBoundAccessEntry.bind_eq_error g1
    obtain ⟨hx, htag, ht, hw, rfl⟩ := loadBoundAccessEntry_ok hst hload
    by_cases hs : x.status = accessDenied
    · obtain ⟨tag, thread, wallet, status⟩ := x
      obtain rfl : tag = tagAccessEntry := htag
      obtain rfl : thread = t := ht
      obtain rfl : wallet = p.key := hw
      obtain rfl : status = accessDenied := hs
      exact hx
    · simp only [failIf, if_neg hs] at g2
      cases g2

/-- **What the stage found where it denied**: the wallet's entry says so, or the thread is gated and
    the wallet may not post. -/
theorem accessStage_denied {p ac en : AccountInfo} {t au : Pubkey} (hT : σ.Tidy R)
    (h : accessStage R p ac en t au σ = .error denied) :
    R.HasAddress (.access t) ac.key ∧ R.HasAddress (.entry t p.key) en.key ∧
      (EntrySeen σ R en.key t p.key (some accessDenied) ∨
        ∃ seen st, AccessSeen σ R ac.key t seen ∧ EntrySeen σ R en.key t p.key st ∧
          gate seen = true ∧ mayPost (p.key = au) st = false) := by
  obtain ⟨⟨k, b⟩, σ₁, hk, g1⟩ := Avoids.bind_eq_error (avoids_orFail (by decide)) h
  obtain ⟨dk, rfl⟩ := orFail_eq_ok.mp hk
  obtain ⟨_, σ₂, hac, g2⟩ := avoids_assertPda.bind_eq_error g1
  obtain ⟨rfl, rfl⟩ := assertPda_eq_ok.mp hac
  obtain ⟨⟨k', b'⟩, σ₃, hk', g3⟩ := Avoids.bind_eq_error (avoids_orFail (by decide)) g2
  obtain ⟨dk', rfl⟩ := orFail_eq_ok.mp hk'
  obtain ⟨_, σ₄, hen, g4⟩ := avoids_assertPda.bind_eq_error g3
  obtain ⟨rfl, rfl⟩ := assertPda_eq_ok.mp hen
  obtain ⟨g, σ₅, hg, g5⟩ := avoids_gatingOf.bind_eq_error g4
  obtain ⟨seen, hseen, rfl, rfl⟩ := gatingOf_ok (strict_of_cell (hT _)) hg
  refine ⟨⟨b, dk⟩, ⟨b', dk'⟩, ?_⟩
  cases hs : standingOf R p en t au σ₅ with
  | error e =>
    have he : e = denied := by
      have h' : (Except.bind (standingOf R p en t au σ₅) _) = .error denied := g5
      rw [hs] at h'
      cases h'
      rfl
    exact .inl (standingOf_denied (strict_of_cell (hT _)) (he ▸ hs))
  | ok r =>
    obtain ⟨⟨al, fe⟩, σ₆⟩ := r
    obtain ⟨st, hst, -, hr, rfl⟩ := standingOf_ok (strict_of_cell (hT _)) hs
    obtain ⟨rfl, rfl⟩ := Prod.mk.inj hr
    have h' : (Except.bind (standingOf R p en t au σ₆) _) = .error denied := g5
    rw [hs] at h'
    refine .inr ⟨seen, st, hseen, hst, ?_⟩
    by_contra hno
    have hrest : (failIf (gate seen = true ∧ mayPost (p.key = au) st = false)
        ProtocolError.accessDenied.toProgramError >>= fun _ =>
          (pure (postsFree (p.key = au) st) : Handler Bool)) σ₆ = .error denied := h'
    simp only [failIf, if_neg hno] at hrest
    cases hrest

/-- **`fill_slot` denies access from its access stage only.** -/
theorem processFillSlot_denied {accounts : List AccountInfo} {post : Post}
    {candidates : List CandidateSlot} {ti : UInt16} {ai : UInt8} (hT : σ.Tidy R)
    (h : processFillSlot R sv accounts post candidates ti ai σ = .error denied) :
    ∃ p t ac en : AccountInfo, ∃ x : ThreadNode, ∃ rest, accounts = p :: t :: rest ∧
      σ.Holds R t.key x ∧ x.tag = tagThread ∧
        accessStage R p ac en t.key x.author σ = .error denied := by
  obtain ⟨_, σ₁, h1, g1⟩ := Avoids.bind_eq_error (avoids_failIf (by decide)) h
  obtain ⟨-, rfl⟩ := failIf_eq_ok.mp h1
  obtain ⟨_, σ₂, h2, g2⟩ :=
    Avoids.bind_eq_error (avoids_onlyIf (avoids_failIf (by decide))) g1
  obtain rfl := onlyIf_validateText_ok h2
  obtain ⟨_, σ₃, h3, g3⟩ := Avoids.bind_eq_error (avoids_failIf (by decide)) g2
  obtain ⟨-, rfl⟩ := failIf_eq_ok.mp h3
  obtain ⟨⟨p, r₁⟩, σ₄, h4, g4⟩ := avoids_nextAccountInfo.bind_eq_error g3
  obtain ⟨rfl, rfl⟩ := nextAccountInfo_eq_ok.mp h4
  obtain ⟨⟨t, r₂⟩, σ₅, h5, g5⟩ := avoids_nextAccountInfo.bind_eq_error g4
  obtain ⟨rfl, rfl⟩ := nextAccountInfo_eq_ok.mp h5
  obtain ⟨⟨s, r₃⟩, σ₆, h6, g6⟩ := avoids_nextAccountInfo.bind_eq_error g5
  obtain ⟨rfl, rfl⟩ := nextAccountInfo_eq_ok.mp h6
  obtain ⟨⟨ts, r₄⟩, σ₇, h7, g7⟩ := avoids_nextAccountInfo.bind_eq_error g6
  obtain ⟨rfl, rfl⟩ := nextAccountInfo_eq_ok.mp h7
  obtain ⟨⟨as, r₅⟩, σ₈, h8, g8⟩ := avoids_nextAccountInfo.bind_eq_error g7
  obtain ⟨rfl, rfl⟩ := nextAccountInfo_eq_ok.mp h8
  obtain ⟨⟨sys, r₆⟩, σ₉, h9, g9⟩ := avoids_nextAccountInfo.bind_eq_error g8
  obtain ⟨rfl, rfl⟩ := nextAccountInfo_eq_ok.mp h9
  obtain ⟨_, τ₁, h10, g10⟩ := Avoids.bind_eq_error (avoids_require (by decide)) g9
  obtain ⟨-, rfl⟩ := require_eq_ok.mp h10
  obtain ⟨_, τ₂, h11, g11⟩ := avoids_assertFeeShardAccounts.bind_eq_error g10
  obtain rfl := assertFeeShardAccounts_ok h11
  obtain ⟨x, τ₃, h12, g12⟩ := avoids_loadThread.bind_eq_error g11
  obtain ⟨hx, hxtag, rfl⟩ := loadThread_ok h12
  obtain ⟨st, τ₄, h13, g13⟩ := avoids_loadSettings.bind_eq_error g12
  obtain ⟨-, -, -, rfl⟩ := loadSettings_ok h13
  obtain ⟨⟨b, c⟩, τ₅, h14, g14⟩ := avoids_validateFeeShards.bind_eq_error g13
  obtain ⟨-, rfl⟩ := validateFeeShards_ok h14
  obtain ⟨_, τ₆, h15, g15⟩ := Avoids.bind_eq_error (avoids_failIf (by decide)) g14
  obtain ⟨-, rfl⟩ := failIf_eq_ok.mp h15
  obtain ⟨ac, τ₇, h16, g16⟩ := Avoids.bind_eq_error (avoids_orFail (by decide)) g15
  obtain ⟨-, rfl⟩ := orFail_eq_ok.mp h16
  obtain ⟨en, τ₈, h17, g17⟩ := Avoids.bind_eq_error (avoids_orFail (by decide)) g16
  obtain ⟨-, rfl⟩ := orFail_eq_ok.mp h17
  refine ⟨p, t, ac, en, x, _, rfl, hx, hxtag, ?_⟩
  cases hstage : accessStage R p ac en t.key x.author τ₈ with
  | error e =>
    have h' : (Except.bind (accessStage R p ac en t.key x.author τ₈) _) = .error denied := g17
    rw [hstage] at h'
    cases h'
    rfl
  | ok r =>
    -- after the stage nothing denies
    have h' : (Except.bind (accessStage R p ac en t.key x.author τ₈) _) = .error denied := g17
    rw [hstage] at h'
    exact absurd h' (avoids_bind avoids_ensureFeeShardsInitialized
      (fun _ => avoids_fillCandidates) _)

end Stage

end Txtcel
