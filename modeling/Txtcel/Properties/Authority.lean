import Txtcel.System.AccessMap
import Txtcel.System.Deployment

/-!
# Who can change what

One statement over all instructions: for each kind of account, whose signature a creation, a change
or a closing needs. It is read off `Change`, kind by kind: the acts that touch a kind all had the
signature checked, and no other act touches it.
-/

namespace Txtcel

open Lib

variable {R : Runtime} {sv : Sysvars} {accounts : List AccountInfo} {σ σ' : Ledger}
  {ix : ProgramInstruction}

/-- The wallet lets itself in: its entry was absent, and the thread sells entry. -/
structure SelfAdmission (R : Runtime) (S : Set Pubkey) (c c' : Cells) (k : Pubkey)
    (e : AccessEntry) : Prop where
  signer : e.wallet ∈ S
  absent : c k = .free
  allowed : c' k = .holds (.entry (entryNode e.thread e.wallet accessAllowed))
  sold : ∃ a, c.accessOf R e.thread = some a ∧ 0 < a.entryFee

/-- What the signers `S` of one instruction allow it to change. -/
structure AuthorityFrame (R : Runtime) (S : Set Pubkey) (ix : ProgramInstruction) (σ σ' : Ledger) :
    Prop where
  settings_created : ∀ k s, σ'.cell R k = .holds (.settings s) →
    (∀ s', σ.cell R k ≠ .holds (.settings s')) →
    ∃ programdata authority, IsUpgradeAuthority R σ programdata authority ∧ authority ∈ S
  settings_changed : ∀ k s, σ.cell R k = .holds (.settings s) → σ'.cell R k ≠ σ.cell R k →
    s.admin ∈ S
  thread : ∀ k x, σ.cell R k = .holds (.thread x) → ∃ y, σ'.cell R k = .holds (.thread y) ∧
    y.author = x.author ∧ y.title = x.title ∧
    (y.messageFee ≠ x.messageFee ∨ y.likeFee ≠ x.likeFee → x.author ∈ S)
  access_created : ∀ k a, σ'.cell R k = .holds (.access a) →
    (∀ a', σ.cell R k ≠ .holds (.access a')) →
    ∃ x, σ.cell R a.thread = .holds (.thread x) ∧ x.author ∈ S
  access_changed : ∀ k a, σ.cell R k = .holds (.access a) → ∃ b, σ'.cell R k = .holds (.access b) ∧
    b.thread = a.thread ∧ b.admin = a.admin ∧
    (b.enabled ≠ a.enabled ∨ b.entryFee ≠ a.entryFee → a.admin ∈ S) ∧
    (b.whitelistCount ≠ a.whitelistCount → a.admin ∈ S ∨ ∃ ti ai, ix = .requestAccess ti ai)
  access_admin : ∀ k a, σ'.cell R k = .holds (.access a) →
    ∃ x, σ'.cell R a.thread = .holds (.thread x) ∧ x.author = a.admin
  entry : ∀ k e, σ.cell R k = .holds (.entry e) ∨ σ'.cell R k = .holds (.entry e) →
    σ'.cell R k ≠ σ.cell R k →
    (∃ a, (σ.cell R).accessOf R e.thread = some a ∧ a.admin ∈ S) ∨
      SelfAdmission R S (σ.cell R) (σ'.cell R) k e
  content_created : ∀ k c, σ'.cell R k = .holds (.content c) →
    (∀ c', σ.cell R k ≠ .holds (.content c')) → c.header.author ∈ S
  content_changed : ∀ k c, σ.cell R k = .holds (.content c) → σ'.cell R k ≠ σ.cell R k →
    c.header.author ∈ S
  registry : ∀ k r, σ.cell R k = .holds (.registry r) ∨ σ'.cell R k = .holds (.registry r) →
    σ'.cell R k ≠ σ.cell R k → r.owner ∈ S

section Act

variable (h : Act R sv accounts σ σ' ix)

include h

/-- A cell that became another one was changed by the act. -/
theorem Act.change_of_ne {k : Pubkey} {x y : Cell} (hx : σ.cell R k = x) (hy : σ'.cell R k = y)
    (hne : y ≠ x) : Change R sv accounts σ σ' ix k x y := by
  subst hx hy
  exact (h.change k).resolve_left hne

theorem Act.thread_fees {k : Pubkey} {x : ThreadNode} (hx : σ.cell R k = .holds (.thread x)) :
    ∃ y, σ'.cell R k = .holds (.thread y) ∧ y.author = x.author ∧ y.title = x.title ∧
      (y.messageFee ≠ x.messageFee ∨ y.likeFee ≠ x.likeFee → x.author ∈ signers accounts) := by
  rcases h.change k with he | hc
  · exact ⟨x, he.trans hx, rfl, rfl, fun hor => by simp at hor⟩
  · generalize σ'.cell R k = y at hc ⊢
    rw [hx] at hc
    cases hc with
    | growThread d h _ => exact ⟨_, rfl, rfl, rfl, fun hor => by simp [NextAlloc.new] at hor⟩
    | editThread d h =>
      have hauth : d.old.author ∈ signers accounts := h.author ▸ h.signer
      have hchange := h.change
      generalize d.new = n at hchange
      cases hchange <;> exact ⟨_, rfl, rfl, rfl, fun _ => hauth⟩

theorem Act.access_after {k : Pubkey} {a : ThreadAccess} (ha : σ.cell R k = .holds (.access a)) :
    ∃ b, σ'.cell R k = .holds (.access b) ∧ b.thread = a.thread ∧ b.admin = a.admin ∧
      (b.enabled ≠ a.enabled ∨ b.entryFee ≠ a.entryFee → a.admin ∈ signers accounts) ∧
      (b.whitelistCount ≠ a.whitelistCount →
        a.admin ∈ signers accounts ∨ ∃ ti ai, ix = .requestAccess ti ai) := by
  rcases h.change k with he | hc
  · exact ⟨a, he.trans ha, rfl, rfl, fun hor => by simp at hor, fun hne => absurd rfl hne⟩
  · generalize σ'.cell R k = y at hc ⊢
    rw [ha] at hc
    cases hc with
    | editAccess d h =>
      have hadm : d.old.admin ∈ signers accounts := h.admin ▸ h.signer
      have hchange := h.change
      generalize d.new = n at hchange
      cases hchange <;> exact ⟨_, rfl, rfl, rfl, fun _ => hadm, fun _ => .inl hadm⟩
    | countSet d h _ =>
      exact ⟨_, rfl, rfl, rfl, fun _ => h.admin ▸ h.signer, fun _ => .inl (h.admin ▸ h.signer)⟩
    | countRemove d h _ =>
      exact ⟨_, rfl, rfl, rfl, fun _ => h.admin ▸ h.signer, fun _ => .inl (h.admin ▸ h.signer)⟩
    | countRequest d h hix =>
      exact ⟨_, rfl, rfl, rfl, fun hor => by simp [ThreadAccess.shift] at hor,
        fun _ => .inr ⟨_, _, hix⟩⟩

/-- An entry that appeared, changed or went: by the admin, or by the wallet itself. -/
theorem Act.entry_frame {k : Pubkey} {e : AccessEntry}
    (he : σ.cell R k = .holds (.entry e) ∨ σ'.cell R k = .holds (.entry e))
    (hne : σ'.cell R k ≠ σ.cell R k) :
    (∃ a, (σ.cell R).accessOf R e.thread = some a ∧ a.admin ∈ signers accounts) ∨
      SelfAdmission R (signers accounts) (σ.cell R) (σ'.cell R) k e := by
  have hc := (h.change k).resolve_left hne
  generalize hx : σ.cell R k = x at hc he
  generalize hy : σ'.cell R k = y at hc he
  cases hc with
  | createEntry d h _ _ =>
    obtain he | he := he
    · cases he
    · cases he
      have ha := h.access_holds.cell h.access_tag
      exact .inl ⟨d.old, accessOf_eq_some.mpr ⟨_, h.access_addr, ha, rfl⟩, h.admin ▸ h.signer⟩
  | flipEntry d h s _ _ =>
    have ha := h.access_holds.cell h.access_tag
    have hadm : d.old.admin ∈ signers accounts := h.admin ▸ h.signer
    have hacc : (σ.cell R).accessOf R d.old.thread = some d.old :=
      accessOf_eq_some.mpr ⟨_, h.access_addr, ha, rfl⟩
    rcases he with he | he <;> cases he <;> exact .inl ⟨d.old, hacc, hadm⟩
  | removeEntry d h _ =>
    obtain he | he := he
    · cases he
      have ha := h.access_holds.cell h.access_tag
      exact .inl ⟨d.old, accessOf_eq_some.mpr ⟨_, h.access_addr, ha, rfl⟩, h.admin ▸ h.signer⟩
    · cases he
  | requestEntry d h _ =>
    obtain he | he := he
    · cases he
    · cases he
      have ha := h.access_holds.cell h.access_tag
      have hpos : 0 < d.old.entryFee := UInt64.pos_iff_ne_zero.mpr h.fee_ne
      exact .inr ⟨h.signer, hx, hy, d.old,
        accessOf_eq_some.mpr ⟨_, h.access_addr, ha, h.access_thread⟩, hpos⟩
  | _ => rcases he with he | he <;> cases he

theorem Act.registry_frame {k : Pubkey} {r : FollowRegistry}
    (hr : σ.cell R k = .holds (.registry r) ∨ σ'.cell R k = .holds (.registry r))
    (hne : σ'.cell R k ≠ σ.cell R k) : r.owner ∈ signers accounts := by
  have hc := (h.change k).resolve_left hne
  generalize σ.cell R k = x at hc hr
  generalize σ'.cell R k = y at hc hr
  cases hc with
  | createRegistry d h hp =>
    obtain hr | hr := hr
    · cases hr
    · cases hr
      have hold : d.old = emptyRegistry d.user := by simp [Subscribe.old, hp]
      simpa [Subscribe.new, hold, emptyRegistry] using h.signer
  | growRegistry d h r' hp =>
    have hold : d.old = r' := by simp [Subscribe.old, hp]
    have hown := h.registry_before
    simp only [Subscribe.RegistryBefore, hp] at hown
    have hsig : r'.owner ∈ signers accounts := hown.2.2 ▸ h.signer
    rcases hr with hr | hr <;> cases hr
    · exact hsig
    · simpa [Subscribe.new, hold] using hsig
  | shrinkRegistry d h =>
    have hsig : d.old.owner ∈ signers accounts := h.registry_owner ▸ h.signer
    rcases hr with hr | hr <;> cases hr <;> exact hsig
  | _ => rcases hr with hr | hr <;> cases hr

end Act

/-- **The authority frame**: every successful instruction from a reachable store changes only what
    its signers allow. -/
theorem authority_frame (h : (program R).Reach anyStep σ)
    (hs : (program R).step σ (.call sv accounts ix) σ') :
    AuthorityFrame R (signers accounts) ix σ σ' := by
  have hact : Act R sv accounts σ σ' ix := reach_act h hs
  constructor
  case settings_created =>
    intro k s hk hnew
    have hc := hact.change_of_ne rfl hk fun he => hnew s he.symm
    generalize σ.cell R k = x at hc hnew
    cases hc with
    | initSettings d h => exact ⟨d.programdata, d.authority, h.upgrade, h.signer⟩
    | editSettings d h => exact absurd rfl (hnew _)
  case settings_changed =>
    intro k s hk hne
    have hc := hact.change_of_ne hk rfl (hk ▸ hne)
    generalize σ'.cell R k = y at hc
    cases hc with
    | editSettings d h => exact h.admin ▸ h.signer
  case thread => exact fun k x hk => hact.thread_fees hk
  case access_created =>
    intro k a hk hnew
    have hc := hact.change_of_ne rfl hk fun he => hnew a he.symm
    generalize σ.cell R k = x at hc hnew
    cases hc with
    | createAccess d h =>
      have ht := h.thread_holds.cell h.thread_tag
      exact ⟨d.node, ht, h.author ▸ h.signer⟩
    | editAccess d h => exact absurd rfl (hnew _)
    | countSet d h _ => exact absurd rfl (hnew _)
    | countRemove d h _ => exact absurd rfl (hnew _)
    | countRequest d h _ => exact absurd rfl (hnew _)
  case access_changed => exact fun k a hk => hact.access_after hk
  case access_admin => exact fun k a hk => reach_admin (h.step hs trivial) hk
  case entry => exact fun k e he hne => hact.entry_frame he hne
  case content_created =>
    intro k c hk hnew
    have hc := hact.change_of_ne rfl hk fun he => hnew c he.symm
    generalize σ.cell R k = x at hc hnew
    cases hc with
    | createContent d h _ _ => exact h.signer
    | appendContent d h _ => exact absurd rfl (hnew _)
  case content_changed =>
    intro k c hk hne
    have hc := hact.change_of_ne hk rfl (hk ▸ hne)
    generalize σ'.cell R k = y at hc
    cases hc with
    | appendContent d h _ => exact h.content_author ▸ h.signer
    | closeContent d h _ => exact h.author ▸ h.signer
  case registry => exact fun k r hr hne => hact.registry_frame hr hne

/-- A post into a gated channel stays within the authority of its signer. -/
theorem authority_frame_post :
    AuthorityFrame localnet (signers Local.postBob.accounts) Local.postBob.ix
      (afterCalls localnet Local.history Local.genesis)
      (afterCalls localnet [Local.postBob] (afterCalls localnet Local.history Local.genesis)) :=
  authority_frame (Local.history_reach fun _ _ _ _ => trivial) Local.postBob_step

end Txtcel
