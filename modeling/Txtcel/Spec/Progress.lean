import Txtcel.Lib.Wp
import Txtcel.Spec.Wallet
import Txtcel.Spec.Access
import Txtcel.Spec.Likes

/-!
# Handlers that succeed

For the handlers that create nothing and collect nothing: what the accounts they are called with
must hold for them to succeed (`wp`, total correctness).

* `Paying R p n c σ`: `p` can pay `n`, and the accounts hold the cells `c`;
* one rule for each operation: what it needs, and what the accounts hold after it;
* one statement for each handler: with these accounts it succeeds, and `p` can still pay `n`
  (`Paid`).
-/

namespace Txtcel

open Lib Exec Borsh Function

variable {R : Runtime} {sv : Sysvars} {σ : Ledger} {p a : AccountInfo} {k : Pubkey} {n : Nat}

/-! ## 1. Checks -/

section Checks

variable {Q : Unit → Ledger → Prop}

theorem wp_assertSigner : wp (assertSigner a) Q σ ↔ a.isSigner = true ∧ Q () σ := wp_require

theorem wp_assertWritable : wp (assertWritable a) Q σ ↔ a.isWritable = true ∧ Q () σ := wp_require

theorem wp_assertPda : wp (assertPda a k) Q σ ↔ a.key = k ∧ Q () σ :=
  wp_of_iff fun _ _ => by simp

theorem wp_assertOwnedBy : wp (assertOwnedBy a k) Q σ ↔ σ.owner a.key = k ∧ Q () σ :=
  wp_of_iff fun _ _ => by simp

theorem wp_isUninitialized {Q : Bool → Ledger → Prop} :
    wp (isUninitialized a) Q σ ↔ Q (decide (σ.Free a.key)) σ :=
  wp_eq (isUninitialized_eq_ok.mpr ⟨rfl, rfl⟩)

theorem wp_nextAccountInfo {rest : List AccountInfo}
    {Q : AccountInfo × List AccountInfo → Ledger → Prop} :
    wp (nextAccountInfo (a :: rest)) Q σ ↔ Q (a, rest) σ := wp_eq rfl

end Checks

/-! ## 2. Loaders -/

/-- A cell that holds a structure, read as a loader reads it. -/
theorem Ledger.Holds.of_cell {α : Type} [Borsh α] [Account α] {x : α}
    (h : σ.cell R k = .holds (Account.wrap x)) :
    σ.Holds R k x ∧ (Account.wrap x).tag = (Account.wrap x).kind.tag := by
  obtain ⟨ho, hv, hd⟩ := cell_eq_holds.mp h
  exact ⟨⟨ho, (Account.fits_wrap x).mp hv.fits, hd.trans (Account.bytes_wrap x)⟩, hv.tag_eq⟩

theorem Ledger.Holds.lenient {α : Type} [Borsh α] {x : α} (h : σ.Holds R k x) :
    deserialize (σ.data k) = some (x, []) :=
  deserialize_eq_some.mpr ⟨h.fits, by rw [h.data, List.append_nil]⟩

section Loaders

theorem loadThread_eq {x : ThreadNode} (h : σ.cell R a.key = .holds (.thread x)) :
    loadThread R a σ = .ok (x, σ) := by
  obtain ⟨hx, ht⟩ := Ledger.Holds.of_cell (x := x) h
  exact loadThread_iff.mpr ⟨hx, ht, rfl⟩

theorem loadAuthorThread_eq {x : ThreadNode} (h : σ.cell R a.key = .holds (.thread x))
    (hs : p.isSigner = true) (hw : a.isWritable = true) (hp : p.key = x.author) :
    loadAuthorThread R p a σ = .ok (x, σ) := by
  simp only [loadAuthorThread, bind_eq_ok, assertSigner_eq_ok, assertWritable_eq_ok, failIf_eq_ok,
    pure_eq_ok, and_assoc, true_and, existsAndEq, exists_and_left, exists_const, ne_eq, not_not]
  exact ⟨hs, hw, loadThread_eq h, hp, trivial⟩

theorem loadContent_eq {x : ContentNode} (h : σ.cell R a.key = .holds (.content x))
    (ha : R.HasAddress (.content x.header.thread x.header.allocSeq x.header.slot) a.key) :
    loadContent R a σ = .ok (x, σ) := by
  obtain ⟨hx, ht⟩ := Ledger.Holds.of_cell (x := x) h
  simp only [loadContent, bind_eq_ok, assertOwnedBy_eq_ok, dataOf_eq_ok, orFail_eq_ok,
    failIf_eq_ok, assertPda_eq_ok, pure_eq_ok, tryFromSlice_eq_some, and_assoc, true_and,
    existsAndEq, exists_and_left, exists_const, Prod.exists, ne_eq, not_not]
  obtain ⟨bump, hb⟩ := ha
  exact ⟨hx.owner, hx.fits, hx.data, ht, bump, hb, trivial⟩

theorem loadSettings_eq {x : ProgramSettings} (h : σ.cell R a.key = .holds (.settings x))
    (ha : R.HasAddress .settings a.key) : loadSettings R a σ = .ok (x, σ) := by
  obtain ⟨hx, ht⟩ := Ledger.Holds.of_cell (x := x) h
  simp only [loadSettings, bind_eq_ok, ownerOf_eq_ok, dataOf_eq_ok, orFail_eq_ok, failIf_eq_ok,
    assertPda_eq_ok, pure_eq_ok, tryFromSlice_eq_some, and_assoc, true_and, existsAndEq,
    exists_and_left, exists_const, Prod.exists, ne_eq, not_not]
  obtain ⟨bump, hb⟩ := ha
  exact ⟨bump, hb, hx.owner, hx.fits, hx.data, ht, trivial⟩

theorem loadAdminSettings_eq {x : ProgramSettings} (h : σ.cell R a.key = .holds (.settings x))
    (ha : R.HasAddress .settings a.key) (hs : p.isSigner = true) (hw : a.isWritable = true)
    (hp : x.admin = p.key) : loadAdminSettings R p a σ = .ok (x, σ) := by
  simp only [loadAdminSettings, bind_eq_ok, assertSigner_eq_ok, assertWritable_eq_ok, failIf_eq_ok,
    pure_eq_ok, and_assoc, true_and, existsAndEq, exists_and_left, exists_const, ne_eq, not_not]
  exact ⟨hs, hw, loadSettings_eq h ha, hp, trivial⟩

theorem loadThreadAccess_eq {x : ThreadAccess} (h : σ.cell R a.key = .holds (.access x)) :
    loadThreadAccess a σ = .ok (x, σ) := by
  obtain ⟨hx, ht⟩ := Ledger.Holds.of_cell (x := x) h
  simp only [loadThreadAccess, bind_eq_ok, dataOf_eq_ok, orFail_eq_ok, failIf_eq_ok, pure_eq_ok,
    and_assoc, true_and, existsAndEq, exists_and_left, exists_const, Prod.exists, ne_eq, not_not]
  exact ⟨[], hx.lenient, ht, trivial⟩

theorem loadAdminAccess_eq {x : ThreadAccess} (h : σ.cell R a.key = .holds (.access x))
    (ha : R.HasAddress (.access x.thread) a.key) (hs : p.isSigner = true)
    (hw : a.isWritable = true) (hp : x.admin = p.key) : loadAdminAccess R p a σ = .ok (x, σ) := by
  simp only [loadAdminAccess, bind_eq_ok, assertSigner_eq_ok, assertWritable_eq_ok,
    assertOwnedBy_eq_ok, orFail_eq_ok, failIf_eq_ok, assertPda_eq_ok, pure_eq_ok, and_assoc,
    true_and, existsAndEq, exists_and_left, exists_const, Prod.exists, ne_eq, not_not]
  obtain ⟨bump, hb⟩ := ha
  exact ⟨hs, hw, (cell_eq_holds.mp h).1, loadThreadAccess_eq h, hp, bump, hb, trivial⟩

theorem loadBoundAccessEntry_eq {x : AccessEntry} (h : σ.cell R a.key = .holds (.entry x)) :
    loadBoundAccessEntry R a x.thread x.wallet σ = .ok (x, σ) := by
  obtain ⟨hx, ht⟩ := Ledger.Holds.of_cell (x := x) h
  simp only [loadBoundAccessEntry, loadAccessEntry, bind_eq_ok, assertOwnedBy_eq_ok, dataOf_eq_ok,
    orFail_eq_ok, failIf_eq_ok, pure_eq_ok, and_assoc, true_and, existsAndEq, exists_and_left,
    exists_const, Prod.exists, ne_eq, not_not, not_or]
  exact ⟨hx.owner, [], hx.lenient, ht, trivial⟩

theorem loadAllocLikes_eq {x : AllocLikes} (h : σ.cell R a.key = .holds (.likes x)) :
    loadAllocLikes a σ = .ok (x, σ) := by
  obtain ⟨hx, ht⟩ := Ledger.Holds.of_cell (x := x) h
  simp only [loadAllocLikes, bind_eq_ok, dataOf_eq_ok, orFail_eq_ok, failIf_eq_ok, pure_eq_ok,
    tryFromSlice_eq_some, and_assoc, true_and, existsAndEq, exists_and_left, exists_const, ne_eq,
    not_not]
  exact ⟨hx.fits, hx.data, ht, trivial⟩

end Loaders

/-! ## 3. Writing and closing -/

/-- What two accounts hold together is part of the supply. -/
theorem Ledger.add_le_total {i j : Pubkey} (h : i ≠ j) :
    σ.lamports i + σ.lamports j ≤ total σ.lamports := by
  have hle := le_total (σ.pay j i (σ.lamports j)).lamports i
  rw [Wallet.total_pay (Nat.le_refl _), Ledger.pay_dst _ _ _ _ h] at hle
  exact hle

/-- **The payer can pay `n`, and the accounts hold `c`.** -/
structure Paying (R : Runtime) (p : AccountInfo) (n : Nat) (c : Cells) (σ : Ledger) : Prop where
  wallet : Wallet σ p n
  cells : σ.cell R = c

namespace Paying

variable {c : Cells} {x : AccountData} {y : Cell}

theorem enough (h : Paying R p n c σ) : n ≤ σ.lamports p.key := h.wallet.enough

theorem cell (h : Paying R p n c σ) (hk : c k = y) : σ.cell R k = y :=
  (congrFun h.cells k).trans hk

theorem free (h : Paying R p n c σ) (hk : c k = .free) : σ.Free k := cell_eq_free.mp (h.cell hk)

theorem not_free (h : Paying R p n c σ) (hk : c k = .holds x) : ¬ σ.Free k := by
  intro hf
  rw [← cell_eq_free, h.cell hk] at hf
  cases hf

theorem owner (h : Paying R p n c σ) (hk : c k = .holds x) : σ.owner k = R.programId :=
  (cell_eq_holds.mp (h.cell hk)).1

theorem valid (h : Paying R p n c σ) (hk : c k = .holds x) : x.Valid :=
  (cell_eq_holds.mp (h.cell hk)).2.1

/-- The payer holds no structure. -/
theorem ne_payer (h : Paying R p n c σ) (hk : c k = .holds x) : k ≠ p.key := by
  intro he
  have ho := h.owner hk
  rw [he] at ho
  exact R.programId_ne (ho.symm.trans h.wallet.owner)

end Paying

section Rules

variable {c : Cells} {x : AccountData} {Q : Unit → Ledger → Prop}

/-- A structure is written over one of its size. -/
theorem wp_serializeInto {α : Type} [Borsh α] [Account α] {y : α} (h : Paying R p n c σ)
    (hk : c a.key = .holds x) (hx : x.size = (Account.wrap y).size) (hy : (Account.wrap y).Valid)
    (hQ : ∀ σ', Paying R p n (update c a.key (.holds (Account.wrap y))) σ' → Q () σ') :
    wp (serializeInto a y) Q σ := by
  have hdata := (cell_eq_holds.mp (h.cell hk)).2.2
  have hsize : (serialize y).length = (σ.data a.key).length := by
    rw [hdata, x.length_bytes, hx, ← (Account.wrap y).length_bytes, Account.bytes_wrap]
  refine (wp_eq (serializeInto_eq hsize)).mpr (hQ _ ⟨?_, ?_⟩)
  · exact h.wallet.setData (h.ne_payer hk)
  · rw [← h.cells]
    exact cells_put (h.owner hk) hy

/-- An account of the program is closed to the payer. -/
theorem wp_closeProgramAccount (h : Paying R p n c σ) (hk : c a.key = .holds x)
    (hQ : ∀ σ', Paying R p n (update c a.key .free) σ' → Q () σ') :
    wp (closeProgramAccount a p) Q σ := by
  have hne : p.key ≠ a.key := (h.ne_payer hk).symm
  have htotal : total (σ.pay a.key p.key (σ.lamports a.key)).lamports = total σ.lamports :=
    Wallet.total_pay (Nat.le_refl _)
  have hsum : σ.lamports p.key + σ.lamports a.key < 2 ^ 64 :=
    (Ledger.add_le_total hne).trans_lt h.wallet.supply
  have hwallet : Wallet (σ.pay a.key p.key (σ.lamports a.key)) p n :=
    { h.wallet with
      enough := by
        rw [Ledger.pay_dst _ _ _ _ hne]
        exact h.enough.trans (Nat.le_add_right _ _)
      supply := htotal ▸ h.wallet.supply }
  refine (wp_eq ((closeProgramAccount_iff hne).mpr ⟨hsum, rfl⟩)).mpr (hQ _ ⟨?_, ?_⟩)
  · exact hwallet.allot hne.symm
  · rw [← h.cells]
    exact cells_close

end Rules

/-! ## 4. Settings and prices -/

/-- An account that signs. -/
def signer (k : Pubkey) : AccountInfo := ⟨k, true, true⟩

/-- An account that does not sign. -/
def passed (k : Pubkey) : AccountInfo := ⟨k, false, true⟩

/-- The payer is left with at least `n`. -/
def Paid (w : Pubkey) (n : Nat) (_ : Unit) (σ : Ledger) : Prop := n ≤ σ.lamports w

variable {w t ac en ct s : Pubkey} {c : Cells}

theorem updateSettings_wp {x : ProgramSettings} {update : ProgramSettings → ProgramSettings}
    (h : Paying R (signer w) n c σ) (hs : R.HasAddress .settings s)
    (hx : c s = .holds (.settings x)) (hw : x.admin = w) (hu : SettingsChange x (update x)) :
    wp (updateSettings R [signer w, passed s] update) (Paid w n) σ := by
  have hload : loadAdminSettings R (signer w) (passed s) σ = .ok (x, σ) :=
    loadAdminSettings_eq (h.cell hx) hs rfl rfl hw
  have hvalid : (AccountData.settings (update x)).Valid :=
    ⟨hu.tag_eq.trans (h.valid hx).tag_eq, ProgramSettings.fits _⟩
  simp only [updateSettings, wp_bind, wp_nextAccountInfo, wp_eq hload]
  exact wp_serializeInto h hx rfl hvalid fun σ₁ h1 => h1.enough

theorem updateThread_wp {x : ThreadNode} {update : ThreadNode → ThreadNode}
    (h : Paying R (signer w) n c σ) (hx : c t = .holds (.thread x)) (hw : x.author = w)
    (hu : ThreadChange x (update x)) :
    wp (updateThread R [signer w, passed t] update) (Paid w n) σ := by
  have hload : loadAuthorThread R (signer w) (passed t) σ = .ok (x, σ) :=
    loadAuthorThread_eq (h.cell hx) rfl rfl hw.symm
  have hfits := (ThreadNode.fits_iff x).mp (h.valid hx).fits
  have hvalid : (AccountData.thread (update x)).Valid :=
    ⟨hu.tag_eq.trans (h.valid hx).tag_eq, (ThreadNode.fits_iff _).mpr (hu.title_eq ▸ hfits)⟩
  have hsize : (AccountData.thread x).size = (AccountData.thread (update x)).size :=
    congrArg (fun t : Bytes => ThreadNode.size t.length) hu.title_eq.symm
  simp only [updateThread, wp_bind, wp_nextAccountInfo, wp_eq hload]
  exact wp_serializeInto h hx hsize hvalid fun σ₁ h1 => h1.enough

/-! ## 5. Gates and roles -/

theorem updateAccess_wp {x : ThreadAccess} {update : ThreadAccess → ThreadAccess}
    (h : Paying R (signer w) n c σ) (hx : c ac = .holds (.access x))
    (hac : R.HasAddress (.access x.thread) ac) (hw : x.admin = w)
    (hu : AccessChange x (update x)) :
    wp (updateAccess R [signer w, passed ac] update) (Paid w n) σ := by
  have hload : loadAdminAccess R (signer w) (passed ac) σ = .ok (x, σ) :=
    loadAdminAccess_eq (h.cell hx) hac rfl rfl hw
  have hvalid : (AccountData.access (update x)).Valid :=
    ⟨hu.tag_eq.trans (h.valid hx).tag_eq, ThreadAccess.fits _⟩
  simp only [updateAccess, wp_bind, wp_nextAccountInfo, wp_eq hload]
  exact wp_serializeInto h hx rfl hvalid fun σ₁ h1 => h1.enough

theorem adjustWhitelistCount_wp {x : ThreadAccess} {d : Int} (h : Paying R p n c σ)
    (hx : c ac = .holds (.access x)) :
    wp (adjustWhitelistCount (passed ac) d) (Paid p.key n) σ := by
  have hload : loadThreadAccess (passed ac) σ = .ok (x, σ) := loadThreadAccess_eq (h.cell hx)
  have hvalid : (AccountData.access (x.shift d)).Valid :=
    ⟨(h.valid hx).tag_eq, ThreadAccess.fits _⟩
  simp only [adjustWhitelistCount, wp_bind, wp_eq hload]
  exact wp_serializeInto (y := x.shift d) h hx rfl hvalid fun σ₁ h1 => h1.enough

theorem removeFromList_wp {x : ThreadAccess} {e : AccessEntry} (h : Paying R (signer w) n c σ)
    (hx : c ac = .holds (.access x)) (hac : R.HasAddress (.access x.thread) ac) (hw : x.admin = w)
    (he : c en = .holds (.entry e)) (het : e.thread = x.thread)
    (hen : R.HasAddress (.entry x.thread e.wallet) en) :
    wp (removeFromList R [signer w, passed ac, passed en, a] e.wallet e.status) (Paid w n) σ := by
  obtain ⟨b, hb⟩ := hen
  have hload : loadAdminAccess R (signer w) (passed ac) σ = .ok (x, σ) :=
    loadAdminAccess_eq (h.cell hx) hac rfl rfl hw
  have hentry : loadBoundAccessEntry R (passed en) x.thread e.wallet σ = .ok (e, σ) :=
    het ▸ loadBoundAccessEntry_eq (h.cell he)
  have hne : ac ≠ en := by
    intro hae
    rw [hae, he] at hx
    cases hx
  simp only [removeFromList, removeAccessEntry, closeAccessEntry, wp_bind, wp_nextAccountInfo,
    wp_assertWritable, wp_eq hload, wp_orFail, wp_assertPda, wp_isUninitialized, wp_failIf,
    wp_eq hentry, Prod.exists, decide_eq_true_eq]
  refine ⟨rfl, rfl, en, b, hb, rfl, h.not_free he, not_not.mpr rfl, ?_⟩
  refine wp_closeProgramAccount h he fun σ₁ h1 => wp_onlyIf.mpr ⟨fun _ => ?_, fun _ => h1.enough⟩
  exact adjustWhitelistCount_wp h1 ((update_of_ne hne _ _).trans hx)

/-! ## 6. Messages -/

/-- What is at the address of the counters of a page: nothing, or the counters of that page. -/
def PageLikes (c : Cells) (li : Pubkey) (seq : UInt32) : Prop :=
  c li = .free ∨ ∃ l, c li = .holds (.likes l) ∧ l.allocSeq = seq

theorem resetLikes_wp {header : ContentHeader} {Q : Unit → Ledger → Prop}
    (h : Paying R p n c σ) (hli : R.HasAddress (.likes header.thread header.allocSeq) a.key)
    (hw : a.isWritable = true) (hc : PageLikes c a.key header.allocSeq)
    (hslot : header.slot.toNat < contentSlots)
    (hQ : ∀ c' σ', Paying R p n c' σ' → (∀ j, j ≠ a.key → c' j = c j) → Q () σ') :
    wp (resetLikes R header a) Q σ := by
  obtain ⟨b, hb⟩ := hli
  have hindex : slotIndex header.slot = some ⟨header.slot.toNat, hslot⟩ := dif_pos hslot
  simp only [resetLikes, wp_bind, wp_orFail, wp_assertPda, wp_isUninitialized, wp_onlyIf,
    wp_assertWritable, wp_assertOwnedBy, wp_failIf, hindex, Option.some.injEq,
    exists_eq_left', Prod.exists, decide_eq_false_iff_not, not_not]
  refine ⟨a.key, b, hb, rfl, fun hf => ?_, fun _ => hQ c σ h fun _ _ => rfl⟩
  rcases hc with hc | ⟨l, hc, hseq⟩
  · exact absurd (h.free hc) hf
  · have hload : loadAllocLikes a σ = .ok (l, σ) := loadAllocLikes_eq (h.cell hc)
    have htag := (h.valid hc).tag_eq
    rw [wp_eq hload]
    refine ⟨hw, h.owner hc, hseq, wp_serializeInto h hc rfl ⟨?_, AllocLikes.fits _⟩ ?_⟩
    · exact htag
    · exact fun σ₁ h1 => hQ _ σ₁ h1 fun j hj => update_of_ne hj _ _

theorem processCloseAccount_wp {m : ContentNode} {likes : Option Pubkey}
    (h : Paying R (signer w) n c σ) (hm : c ct = .holds (.content m))
    (hct : R.HasAddress (.content m.header.thread m.header.allocSeq m.header.slot) ct)
    (hw : m.header.author = w) (hslot : m.header.slot.toNat < contentSlots)
    (hli : ∀ li, likes = some li → R.HasAddress (.likes m.header.thread m.header.allocSeq) li ∧
      PageLikes c li m.header.allocSeq) :
    wp (processCloseAccount R (signer w :: passed ct :: likes.toList.map passed)) (Paid w n) σ := by
  have hcontent : loadContent R (passed ct) σ = .ok (m, σ) := loadContent_eq (h.cell hm) hct
  obtain ⟨ho, hvalid, hdata⟩ := cell_eq_holds.mp (h.cell hm)
  have htag : readTag (passed ct) σ = .ok (tagContent, σ) := by
    refine readTag_eq_ok.mpr ⟨?_, rfl⟩
    show (σ.data ct).head? = _
    rw [hdata, AccountData.head_bytes, hvalid.tag_eq]
    rfl
  have hclose : ∀ (c' : Cells) σ', Paying R (signer w) n c' σ' → c' ct = c ct →
      wp (closeProgramAccount (passed ct) (signer w)) (Paid w n) σ' := fun c' σ' h' hc' =>
    wp_closeProgramAccount h' (hc'.trans hm) fun σ₂ h2 => h2.enough
  simp only [processCloseAccount, wp_bind, wp_nextAccountInfo, wp_assertSigner, wp_assertWritable,
    wp_assertOwnedBy, wp_eq htag, wp_require, wp_eq hcontent, wp_failIf]
  refine ⟨rfl, rfl, ho, trivial, not_not.mpr hw, ?_⟩
  cases likes with
  | none => exact hclose c σ h rfl
  | some li =>
    obtain ⟨haddr, hpage⟩ := hli li rfl
    have hne : ct ≠ li := by
      intro he
      rw [he] at hm
      rcases hpage with hf | ⟨l, hl, -⟩
      · rw [hf] at hm
        cases hm
      · rw [hl] at hm
        cases hm
    exact wp_bind.mpr (resetLikes_wp (a := passed li) h haddr rfl hpage hslot
      fun c' σ' h' hc' => hclose c' σ' h' (hc' ct hne))

end Txtcel
