import Txtcel.Lib.Lookup
import Txtcel.System.Invariants

/-!
# The access list of a thread as a map

* `standing c R t w`: what the entry account of the wallet `w` in the thread `t` says, `none` when
  there is no entry of theirs at that address;
* `accessOf c R t`: the access account of the thread.

Both are read off the cells, and each kind of act has one effect on them: the membership acts change
one entry and one counter, no other act changes an entry.
-/

namespace Txtcel

open Lib Function

variable {R : Runtime} {sv : Sysvars} {accounts : List AccountInfo} {σ σ' : Ledger}
  {ix : ProgramInstruction} {c : Cells} {k t w : Pubkey}

/-! ## 1. Reading the cells -/

/-- The status that the cell records for the wallet in the thread. -/
def Cell.entryFor (p : Pubkey × Pubkey) : Cell → Option UInt8
  | .holds (.entry e) => if e.thread = p.1 ∧ e.wallet = p.2 then some e.status else none
  | _ => none

/-- The access account of the thread, if the cell is one. -/
def Cell.accessFor (t : Pubkey) : Cell → Option ThreadAccess
  | .holds (.access a) => if a.thread = t then some a else none
  | _ => none

def entryAddress (R : Runtime) (p : Pubkey × Pubkey) : Option Pubkey :=
  (deriveAccessEntryPda R p.1 p.2).map (·.1)

def accessAddress (R : Runtime) (t : Pubkey) : Option Pubkey := (deriveAccessPda R t).map (·.1)

/-- What the wallet is in the thread. -/
def Cells.standing (c : Cells) (R : Runtime) (t w : Pubkey) : Option UInt8 :=
  lookup (entryAddress R) Cell.entryFor c (t, w)

/-- The access account of the thread. -/
def Cells.accessOf (c : Cells) (R : Runtime) (t : Pubkey) : Option ThreadAccess :=
  lookup (accessAddress R) Cell.accessFor c t

theorem entryAddress_eq_some : entryAddress R (t, w) = some k ↔ R.HasAddress (.entry t w) k := by
  simp only [entryAddress, Option.map_eq_some_iff, Prod.exists, exists_and_right, exists_eq_right]
  rfl

theorem accessAddress_eq_some : accessAddress R t = some k ↔ R.HasAddress (.access t) k := by
  simp only [accessAddress, Option.map_eq_some_iff, Prod.exists, exists_and_right, exists_eq_right]
  rfl

theorem entryFor_eq_some {x : Cell} {s : UInt8} :
    x.entryFor (t, w) = some s ↔
      ∃ e : AccessEntry, x = .holds (.entry e) ∧ e.thread = t ∧ e.wallet = w ∧ e.status = s := by
  unfold Cell.entryFor
  constructor
  · intro h
    split at h
    · rename_i e
      split at h
      · rename_i hp
        exact ⟨e, rfl, hp.1, hp.2, Option.some.inj h⟩
      · cases h
    · cases h
  · rintro ⟨e, rfl, rfl, rfl, rfl⟩
    exact if_pos ⟨rfl, rfl⟩

theorem accessFor_eq_some {x : Cell} {a : ThreadAccess} :
    x.accessFor t = some a ↔ x = .holds (.access a) ∧ a.thread = t := by
  unfold Cell.accessFor
  constructor
  · intro h
    split at h
    · split at h
      · rename_i hp
        cases h
        exact ⟨rfl, hp⟩
      · cases h
    · cases h
  · rintro ⟨rfl, rfl⟩
    exact if_pos rfl

/-- The entry of the wallet is live with a status. -/
theorem standing_eq_some {s : UInt8} :
    c.standing R t w = some s ↔ ∃ (k : Pubkey) (e : AccessEntry), R.HasAddress (.entry t w) k ∧
      c k = .holds (.entry e) ∧ e.thread = t ∧ e.wallet = w ∧ e.status = s := by
  rw [Cells.standing, lookup_eq_some]
  constructor
  · rintro ⟨k, hk, he⟩
    obtain ⟨e, he⟩ := entryFor_eq_some.mp he
    exact ⟨k, e, entryAddress_eq_some.mp hk, he⟩
  · rintro ⟨k, e, hk, he⟩
    exact ⟨k, entryAddress_eq_some.mpr hk, entryFor_eq_some.mpr ⟨e, he⟩⟩

theorem accessOf_eq_some {a : ThreadAccess} :
    c.accessOf R t = some a ↔
      ∃ k, R.HasAddress (.access t) k ∧ c k = .holds (.access a) ∧ a.thread = t := by
  rw [Cells.accessOf, lookup_eq_some]
  exact exists_congr fun k => and_congr accessAddress_eq_some accessFor_eq_some

theorem standing_of_address (ha : R.HasAddress (.entry t w) k) :
    c.standing R t w = (c k).entryFor (t, w) :=
  lookup_of_addr (entryAddress_eq_some.mpr ha)

theorem accessOf_of_address (ha : R.HasAddress (.access t) k) :
    c.accessOf R t = (c k).accessFor t :=
  lookup_of_addr (accessAddress_eq_some.mpr ha)

/-! ## 2. Writing the cells -/

/-- An entry is written over its own, or none. -/
theorem standing_update (ha : R.HasAddress (.entry t w) k) {x : Cell}
    (hold : ∀ p, p ≠ (t, w) → (c k).entryFor p = none)
    (hnew : ∀ p, p ≠ (t, w) → x.entryFor p = none) :
    Cells.standing (update c k x) R =
      update (c.standing R) t (update (c.standing R t) w (x.entryFor (t, w))) := by
  funext t' w'
  unfold Cells.standing
  rw [lookup_update (entryAddress_eq_some.mpr ha) hold hnew]
  by_cases ht : t' = t
  · subst ht
    rw [update_self]
    by_cases hw : w' = w
    · subst hw
      rw [update_self, update_self]
    · rw [update_of_ne hw, update_of_ne (fun h => hw (Prod.mk.inj h).2)]
  · rw [update_of_ne ht, update_of_ne (fun h => ht (Prod.mk.inj h).1)]

/-- Nothing that is an entry is written or lost. -/
theorem standing_update_of_none {x : Cell} (hold : ∀ p, (c k).entryFor p = none)
    (hnew : ∀ p, x.entryFor p = none) : Cells.standing (update c k x) R = c.standing R := by
  funext t w
  exact congrFun (lookup_update_of_none hold hnew) (t, w)

theorem accessOf_update (ha : R.HasAddress (.access t) k) {x : Cell}
    (hold : ∀ t', t' ≠ t → (c k).accessFor t' = none) (hnew : ∀ t', t' ≠ t → x.accessFor t' = none) :
    Cells.accessOf (update c k x) R = update (c.accessOf R) t (x.accessFor t) :=
  lookup_update (accessAddress_eq_some.mpr ha) hold hnew

theorem accessOf_update_of_none {x : Cell} (hold : ∀ t, (c k).accessFor t = none)
    (hnew : ∀ t, x.accessFor t = none) : Cells.accessOf (update c k x) R = c.accessOf R :=
  lookup_update_of_none hold hnew

theorem entryFor_entryNode {s : UInt8} {p : Pubkey × Pubkey} (hp : p ≠ (t, w)) :
    Cell.entryFor p (.holds (.entry (entryNode t w s))) = none :=
  if_neg fun h => hp (Prod.ext h.1.symm h.2.symm)

theorem entryFor_entryNode_self {s : UInt8} :
    Cell.entryFor (t, w) (.holds (.entry (entryNode t w s))) = some s := if_pos ⟨rfl, rfl⟩

theorem accessFor_of_ne {a : ThreadAccess} {t' : Pubkey} (h : t' ≠ a.thread) :
    Cell.accessFor t' (.holds (.access a)) = none := if_neg (Ne.symm h)

theorem accessFor_self {a : ThreadAccess} :
    Cell.accessFor a.thread (.holds (.access a)) = some a := if_pos rfl

/-- Opening a shard touches no entry. -/
theorem standing_open : (c.open k).standing R = c.standing R := by
  unfold Cells.open
  split
  · rename_i hf
    rw [Cell.isFree_iff] at hf
    exact standing_update_of_none (fun p => by rw [hf]; rfl) fun p => rfl
  · rfl

theorem accessOf_open : (c.open k).accessOf R = c.accessOf R := by
  unfold Cells.open
  split
  · rename_i hf
    rw [Cell.isFree_iff] at hf
    exact accessOf_update_of_none (fun p => by rw [hf]; rfl) fun p => rfl
  · rfl

/-! ## 3. What the acts do to the map -/

theorem SetEntry.Ok.standing {d : SetEntry} (h : d.Ok R sv accounts σ σ') :
    (σ'.cell R).standing R = update ((σ.cell R).standing R) d.old.thread
      (update ((σ.cell R).standing R d.old.thread) d.wallet (some d.status)) := by
  have ha := h.access_holds.cell h.access_tag
  rw [h.cells, standing_update_of_none, standing_update h.entry_addr, entryFor_entryNode_self]
  · intro p hp
    have hb := h.before
    cases hprev : d.prev with
    | none =>
      simp only [SetEntry.Before, hprev] at hb
      rw [cell_eq_free.mpr hb]
      rfl
    | some s =>
      simp only [SetEntry.Before, hprev] at hb
      have he := hb.cell rfl
      rw [he]
      exact entryFor_entryNode hp
  · exact fun p hp => entryFor_entryNode hp
  · intro p
    rw [update_of_ne h.access_ne, ha]
    rfl
  · exact fun p => rfl

/-- The previous status is the one the map had. -/
theorem SetEntry.Ok.prev_eq {d : SetEntry} (h : d.Ok R sv accounts σ σ') :
    (σ.cell R).standing R d.old.thread d.wallet = d.prev := by
  have hb := h.before
  rw [standing_of_address h.entry_addr]
  cases hprev : d.prev with
  | none =>
    simp only [SetEntry.Before, hprev] at hb
    rw [cell_eq_free.mpr hb]
    rfl
  | some s =>
    simp only [SetEntry.Before, hprev] at hb
    have he := hb.cell rfl
    rw [he]
    exact entryFor_entryNode_self

theorem SetEntry.Ok.accessOf {d : SetEntry} (h : d.Ok R sv accounts σ σ') :
    (σ.cell R).accessOf R d.old.thread = some d.old ∧
      (σ'.cell R).accessOf R =
        update ((σ.cell R).accessOf R) d.old.thread (some (d.old.shift d.delta)) := by
  have ha := h.access_holds.cell h.access_tag
  refine ⟨accessOf_eq_some.mpr ⟨_, h.access_addr, ha, rfl⟩, ?_⟩
  rw [h.cells, accessOf_update h.access_addr, accessOf_update_of_none]
  · exact congrArg _ (accessFor_self (a := d.old.shift d.delta))
  · intro p
    have hb := h.before
    cases hprev : d.prev with
    | none =>
      simp only [SetEntry.Before, hprev] at hb
      rw [cell_eq_free.mpr hb]
      rfl
    | some s =>
      simp only [SetEntry.Before, hprev] at hb
      have he := hb.cell rfl
      rw [he]
      rfl
  · exact fun p => rfl
  · intro t ht
    rw [update_of_ne h.access_ne, ha]
    exact accessFor_of_ne ht
  · exact fun t ht => accessFor_of_ne (a := d.old.shift d.delta) ht

theorem RemoveEntry.Ok.standing {d : RemoveEntry} (h : d.Ok R accounts σ σ') :
    (σ.cell R).standing R d.old.thread d.wallet = some d.status ∧
      (σ'.cell R).standing R = update ((σ.cell R).standing R) d.old.thread
        (update ((σ.cell R).standing R d.old.thread) d.wallet none) := by
  have ha := h.access_holds.cell h.access_tag
  have he := h.entry_holds.cell rfl
  refine ⟨?_, ?_⟩
  · rw [standing_of_address h.entry_addr, he]
    exact entryFor_entryNode_self
  · rw [h.cells, standing_update_of_none, standing_update h.entry_addr]
    · rfl
    · intro p hp
      rw [he]
      exact entryFor_entryNode hp
    · exact fun p _ => rfl
    · intro p
      rw [update_of_ne h.access_ne, ha]
      rfl
    · exact fun p => rfl

theorem RemoveEntry.Ok.accessOf {d : RemoveEntry} (h : d.Ok R accounts σ σ') :
    (σ.cell R).accessOf R d.old.thread = some d.old ∧
      (σ'.cell R).accessOf R =
        update ((σ.cell R).accessOf R) d.old.thread (some (d.old.shift d.delta)) := by
  have ha := h.access_holds.cell h.access_tag
  have he := h.entry_holds.cell rfl
  refine ⟨accessOf_eq_some.mpr ⟨_, h.access_addr, ha, rfl⟩, ?_⟩
  rw [h.cells, accessOf_update h.access_addr, accessOf_update_of_none]
  · exact congrArg _ (accessFor_self (a := d.old.shift d.delta))
  · intro p
    rw [he]
    rfl
  · exact fun p => rfl
  · intro t ht
    rw [update_of_ne h.access_ne, ha]
    exact accessFor_of_ne ht
  · exact fun t ht => accessFor_of_ne (a := d.old.shift d.delta) ht

theorem RequestAccess.Ok.standing {d : RequestAccess} (h : d.Ok R sv accounts σ σ') :
    (σ.cell R).standing R d.thread d.payer = none ∧
      (σ'.cell R).standing R = update ((σ.cell R).standing R) d.thread
        (update ((σ.cell R).standing R d.thread) d.payer (some accessAllowed)) := by
  have ha := h.access_holds.cell h.access_tag
  have hf := cell_eq_free (R := R).mpr h.entry_free
  have hopen : (((σ.cell R).open d.treasury).open d.author) d.entry = .free := by
    rw [Cells.open, Cells.open]
    split <;> split <;> simp [h.entry_ne_treasury, h.entry_ne_author, hf]
  refine ⟨?_, ?_⟩
  · rw [standing_of_address h.entry_addr, hf]
    rfl
  · rw [h.cells, standing_update_of_none, standing_update h.entry_addr, standing_open,
      standing_open, entryFor_entryNode_self]
    · intro p _
      rw [hopen]
      rfl
    · exact fun p hp => entryFor_entryNode hp
    · intro p
      have hne : σ.cell R d.access ≠ .free := by
        rw [ha]
        nofun
      rw [update_of_ne h.access_ne, Cells.open_of_ne_free, Cells.open_of_ne_free hne, ha]
      · rfl
      · rw [Cells.open_of_ne_free hne]
        exact hne
    · exact fun p => rfl

theorem RequestAccess.Ok.accessOf {d : RequestAccess} (h : d.Ok R sv accounts σ σ') :
    (σ.cell R).accessOf R d.thread = some d.old ∧
      (σ'.cell R).accessOf R =
        update ((σ.cell R).accessOf R) d.thread (some (d.old.shift 1)) := by
  have ha := h.access_holds.cell h.access_tag
  have hth := h.access_thread
  have hf := cell_eq_free (R := R).mpr h.entry_free
  have hopen : (((σ.cell R).open d.treasury).open d.author) d.entry = .free := by
    rw [Cells.open, Cells.open]
    split <;> split <;> simp [h.entry_ne_treasury, h.entry_ne_author, hf]
  refine ⟨accessOf_eq_some.mpr ⟨_, h.access_addr, ha, hth⟩, ?_⟩
  rw [h.cells, accessOf_update h.access_addr, accessOf_update_of_none, accessOf_open, accessOf_open]
  · congr 1
    exact accessFor_eq_some.mpr ⟨rfl, hth⟩
  · intro p
    rw [hopen]
    rfl
  · exact fun p => rfl
  · intro t ht
    have hne : σ.cell R d.access ≠ .free := by
      rw [ha]
      nofun
    rw [update_of_ne h.access_ne, Cells.open_of_ne_free, Cells.open_of_ne_free hne, ha]
    · exact accessFor_of_ne (hth ▸ ht)
    · rw [Cells.open_of_ne_free hne]
      exact hne
  · exact fun t ht => accessFor_of_ne (a := d.old.shift 1) (show t ≠ d.old.thread from hth ▸ ht)

end Txtcel
