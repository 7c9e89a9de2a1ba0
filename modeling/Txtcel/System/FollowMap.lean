import Mathlib.Data.List.Perm.Basic
import Txtcel.Lib.Lookup
import Txtcel.System.Machine

/-!
# The follow graph as a table

* `following c R w`: the channels in the registry of the wallet `w`, `none` when there is none;
* `tally c R (t, i)`: what the counter shard `i` of the channel `t` says.

Both are read off the cells. A follow adds one channel to one registry and one to one shard, an
unfollow takes one from each, and no other act changes either.
-/

namespace Txtcel

open Lib Function

variable {R : Runtime} {sv : Sysvars} {accounts : List AccountInfo} {σ σ' : Ledger}
  {ix : ProgramInstruction} {c : Cells} {k t w : Pubkey} {i : UInt8}

/-! ## 1. Reading the cells -/

/-- The channels that the cell lists for the wallet. -/
def Cell.channelsFor (w : Pubkey) : Cell → Option (List Pubkey)
  | .holds (.registry r) => if r.owner = w then some r.channels else none
  | _ => none

/-- The followers that the cell counts for the shard of the channel. -/
def Cell.tallyFor (p : Pubkey × UInt8) : Cell → Option Nat
  | .holds (.follower s) => if s.thread = p.1 ∧ s.shard = p.2 then some s.count.toNat else none
  | _ => none

def registryAddress (R : Runtime) (w : Pubkey) : Option Pubkey :=
  (deriveFollowRegistryPda R w).map (·.1)

def followerAddress (R : Runtime) (p : Pubkey × UInt8) : Option Pubkey :=
  (deriveFollowerShardPda R p.1 p.2).map (·.1)

/-- The registry of the wallet. -/
def Cells.following (c : Cells) (R : Runtime) : Pubkey → Option (List Pubkey) :=
  lookup (registryAddress R) Cell.channelsFor c

/-- The counter shards. -/
def Cells.tally (c : Cells) (R : Runtime) : Pubkey × UInt8 → Option Nat :=
  lookup (followerAddress R) Cell.tallyFor c

theorem registryAddress_eq_some :
    registryAddress R w = some k ↔ R.HasAddress (.followRegistry w) k := by
  simp only [registryAddress, Option.map_eq_some_iff, Prod.exists, exists_and_right,
    exists_eq_right]
  rfl

theorem followerAddress_eq_some :
    followerAddress R (t, i) = some k ↔ R.HasAddress (.followerShard t i) k := by
  simp only [followerAddress, Option.map_eq_some_iff, Prod.exists, exists_and_right,
    exists_eq_right]
  rfl

theorem channelsFor_self (r : FollowRegistry) :
    Cell.channelsFor r.owner (.holds (.registry r)) = some r.channels := if_pos rfl

theorem channelsFor_of_ne {r : FollowRegistry} (h : w ≠ r.owner) :
    Cell.channelsFor w (.holds (.registry r)) = none := if_neg (Ne.symm h)

theorem tallyFor_self (s : FollowerShard) :
    Cell.tallyFor (s.thread, s.shard) (.holds (.follower s)) = some s.count.toNat :=
  if_pos ⟨rfl, rfl⟩

theorem tallyFor_of_ne {s : FollowerShard} {p : Pubkey × UInt8} (h : p ≠ (s.thread, s.shard)) :
    Cell.tallyFor p (.holds (.follower s)) = none :=
  if_neg fun he => h (Prod.ext he.1.symm he.2.symm)

theorem channelsFor_eq_some {x : Cell} {cs : List Pubkey} (h : x.channelsFor w = some cs) :
    ∃ r : FollowRegistry, x = .holds (.registry r) ∧ r.owner = w ∧ r.channels = cs := by
  unfold Cell.channelsFor at h
  split at h
  · rename_i r
    split at h
    · rename_i ho
      exact ⟨r, rfl, ho, Option.some.inj h⟩
    · cases h
  · cases h

theorem tallyFor_eq_some {x : Cell} {n : Nat} (h : x.tallyFor (t, i) = some n) :
    ∃ s : FollowerShard, x = .holds (.follower s) ∧ s.thread = t ∧ s.shard = i ∧
      s.count.toNat = n := by
  unfold Cell.tallyFor at h
  split at h
  · rename_i s
    split at h
    · rename_i hp
      exact ⟨s, rfl, hp.1, hp.2, Option.some.inj h⟩
    · cases h
  · cases h

theorem channelsFor_of_not_holds {x : Cell} (w : Pubkey) (hx : ∀ a, x ≠ .holds a) :
    x.channelsFor w = none := by
  unfold Cell.channelsFor
  split
  · exact absurd rfl (hx _)
  · rfl

theorem tallyFor_of_not_holds {x : Cell} (p : Pubkey × UInt8) (hx : ∀ a, x ≠ .holds a) :
    x.tallyFor p = none := by
  unfold Cell.tallyFor
  split
  · exact absurd rfl (hx _)
  · rfl

/-- A registry of the wallet is live with these channels. -/
theorem following_eq_some {cs : List Pubkey} (h : c.following R w = some cs) :
    ∃ (k : Pubkey) (r : FollowRegistry), R.HasAddress (.followRegistry w) k ∧
      c k = .holds (.registry r) ∧ r.owner = w ∧ r.channels = cs := by
  obtain ⟨k, hk, hc⟩ := lookup_eq_some.mp h
  obtain ⟨r, hr⟩ := channelsFor_eq_some hc
  exact ⟨k, r, registryAddress_eq_some.mp hk, hr⟩

theorem following_of_address (h : R.HasAddress (.followRegistry w) k) :
    c.following R w = (c k).channelsFor w :=
  lookup_of_addr (registryAddress_eq_some.mpr h)

theorem tally_of_address (h : R.HasAddress (.followerShard t i) k) :
    c.tally R (t, i) = (c k).tallyFor (t, i) :=
  lookup_of_addr (followerAddress_eq_some.mpr h)

/-! ## 2. A follow -/

/-- Where the registry of a follow was created or held, no other wallet has channels. -/
theorem Subscribe.Ok.following {d : Subscribe} (h : d.Ok R sv accounts σ σ') :
    ((σ.cell R).following R d.user).getD [] = d.old.channels ∧
      (σ'.cell R).following R =
        update ((σ.cell R).following R) d.user (some d.new.channels) := by
  have hrb := h.registry_before
  have hsb := h.shard_before
  have hown : d.new.owner = d.user := by
    cases hp : d.prevRegistry with
    | none => simp [Subscribe.new, Subscribe.old, hp, emptyRegistry]
    | some r =>
      simp only [Subscribe.RegistryBefore, hp] at hrb
      simp [Subscribe.new, Subscribe.old, hp, hrb.2.2]
  have hold : (∀ w, w ≠ d.user → (σ.cell R d.registry).channelsFor w = none) ∧
      ((σ.cell R d.registry).channelsFor d.user).getD [] = d.old.channels := by
    cases hp : d.prevRegistry with
    | none =>
      simp only [Subscribe.RegistryBefore, hp] at hrb
      rw [cell_eq_free.mpr hrb, Subscribe.old, hp]
      exact ⟨fun w _ => rfl, rfl⟩
    | some r =>
      simp only [Subscribe.RegistryBefore, hp] at hrb
      obtain ⟨hr, htag, ho⟩ := hrb
      have hcell := hr.cell htag
      rw [hcell, Subscribe.old, hp, ← ho]
      exact ⟨fun w hw => channelsFor_of_ne hw, congrArg (Option.getD · []) (channelsFor_self r)⟩
  have hshard : ∀ w, (σ.cell R d.shard).channelsFor w = none := by
    intro w
    cases hp : d.prevShard with
    | none =>
      simp only [Subscribe.ShardBefore, hp] at hsb
      rw [cell_eq_free.mpr hsb.1]
      rfl
    | some s =>
      simp only [Subscribe.ShardBefore, hp] at hsb
      have hcell := hsb.1.cell hsb.2.1
      rw [hcell]
      rfl
  refine ⟨?_, ?_⟩
  · rw [following_of_address h.registry_addr]
    exact hold.2
  · rw [h.cells, Cells.following, lookup_update_of_none, lookup_update
      (registryAddress_eq_some.mpr h.registry_addr) hold.1]
    · rw [← hown, channelsFor_self]
      rfl
    · exact fun w hw => channelsFor_of_ne (hown ▸ hw)
    · intro w
      rw [update_of_ne h.registry_ne.symm]
      exact hshard w
    · exact fun w => rfl

theorem Subscribe.Ok.tally {d : Subscribe} (h : d.Ok R sv accounts σ σ') :
    d.count.toNat = ((σ.cell R).tally R (d.thread, followerShardIndex d.user)).getD 0 + 1 ∧
      (σ'.cell R).tally R = update ((σ.cell R).tally R)
        (d.thread, followerShardIndex d.user) (some d.count.toNat) := by
  have hrb := h.registry_before
  have hsb := h.shard_before
  have hold : (∀ p, p ≠ (d.thread, followerShardIndex d.user) →
      (σ.cell R d.shard).tallyFor p = none) ∧ d.count.toNat =
        ((σ.cell R d.shard).tallyFor (d.thread, followerShardIndex d.user)).getD 0 + 1 := by
    cases hp : d.prevShard with
    | none =>
      simp only [Subscribe.ShardBefore, hp] at hsb
      rw [cell_eq_free.mpr hsb.1, hsb.2]
      exact ⟨fun p _ => rfl, rfl⟩
    | some s =>
      simp only [Subscribe.ShardBefore, hp] at hsb
      obtain ⟨hs, htag, ht, hi, hcount⟩ := hsb
      have hcell := hs.cell htag
      rw [hcell, ← ht, ← hi]
      refine ⟨fun p hp => tallyFor_of_ne hp, ?_⟩
      rw [hcount]
      exact congrArg (fun o => Option.getD o 0 + 1) (tallyFor_self s).symm
  have hreg : ∀ p, (σ.cell R d.registry).tallyFor p = none := by
    intro p
    cases hp : d.prevRegistry with
    | none =>
      simp only [Subscribe.RegistryBefore, hp] at hrb
      rw [cell_eq_free.mpr hrb]
      rfl
    | some r =>
      simp only [Subscribe.RegistryBefore, hp] at hrb
      have hcell := hrb.1.cell hrb.2.1
      rw [hcell]
      rfl
  refine ⟨?_, ?_⟩
  · rw [tally_of_address h.shard_addr]
    exact hold.2
  · rw [h.cells, Cells.tally, lookup_update (followerAddress_eq_some.mpr h.shard_addr),
      lookup_update_of_none hreg fun p => rfl]
    · rw [show Cell.tallyFor (d.thread, followerShardIndex d.user) (.holds (.follower d.newShard)) =
        some d.count.toNat from tallyFor_self d.newShard]
      rfl
    · intro p hp
      rw [update_of_ne h.registry_ne.symm]
      exact hold.1 p hp
    · exact fun p hp => tallyFor_of_ne (s := d.newShard) hp

/-! ## 3. An unfollow -/

/-- The removed element is gone, and the others stay. -/
theorem swapRemove_perm {α : Type} {xs : List α} {pos : Nat} (h : pos < xs.length) :
    (swapRemove xs pos).Perm (xs.eraseIdx pos) := by
  obtain ⟨ys, y, rfl⟩ := List.eq_nil_or_concat xs |>.resolve_left (by rintro rfl; simp at h)
  rw [List.concat_eq_append] at h ⊢
  rw [List.length_append, List.length_singleton] at h
  simp only [swapRemove, List.getLast?_append, List.getLast?_singleton, Option.some_or]
  by_cases hlast : pos = ys.length
  · subst hlast
    rw [List.set_append_right _ _ (le_refl _), List.eraseIdx_append_of_length_le (le_refl _)]
    simp
  · have hpos : pos < ys.length := by omega
    rw [List.set_append_left _ _ hpos, List.eraseIdx_append_of_lt_length hpos,
      List.dropLast_concat]
    exact (List.set_perm_cons_eraseIdx hpos y).trans (List.perm_append_singleton _ _).symm

/-- What is left of a list at whose position the channel was found. -/
theorem swapRemove_position {xs : List Pubkey} {pos : Nat} (h : position xs t = some pos) :
    (swapRemove xs pos).Perm (xs.erase t) := by
  obtain ⟨hlt, -⟩ := List.idxOf?_eq_some_iff.mp h
  rw [List.erase_eq_eraseIdx, show xs.idxOf? t = some pos from h]
  exact swapRemove_perm hlt

theorem mem_of_position {xs : List Pubkey} {pos : Nat} (h : position xs t = some pos) : t ∈ xs := by
  obtain ⟨hlt, ht, -⟩ := List.idxOf?_eq_some_iff.mp h
  exact ht ▸ List.getElem_mem hlt

theorem Unsubscribe.Ok.following {d : Unsubscribe} (h : d.Ok R sv accounts σ σ') :
    (σ.cell R).following R d.user = some d.old.channels ∧
      (σ'.cell R).following R =
        update ((σ.cell R).following R) d.user (some d.new.channels) := by
  have hreg := h.registry_holds.cell h.registry_tag
  have hsh := h.shard_holds.cell h.shard_tag
  have hown := h.registry_owner
  have hself : Cell.channelsFor d.user (.holds (.registry d.old)) = some d.old.channels :=
    hown ▸ channelsFor_self d.old
  refine ⟨?_, ?_⟩
  · rw [following_of_address h.registry_addr, hreg]
    exact hself
  · rw [h.cells, Cells.following, lookup_update_of_none, lookup_update
      (registryAddress_eq_some.mpr h.registry_addr)]
    · rw [show Cell.channelsFor d.user (.holds (.registry d.new)) = some d.new.channels from
        hown ▸ channelsFor_self d.new]
      rfl
    · intro w hw
      rw [hreg]
      exact channelsFor_of_ne (hown ▸ hw)
    · exact fun w hw => channelsFor_of_ne (r := d.new) (show w ≠ d.old.owner from hown ▸ hw)
    · intro w
      rw [update_of_ne h.registry_ne.symm, hsh]
      rfl
    · exact fun w => rfl

theorem Unsubscribe.Ok.tally {d : Unsubscribe} (h : d.Ok R sv accounts σ σ') :
    (σ.cell R).tally R (d.thread, followerShardIndex d.user) = some d.oldShard.count.toNat ∧
      (σ'.cell R).tally R = update ((σ.cell R).tally R)
        (d.thread, followerShardIndex d.user) (some d.newShard.count.toNat) := by
  have hreg := h.registry_holds.cell h.registry_tag
  have hsh := h.shard_holds.cell h.shard_tag
  have hth := h.shard_thread
  have hi := h.shard_index
  have hself : Cell.tallyFor (d.thread, followerShardIndex d.user) (.holds (.follower d.oldShard)) =
      some d.oldShard.count.toNat := by
    rw [← hth, ← hi]
    exact tallyFor_self d.oldShard
  have hnew : Cell.tallyFor (d.thread, followerShardIndex d.user) (.holds (.follower d.newShard)) =
      some d.newShard.count.toNat := by
    rw [← hth, ← hi]
    exact tallyFor_self d.newShard
  refine ⟨?_, ?_⟩
  · rw [tally_of_address h.shard_addr, hsh]
    exact hself
  · rw [h.cells, Cells.tally, lookup_update (followerAddress_eq_some.mpr h.shard_addr),
      lookup_update_of_none _ fun p => rfl, hnew]
    · rfl
    · intro p
      rw [hreg]
      rfl
    · intro p hp
      rw [update_of_ne h.registry_ne.symm, hsh]
      exact tallyFor_of_ne (by rw [hth, hi]; exact hp)
    · exact fun p hp => tallyFor_of_ne (s := d.newShard)
        (show p ≠ (d.oldShard.thread, d.oldShard.shard) by rw [hth, hi]; exact hp)

/-! ## 4. Every act -/

/-- What an instruction that is no follow and no unfollow leaves alone. -/
theorem Change.follow {x y : Cell} (h : Change R sv accounts σ σ' ix k x y)
    (hsub : ix ≠ .subscribe) (hunsub : ix ≠ .unsubscribe) :
    (∀ w, y.channelsFor w = x.channelsFor w) ∧ ∀ p, y.tallyFor p = x.tallyFor p := by
  cases h with
  | createRegistry d h hp hix => exact absurd hix hsub
  | growRegistry d h r hp hix => exact absurd hix hsub
  | createFollower d h hp hix => exact absurd hix hsub
  | bumpFollower d h s hp hix => exact absurd hix hsub
  | shrinkRegistry d h hix => exact absurd hix hunsub
  | dropFollower d h hix => exact absurd hix hunsub
  | _ => exact ⟨fun _ => rfl, fun _ => rfl⟩

/-- **The acts, as far as following goes**: a follow, an unfollow, or one that changes neither
    registries nor counters. -/
theorem Act.follow_cases (h : Act R sv accounts σ σ' ix) :
    (∃ d : Subscribe, d.Ok R sv accounts σ σ' ∧ ix = .subscribe) ∨
    (∃ d : Unsubscribe, d.Ok R sv accounts σ σ' ∧ ix = .unsubscribe) ∨
    (ix ≠ .subscribe ∧ ix ≠ .unsubscribe ∧
      (σ'.cell R).following R = (σ.cell R).following R ∧
      (σ'.cell R).tally R = (σ.cell R).tally R) := by
  by_cases hsub : ix = .subscribe
  · subst hsub
    cases h with
    | subscribe d h => exact .inl ⟨d, h, rfl⟩
    | settingsEdit d h hix => exact hix.elim
    | threadEdit d h hix => exact hix.elim
    | accessEdit d h hix => exact hix.elim
    | setEntry d h hix => cases hix
    | removeEntry d h hix => cases hix
  · by_cases hunsub : ix = .unsubscribe
    · subst hunsub
      cases h with
      | unsubscribe d h => exact .inr (.inl ⟨d, h, rfl⟩)
      | settingsEdit d h hix => exact hix.elim
      | threadEdit d h hix => exact hix.elim
      | accessEdit d h hix => exact hix.elim
      | setEntry d h hix => cases hix
      | removeEntry d h hix => cases hix
    · have hsame (k : Pubkey) : (∀ w, (σ'.cell R k).channelsFor w = (σ.cell R k).channelsFor w) ∧
          ∀ p, (σ'.cell R k).tallyFor p = (σ.cell R k).tallyFor p := by
        rcases h.change k with he | hc
        · rw [he]
          exact ⟨fun _ => rfl, fun _ => rfl⟩
        · exact hc.follow hsub hunsub
      exact .inr (.inr ⟨hsub, hunsub, funext fun w => lookup_congr fun k _ => (hsame k).1 w,
        funext fun p => lookup_congr fun k _ => (hsame k).2 p⟩)

end Txtcel
