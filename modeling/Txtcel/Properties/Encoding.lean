import Txtcel.State.Loaders

/-!
# `size()` is the exact length, and accounts round trip

Each of the nine account types has a hand-written `size` and a derived layout. They agree, and a
value written into a buffer of that size is what is read back, byte for byte.

* `RoundTrip`: the laws of one type;
* `roundTrip_of`: they follow from the length, for any type of the format;
* `accounts_roundTrip`: all nine types, and the two lenient loaders.
-/

namespace Txtcel

open Lib Exec Borsh

variable {α : Type} [Borsh α]

/-! ## 1. One type -/

/-- The laws of a type whose values are stored in `size x` bytes; `Short` bounds its vectors. -/
structure RoundTrip (α : Type) [Borsh α] (Short : α → Prop) (size : α → Nat) : Prop where
  length : ∀ x, Short x → (serialize x).length = size x
  /-- Every byte of the buffer is overwritten, whatever was in it. -/
  overwrites : ∀ x buf, Short x → buf.length = size x →
    overwrite buf (serialize x) = some (serialize x)
  stores : ∀ x (a : AccountInfo) (σ : Ledger), Short x → (σ.data a.key).length = size x →
    serializeInto a x σ = .ok ((), σ.setData a.key (serialize x))
  reads : ∀ x, Short x → tryFromSlice α (serialize x) = some x
  rejects_prefix : ∀ x bs, Short x → bs <+: serialize x → bs ≠ serialize x →
    tryFromSlice α bs = none
  rejects_extension : ∀ x r, Short x → r ≠ [] → tryFromSlice α (serialize x ++ r) = none
  /-- What is accepted is the serialization of what was read. -/
  canonical : ∀ bs x, tryFromSlice α bs = some x → Short x ∧ serialize x = bs

/-- **The laws follow from the length.** -/
theorem roundTrip_of {Short : α → Prop} {size : α → Nat} (hfits : ∀ x, Fits x ↔ Short x)
    (hsize : ∀ x, (serialize x).length = size x) : RoundTrip α Short size where
  length x _ := hsize x
  overwrites x buf _ hlen := overwrite_of_length_eq ((hsize x).trans hlen.symm)
  stores x a σ _ hlen := serializeInto_eq ((hsize x).trans hlen.symm)
  reads x hx := tryFromSlice_eq_some.mpr ⟨(hfits x).mpr hx, rfl⟩
  rejects_prefix x bs hx := tryFromSlice_of_prefix ((hfits x).mpr hx)
  rejects_extension x r hx := tryFromSlice_append ((hfits x).mpr hx)
  canonical bs x h := by
    obtain ⟨hf, rfl⟩ := tryFromSlice_eq_some.mp h
    exact ⟨(hfits x).mp hf, rfl⟩

/-- A type of fixed size has no vectors to bound. -/
theorem roundTrip_fixed {n : Nat} (hfits : ∀ x : α, Fits x)
    (hsize : ∀ x : α, (serialize x).length = n) : RoundTrip α (fun _ => True) fun _ => n :=
  roundTrip_of (fun x => iff_of_true (hfits x) trivial) hsize

/-! ## 2. The lenient loaders -/

section Lenient

variable {a : AccountInfo} {σ σ' : Ledger}

/-- On an account of the right size, the loader reads strictly. -/
theorem loadThreadAccess_strict {x : ThreadAccess}
    (hlen : (σ.data a.key).length = ThreadAccess.size) :
    loadThreadAccess a σ = .ok (x, σ') ↔
      tryFromSlice ThreadAccess (σ.data a.key) = some x ∧ x.tag = tagAccess ∧ σ' = σ := by
  rw [← deserialize_of_length ThreadAccess.length hlen]
  simp only [loadThreadAccess, bind_eq_ok, dataOf_eq_ok, orFail_eq_ok, failIf_eq_ok, pure_eq_ok,
    and_assoc, true_and, and_true, existsAndEq, exists_and_left, exists_const, Prod.exists, ne_eq,
    not_not, Option.map_eq_some_iff]
  exact exists_and_right

theorem loadAccessEntry_strict {x : AccessEntry}
    (hlen : (σ.data a.key).length = AccessEntry.size) :
    loadAccessEntry a σ = .ok (x, σ') ↔
      tryFromSlice AccessEntry (σ.data a.key) = some x ∧ x.tag = tagAccessEntry ∧ σ' = σ := by
  rw [← deserialize_of_length AccessEntry.length hlen]
  simp only [loadAccessEntry, bind_eq_ok, dataOf_eq_ok, orFail_eq_ok, failIf_eq_ok, pure_eq_ok,
    and_assoc, true_and, and_true, existsAndEq, exists_and_left, exists_const, Prod.exists, ne_eq,
    not_not, Option.map_eq_some_iff]
  exact exists_and_right

end Lenient

/-! ## 3. All nine types -/

/-- **Every account type is stored in exactly `size` bytes and round trips**, and on accounts of
    their size the two lenient loaders accept what strict decoding accepts. -/
theorem accounts_roundTrip :
    RoundTrip ContentNode (fun x => x.body.length < 2 ^ 32)
        (fun x => ContentNode.size x.body.length) ∧
      RoundTrip AllocNode (fun _ => True) (fun _ => AllocNode.size) ∧
      RoundTrip ThreadNode (fun x => x.title.length < 2 ^ 32)
        (fun x => ThreadNode.size x.title.length) ∧
      RoundTrip ProgramSettings (fun _ => True) (fun _ => ProgramSettings.size) ∧
      RoundTrip ThreadAccess (fun _ => True) (fun _ => ThreadAccess.size) ∧
      RoundTrip AccessEntry (fun _ => True) (fun _ => AccessEntry.size) ∧
      RoundTrip AllocLikes (fun _ => True) (fun _ => AllocLikes.size) ∧
      RoundTrip FollowRegistry (fun x => x.channels.length < 2 ^ 32)
        (fun x => FollowRegistry.size x.channels.length) ∧
      RoundTrip FollowerShard (fun _ => True) (fun _ => FollowerShard.size) ∧
      (∀ (a : AccountInfo) (σ : Ledger) (x : ThreadAccess),
        (σ.data a.key).length = ThreadAccess.size →
        (loadThreadAccess a σ = .ok (x, σ) ↔
          tryFromSlice ThreadAccess (σ.data a.key) = some x ∧ x.tag = tagAccess)) ∧
      ∀ (a : AccountInfo) (σ : Ledger) (x : AccessEntry),
        (σ.data a.key).length = AccessEntry.size →
        (loadAccessEntry a σ = .ok (x, σ) ↔
          tryFromSlice AccessEntry (σ.data a.key) = some x ∧ x.tag = tagAccessEntry) := by
  refine ⟨roundTrip_of ContentNode.fits_iff ContentNode.length,
    roundTrip_fixed AllocNode.fits AllocNode.length,
    roundTrip_of ThreadNode.fits_iff ThreadNode.length,
    roundTrip_fixed ProgramSettings.fits ProgramSettings.length,
    roundTrip_fixed ThreadAccess.fits ThreadAccess.length,
    roundTrip_fixed AccessEntry.fits AccessEntry.length,
    roundTrip_fixed AllocLikes.fits AllocLikes.length,
    roundTrip_of FollowRegistry.fits_iff FollowRegistry.length,
    roundTrip_fixed FollowerShard.fits FollowerShard.length,
    fun a σ x hlen => ?_, fun a σ x hlen => ?_⟩
  · rw [loadThreadAccess_strict hlen]
    simp only [and_true]
  · rw [loadAccessEntry_strict hlen]
    simp only [and_true]

end Txtcel
