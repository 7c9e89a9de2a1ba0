import Txtcel.Lib.Borsh

/-!
# Borsh enumerations: a selector byte, then the fields of the variant

An enumeration is stored as the position of its variant, in one byte, and the tuple of that
variant's fields. `Coded ι` gives the variants `ι` their bytes; the fields of the variant `i` are
the type `P i`, so an enumeration is the sigma type `Σ i, P i` under another name.

* reading what was written gives the variant and its fields back (the laws of `Borsh`);
* the first byte is the selector (`serialize_sigma_head`), and it tells the variants apart
  (`code_injective`).
-/

namespace Lib

namespace Borsh

variable {ι : Type} {P : ι → Type}

/-- No fields are stored in no bytes. -/
instance : Borsh Unit where
  serialize _ := []
  deserialize bs := some ((), bs)
  Fits _ := True
  deserialize_serialize _ _ _ := rfl
  of_deserialize := by
    intro bs u rest h
    cases h
    exact ⟨trivial, rfl⟩

/-- The variants of an enumeration, each with its selector byte. -/
class Coded (ι : Type) where
  code : ι → UInt8
  ofCode : UInt8 → Option ι
  ofCode_code : ∀ i, ofCode (code i) = some i
  code_of : ∀ {b i}, ofCode b = some i → code i = b

open Coded

/-- The list of the variants, in the order of the declaration, gives each its position. -/
@[reducible] def codedOfList [DecidableEq ι] (all : List ι) (hmem : ∀ i, i ∈ all) (hnd : all.Nodup)
    (hlen : all.length ≤ 256) : Coded ι where
  code i := UInt8.ofNat (all.idxOf i)
  ofCode b := all[b.toNat]?
  ofCode_code i := by
    have hlt : all.idxOf i < all.length := List.idxOf_lt_length_iff.mpr (hmem i)
    have hb : (UInt8.ofNat (all.idxOf i)).toNat = all.idxOf i :=
      UInt8.toNat_ofNat_of_lt' (lt_of_lt_of_le hlt hlen)
    rw [hb, List.getElem?_eq_getElem hlt, List.getElem_idxOf hlt]
  code_of := by
    intro b i h
    obtain ⟨hlt, rfl⟩ := List.getElem?_eq_some_iff.mp h
    rw [hnd.idxOf_getElem, UInt8.ofNat_toNat]

/-- **An enumeration**: the selector, then the fields. -/
instance [Coded ι] [∀ i, Borsh (P i)] : Borsh (Σ i, P i) where
  serialize x := code x.1 :: serialize x.2
  deserialize
    | [] => none
    | b :: bs => (ofCode b : Option ι).bind fun i =>
      (deserialize bs : Option (P i × Bytes)).map fun p => (⟨i, p.1⟩, p.2)
  Fits x := Fits x.2
  deserialize_serialize x rest h := by
    simp [ofCode_code, deserialize_serialize x.2 rest h]
  of_deserialize := by
    intro bs x rest h
    cases bs with
    | nil => cases h
    | cons b bs =>
      simp only [Option.bind_eq_some_iff, Option.map_eq_some_iff, Prod.mk.injEq, Prod.exists] at h
      obtain ⟨i, hi, p, r, hp, rfl, rfl⟩ := h
      obtain ⟨hf, rfl⟩ := of_deserialize hp
      exact ⟨hf, by rw [← code_of hi]; rfl⟩

/-- Different variants have different selectors. -/
theorem code_injective [Coded ι] {i j : ι} (h : code i = code j) : i = j := by
  have hi := ofCode_code i
  rw [h, ofCode_code j] at hi
  exact (Option.some.inj hi).symm

/-- The first byte is the selector. -/
theorem serialize_sigma_head [Coded ι] [∀ i, Borsh (P i)] (x : Σ i, P i) :
    (serialize x).head? = some (code x.1) := rfl

/-- Of elements that always fit, only the number counts. -/
theorem fits_list {α : Type} [Borsh α] (h : ∀ a : α, Fits a) {as : List α} :
    Fits as ↔ as.length < 2 ^ 32 :=
  and_iff_left fun a _ => h a

end Borsh

end Lib
