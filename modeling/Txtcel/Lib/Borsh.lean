import Mathlib.Logic.Equiv.Defs
import Mathlib.Data.Nat.ModEq
import Mathlib.Tactic.Ring

/-!
# Borsh: a byte format read from the front

A type with a `Borsh` instance has a serialization and a reader. The reader takes what it needs
from the front of a byte string and gives back the rest. The two laws are fields of the class, so
an instance that breaks the format cannot be declared:

* reading what was written gives the value back and leaves the rest alone;
* a reader accepts only what the serialization of the value it returns starts with.

`Fits a` is the only side condition: a vector is written behind a 32-bit length, so its length has
to be below `2 ^ 32`. Fixed-width values always fit, and a value that was read always fits.

`tryFromSlice` is the strict reader (no byte left over), `deserialize` the lenient one, and
`overwrite` writes into the front of a buffer that is already there.
-/

namespace Lib

abbrev Bytes := List UInt8

/-! ## 1. Little-endian numbers -/

/-- The `k` low bytes of `v`, the least significant first. -/
def littleEndian : Nat → Nat → Bytes
  | 0, _ => []
  | k + 1, v => UInt8.ofNat (v % 256) :: littleEndian k (v / 256)

/-- Reads `k` bytes as a number, the least significant first. -/
def readLittle : Nat → Bytes → Option (Nat × Bytes)
  | 0, bs => some (0, bs)
  | _ + 1, [] => none
  | k + 1, b :: bs => (readLittle k bs).map fun p => (b.toNat + 256 * p.1, p.2)

@[simp] theorem littleEndian_length (k v : Nat) : (littleEndian k v).length = k := by
  induction k generalizing v with
  | zero => rfl
  | succ k ih => simp [littleEndian, ih]

theorem readLittle_littleEndian (k v : Nat) (rest : Bytes) (hv : v < 256 ^ k) :
    readLittle k (littleEndian k v ++ rest) = some (v, rest) := by
  induction k generalizing v with
  | zero =>
    have h0 : v = 0 := by simpa using hv
    subst h0
    rfl
  | succ k ih =>
    have hd : v / 256 < 256 ^ k := Nat.div_lt_of_lt_mul (by rw [← Nat.pow_succ']; exact hv)
    have hb : (UInt8.ofNat (v % 256)).toNat = v % 256 := by
      simp
    simp only [littleEndian, List.cons_append, readLittle, ih _ hd, Option.map_some, hb]
    congr 2
    omega

/-- What was read is what `littleEndian` writes. -/
theorem readLittle_eq_some {k : Nat} {bs rest : Bytes} {v : Nat} (h : readLittle k bs = some (v, rest)) :
    v < 256 ^ k ∧ bs = littleEndian k v ++ rest := by
  induction k generalizing bs v with
  | zero =>
    simp only [readLittle, Option.some.injEq, Prod.mk.injEq] at h
    obtain ⟨rfl, rfl⟩ := h
    exact ⟨Nat.one_pos, rfl⟩
  | succ k ih =>
    cases bs with
    | nil => cases h
    | cons b bs =>
      simp only [readLittle, Option.map_eq_some_iff, Prod.mk.injEq, Prod.exists] at h
      obtain ⟨w, r, hw, rfl, rfl⟩ := h
      obtain ⟨hlt, rfl⟩ := ih hw
      have hb : b.toNat < 256 := b.toNat_lt
      have hmod : (b.toNat + 256 * w) % 256 = b.toNat := by omega
      have hdiv : (b.toNat + 256 * w) / 256 = w := by omega
      refine ⟨?_, ?_⟩
      · rw [Nat.pow_succ]
        omega
      · simp [littleEndian, hmod, hdiv]

/-! ## 2. The class -/

/-- A value with a Borsh serialization. `Fits` says its vectors are short enough to be written. -/
class Borsh (α : Type) where
  serialize : α → Bytes
  deserialize : Bytes → Option (α × Bytes)
  Fits : α → Prop
  deserialize_serialize : ∀ a rest, Fits a → deserialize (serialize a ++ rest) = some (a, rest)
  of_deserialize : ∀ {bs a rest}, deserialize bs = some (a, rest) →
    Fits a ∧ bs = serialize a ++ rest

namespace Borsh

variable {α β : Type}

/-- **The lenient reader accepts exactly the serializations, with any tail.** -/
theorem deserialize_eq_some [Borsh α] {bs rest : Bytes} {a : α} :
    deserialize bs = some (a, rest) ↔ Fits a ∧ bs = serialize a ++ rest := by
  constructor
  · exact of_deserialize
  · rintro ⟨hf, rfl⟩
    exact deserialize_serialize a rest hf

/-- The strict reader: no byte may be left over. -/
def tryFromSlice (α : Type) [Borsh α] (bs : Bytes) : Option α :=
  match (deserialize bs : Option (α × Bytes)) with
  | some (a, []) => some a
  | _ => none

/-- **The strict reader accepts exactly the serializations.** -/
theorem tryFromSlice_eq_some [Borsh α] {bs : Bytes} {a : α} :
    tryFromSlice α bs = some a ↔ Fits a ∧ bs = serialize a := by
  unfold tryFromSlice
  constructor
  · intro h
    split at h
    · rename_i b hb
      cases h
      simpa using of_deserialize hb
    · cases h
  · rintro ⟨hf, rfl⟩
    have h := deserialize_serialize a [] hf
    rw [List.append_nil] at h
    rw [h]

/-- Two serializations that agree up to their tails are of one value. -/
theorem serialize_append_inj [Borsh α] {a b : α} {r s : Bytes} (ha : Fits a) (hb : Fits b)
    (h : serialize a ++ r = serialize b ++ s) : a = b ∧ r = s := by
  have h1 := deserialize_serialize a r ha
  rw [h, deserialize_serialize b s hb] at h1
  simpa [eq_comm] using h1

theorem serialize_inj [Borsh α] {a b : α} (ha : Fits a) (hb : Fits b)
    (h : serialize a = serialize b) : a = b :=
  (serialize_append_inj (r := []) (s := []) ha hb (by simpa using h)).1

/-- What is cut off the end of a serialization cannot be read. -/
theorem tryFromSlice_of_prefix [Borsh α] {a : α} {bs : Bytes} (ha : Fits a)
    (h : bs <+: serialize a) (hne : bs ≠ serialize a) : tryFromSlice α bs = none := by
  cases hr : tryFromSlice α bs with
  | none => rfl
  | some b =>
    obtain ⟨hb, rfl⟩ := tryFromSlice_eq_some.mp hr
    obtain ⟨r, hrest⟩ := h
    have heq : serialize a ++ [] = serialize b ++ r := by rw [List.append_nil, hrest]
    rw [(serialize_append_inj ha hb heq).1] at hne
    exact absurd rfl hne

/-- Nor what has bytes behind it. -/
theorem tryFromSlice_append [Borsh α] {a : α} {r : Bytes} (ha : Fits a) (hr : r ≠ []) :
    tryFromSlice α (serialize a ++ r) = none := by
  cases hread : tryFromSlice α (serialize a ++ r) with
  | none => rfl
  | some b =>
    obtain ⟨hb, hbytes⟩ := tryFromSlice_eq_some.mp hread
    have heq : serialize a ++ r = serialize b ++ [] := by rw [List.append_nil, hbytes]
    exact absurd (serialize_append_inj ha hb heq).2 hr

/-- **On a buffer of the right length the lenient reader is the strict one**, for a type of fixed
    width. -/
theorem deserialize_of_length [Borsh α] {n : Nat} (hn : ∀ a : α, (serialize a).length = n)
    {bs : Bytes} (hlen : bs.length = n) :
    (deserialize bs).map Prod.fst = tryFromSlice α bs := by
  cases hr : (deserialize bs : Option (α × Bytes)) with
  | none => simp [tryFromSlice, hr]
  | some p =>
    obtain ⟨a, rest⟩ := p
    obtain ⟨ha, rfl⟩ := deserialize_eq_some.mp hr
    have hrest : rest = [] := by
      rw [List.length_append, hn] at hlen
      exact List.eq_nil_of_length_eq_zero (by omega)
    subst hrest
    rw [List.append_nil] at hr ⊢
    exact (tryFromSlice_eq_some.mpr ⟨ha, rfl⟩).symm

/-! ## 3. Instances -/

/-- A number type stored in `k` little-endian bytes. -/
@[reducible] def ofNatLittle (k : Nat) (toNat : α → Nat) (ofNat : Nat → α)
    (hlt : ∀ a, toNat a < 256 ^ k) (hof : ∀ a, ofNat (toNat a) = a)
    (hto : ∀ n, n < 256 ^ k → toNat (ofNat n) = n) : Borsh α where
  serialize a := littleEndian k (toNat a)
  deserialize bs := (readLittle k bs).map fun p => (ofNat p.1, p.2)
  Fits _ := True
  deserialize_serialize a rest _ := by
    simp [readLittle_littleEndian _ _ _ (hlt a), hof]
  of_deserialize := by
    intro bs a rest h
    simp only [Option.map_eq_some_iff, Prod.mk.injEq, Prod.exists] at h
    obtain ⟨v, r, hv, rfl, rfl⟩ := h
    obtain ⟨hlt, rfl⟩ := readLittle_eq_some hv
    exact ⟨trivial, by rw [hto v hlt]⟩

instance : Borsh UInt8 :=
  ofNatLittle 1 UInt8.toNat UInt8.ofNat (fun a => a.toNat_lt) (fun _ => UInt8.ofNat_toNat)
    (fun _ h => UInt8.toNat_ofNat_of_lt h)

instance : Borsh UInt16 :=
  ofNatLittle 2 UInt16.toNat UInt16.ofNat (fun a => a.toNat_lt) (fun _ => UInt16.ofNat_toNat)
    (fun _ h => UInt16.toNat_ofNat_of_lt h)

instance : Borsh UInt32 :=
  ofNatLittle 4 UInt32.toNat UInt32.ofNat (fun a => a.toNat_lt) (fun _ => UInt32.ofNat_toNat)
    (fun _ h => UInt32.toNat_ofNat_of_lt h)

instance : Borsh UInt64 :=
  ofNatLittle 8 UInt64.toNat UInt64.ofNat (fun a => a.toNat_lt) (fun _ => UInt64.ofNat_toNat)
    (fun _ h => UInt64.toNat_ofNat_of_lt h)

/-- The same format under another name: a record is stored as the tuple of its fields. -/
@[reducible] def ofEquiv (e : α ≃ β) [Borsh β] : Borsh α where
  serialize a := serialize (e a)
  deserialize bs := (deserialize bs).map fun p => (e.symm p.1, p.2)
  Fits a := Fits (e a)
  deserialize_serialize a rest h := by
    simp [deserialize_serialize (e a) rest h]
  of_deserialize := by
    intro bs a rest h
    simp only [Option.map_eq_some_iff, Prod.mk.injEq, Prod.exists] at h
    obtain ⟨b, r, hb, rfl, rfl⟩ := h
    simpa using of_deserialize hb

/-- A signed 64-bit integer is stored as its two's complement. -/
instance : Borsh Int64 :=
  ofEquiv ⟨Int64.toUInt64, UInt64.toInt64, fun _ => rfl, fun _ => rfl⟩

/-- A truth value is one byte, `0` or `1`; any other byte is rejected. -/
instance : Borsh Bool where
  serialize b := [if b then 1 else 0]
  deserialize
    | 0 :: bs => some (false, bs)
    | 1 :: bs => some (true, bs)
    | _ => none
  Fits _ := True
  deserialize_serialize b rest _ := by
    cases b <;> rfl
  of_deserialize := by
    intro bs b rest h
    split at h
    · cases h
      exact ⟨trivial, rfl⟩
    · cases h
      exact ⟨trivial, rfl⟩
    · cases h

/-- The fields of a tuple in order. -/
instance [Borsh α] [Borsh β] : Borsh (α × β) where
  serialize p := serialize p.1 ++ serialize p.2
  deserialize bs := (deserialize bs : Option (α × Bytes)).bind fun p =>
    (deserialize p.2 : Option (β × Bytes)).map fun q => ((p.1, q.1), q.2)
  Fits p := Fits p.1 ∧ Fits p.2
  deserialize_serialize p rest h := by
    simp [List.append_assoc, deserialize_serialize p.1 _ h.1, deserialize_serialize p.2 _ h.2]
  of_deserialize := by
    intro bs p rest h
    simp only [Option.bind_eq_some_iff, Option.map_eq_some_iff, Prod.mk.injEq, Prod.exists] at h
    obtain ⟨a, r, ha, b, s, hb, rfl, rfl⟩ := h
    obtain ⟨hfa, rfl⟩ := of_deserialize ha
    obtain ⟨hfb, rfl⟩ := of_deserialize hb
    exact ⟨⟨hfa, hfb⟩, by simp⟩

/-! ### Sequences -/

/-- The elements one after another, without a length. -/
def serializeAll [Borsh α] : List α → Bytes
  | [] => []
  | a :: as => serialize a ++ serializeAll as

/-- Reads `n` elements. -/
def deserializeN (α : Type) [Borsh α] : Nat → Bytes → Option (List α × Bytes)
  | 0, bs => some ([], bs)
  | n + 1, bs => (deserialize bs : Option (α × Bytes)).bind fun p =>
    (deserializeN α n p.2).map fun q => (p.1 :: q.1, q.2)

theorem deserializeN_serializeAll [Borsh α] (as : List α) (rest : Bytes)
    (h : ∀ a ∈ as, Fits a) :
    deserializeN α as.length (serializeAll as ++ rest) = some (as, rest) := by
  induction as with
  | nil => rfl
  | cons a as ih =>
    have ha := deserialize_serialize a (serializeAll as ++ rest) (h a List.mem_cons_self)
    have has := ih fun b hb => h b (List.mem_cons_of_mem _ hb)
    simp [serializeAll, deserializeN, ha, has]

theorem of_deserializeN [Borsh α] {n : Nat} {bs rest : Bytes} {as : List α}
    (h : deserializeN α n bs = some (as, rest)) :
    as.length = n ∧ (∀ a ∈ as, Fits a) ∧ bs = serializeAll as ++ rest := by
  induction n generalizing bs as with
  | zero =>
    cases h
    exact ⟨rfl, fun a ha => absurd ha List.not_mem_nil, rfl⟩
  | succ n ih =>
    simp only [deserializeN, Option.bind_eq_some_iff, Option.map_eq_some_iff, Prod.mk.injEq,
      Prod.exists] at h
    obtain ⟨a, r, ha, as', s, has, rfl, rfl⟩ := h
    obtain ⟨hfa, rfl⟩ := of_deserialize ha
    obtain ⟨hlen, hfas, rfl⟩ := ih has
    refine ⟨by simp [hlen], ?_, by simp [serializeAll]⟩
    intro b hb
    rcases List.mem_cons.mp hb with rfl | hb
    · exact hfa
    · exact hfas b hb

/-- A vector: its length in four bytes, then its elements. -/
instance [Borsh α] : Borsh (List α) where
  serialize as := serialize (UInt32.ofNat as.length) ++ serializeAll as
  deserialize bs := (deserialize bs : Option (UInt32 × Bytes)).bind fun p =>
    deserializeN α p.1.toNat p.2
  Fits as := as.length < 2 ^ 32 ∧ ∀ a ∈ as, Fits a
  deserialize_serialize as rest h := by
    have hlen : (UInt32.ofNat as.length).toNat = as.length := UInt32.toNat_ofNat_of_lt h.1
    rw [List.append_assoc, deserialize_serialize _ _ trivial]
    show deserializeN α (UInt32.ofNat as.length).toNat _ = _
    rw [hlen, deserializeN_serializeAll as rest h.2]
  of_deserialize := by
    intro bs as rest h
    simp only [Option.bind_eq_some_iff, Prod.exists] at h
    obtain ⟨n, r, hn, has⟩ := h
    obtain ⟨-, rfl⟩ := of_deserialize hn
    obtain ⟨hlen, hfas, rfl⟩ := of_deserializeN has
    refine ⟨⟨?_, hfas⟩, ?_⟩
    · rw [hlen]
      exact n.toNat_lt
    · rw [hlen, UInt32.ofNat_toNat, List.append_assoc]

/-- An array of fixed length: its elements, without a length. -/
instance [Borsh α] {n : Nat} : Borsh (Vector α n) where
  serialize v := serializeAll v.toList
  deserialize bs :=
    match deserializeN α n bs with
    | none => none
    | some (as, rest) =>
      if h : as.length = n then some (⟨as.toArray, by simpa using h⟩, rest) else none
  Fits v := ∀ a ∈ v.toList, Fits a
  deserialize_serialize v rest h := by
    have hv := deserializeN_serializeAll v.toList rest h
    rw [Vector.length_toList] at hv
    have hback : v.toList.toArray = v.toArray := by
      rw [← Vector.toArray_toList]
    rw [hv]
    simp [hback]
  of_deserialize := by
    intro bs v rest h
    split at h
    · cases h
    · rename_i as r has
      obtain ⟨hlen, hf, rfl⟩ := of_deserializeN has
      rw [dif_pos hlen] at h
      cases h
      exact ⟨by simpa using hf, by simp⟩

/-! ## 4. Lengths -/

@[simp] theorem serialize_u8_length (x : UInt8) : (serialize x).length = 1 := littleEndian_length _ _

@[simp] theorem serialize_u16_length (x : UInt16) : (serialize x).length = 2 := littleEndian_length _ _

@[simp] theorem serialize_u32_length (x : UInt32) : (serialize x).length = 4 := littleEndian_length _ _

@[simp] theorem serialize_u64_length (x : UInt64) : (serialize x).length = 8 := littleEndian_length _ _

@[simp] theorem serialize_i64_length (x : Int64) : (serialize x).length = 8 := littleEndian_length _ _

@[simp] theorem serialize_bool_length (x : Bool) : (serialize x).length = 1 := rfl

@[simp] theorem serialize_prod_length [Borsh α] [Borsh β] (p : α × β) :
    (serialize p).length = (serialize p.1).length + (serialize p.2).length :=
  List.length_append

theorem serializeAll_length [Borsh α] {w : Nat} (hw : ∀ a : α, (serialize a).length = w)
    (as : List α) : (serializeAll as).length = w * as.length := by
  induction as with
  | nil => rfl
  | cons a as ih =>
    simp only [serializeAll, List.length_append, hw, ih, List.length_cons]
    ring

/-- A vector of elements of one width takes four bytes and that many widths. -/
theorem serialize_list_length [Borsh α] {w : Nat} (hw : ∀ a : α, (serialize a).length = w)
    (as : List α) : (serialize as).length = 4 + w * as.length := by
  show (serialize (UInt32.ofNat as.length) ++ serializeAll as).length = _
  rw [List.length_append, serialize_u32_length, serializeAll_length hw]

theorem serialize_vector_length [Borsh α] {n w : Nat} (hw : ∀ a : α, (serialize a).length = w)
    (v : Vector α n) : (serialize v).length = w * n := by
  show (serializeAll v.toList).length = _
  rw [serializeAll_length hw, Vector.length_toList]

/-- Byte vectors shorter than `2 ^ 32` fit. -/
theorem fits_bytes {bs : Bytes} (h : bs.length < 2 ^ 32) : Fits bs :=
  ⟨h, fun _ _ => trivial⟩

/-! ## 5. Writing into a buffer -/

/-- `serialize(&mut &mut buf[..])`: the bytes go to the front of the buffer, which keeps its
    length; `none` when they do not fit. -/
def overwrite (buf bytes : Bytes) : Option Bytes :=
  if bytes.length ≤ buf.length then some (bytes ++ buf.drop bytes.length) else none

/-- A buffer of exactly the right length is replaced. -/
theorem overwrite_of_length_eq {buf bytes : Bytes} (h : bytes.length = buf.length) :
    overwrite buf bytes = some bytes := by
  simp [overwrite, h]

end Borsh

end Lib
